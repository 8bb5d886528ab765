import KeemashCore.LittleEndian.Field
import KeemashCore.Mesh.Send

/-!
# Packets as bytes

The packed records of `keemash_mesh_proto.h`, the CRC, `packet_valid` and the part of
`keemash_rel_handle_rx` that stands between the received bytes and the packet handlers.
A packet that the sending side builds is read back as it was put together.
-/

namespace KeemashCore.Rel

open LittleEndian

/-! ## The packet header -/

def meshPktMagic : BitVec 8 := 0xA5#8

def meshPktVersionV2 : BitVec 8 := 2#8

/-- `sizeof(mesh_v2_hdr_t)`. -/
def hdrSize : ℕ := 26

/-- `MESH_V2_PAYLOAD_MAX`. -/
def payloadMax : ℕ := 192

/-- `mesh_v2_hdr_t`. -/
structure WireHdr where
  magic : BitVec 8
  version : BitVec 8
  type : BitVec 8
  flags : BitVec 8
  sessionId : U32
  seq : U32
  ackSeq : U32
  payloadLen : BitVec 16
  srcMac : Mac
  crc16 : BitVec 16
  deriving DecidableEq, Repr

/-- The header at the start of a packet. -/
def WireHdr.read (packet : List UInt8) : WireHdr where
  magic := wordAt 1 packet 0
  version := wordAt 1 packet 1
  type := wordAt 1 packet 2
  flags := wordAt 1 packet 3
  sessionId := wordAt 4 packet 4
  seq := wordAt 4 packet 8
  ackSeq := wordAt 4 packet 12
  payloadLen := wordAt 2 packet 16
  srcMac := wordAt 6 packet 18
  crc16 := wordAt 2 packet 24

/-- The bytes of a header. -/
def WireHdr.bytes (h : WireHdr) : List UInt8 :=
  toLeBytes 1 h.magic ++ (toLeBytes 1 h.version ++ (toLeBytes 1 h.type ++
    (toLeBytes 1 h.flags ++ (toLeBytes 4 h.sessionId ++ (toLeBytes 4 h.seq ++
      (toLeBytes 4 h.ackSeq ++ (toLeBytes 2 h.payloadLen ++ (toLeBytes 6 h.srcMac ++
        toLeBytes 2 h.crc16))))))))

theorem WireHdr.length_bytes (h : WireHdr) : h.bytes.length = hdrSize := by
  simp only [WireHdr.bytes, List.length_append, length_toLeBytes, hdrSize]

theorem WireHdr.read_bytes (h : WireHdr) (payload : List UInt8) :
    WireHdr.read (h.bytes ++ payload) = h := by
  simp only [WireHdr.read, WireHdr.bytes, List.append_assoc]
  simp [wordAt_append, wordAt_toLeBytes_append]

/-! ## The CRC -/

/-- One bit of the loop of `crc16_update`. -/
def crc16Bit (crc : BitVec 16) : BitVec 16 :=
  if crc &&& 0x8000#16 ≠ 0 then (crc <<< 1) ^^^ 0x1021#16 else crc <<< 1

/-- One byte of the loop of `crc16_update`. -/
def crc16Byte (crc : BitVec 16) (byte : UInt8) : BitVec 16 :=
  Nat.iterate crc16Bit 8 (crc ^^^ (byte.toBitVec.setWidth 16 <<< 8))

/-- `crc16_update`. -/
def crc16Update (crc : BitVec 16) (data : List UInt8) : BitVec 16 :=
  data.foldl crc16Byte crc

/-- `packet_crc`. -/
def packetCrc (h : WireHdr) (payload : List UInt8) : BitVec 16 :=
  crc16Update (crc16Update 0xFFFF#16 { h with crc16 := 0 }.bytes)
    (payload.take h.payloadLen.toNat)

/-- `packet_valid`: the header and the payload of a packet that is accepted. -/
def packetValid (packet : List UInt8) : Option (WireHdr × List UInt8) :=
  if packet.length < hdrSize then none
  else
    let h := WireHdr.read packet
    if h.magic ≠ meshPktMagic ∨ h.version ≠ meshPktVersionV2 ∨
        h.payloadLen.toNat > payloadMax ∨
        packet.length ≠ hdrSize + h.payloadLen.toNat then none
    else
      let payload := packet.drop hdrSize
      if packetCrc h payload ≠ h.crc16 then none else some (h, payload)

/-- The header that `send_packet` and `keemash_rel_submit` write, without the CRC. -/
def plainHdr (localMac : Mac) (type : BitVec 8) (sessionId : U32) (payloadLen : ℕ) :
    WireHdr where
  magic := meshPktMagic
  version := meshPktVersionV2
  type := type
  flags := 0
  sessionId := sessionId
  seq := 0
  ackSeq := 0
  payloadLen := BitVec.ofNat 16 payloadLen
  srcMac := localMac
  crc16 := 0

/-- The packet with its CRC. -/
def buildPacket (localMac : Mac) (type : BitVec 8) (sessionId : U32)
    (payload : List UInt8) : List UInt8 :=
  let h := plainHdr localMac type sessionId payload.length
  { h with crc16 := packetCrc h payload }.bytes ++ payload

/-- What was built is accepted, with the header fields and the payload put in. -/
theorem packetValid_buildPacket (localMac : Mac) (type : BitVec 8) (sessionId : U32)
    {payload : List UInt8} (hlen : payload.length ≤ payloadMax) :
    packetValid (buildPacket localMac type sessionId payload) =
      some ({ plainHdr localMac type sessionId payload.length with
        crc16 := packetCrc (plainHdr localMac type sessionId payload.length) payload },
        payload) := by
  have hmax : payloadMax = 192 := rfl
  rw [packetValid, buildPacket]
  simp only [WireHdr.read_bytes, List.length_append, WireHdr.length_bytes]
  rw [if_neg (by omega), if_neg, List.drop_left' (WireHdr.length_bytes _)]
  · exact if_neg fun h => h rfl
  · simp [plainHdr]
    omega

/-! ## Payload records -/

/-- `sizeof(mesh_v2_reliable_hdr_t)`. -/
def reliableHdrSize : ℕ := 40

/-- `sizeof(mesh_v2_reliable_hello_payload_t)`. -/
def helloSize : ℕ := 40

/-- `sizeof(mesh_v2_reliable_hello_ack_payload_t)`. -/
def helloAckSize : ℕ := 20

/-- `sizeof(mesh_v2_reliable_ack_payload_t)`. -/
def ackSize : ℕ := 40

/-- `sizeof(mesh_v2_reliable_lost_payload_t)`. -/
def lostSize : ℕ := 32

def HelloPayload.read (payload : List UInt8) : HelloPayload where
  profileVersion := (wordAt 2 payload 20).toNat
  mtu := (wordAt 2 payload 22).toNat
  txSlots := (wordAt 2 payload 24).toNat
  reorderWindow := (wordAt 2 payload 26).toNat
  capabilities := wordAt 4 payload 28
  nodeSessionId := wordAt 4 payload 32
  rootSessionSeen := wordAt 4 payload 36

def HelloAckPayload.read (payload : List UInt8) : HelloAckPayload where
  profileVersion := (wordAt 2 payload 0).toNat
  mtu := (wordAt 2 payload 2).toNat
  capabilities := wordAt 4 payload 4
  rootSessionId := wordAt 4 payload 8
  nodeSessionId := wordAt 4 payload 12
  resetLink := wordAt 1 payload 16 != 0

def ReliableHdr.read (payload : List UInt8) : ReliableHdr where
  channelId := (wordAt 1 payload 0).toNat
  flags := wordAt 1 payload 1
  priority := (wordAt 1 payload 2).toNat
  fragmentCount := (wordAt 1 payload 3).toNat
  payloadLen := (wordAt 2 payload 4).toNat
  fragmentIndex := (wordAt 2 payload 6).toNat
  streamId := wordAt 4 payload 8
  seq := wordAt 4 payload 12
  txMs := wordAt 4 payload 16
  rootSessionId := wordAt 4 payload 20
  nodeSessionId := wordAt 4 payload 24
  originMac := wordAt 6 payload 28
  targetMac := wordAt 6 payload 34

def AckPayload.read (payload : List UInt8) : AckPayload where
  channelId := (wordAt 1 payload 0).toNat
  rootSessionId := wordAt 4 payload 4
  nodeSessionId := wordAt 4 payload 8
  ackSeq := wordAt 4 payload 12
  sackBitmap := wordAt 4 payload 16
  nackSeq := wordAt 4 payload 20
  echoTxMs := wordAt 4 payload 24
  originMac := wordAt 6 payload 28
  targetMac := wordAt 6 payload 34

/-- The reason with a given code. -/
def LostReason.ofCode (code : BitVec 8) : LostReason :=
  if code = 1 then .overflow
  else if code = 2 then .sessionReset
  else if code = 3 then .retryExhausted
  else if code = 4 then .fragmentTimeout
  else if code = 5 then .routeTimeout
  else .other code

def LostPayload.read (payload : List UInt8) : LostPayload where
  channelId := (wordAt 1 payload 0).toNat
  reason := LostReason.ofCode (wordAt 1 payload 1)
  rsv := wordAt 2 payload 2
  rootSessionId := wordAt 4 payload 4
  nodeSessionId := wordAt 4 payload 8
  seqFirst := wordAt 4 payload 12
  seqLast := wordAt 4 payload 16
  originMac := wordAt 6 payload 20
  targetMac := wordAt 6 payload 26

def ReliableHdr.bytes (rh : ReliableHdr) : List UInt8 :=
  toLeBytes 1 (BitVec.ofNat 8 rh.channelId) ++ (toLeBytes 1 rh.flags ++
    (toLeBytes 1 (BitVec.ofNat 8 rh.priority) ++
      (toLeBytes 1 (BitVec.ofNat 8 rh.fragmentCount) ++
        (toLeBytes 2 (BitVec.ofNat 16 rh.payloadLen) ++
          (toLeBytes 2 (BitVec.ofNat 16 rh.fragmentIndex) ++ (toLeBytes 4 rh.streamId ++
            (toLeBytes 4 rh.seq ++ (toLeBytes 4 rh.txMs ++ (toLeBytes 4 rh.rootSessionId ++
              (toLeBytes 4 rh.nodeSessionId ++ (toLeBytes 6 rh.originMac ++
                toLeBytes 6 rh.targetMac)))))))))))

theorem ReliableHdr.length_bytes (rh : ReliableHdr) : rh.bytes.length = reliableHdrSize := by
  simp only [ReliableHdr.bytes, List.length_append, length_toLeBytes, reliableHdrSize]

/-- The numbers of a reliable header fit in their fields. -/
structure ReliableHdr.Encodable (rh : ReliableHdr) : Prop where
  channel : rh.channelId < 2 ^ 8
  priority : rh.priority < 2 ^ 8
  count : rh.fragmentCount < 2 ^ 8
  length : rh.payloadLen < 2 ^ 16
  index : rh.fragmentIndex < 2 ^ 16

theorem ReliableHdr.read_bytes {rh : ReliableHdr} (h : rh.Encodable) (payload : List UInt8) :
    ReliableHdr.read (rh.bytes ++ payload) = rh := by
  have hchannel : rh.channelId % 256 = rh.channelId := Nat.mod_eq_of_lt h.channel
  have hpriority : rh.priority % 256 = rh.priority := Nat.mod_eq_of_lt h.priority
  have hcount : rh.fragmentCount % 256 = rh.fragmentCount := Nat.mod_eq_of_lt h.count
  have hlength : rh.payloadLen % 65536 = rh.payloadLen := Nat.mod_eq_of_lt h.length
  have hindex : rh.fragmentIndex % 65536 = rh.fragmentIndex := Nat.mod_eq_of_lt h.index
  simp only [ReliableHdr.read, ReliableHdr.bytes, List.append_assoc]
  simp [wordAt_append, wordAt_toLeBytes_append, hchannel, hpriority, hcount, hlength, hindex]

/-! ## Receiving bytes -/

def typeReliableHello : BitVec 8 := 56#8

def typeReliableHelloAck : BitVec 8 := 57#8

def typeReliableData : BitVec 8 := 58#8

def typeReliableAck : BitVec 8 := 59#8

def typeReliableNack : BitVec 8 := 60#8

def typeReliableLost : BitVec 8 := 61#8

/-- A payload record that needs `size` bytes. -/
def sizedBody (size : ℕ) (payload : List UInt8) (body : Body) : Except EspErr Body :=
  if payload.length < size then .error .invalidSize else .ok body

/-- The switch on the packet type in `keemash_rel_handle_rx`, with the size checks. -/
def readBody (type : BitVec 8) (payload : List UInt8) : Except EspErr Body :=
  if type = typeReliableHello then
    sizedBody helloSize payload (.hello (HelloPayload.read payload))
  else if type = typeReliableHelloAck then
    sizedBody helloAckSize payload (.helloAck (HelloAckPayload.read payload))
  else if type = typeReliableData then
    sizedBody reliableHdrSize payload
      (.data (ReliableHdr.read payload) (payload.drop reliableHdrSize))
  else if type = typeReliableAck then
    sizedBody ackSize payload (.ack (AckPayload.read payload))
  else if type = typeReliableNack then
    sizedBody ackSize payload (.nack (AckPayload.read payload))
  else if type = typeReliableLost then
    sizedBody lostSize payload (.lost (LostPayload.read payload))
  else .error .notSupported

/-- `keemash_rel_handle_rx`. -/
def handleRxBytes (c : Ctx) (src : Mac) (packet : List UInt8) (now : U32) : Ctx × EspErr :=
  match packetValid packet with
  | none => (c, .invalidCrc)
  | some (h, payload) =>
      if h.srcMac ≠ src then (c, .invalidArg)
      else
        match readBody h.type payload with
        | .error err => (c, err)
        | .ok body =>
            handleRx c src { sessionId := h.sessionId, srcMac := h.srcMac, body := body } now

/-- A byte string is rejected before the handlers, or is a packet. -/
theorem handleRxBytes_cases (c : Ctx) (src : Mac) (packet : List UInt8) (now : U32) :
    (∃ err, handleRxBytes c src packet now = (c, err)) ∨
      ∃ p : Packet, p.srcMac = src ∧ handleRxBytes c src packet now = handleRx c src p now := by
  rw [handleRxBytes]
  split
  · exact .inl ⟨_, rfl⟩
  · next h payload _ =>
      split
      · exact .inl ⟨_, rfl⟩
      · next hmac =>
          split
          · exact .inl ⟨_, rfl⟩
          · exact .inr ⟨_, not_not.mp hmac, rfl⟩

/-- The bytes of a tx slot. -/
def TxSlot.bytes (cfg : RelConfig) (slot : TxSlot) : List UInt8 :=
  buildPacket cfg.localMac typeReliableData slot.sessionId (slot.rh.bytes ++ slot.payload)

/-- The bytes of a tx slot are a valid packet that holds the frame of the slot. -/
theorem readBody_bytes {slot : TxSlot} (hrh : slot.rh.Encodable)
    (hlen : slot.payload.length ≤ reliableInnerMax) (cfg : RelConfig) :
    ∃ h bytes, packetValid (slot.bytes cfg) = some (h, bytes) ∧ h.srcMac = cfg.localMac ∧
      h.sessionId = slot.sessionId ∧ readBody h.type bytes = .ok (.data slot.rh slot.payload) := by
  have hmax : reliableInnerMax = 152 := rfl
  have hsize : (slot.rh.bytes ++ slot.payload).length ≤ payloadMax := by
    rw [List.length_append, ReliableHdr.length_bytes]
    have h40 : reliableHdrSize = 40 := rfl
    have h192 : payloadMax = 192 := rfl
    omega
  refine ⟨_, _, packetValid_buildPacket _ _ _ hsize, rfl, rfl, ?_⟩
  have htype : (plainHdr cfg.localMac typeReliableData slot.sessionId
      (slot.rh.bytes ++ slot.payload).length).type = typeReliableData := rfl
  rw [htype, readBody, if_neg (by decide), if_neg (by decide), if_pos rfl, sizedBody,
    ReliableHdr.read_bytes hrh, List.drop_left' (ReliableHdr.length_bytes _), if_neg]
  rw [List.length_append, ReliableHdr.length_bytes]
  omega

/-- The receiver reads from the bytes of a tx slot the packet that the slot holds. -/
theorem handleRxBytes_bytes {cfg : RelConfig} {slot : TxSlot} (hrh : slot.rh.Encodable)
    (hlen : slot.payload.length ≤ reliableInnerMax) (c : Ctx) (now : U32) :
    handleRxBytes c cfg.localMac (slot.bytes cfg) now =
      handleRx c cfg.localMac (slot.packet cfg) now := by
  obtain ⟨h, bytes, hvalid, hmac, hsession, hbody⟩ := readBody_bytes hrh hlen cfg
  rw [handleRxBytes, hvalid]
  simp only [hbody, hmac, hsession]
  exact if_neg fun h => h rfl

end KeemashCore.Rel

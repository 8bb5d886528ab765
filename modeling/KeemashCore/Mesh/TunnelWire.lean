import KeemashCore.Mesh.Validators

/-!
# Packets of the tunnel profile

Before the reliable profile a node and its root exchanged numbered tunnel frames that are
kept in a ring for replay.  This file has the packed records of that profile, the packets
they are sent in, the change that marks a packet as a replay, and the decision that every
receive path of the profile takes about a number.
-/

namespace KeemashCore.Tunnel

open LittleEndian Rel

/-! ## Constants -/

/-- `MESH_V2_TUNNEL_CHANNEL_MAX`. -/
def tunnelChannelMax : ℕ := 9

/-- `MESH_V2_TUNNEL_CHANNEL_*`. -/
def channelNodeinfo : ℕ := 1
def channelLog : ℕ := 2
def channelControl : ℕ := 3
def channelTask : ℕ := 4
def channelTopology : ℕ := 6

/-- `MESH_V2_TUNNEL_INNER_MAX`. -/
def tunnelInnerMax : ℕ := 156

/-- `MESH_V2_TUNNEL_REPLAY_RING_SIZE`. -/
def tunnelReplayRingSize : ℕ := 8

/-- `MESH_V2_REPLAY_RING_SIZE`. -/
def replayRingSize : ℕ := 32

def tunnelTtlDefault : BitVec 8 := 8#8

/-- `MESH_V2_FLAG_REPLAY` and `MESH_V2_TUNNEL_FLAG_REPLAY`. -/
def replayFlag : BitVec 8 := 0x01#8

/-- `MESH_V2_TUNNEL_FLAG_E2E_ACK | MESH_V2_TUNNEL_FLAG_HOP_ACK`. -/
def ackFlags : BitVec 8 := 0x02#8 ||| 0x04#8

/-- `MESH_V2_TYPE_*` of the profile. -/
def typeHello : BitVec 8 := 32#8
def typeAck : BitVec 8 := 33#8
def typeNack : BitVec 8 := 34#8
def typeNodeinfo : BitVec 8 := 35#8
def typeLogLine : BitVec 8 := 36#8
def typeLost : BitVec 8 := 37#8
def typePing : BitVec 8 := 44#8
def typePong : BitVec 8 := 45#8
def typeTunnelData : BitVec 8 := 52#8
def typeTunnelAck : BitVec 8 := 53#8
def typeTunnelNack : BitVec 8 := 54#8
def typeTunnelLost : BitVec 8 := 55#8

/-! ## Payload records -/

/-- `sizeof(mesh_v2_tunnel_hdr_t)`. -/
def tunnelHdrSize : ℕ := 36

/-- `mesh_v2_tunnel_hdr_t`. -/
structure TunnelHdr where
  channelId : BitVec 8
  flags : BitVec 8
  ttl : BitVec 8
  fragmentCount : BitVec 8
  payloadLen : BitVec 16
  fragmentIndex : BitVec 16
  streamId : U32
  seq : U32
  ackSeq : U32
  sackBitmap : U32
  originMac : Mac
  targetMac : Mac
  deriving DecidableEq, Repr

def TunnelHdr.read (payload : List UInt8) : TunnelHdr where
  channelId := wordAt 1 payload 0
  flags := wordAt 1 payload 1
  ttl := wordAt 1 payload 2
  fragmentCount := wordAt 1 payload 3
  payloadLen := wordAt 2 payload 4
  fragmentIndex := wordAt 2 payload 6
  streamId := wordAt 4 payload 8
  seq := wordAt 4 payload 12
  ackSeq := wordAt 4 payload 16
  sackBitmap := wordAt 4 payload 20
  originMac := wordAt 6 payload 24
  targetMac := wordAt 6 payload 30

def TunnelHdr.bytes (t : TunnelHdr) : List UInt8 :=
  toLeBytes 1 t.channelId ++ (toLeBytes 1 t.flags ++ (toLeBytes 1 t.ttl ++
    (toLeBytes 1 t.fragmentCount ++ (toLeBytes 2 t.payloadLen ++
      (toLeBytes 2 t.fragmentIndex ++ (toLeBytes 4 t.streamId ++ (toLeBytes 4 t.seq ++
        (toLeBytes 4 t.ackSeq ++ (toLeBytes 4 t.sackBitmap ++ (toLeBytes 6 t.originMac ++
          toLeBytes 6 t.targetMac))))))))))

@[simp] theorem TunnelHdr.length_bytes (t : TunnelHdr) : t.bytes.length = tunnelHdrSize := by
  simp only [TunnelHdr.bytes, List.length_append, length_toLeBytes, tunnelHdrSize]

@[simp] theorem TunnelHdr.read_bytes (t : TunnelHdr) (inner : List UInt8) :
    TunnelHdr.read (t.bytes ++ inner) = t := by
  simp only [TunnelHdr.read, TunnelHdr.bytes, List.append_assoc]
  simp [wordAt_append, wordAt_toLeBytes_append]

/-- `sizeof(mesh_v2_tunnel_ack_payload_t)`. -/
def tunnelAckSize : ℕ := 28

/-- `mesh_v2_tunnel_ack_payload_t`. -/
structure TunnelAck where
  channelId : BitVec 8
  flags : BitVec 8
  seq : U32
  ackSeq : U32
  sackBitmap : U32
  originMac : Mac
  targetMac : Mac
  deriving DecidableEq, Repr

def TunnelAck.read (payload : List UInt8) : TunnelAck where
  channelId := wordAt 1 payload 0
  flags := wordAt 1 payload 1
  seq := wordAt 4 payload 4
  ackSeq := wordAt 4 payload 8
  sackBitmap := wordAt 4 payload 12
  originMac := wordAt 6 payload 16
  targetMac := wordAt 6 payload 22

def TunnelAck.bytes (p : TunnelAck) : List UInt8 :=
  toLeBytes 1 p.channelId ++ (toLeBytes 1 p.flags ++ ([0, 0] ++ (toLeBytes 4 p.seq ++
    (toLeBytes 4 p.ackSeq ++ (toLeBytes 4 p.sackBitmap ++ (toLeBytes 6 p.originMac ++
      toLeBytes 6 p.targetMac))))))

theorem TunnelAck.length_bytes (p : TunnelAck) : p.bytes.length = tunnelAckSize := by
  simp only [TunnelAck.bytes, List.length_append, length_toLeBytes, tunnelAckSize]
  rfl

theorem TunnelAck.read_bytes (p : TunnelAck) : TunnelAck.read p.bytes = p := by
  rw [← List.append_nil p.bytes]
  simp only [TunnelAck.read, TunnelAck.bytes, List.append_assoc]
  simp only [wordAt_append, wordAt_toLeBytes_append, length_toLeBytes, List.length_cons,
    List.length_nil, Nat.reduceAdd, Nat.reduceSub, Nat.reduceLeDiff]

/-- `sizeof(mesh_v2_tunnel_nack_payload_t)`, also that of
`mesh_v2_tunnel_lost_payload_t`. -/
def tunnelMissSize : ℕ := 20

/-- `mesh_v2_tunnel_nack_payload_t` and `mesh_v2_tunnel_lost_payload_t`. -/
structure TunnelMiss where
  channelId : BitVec 8
  missingSeq : U32
  originMac : Mac
  targetMac : Mac
  deriving DecidableEq, Repr

def TunnelMiss.read (payload : List UInt8) : TunnelMiss where
  channelId := wordAt 1 payload 0
  missingSeq := wordAt 4 payload 4
  originMac := wordAt 6 payload 8
  targetMac := wordAt 6 payload 14

def TunnelMiss.bytes (p : TunnelMiss) : List UInt8 :=
  toLeBytes 1 p.channelId ++ ([0, 0, 0] ++ (toLeBytes 4 p.missingSeq ++
    (toLeBytes 6 p.originMac ++ toLeBytes 6 p.targetMac)))

theorem TunnelMiss.length_bytes (p : TunnelMiss) : p.bytes.length = tunnelMissSize := by
  simp only [TunnelMiss.bytes, List.length_append, length_toLeBytes, tunnelMissSize]
  rfl

theorem TunnelMiss.read_bytes (p : TunnelMiss) : TunnelMiss.read p.bytes = p := by
  rw [← List.append_nil p.bytes]
  simp only [TunnelMiss.read, TunnelMiss.bytes, List.append_assoc]
  simp only [wordAt_append, wordAt_toLeBytes_append, length_toLeBytes, List.length_cons,
    List.length_nil, Nat.reduceAdd, Nat.reduceSub, Nat.reduceLeDiff]

/-! ## Packets -/

/-- A packet with its CRC. -/
def sealPacket (h : WireHdr) (payload : List UInt8) : List UInt8 :=
  { h with crc16 := packetCrc h payload }.bytes ++ payload

/-- The header fits the payload behind it. -/
structure Fits (h : WireHdr) (payload : List UInt8) : Prop where
  magic : h.magic = meshPktMagic
  version : h.version = meshPktVersionV2
  length : payload.length = h.payloadLen.toNat
  max : payload.length ≤ payloadMax

@[simp] theorem read_sealPacket (h : WireHdr) (payload : List UInt8) :
    WireHdr.read (sealPacket h payload) = { h with crc16 := packetCrc h payload } :=
  WireHdr.read_bytes _ payload

@[simp] theorem drop_sealPacket (h : WireHdr) (payload : List UInt8) :
    (sealPacket h payload).drop hdrSize = payload :=
  List.drop_left' (WireHdr.length_bytes _)

/-- A packet with its CRC is accepted as it was put together. -/
theorem packetValid_sealPacket {h : WireHdr} {payload : List UInt8} (hfits : Fits h payload) :
    packetValid (sealPacket h payload) =
      some ({ h with crc16 := packetCrc h payload }, payload) := by
  have hhdr : hdrSize = 26 := rfl
  have hlen : (sealPacket h payload).length = hdrSize + payload.length := by
    rw [sealPacket, List.length_append, WireHdr.length_bytes]
  obtain ⟨hmagic, hversion, hlength, hmax⟩ := hfits
  rw [packetValid, hlen, read_sealPacket, drop_sealPacket]
  rw [if_neg (by omega), if_neg]
  · exact if_neg fun h => h rfl
  · push Not
    exact ⟨hmagic, hversion, hlength ▸ hmax, congrArg _ hlength⟩

/-- A packet of `send_packet` or `send_packet_to_mac`. -/
def packetHdr (localMac : Mac) (type : BitVec 8) (sessionId seq ackSeq : U32)
    (payloadLen : ℕ) : WireHdr :=
  { plainHdr localMac type sessionId payloadLen with seq := seq, ackSeq := ackSeq }

theorem fits_packetHdr (localMac : Mac) (type : BitVec 8) (sessionId seq ackSeq : U32)
    {payload : List UInt8} (h : payload.length ≤ payloadMax) :
    Fits (packetHdr localMac type sessionId seq ackSeq payload.length) payload where
  magic := rfl
  version := rfl
  length := by
    have hmax : payloadMax = 192 := rfl
    change payload.length = (BitVec.ofNat 16 payload.length).toNat
    rw [BitVec.toNat_ofNat, Nat.mod_eq_of_lt (by omega)]
  max := h

/-- `handle_nack`: the packet is marked where it lies. -/
def replayPacket (packet : List UInt8) : List UInt8 :=
  let h := WireHdr.read packet
  sealPacket { h with flags := h.flags ||| replayFlag } (packet.drop hdrSize)

/-- `handle_tunnel_nack`: the tunnel frame is marked where it lies. -/
def replayTunnelPacket (packet : List UInt8) : List UInt8 :=
  let payload := packet.drop hdrSize
  let t := TunnelHdr.read payload
  sealPacket (WireHdr.read packet)
    ({ t with flags := t.flags ||| replayFlag }.bytes ++ payload.drop tunnelHdrSize)

/-- The CRC is taken with its own field at zero. -/
theorem sealPacket_crc16 (h : WireHdr) (crc : BitVec 16) (payload : List UInt8) :
    sealPacket { h with crc16 := crc } payload = sealPacket h payload :=
  rfl

theorem replayTunnelPacket_sealPacket (h : WireHdr) (t : TunnelHdr) (inner : List UInt8) :
    replayTunnelPacket (sealPacket h (t.bytes ++ inner)) =
      sealPacket h ({ t with flags := t.flags ||| replayFlag }.bytes ++ inner) := by
  simp only [replayTunnelPacket, drop_sealPacket, read_sealPacket, TunnelHdr.read_bytes,
    List.drop_left' (TunnelHdr.length_bytes t)]
  rfl

/-! ## The decision about a number -/

/-- What a receive path makes of a frame. -/
structure Verdict where
  expectedSeq : U32
  highestSeenSeq : U32
  deliver : Bool
  sendNack : Bool
  ackSeq : U32
  missingSeq : U32
  deriving DecidableEq, Repr

/-- The decision in `handle_tunnel_data` of both ends and in `handle_reliable_legacy_v2`.
The comparisons are those of `uint32_t`, and a frame that is not expected is not kept. -/
def judge (expectedSeq highestSeenSeq seq : U32) : Verdict :=
  let highestSeenSeq := if seq > highestSeenSeq then seq else highestSeenSeq
  if seq = expectedSeq then
    let sendNack := decide (expectedSeq + 1 ≤ highestSeenSeq)
    { expectedSeq := expectedSeq + 1
      highestSeenSeq := highestSeenSeq
      deliver := true
      sendNack := sendNack
      ackSeq := seq
      missingSeq := if sendNack then expectedSeq + 1 else 0 }
  else if seq < expectedSeq then
    { expectedSeq := expectedSeq
      highestSeenSeq := highestSeenSeq
      deliver := false
      sendNack := false
      ackSeq := expectedSeq - 1
      missingSeq := 0 }
  else
    { expectedSeq := expectedSeq
      highestSeenSeq := highestSeenSeq
      deliver := false
      sendNack := true
      ackSeq := if expectedSeq ≠ 0 then expectedSeq - 1 else 0
      missingSeq := expectedSeq }

/-- The number expected after the sender gave a number up, in `handle_lost` and
`handle_tunnel_lost` of the root. -/
def skipLost (expectedSeq highestSeenSeq missingSeq : U32) : U32 :=
  if missingSeq = expectedSeq then
    if highestSeenSeq ≥ missingSeq then highestSeenSeq + 1 else missingSeq + 1
  else expectedSeq

end KeemashCore.Tunnel

import KeemashCore.Mesh.Packet

/-!
# Checked accesses

`keemash_rel_handle_rx` once more, with every read of a packet, every access to an array
or a buffer and every shift made through a check: a function of this module gives nothing
where the source would leave the object it reads or writes.

The loops of the source over whole tables stay inside them by their bounds, and
`clear_peer_buffers` tests the channel of a slot itself before it uses it as an index.
-/

namespace KeemashCore.Rel

open SlotTable LittleEndian

/-! ## Records in a packet -/

def WireHdr.read? (packet : List UInt8) : Option WireHdr := do
  let magic ← wordAt? 1 packet 0
  let version ← wordAt? 1 packet 1
  let type ← wordAt? 1 packet 2
  let flags ← wordAt? 1 packet 3
  let sessionId ← wordAt? 4 packet 4
  let seq ← wordAt? 4 packet 8
  let ackSeq ← wordAt? 4 packet 12
  let payloadLen ← wordAt? 2 packet 16
  let srcMac ← wordAt? 6 packet 18
  let crc16 ← wordAt? 2 packet 24
  some
    { magic := magic
      version := version
      type := type
      flags := flags
      sessionId := sessionId
      seq := seq
      ackSeq := ackSeq
      payloadLen := payloadLen
      srcMac := srcMac
      crc16 := crc16 }

def HelloPayload.read? (payload : List UInt8) : Option HelloPayload := do
  let profileVersion ← wordAt? 2 payload 20
  let mtu ← wordAt? 2 payload 22
  let txSlots ← wordAt? 2 payload 24
  let reorderWindow ← wordAt? 2 payload 26
  let capabilities ← wordAt? 4 payload 28
  let nodeSessionId ← wordAt? 4 payload 32
  let rootSessionSeen ← wordAt? 4 payload 36
  some
    { profileVersion := profileVersion.toNat
      mtu := mtu.toNat
      txSlots := txSlots.toNat
      reorderWindow := reorderWindow.toNat
      capabilities := capabilities
      nodeSessionId := nodeSessionId
      rootSessionSeen := rootSessionSeen }

def HelloAckPayload.read? (payload : List UInt8) : Option HelloAckPayload := do
  let profileVersion ← wordAt? 2 payload 0
  let mtu ← wordAt? 2 payload 2
  let capabilities ← wordAt? 4 payload 4
  let rootSessionId ← wordAt? 4 payload 8
  let nodeSessionId ← wordAt? 4 payload 12
  let resetLink ← wordAt? 1 payload 16
  some
    { profileVersion := profileVersion.toNat
      mtu := mtu.toNat
      capabilities := capabilities
      rootSessionId := rootSessionId
      nodeSessionId := nodeSessionId
      resetLink := resetLink != 0 }

def ReliableHdr.read? (payload : List UInt8) : Option ReliableHdr := do
  let channelId ← wordAt? 1 payload 0
  let flags ← wordAt? 1 payload 1
  let priority ← wordAt? 1 payload 2
  let fragmentCount ← wordAt? 1 payload 3
  let payloadLen ← wordAt? 2 payload 4
  let fragmentIndex ← wordAt? 2 payload 6
  let streamId ← wordAt? 4 payload 8
  let seq ← wordAt? 4 payload 12
  let txMs ← wordAt? 4 payload 16
  let rootSessionId ← wordAt? 4 payload 20
  let nodeSessionId ← wordAt? 4 payload 24
  let originMac ← wordAt? 6 payload 28
  let targetMac ← wordAt? 6 payload 34
  some
    { channelId := channelId.toNat
      flags := flags
      priority := priority.toNat
      fragmentCount := fragmentCount.toNat
      payloadLen := payloadLen.toNat
      fragmentIndex := fragmentIndex.toNat
      streamId := streamId
      seq := seq
      txMs := txMs
      rootSessionId := rootSessionId
      nodeSessionId := nodeSessionId
      originMac := originMac
      targetMac := targetMac }

def AckPayload.read? (payload : List UInt8) : Option AckPayload := do
  let channelId ← wordAt? 1 payload 0
  let rootSessionId ← wordAt? 4 payload 4
  let nodeSessionId ← wordAt? 4 payload 8
  let ackSeq ← wordAt? 4 payload 12
  let sackBitmap ← wordAt? 4 payload 16
  let nackSeq ← wordAt? 4 payload 20
  let echoTxMs ← wordAt? 4 payload 24
  let originMac ← wordAt? 6 payload 28
  let targetMac ← wordAt? 6 payload 34
  some
    { channelId := channelId.toNat
      rootSessionId := rootSessionId
      nodeSessionId := nodeSessionId
      ackSeq := ackSeq
      sackBitmap := sackBitmap
      nackSeq := nackSeq
      echoTxMs := echoTxMs
      originMac := originMac
      targetMac := targetMac }

def LostPayload.read? (payload : List UInt8) : Option LostPayload := do
  let channelId ← wordAt? 1 payload 0
  let reason ← wordAt? 1 payload 1
  let rsv ← wordAt? 2 payload 2
  let rootSessionId ← wordAt? 4 payload 4
  let nodeSessionId ← wordAt? 4 payload 8
  let seqFirst ← wordAt? 4 payload 12
  let seqLast ← wordAt? 4 payload 16
  let originMac ← wordAt? 6 payload 20
  let targetMac ← wordAt? 6 payload 26
  some
    { channelId := channelId.toNat
      reason := LostReason.ofCode reason
      rsv := rsv
      rootSessionId := rootSessionId
      nodeSessionId := nodeSessionId
      seqFirst := seqFirst
      seqLast := seqLast
      originMac := originMac
      targetMac := targetMac }

/-- `packet_valid`. -/
def packetValid? (packet : List UInt8) : Option (Option (WireHdr × List UInt8)) :=
  if packet.length < hdrSize then some none
  else do
    let h ← WireHdr.read? packet
    if h.magic ≠ meshPktMagic ∨ h.version ≠ meshPktVersionV2 ∨
        h.payloadLen.toNat > payloadMax ∨
        packet.length ≠ hdrSize + h.payloadLen.toNat then some none
    else do
      -- `packet_crc` reads `payload_len` bytes behind the header
      let payload ← field? packet hdrSize h.payloadLen.toNat
      some (if packetCrc h payload ≠ h.crc16 then none else some (h, payload))

/-- A payload record that needs `size` bytes. -/
def sizedBody? (size : ℕ) (payload : List UInt8) (body : Option Body) :
    Option (Except EspErr Body) :=
  if payload.length < size then some (.error .invalidSize) else body.map .ok

/-- The switch on the packet type in `keemash_rel_handle_rx`. -/
def readBody? (type : BitVec 8) (payload : List UInt8) : Option (Except EspErr Body) :=
  if type = typeReliableHello then
    sizedBody? helloSize payload ((HelloPayload.read? payload).map .hello)
  else if type = typeReliableHelloAck then
    sizedBody? helloAckSize payload ((HelloAckPayload.read? payload).map .helloAck)
  else if type = typeReliableData then
    sizedBody? reliableHdrSize payload do
      let rh ← ReliableHdr.read? payload
      let inner ← field? payload reliableHdrSize (payload.length - reliableHdrSize)
      some (.data rh inner)
  else if type = typeReliableAck then
    sizedBody? ackSize payload ((AckPayload.read? payload).map .ack)
  else if type = typeReliableNack then
    sizedBody? ackSize payload ((AckPayload.read? payload).map .nack)
  else if type = typeReliableLost then
    sizedBody? lostSize payload ((LostPayload.read? payload).map .lost)
  else some (.error .notSupported)

/-! ## Arrays, buffers and shifts -/

/-- A read of `expected_seq[channel]`. -/
def Ctx.expected? (c : Ctx) (key : Mac) (channel : ℕ) : Option U32 :=
  if channel < channelCount then some ((c.peer key).expectedSeq channel) else none

/-- A write to `expected_seq[channel]`. -/
def Ctx.setExpected? (c : Ctx) (key : Mac) (channel : ℕ) (seq : U32) : Option Ctx :=
  if channel < channelCount then some (c.setExpected key channel seq) else none

/-- `memcpy` of the first `len` bytes of `source` to `offset` in `buffer`. -/
def copy? (buffer : List UInt8) (offset : ℕ) (source : List UInt8) (len : ℕ) :
    Option (List UInt8) :=
  if len ≤ source.length ∧ offset + len ≤ buffer.length then
    some (buffer.take offset ++ source.take len ++ buffer.drop (offset + len))
  else none

/-- `1 << n` in a word of `w` bits. -/
def shift? (w n : ℕ) : Option (BitVec w) :=
  if n < w then some (1#w <<< n) else none

/-- A write to `array[i]`. -/
def write? (array : List ℕ) (i value : ℕ) : Option (List ℕ) :=
  if i < array.length then some (array.set i value) else none

/-- A call of the deliver callback with the first `len` bytes of a buffer. -/
def deliver? (c : Ctx) (key : Mac) (channel : ℕ) (buffer : List UInt8) (len : ℕ)
    (streamId : U32) : Option Ctx :=
  if len ≤ buffer.length ∧ len ≤ messageMax then
    some (c.emit (.deliver key (c.peerSendMac key) channel (buffer.take len) streamId))
  else none

/-- `sizeof` of the payload that a body is sent as. -/
def Body.size : Body → ℕ
  | .hello _ => helloSize
  | .helloAck _ => helloAckSize
  | .data _ payload => reliableHdrSize + payload.length
  | .ack _ => ackSize
  | .nack _ => ackSize
  | .lost _ => lostSize

/-- `send_packet`, which puts the packet together in `MESH_V2_PACKET_MAX` bytes. -/
def sendPacket? (c : Ctx) (key : Mac) (sessionId : U32) (body : Body) :
    Option (Ctx × EspErr) :=
  if hdrSize + body.size ≤ packetMax then some (sendPacket c key sessionId body) else none

/-- `send_lost_packet`. -/
def sendLostPacket? (c : Ctx) (key : Mac) (channel : ℕ) (reason : LostReason)
    (flags : BitVec 16) (first last : U32) : Option (Ctx × EspErr) :=
  sendPacket? c key c.localSession
    (.lost (lostPayload c key channel reason flags first last))

/-! ## Reassembly -/

/-- The loop of `deliver_fragment` that adds up `fragment_len`. -/
def ReassemblySlot.total? (slot : ReassemblySlot) : Option ℕ :=
  (List.range slot.fragmentCount).foldlM
    (fun total i => (slot.fragmentLen[i]?).map (total + ·)) 0

/-- The stores of `deliver_fragment` into a slot. -/
def ReassemblySlot.store? (slot : ReassemblySlot) (rh : ReliableHdr)
    (payload : List UInt8) (now : U32) : Option ReassemblySlot := do
  let data ← copy? slot.data (rh.fragmentIndex * reliableInnerMax) payload rh.payloadLen
  let fragmentLen ← write? slot.fragmentLen rh.fragmentIndex rh.payloadLen
  let bit ← shift? 16 rh.fragmentIndex
  some
    { slot with
      data := data
      fragmentLen := fragmentLen
      receivedMask := slot.receivedMask ||| bit
      lastMs := now }

/-- `received_mask == complete`; the word that `complete` is computed in has 32 bits. -/
def ReassemblySlot.isComplete? (slot : ReassemblySlot) (fragmentCount : ℕ) : Option Bool :=
  (shift? 32 fragmentCount).map fun bit =>
    slot.receivedMask == (bit - 1#32).setWidth 16

/-- The rest of `deliver_fragment` once the slot is found. -/
def storeFragment? (c : Ctx) (key : Mac) (i : ℕ) (slot : ReassemblySlot)
    (rh : ReliableHdr) (payload : List UInt8) (now : U32) : Option Ctx := do
  let slot ← slot.store? rh payload now
  let complete ← slot.isComplete? rh.fragmentCount
  if complete then do
    let total ← slot.total?
    let c ← deliver? c key slot.channel slot.data total slot.streamId
    some (c.setReassembly (c.reassembly.set i none))
  else some (c.setReassembly (c.reassembly.set i (some slot)))

/-! ## The receive path -/

/-- `receiver_drop_range`. -/
def receiverDropRange? (consume? : Ctx → Option Ctx) (c : Ctx) (key : Mac)
    (channel : ℕ) (reason : LostReason) (first last : U32) : Option Ctx := do
  let c := forgetRange c key channel reason first last
  let expected ← c.expected? key channel
  if seqInRange expected first last then do
    let c ← c.setExpected? key channel (last + 1)
    let c ← consume? c
    let sent ← sendLostPacket? c key channel reason lostFlagReceiverDrop first last
    some sent.1
  else if seqBefore expected first then
    let added := pendingLostAdd channel (c.peer key).pendingLost first last
    let c := c.setPending key added.1
    if added.2 then do
      let sent ← sendLostPacket? c key channel reason lostFlagReceiverDrop first last
      some sent.1
    else some (clearPeerBuffers c key .overflow)
  else do
    let sent ← sendLostPacket? c key channel reason lostFlagReceiverDrop first last
    some sent.1

/-- `deliver_fragment`. -/
def deliverFragment? (consume? : Ctx → Option Ctx) (c : Ctx) (key : Mac)
    (rh : ReliableHdr) (payload : List UInt8) (now : U32) : Option Ctx :=
  let c := c.emit (.handOff key rh payload)
  if rh.fragmentCount ≤ 1 then
    deliver? c key rh.channelId payload rh.payloadLen rh.streamId
  else if rh.fragmentCount > reliableMaxFragments ∨
      rh.fragmentIndex ≥ rh.fragmentCount then some c
  else
    match reassemblyFind c key rh true now with
    | (c, none) =>
        receiverDropRange? consume? (reassemblyFailed c key rh) key rh.channelId
          .overflow rh.firstSeq rh.lastSeq
    | (c, some i) =>
        match entryAt c.reassembly i with
        | none => some c
        | some slot => storeFragment? c key i slot rh payload now

/-- The first half of the `consume_contiguous` loop. -/
def skipLost? (c : Ctx) (key : Mac) (channel : ℕ) : Option (Option Ctx) := do
  let p := c.peer key
  let expected ← c.expected? key channel
  match findIdx (fun range : PendingLostRange =>
      range.channel == channel && seqInRange expected range.first range.last)
      p.pendingLost with
  | none => some none
  | some i =>
      match entryAt p.pendingLost i with
      | none => some none
      | some range => do
          let c ← c.setExpected? key channel (range.last + 1)
          some (some (c.setPending key (p.pendingLost.set i none)))

/-- The second half of the loop; the payload is copied to a local buffer. -/
def takeBuffered? (c : Ctx) (key : Mac) (channel : ℕ) :
    Option (Option (Ctx × RxSlot)) := do
  let expected ← c.expected? key channel
  match rxFind c key channel expected with
  | none => some none
  | some i =>
      match entryAt c.rx i with
      | none => some none
      | some slot => do
          let _ ← copy? (List.replicate reliableInnerMax 0) 0 slot.payload slot.hdr.payloadLen
          let c ← (c.setRx (c.rx.set i none)).setExpected? key channel (expected + 1)
          some (some (c, slot))

/-- `consume_contiguous`. -/
def consumeContiguous? : ℕ → Ctx → Mac → ℕ → U32 → Option Ctx
  | 0, c, _, _, _ => some c
  | n + 1, c, key, channel, now =>
      (skipLost? c key channel).bind fun skipped =>
        match skipped with
        | some c => consumeContiguous? n c key channel now
        | none =>
            (takeBuffered? c key channel).bind fun taken =>
              match taken with
              | none => some c
              | some (c, slot) =>
                  (deliverFragment?
                    (fun c => consumeContiguous? n c key slot.hdr.channelId now)
                    c key slot.hdr slot.payload now).bind
                    fun c => consumeContiguous? n c key channel now

/-- `consume_contiguous` as called from the packet handlers. -/
def drain? (c : Ctx) (key : Mac) (channel : ℕ) (now : U32) : Option Ctx :=
  consumeContiguous? (drainFuel c key) c key channel now

/-- `sack_bitmap`. -/
def sackBitmap? (c : Ctx) (key : Mac) (channel : ℕ) : Option U32 := do
  let expected ← c.expected? key channel
  let ack := expected - 1
  (List.range reliableWindow).foldlM
    (fun bitmap bit =>
      if (rxFind c key channel (ack + 1 + BitVec.ofNat 32 bit)).isSome
      then (shift? 32 bit).map (bitmap ||| ·) else some bitmap) 0

/-- `send_ack`. -/
def sendAck? (c : Ctx) (key : Mac) (rh : ReliableHdr) (nack : Bool) :
    Option (Ctx × EspErr) := do
  let p := c.peer key
  let expected ← c.expected? key rh.channelId
  let sackBitmap ← sackBitmap? c key rh.channelId
  let ack : AckPayload :=
    { channelId := rh.channelId
      rootSessionId := p.rootSessionId
      nodeSessionId := p.nodeSessionId
      ackSeq := expected - 1
      sackBitmap := sackBitmap
      nackSeq := if nack then expected else 0
      echoTxMs := rh.txMs
      originMac := rh.originMac
      targetMac := rh.targetMac }
  sendPacket? c key c.localSession (if nack then .nack ack else .ack ack)

/-- The rx slot filled by `handle_data`. -/
def newRxSlot? (key : Mac) (rh : ReliableHdr) (payload : List UInt8) : Option RxSlot := do
  let copied ← copy? (List.replicate reliableInnerMax 0) 0 payload rh.payloadLen
  some
    { peer := key
      channel := rh.channelId
      seq := rh.seq
      hdr := rh
      payload := copied.take rh.payloadLen }

/-- `handle_data` from the comparison with `expected_seq` on. -/
def acceptData? (c : Ctx) (key : Mac) (rh : ReliableHdr) (payload : List UInt8)
    (now : U32) : Option (Ctx × EspErr) := do
  let expected ← c.expected? key rh.channelId
  if seqBefore rh.seq expected then sendAck? c key rh false
  else if rh.seq = expected then do
    let c ← c.setExpected? key rh.channelId (expected + 1)
    let c ← deliverFragment? (fun c => drain? c key rh.channelId now) c key rh
      (payload.take rh.payloadLen) now
    let c ← drain? c key rh.channelId now
    sendAck? c key rh false
  else if (rh.seq - expected).toNat ≥ reliableWindow then sendAck? c key rh true
  else if (rxFind c key rh.channelId rh.seq).isSome then sendAck? c key rh true
  else
    match rxAlloc c key with
    | none => do
        let c := (c.emit (.exhausted key)).modPeer key Peer.countOverflow
        let c ← receiverDropRange? (fun c => drain? c key rh.channelId now)
          c key rh.channelId .overflow rh.seq rh.seq
        some (c, .noMem)
    | some i => do
        let slot ← newRxSlot? key rh payload
        sendAck? (c.setRx (c.rx.set i (some slot))) key rh true

/-- The LATEST jump of `handle_data`. -/
def latestJump? (c : Ctx) (key : Mac) (rh : ReliableHdr) : Option Ctx :=
  let c := c.setRx (freeWhere (RxSlot.isFor key rh.channelId) c.rx)
  let c := c.setPending key (freeWhere
    (fun range : PendingLostRange => range.channel == rh.channelId)
    (c.peer key).pendingLost)
  c.setExpected? key rh.channelId rh.seq

/-- `handle_data`. -/
def handleData? (c : Ctx) (src : Mac) (rh : ReliableHdr) (payload : List UInt8)
    (now : U32) : Option (Ctx × EspErr) :=
  if dataMalformed c src rh payload then some (c, .invalidArg)
  else
    let found := peerFind c src false now
    let c := found.1
    match boundPeer c found.2 rh.rootSessionId rh.nodeSessionId with
    | none => some (c, .invalidState)
    | some key => do
        let c := c.modPeer key (Peer.heardData rh now)
        let expected ← c.expected? key rh.channelId
        if rh.flags &&& flagLatest ≠ 0 then
          if rh.channelId ≠ channelTime ∨ rh.fragmentCount ≠ 1 then
            some (c, .invalidArg)
          else if seqBefore expected rh.seq then do
            let c ← latestJump? c key rh
            acceptData? c key rh payload now
          else acceptData? c key rh payload now
        else acceptData? c key rh payload now

/-- `handle_lost_packet`. -/
def handleLostPacket? (c : Ctx) (src : Mac) (lost : LostPayload) (now : U32) :
    Option (Ctx × EspErr) :=
  let found := peerFind c src false now
  let c := found.1
  match boundPeer c found.2 lost.rootSessionId lost.nodeSessionId with
  | none => some (c, .invalidState)
  | some key =>
      if lost.channelId = 0 ∨ lost.channelId ≥ channelCount ∨
          lost.originMac ≠ src ∨ lost.targetMac ≠ c.cfg.localMac then
        some (c, .invalidState)
      else
        let count := lost.seqLast - lost.seqFirst + 1
        let record := fun role c => recordLost c role key lost.channelId
          lost.reason lost.seqFirst lost.seqLast count
        if lost.rsv &&& lostFlagReceiverDrop ≠ 0 then
          some (record .sent (c.setTx (freeWhere (fun slot =>
            slot.isFor key lost.channelId &&
              seqInRange slot.seq lost.seqFirst lost.seqLast) c.tx)), .ok)
        else do
          let expected ← c.expected? key lost.channelId
          if seqInRange expected lost.seqFirst lost.seqLast then do
            let c ← c.setExpected? key lost.channelId (lost.seqLast + 1)
            let c ← drain? c key lost.channelId now
            some (record .received c, .ok)
          else if seqBefore expected lost.seqFirst then
            let added := pendingLostAdd lost.channelId
              (c.peer key).pendingLost lost.seqFirst lost.seqLast
            let c := c.setPending key added.1
            if added.2 then some (record .received c, .ok)
            else some (clearPeerBuffers c key .overflow, .noMem)
          else some (record .received c, .ok)

/-! ## Acknowledgements and the handshake -/

/-- The test of `ack_slots` on one slot. -/
def AckPayload.accepts? (ack : AckPayload) (seq : U32) : Option Bool :=
  if !seqAfter seq ack.ackSeq then some true
  else
    let delta := (seq - ack.ackSeq - 1).toNat
    if delta < 32 then (shift? 32 delta).map fun bit => ack.sackBitmap &&& bit != 0
    else some false

/-- `ack_slots`. -/
def ackSlots? (c : Ctx) (key : Mac) (ack : AckPayload) (now : U32) : Option Ctx :=
  if ∀ slot ∈ (used c.tx).filter (TxSlot.isFor key ack.channelId),
      (ack.accepts? slot.seq).isSome
  then some (ackSlots c key ack now)
  else none

/-- `retransmit_slot`, which rewrites the two headers of the stored packet and reads the
packet up to its end for the CRC. -/
def retransmitSlot? (c : Ctx) (key : Mac) (i : ℕ) (now : U32) : Option (Ctx × EspErr) :=
  match entryAt c.tx i with
  | none => some (c, .invalidState)
  | some slot =>
      if hdrSize + (Body.data slot.rh slot.payload).size ≤ packetMax then
        some (retransmitSlot c key i now)
      else none

/-- `handle_ack_packet`. -/
def handleAckPacket? (c : Ctx) (src : Mac) (ack : AckPayload) (nack : Bool)
    (now : U32) : Option (Ctx × EspErr) :=
  let found := peerFind c src false now
  let c := found.1
  match boundPeer c found.2 ack.rootSessionId ack.nodeSessionId with
  | none => some (c, .invalidState)
  | some key =>
      if ack.channelId = 0 ∨ ack.channelId ≥ channelCount ∨
          ack.originMac ≠ c.cfg.localMac ∨ ack.targetMac ≠ src then
        some (c, .invalidState)
      else do
        let c ← ackSlots? (c.modPeer key Peer.routeSeen) key ack now
        if nack ∧ ack.nackSeq ≠ 0 then
          match txFind c key ack.channelId ack.nackSeq with
          | some i => retransmitSlot? c key i now
          | none =>
              sendLostPacket? (recordLost c .sent key ack.channelId .overflow ack.nackSeq
                ack.nackSeq (ack.nackSeq - ack.nackSeq + 1)) key ack.channelId .overflow 0
                ack.nackSeq ack.nackSeq
        else some (c, .ok)

/-- `handle_hello`, where the answer fits into a packet. -/
def handleHello? (c : Ctx) (src : Mac) (hello : HelloPayload) (now : U32) :
    Option (Ctx × EspErr) :=
  if hdrSize + helloAckSize ≤ packetMax then some (handleHello c src hello now) else none

/-- `keemash_rel_handle_rx` for a packet that passed `packet_valid`. -/
def handleRx? (c : Ctx) (src : Mac) (packet : Packet) (now : U32) : Option (Ctx × EspErr) :=
  if packet.srcMac ≠ src then some (c, .invalidArg)
  else
    match packet.body with
    | .hello hello => handleHello? c src hello now
    | .helloAck ack => some (handleHelloAck c src ack now)
    | .data rh payload => handleData? c src rh payload now
    | .ack ack => handleAckPacket? c src ack false now
    | .nack ack => handleAckPacket? c src ack true now
    | .lost lost => handleLostPacket? c src lost now

/-- `keemash_rel_handle_rx`. -/
def handleRxBytes? (c : Ctx) (src : Mac) (packet : List UInt8) (now : U32) :
    Option (Ctx × EspErr) := do
  match ← packetValid? packet with
  | none => some (c, .invalidCrc)
  | some (h, payload) =>
      if h.srcMac ≠ src then some (c, .invalidArg)
      else
        match ← readBody? h.type payload with
        | .error err => some (c, err)
        | .ok body =>
            handleRx? c src { sessionId := h.sessionId, srcMac := h.srcMac, body := body } now

end KeemashCore.Rel

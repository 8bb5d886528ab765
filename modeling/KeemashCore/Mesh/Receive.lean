import KeemashCore.Mesh.Context

/-!
# The receive path

Reassembly, the reorder buffer and the pending-lost table, as
`keemash_mesh_core.c` runs them for DATA and LOST packets.

In the source `consume_contiguous`, `deliver_fragment` and
`receiver_drop_range` call each other.  Here `deliverFragment` and
`receiverDropRange` take the function they call for `consume_contiguous` as an
argument, and `consumeContiguous` recurses on a fuel that `drain` chooses from
the table sizes.
-/

namespace KeemashCore.Rel

open SlotTable

/-! ## Reassembly -/

/-- Number of the first fragment of the message a frame belongs to. -/
def ReliableHdr.firstSeq (rh : ReliableHdr) : U32 :=
  rh.seq - BitVec.ofNat 32 rh.fragmentIndex

/-- Number of the last fragment of the message a frame belongs to. -/
def ReliableHdr.lastSeq (rh : ReliableHdr) : U32 :=
  rh.firstSeq + BitVec.ofNat 32 rh.fragmentCount - 1

/-- Number of the last fragment of a message under reassembly. -/
def ReassemblySlot.lastSeq (slot : ReassemblySlot) : U32 :=
  slot.firstSeq + BitVec.ofNat 32 slot.fragmentCount - 1

/-- The slot `reassembly_find` looks for first. -/
def ReassemblySlot.isStream (key : Mac) (rh : ReliableHdr)
    (slot : ReassemblySlot) : Bool :=
  slot.isFor key rh.channelId && slot.streamId == rh.streamId

/-- The slot `reassembly_find` creates. -/
def newReassemblySlot (key : Mac) (rh : ReliableHdr) (now : U32) :
    ReassemblySlot where
  peer := key
  channel := rh.channelId
  streamId := rh.streamId
  firstSeq := rh.firstSeq
  lastMs := now
  fragmentLen := List.replicate reliableMaxFragments 0
  receivedMask := 0
  fragmentCount := rh.fragmentCount
  data := List.replicate messageMax 0

/-- `reassembly_find`: the context after the search, and the slot's index. -/
def reassemblyFind (c : Ctx) (key : Mac) (rh : ReliableHdr) (create : Bool)
    (now : U32) : Ctx × Option ℕ :=
  match findIdx (ReassemblySlot.isStream key rh) c.reassembly with
  | some i =>
      match entryAt c.reassembly i with
      | some slot =>
          if slot.fragmentCount ≠ rh.fragmentCount ∨ slot.firstSeq ≠ rh.firstSeq
          then (c, none) else (c, some i)
      | none => (c, none)
  | none =>
      if !create then (c, none)
      else if reassemblyDepth c key ≥ c.cfg.perPeerReassemblySlots then (c, none)
      else
        match freeIdx c.reassembly with
        | some i =>
            (c.setReassembly
              (c.reassembly.set i (some (newReassemblySlot key rh now))), some i)
        | none => (c, none)

/-- The slot after `deliver_fragment` stored one fragment in it. -/
def ReassemblySlot.store (slot : ReassemblySlot) (rh : ReliableHdr)
    (payload : List UInt8) (now : U32) : ReassemblySlot :=
  let offset := rh.fragmentIndex * reliableInnerMax
  { slot with
    data := slot.data.take offset ++ payload ++
      slot.data.drop (offset + payload.length)
    fragmentLen := slot.fragmentLen.set rh.fragmentIndex rh.payloadLen
    receivedMask := slot.receivedMask ||| (1#16 <<< rh.fragmentIndex)
    lastMs := now }

/-- All fragments have arrived: `received_mask == complete`. -/
def ReassemblySlot.isComplete (slot : ReassemblySlot) (fragmentCount : ℕ) : Bool :=
  slot.receivedMask == BitVec.ofNat 16 (2 ^ fragmentCount - 1)

/-- Sum of the stored fragment lengths. -/
def ReassemblySlot.total (slot : ReassemblySlot) : ℕ :=
  (slot.fragmentLen.take slot.fragmentCount).sum

/-! ## The pending-lost table -/

/-- The test by which `pending_lost_add` decides that two ranges overlap or are
adjacent. -/
def rangesTouch (first last first' last' : U32) : Bool :=
  seqInRange first first' last' || seqInRange last first' last' ||
    seqInRange first' first last || seqInRange last' first last ||
    last' + 1 == first || last + 1 == first'

/-- The inner loop of `pending_lost_add`: entries other than `i` that touch the
range are folded into it and zeroed. -/
def pendingLostJoin (channel i : ℕ) :
    List ℕ → List (Option PendingLostRange) → U32 → U32 →
      List (Option PendingLostRange) × U32 × U32
  | [], table, first, last => (table, first, last)
  | j :: js, table, first, last =>
      match entryAt table j with
      | some other =>
          if j ≠ i ∧ other.channel = channel ∧
              rangesTouch other.first other.last first last then
            pendingLostJoin channel i js (table.set j none)
              (if seqBefore other.first first then other.first else first)
              (if seqAfter other.last last then other.last else last)
          else pendingLostJoin channel i js table first last
      | none => pendingLostJoin channel i js table first last

/-- One pass of the outer loop of `pending_lost_add`: merge the range into the
first entry it touches.  `none` means that nothing was merged. -/
def pendingLostPass (channel : ℕ) (table : List (Option PendingLostRange))
    (first last : U32) : Option (List (Option PendingLostRange) × U32 × U32) :=
  match findIdx (fun range : PendingLostRange =>
      range.channel == channel && rangesTouch first last range.first range.last)
      table with
  | none => none
  | some i =>
      match entryAt table i with
      | none => none
      | some range =>
          let joined := pendingLostJoin channel i (List.range table.length) table
            (if seqBefore first range.first then first else range.first)
            (if seqAfter last range.last then last else range.last)
          some (joined.1.set i (some ⟨channel, joined.2.1, joined.2.2⟩),
            joined.2.1, joined.2.2)

/-- The repeated passes of `pending_lost_add`. -/
def pendingLostMerge (channel : ℕ) :
    ℕ → List (Option PendingLostRange) → U32 → U32 →
      List (Option PendingLostRange) × U32 × U32
  | 0, table, first, last => (table, first, last)
  | n + 1, table, first, last =>
      match pendingLostPass channel table first last with
      | some (table', first', last') =>
          pendingLostMerge channel n table' first' last'
      | none => (table, first, last)

/-- `pending_lost_add`. -/
def pendingLostAdd (channel : ℕ) (table : List (Option PendingLostRange))
    (first last : U32) : List (Option PendingLostRange) × Bool :=
  let merged := pendingLostMerge channel pendingLostRanges table first last
  if (used merged.1).any fun range =>
      range.channel == channel &&
        seqInRange merged.2.1 range.first range.last &&
        seqInRange merged.2.2 range.first range.last then
    (merged.1, true)
  else
    match freeIdx merged.1 with
    | some i =>
        (merged.1.set i (some ⟨channel, merged.2.1, merged.2.2⟩), true)
    | none => (merged.1, false)

/-! ## Draining the reorder buffer -/

/-- The head of `receiver_drop_range`: free the slots that hold parts of the
range and report it. -/
def forgetRange (c : Ctx) (key : Mac) (channel : ℕ) (reason : LostReason)
    (first last : U32) : Ctx :=
  let c := c.setRx (freeWhere (fun slot =>
    slot.isFor key channel && seqInRange slot.seq first last) c.rx)
  let c := c.setReassembly (freeWhere (fun slot =>
    slot.isFor key channel &&
      (seqInRange slot.firstSeq first last || seqInRange slot.lastSeq first last ||
        seqInRange first slot.firstSeq slot.lastSeq)) c.reassembly)
  recordLost c .received key channel reason first last (last - first + 1)

/-- `receiver_drop_range`, calling `consume` for `consume_contiguous`. -/
def receiverDropRange (consume : Ctx → Ctx) (c : Ctx) (key : Mac)
    (channel : ℕ) (reason : LostReason) (first last : U32) : Ctx :=
  let c := forgetRange c key channel reason first last
  let expected := (c.peer key).expectedSeq channel
  if seqInRange expected first last then
    (sendLostPacket (consume (c.setExpected key channel (last + 1))) key channel
      reason lostFlagReceiverDrop first last).1
  else if seqBefore expected first then
    let added := pendingLostAdd channel (c.peer key).pendingLost first last
    let c := c.setPending key added.1
    if added.2 then
      (sendLostPacket c key channel reason lostFlagReceiverDrop first last).1
    else clearPeerBuffers c key .overflow
  else (sendLostPacket c key channel reason lostFlagReceiverDrop first last).1

/-- Count a message or frame that found no buffer. -/
def Peer.countOverflow (p : Peer) : Peer :=
  { p with overflowCount := p.overflowCount + 1 }

/-- The bookkeeping of `deliver_fragment` when `reassembly_find` fails. -/
def reassemblyFailed (c : Ctx) (key : Mac) (rh : ReliableHdr) : Ctx :=
  let c := if (used c.reassembly).any (ReassemblySlot.isStream key rh)
    then c else c.emit (.exhausted key)
  c.modPeer key Peer.countOverflow

/-- The rest of `deliver_fragment` once the slot is found. -/
def storeFragment (c : Ctx) (key : Mac) (i : ℕ) (slot : ReassemblySlot)
    (rh : ReliableHdr) (payload : List UInt8) (now : U32) : Ctx :=
  let slot := slot.store rh payload now
  if slot.isComplete rh.fragmentCount then
    let c := c.emit (.deliver key (c.peerSendMac key) slot.channel
      (slot.data.take slot.total) slot.streamId)
    c.setReassembly (c.reassembly.set i none)
  else c.setReassembly (c.reassembly.set i (some slot))

/-- `deliver_fragment`, calling `consume` for `consume_contiguous`. -/
def deliverFragment (consume : Ctx → Ctx) (c : Ctx) (key : Mac)
    (rh : ReliableHdr) (payload : List UInt8) (now : U32) : Ctx :=
  let c := c.emit (.handOff key rh payload)
  if rh.fragmentCount ≤ 1 then
    c.emit (.deliver key (c.peerSendMac key) rh.channelId payload rh.streamId)
  else if rh.fragmentCount > reliableMaxFragments ∨
      rh.fragmentIndex ≥ rh.fragmentCount then c
  else
    match reassemblyFind c key rh true now with
    | (c, none) =>
        receiverDropRange consume (reassemblyFailed c key rh) key rh.channelId
          .overflow rh.firstSeq rh.lastSeq
    | (c, some i) =>
        match entryAt c.reassembly i with
        | none => c
        | some slot => storeFragment c key i slot rh payload now

/-- The first half of the `consume_contiguous` loop: skip a pending-lost range
that covers `expected_seq`. -/
def skipLost (c : Ctx) (key : Mac) (channel : ℕ) : Option Ctx :=
  let p := c.peer key
  match findIdx (fun range : PendingLostRange =>
      range.channel == channel &&
        seqInRange (p.expectedSeq channel) range.first range.last)
      p.pendingLost with
  | none => none
  | some i =>
      match entryAt p.pendingLost i with
      | none => none
      | some range =>
          some ((c.setExpected key channel (range.last + 1)).setPending key
            (p.pendingLost.set i none))

/-- The second half of the loop: take the buffered frame numbered
`expected_seq` out of its slot. -/
def takeBuffered (c : Ctx) (key : Mac) (channel : ℕ) :
    Option (Ctx × RxSlot) :=
  let expected := (c.peer key).expectedSeq channel
  match rxFind c key channel expected with
  | none => none
  | some i =>
      match entryAt c.rx i with
      | none => none
      | some slot =>
          some ((c.setRx (c.rx.set i none)).setExpected key channel (expected + 1),
            slot)

/-- `consume_contiguous`. -/
def consumeContiguous : ℕ → Ctx → Mac → ℕ → U32 → Ctx
  | 0, c, _, _, _ => c
  | n + 1, c, key, channel, now =>
      match skipLost c key channel with
      | some c => consumeContiguous n c key channel now
      | none =>
          match takeBuffered c key channel with
          | none => c
          | some (c, slot) =>
              consumeContiguous n
                (deliverFragment
                  (fun c => consumeContiguous n c key slot.hdr.channelId now)
                  c key slot.hdr slot.payload now)
                key channel now

/-- Enough fuel for every state of the tables: an iteration frees an rx slot or
a pending-lost entry, and a freed rx slot adds at most one such entry. -/
def drainFuel (c : Ctx) (key : Mac) : ℕ :=
  2 * c.rx.length + (c.peer key).pendingLost.length + 1

/-- `consume_contiguous` as called from the packet handlers. -/
def drain (c : Ctx) (key : Mac) (channel : ℕ) (now : U32) : Ctx :=
  consumeContiguous (drainFuel c key) c key channel now

/-! ## Packet handlers -/

/-- `send_ack`. -/
def sendAck (c : Ctx) (key : Mac) (rh : ReliableHdr) (nack : Bool) :
    Ctx × EspErr :=
  let p := c.peer key
  let ack : AckPayload :=
    { channelId := rh.channelId
      rootSessionId := p.rootSessionId
      nodeSessionId := p.nodeSessionId
      ackSeq := p.expectedSeq rh.channelId - 1
      sackBitmap := sackBitmap c key rh.channelId
      nackSeq := if nack then p.expectedSeq rh.channelId else 0
      echoTxMs := rh.txMs
      originMac := rh.originMac
      targetMac := rh.targetMac }
  sendPacket c key c.localSession
    (if nack then .nack ack else .ack ack)

/-- The field checks at the head of `handle_data`. -/
def dataMalformed (c : Ctx) (src : Mac) (rh : ReliableHdr)
    (payload : List UInt8) : Bool :=
  rh.channelId == 0 || decide (rh.channelId ≥ channelCount) ||
    decide (rh.payloadLen > payload.length) ||
    decide (rh.payloadLen > reliableInnerMax) ||
    rh.fragmentCount == 0 ||
    decide (rh.fragmentCount > reliableMaxFragments) ||
    decide (rh.fragmentIndex ≥ rh.fragmentCount) ||
    (decide (rh.fragmentCount > 1) && rh.flags &&& flagFragment == 0) ||
    rh.originMac != src || rh.targetMac != c.cfg.localMac

/-- The peer found by a packet handler, if it is ready under the binding the
packet names. -/
def boundPeer (c : Ctx) (key : Option Mac) (rootSessionId nodeSessionId : U32) :
    Option Mac :=
  match key with
  | none => none
  | some key =>
      let p := c.peer key
      if p.ready && p.rootSessionId == rootSessionId &&
          p.nodeSessionId == nodeSessionId
      then some key else none

/-- The rx slot filled by `handle_data`. -/
def newRxSlot (key : Mac) (rh : ReliableHdr) (payload : List UInt8) : RxSlot where
  peer := key
  channel := rh.channelId
  seq := rh.seq
  hdr := rh
  payload := payload.take rh.payloadLen

/-- The LATEST jump of `handle_data`: a newer frame discards what is buffered
on its channel and becomes the expected one. -/
def latestJump (c : Ctx) (key : Mac) (rh : ReliableHdr) : Ctx :=
  let c := c.setRx (freeWhere (RxSlot.isFor key rh.channelId) c.rx)
  let c := c.setPending key (freeWhere
    (fun range : PendingLostRange => range.channel == rh.channelId)
    (c.peer key).pendingLost)
  c.setExpected key rh.channelId rh.seq

/-- `handle_data` from the comparison with `expected_seq` on. -/
def acceptData (c : Ctx) (key : Mac) (rh : ReliableHdr)
    (payload : List UInt8) (now : U32) : Ctx × EspErr :=
  let expected := (c.peer key).expectedSeq rh.channelId
  if seqBefore rh.seq expected then sendAck c key rh false
  else if rh.seq = expected then
    let c := deliverFragment (fun c => drain c key rh.channelId now)
      (c.setExpected key rh.channelId (expected + 1)) key rh
      (payload.take rh.payloadLen) now
    sendAck (drain c key rh.channelId now) key rh false
  else if (rh.seq - expected).toNat ≥ reliableWindow then
    sendAck c key rh true
  else if (rxFind c key rh.channelId rh.seq).isSome then
    sendAck c key rh true
  else
    match rxAlloc c key with
    | none =>
        let c := c.emit (.exhausted key)
        let c := c.modPeer key Peer.countOverflow
        (receiverDropRange (fun c => drain c key rh.channelId now)
          c key rh.channelId .overflow rh.seq rh.seq, .noMem)
    | some i =>
        sendAck (c.setRx (c.rx.set i (some (newRxSlot key rh payload)))) key rh true

/-- The bookkeeping of `handle_data` for a frame of the current binding. -/
def Peer.heardData (rh : ReliableHdr) (now : U32) (p : Peer) : Peer :=
  { p with
    routeUp := true
    routeDownSinceMs := 0
    lastRxMs := now
    replayCount :=
      if rh.flags &&& flagReplay ≠ 0 then p.replayCount + 1 else p.replayCount }

/-- `handle_data`. -/
def handleData (c : Ctx) (src : Mac) (rh : ReliableHdr)
    (payload : List UInt8) (now : U32) : Ctx × EspErr :=
  if dataMalformed c src rh payload then (c, .invalidArg)
  else
    let found := peerFind c src false now
    let c := found.1
    match boundPeer c found.2 rh.rootSessionId rh.nodeSessionId with
    | none => (c, .invalidState)
    | some key =>
        let c := c.modPeer key (Peer.heardData rh now)
        if rh.flags &&& flagLatest ≠ 0 then
          if rh.channelId ≠ channelTime ∨ rh.fragmentCount ≠ 1 then
            (c, .invalidArg)
          else if seqBefore ((c.peer key).expectedSeq rh.channelId) rh.seq then
            acceptData (latestJump c key rh) key rh payload now
          else acceptData c key rh payload now
        else acceptData c key rh payload now

/-- `handle_lost_packet`. -/
def handleLostPacket (c : Ctx) (src : Mac) (lost : LostPayload) (now : U32) :
    Ctx × EspErr :=
  let found := peerFind c src false now
  let c := found.1
  match boundPeer c found.2 lost.rootSessionId lost.nodeSessionId with
  | none => (c, .invalidState)
  | some key =>
      if lost.channelId = 0 ∨ lost.channelId ≥ channelCount ∨
          lost.originMac ≠ src ∨ lost.targetMac ≠ c.cfg.localMac then
        (c, .invalidState)
      else
        let count := lost.seqLast - lost.seqFirst + 1
        let record := fun role c => recordLost c role key lost.channelId
          lost.reason lost.seqFirst lost.seqLast count
        if lost.rsv &&& lostFlagReceiverDrop ≠ 0 then
          (record .sent (c.setTx (freeWhere (fun slot =>
            slot.isFor key lost.channelId &&
              seqInRange slot.seq lost.seqFirst lost.seqLast) c.tx)), .ok)
        else
          let expected := (c.peer key).expectedSeq lost.channelId
          if seqInRange expected lost.seqFirst lost.seqLast then
            let c := c.setExpected key lost.channelId (lost.seqLast + 1)
            (record .received (drain c key lost.channelId now), .ok)
          else if seqBefore expected lost.seqFirst then
            let added := pendingLostAdd lost.channelId
              (c.peer key).pendingLost lost.seqFirst lost.seqLast
            let c := c.setPending key added.1
            if added.2 then (record .received c, .ok)
            else (clearPeerBuffers c key .overflow, .noMem)
          else (record .received c, .ok)

end KeemashCore.Rel

import KeemashCore.Mesh.PendingLost

/-!
# The receive path ends

`consume_contiguous`, `deliver_fragment` and `receiver_drop_range` with the loop as
the source has it, without a bound, and with a deliver callback that submits
messages on the same context.  A function that ends in `Within` gives the result if
the loop and the calls nested in it end within so many iterations.  From every
context they do: an iteration frees an rx slot or an entry of the pending-lost
table, and for a freed rx slot at most one such entry is taken.
-/

namespace KeemashCore.Rel

open SlotTable

/-! ## The deliver callback -/

/-- Arguments of a call of `keemash_rel_submit`, and its time. -/
structure Submission where
  peer : Mac
  channel : ℕ
  payload : List UInt8
  priority : ℕ
  now : U32

/-- `cfg.deliver`: what it submits for a message, in the context it is called in. -/
abbrev Deliver := Ctx → Mac → ℕ → List UInt8 → U32 → List Submission

def submitAll (c : Ctx) (submissions : List Submission) : Ctx :=
  submissions.foldl
    (fun c s => (submit c s.peer s.channel s.payload s.priority s.now).1) c

/-- A call of `cfg.deliver`. -/
def callDeliver (deliver : Deliver) (c : Ctx) (key : Mac) (channel : ℕ)
    (payload : List UInt8) (streamId : U32) : Ctx :=
  let c := c.emit (.deliver key (c.peerSendMac key) channel payload streamId)
  submitAll c (deliver c (c.peerSendMac key) channel payload streamId)

/-- A callback that submits nothing. -/
def noSubmissions : Deliver := fun _ _ _ _ _ => []

/-! ## The functions with their calls -/

/-- `receiver_drop_range`, where `consume` runs `consume_contiguous`. -/
def receiverDropRangeWithin (consume : Ctx → Option Ctx) (c : Ctx) (key : Mac)
    (channel : ℕ) (reason : LostReason) (first last : U32) : Option Ctx :=
  let c := forgetRange c key channel reason first last
  let expected := (c.peer key).expectedSeq channel
  if seqInRange expected first last then
    (consume (c.setExpected key channel (last + 1))).map fun c =>
      (sendLostPacket c key channel reason lostFlagReceiverDrop first last).1
  else if seqBefore expected first then
    let added := pendingLostAdd channel (c.peer key).pendingLost first last
    let c := c.setPending key added.1
    if added.2 then
      some (sendLostPacket c key channel reason lostFlagReceiverDrop first last).1
    else some (clearPeerBuffers c key .overflow)
  else some (sendLostPacket c key channel reason lostFlagReceiverDrop first last).1

/-- The rest of `deliver_fragment` once the slot is found; the slot is in use while
the callback runs. -/
def storeFragmentWith (deliver : Deliver) (c : Ctx) (key : Mac) (i : ℕ)
    (slot : ReassemblySlot) (rh : ReliableHdr) (payload : List UInt8) (now : U32) : Ctx :=
  let slot := slot.store rh payload now
  let c := c.setReassembly (c.reassembly.set i (some slot))
  if slot.isComplete rh.fragmentCount then
    let c := callDeliver deliver c key slot.channel (slot.data.take slot.total) slot.streamId
    c.setReassembly (c.reassembly.set i none)
  else c

/-- `deliver_fragment`, where `consume` runs `consume_contiguous`. -/
def deliverFragmentWithin (deliver : Deliver) (consume : Ctx → Option Ctx) (c : Ctx)
    (key : Mac) (rh : ReliableHdr) (payload : List UInt8) (now : U32) : Option Ctx :=
  let c := c.emit (.handOff key rh payload)
  if rh.fragmentCount ≤ 1 then
    some (callDeliver deliver c key rh.channelId payload rh.streamId)
  else if rh.fragmentCount > reliableMaxFragments ∨
      rh.fragmentIndex ≥ rh.fragmentCount then some c
  else
    match reassemblyFind c key rh true now with
    | (c, none) =>
        receiverDropRangeWithin consume (reassemblyFailed c key rh) key rh.channelId
          .overflow rh.firstSeq rh.lastSeq
    | (c, some i) =>
        match entryAt c.reassembly i with
        | none => some c
        | some slot => some (storeFragmentWith deliver c key i slot rh payload now)

/-- `consume_contiguous`. -/
def consumeContiguousWithin (deliver : Deliver) (now : U32) :
    ℕ → Ctx → Mac → ℕ → Option Ctx
  | 0, _, _, _ => none
  | n + 1, c, key, channel =>
      match skipLost c key channel with
      | some c => consumeContiguousWithin deliver now n c key channel
      | none =>
          match takeBuffered c key channel with
          | none => some c
          | some (c, slot) =>
              (deliverFragmentWithin deliver
                (fun c => consumeContiguousWithin deliver now n c key slot.hdr.channelId)
                c key slot.hdr slot.payload now).bind
                fun c => consumeContiguousWithin deliver now n c key channel

/-- `handle_data` from the comparison with `expected_seq` on. -/
def acceptDataWithin (deliver : Deliver) (n : ℕ) (c : Ctx) (key : Mac) (rh : ReliableHdr)
    (payload : List UInt8) (now : U32) : Option (Ctx × EspErr) :=
  let consume := fun c => consumeContiguousWithin deliver now n c key rh.channelId
  let expected := (c.peer key).expectedSeq rh.channelId
  if seqBefore rh.seq expected then some (sendAck c key rh false)
  else if rh.seq = expected then
    ((deliverFragmentWithin deliver consume (c.setExpected key rh.channelId (expected + 1))
      key rh (payload.take rh.payloadLen) now).bind consume).map
        fun c => sendAck c key rh false
  else if (rh.seq - expected).toNat ≥ reliableWindow then some (sendAck c key rh true)
  else if (rxFind c key rh.channelId rh.seq).isSome then some (sendAck c key rh true)
  else
    match rxAlloc c key with
    | none =>
        let c := c.emit (.exhausted key)
        let c := c.modPeer key Peer.countOverflow
        (receiverDropRangeWithin consume c key rh.channelId .overflow rh.seq rh.seq).map
          fun c => (c, .noMem)
    | some i =>
        some (sendAck (c.setRx (c.rx.set i (some (newRxSlot key rh payload)))) key rh true)

/-- `handle_data`. -/
def handleDataWithin (deliver : Deliver) (n : ℕ) (c : Ctx) (src : Mac) (rh : ReliableHdr)
    (payload : List UInt8) (now : U32) : Option (Ctx × EspErr) :=
  if dataMalformed c src rh payload then some (c, .invalidArg)
  else
    let found := peerFind c src false now
    let c := found.1
    match boundPeer c found.2 rh.rootSessionId rh.nodeSessionId with
    | none => some (c, .invalidState)
    | some key =>
        let c := c.modPeer key (Peer.heardData rh now)
        if rh.flags &&& flagLatest ≠ 0 then
          if rh.channelId ≠ channelTime ∨ rh.fragmentCount ≠ 1 then
            some (c, .invalidArg)
          else if seqBefore ((c.peer key).expectedSeq rh.channelId) rh.seq then
            acceptDataWithin deliver n (latestJump c key rh) key rh payload now
          else acceptDataWithin deliver n c key rh payload now
        else acceptDataWithin deliver n c key rh payload now

/-- `handle_lost_packet`. -/
def handleLostPacketWithin (deliver : Deliver) (n : ℕ) (c : Ctx) (src : Mac)
    (lost : LostPayload) (now : U32) : Option (Ctx × EspErr) :=
  let found := peerFind c src false now
  let c := found.1
  match boundPeer c found.2 lost.rootSessionId lost.nodeSessionId with
  | none => some (c, .invalidState)
  | some key =>
      if lost.channelId = 0 ∨ lost.channelId ≥ channelCount ∨
          lost.originMac ≠ src ∨ lost.targetMac ≠ c.cfg.localMac then
        some (c, .invalidState)
      else
        let count := lost.seqLast - lost.seqFirst + 1
        let record := fun role c => recordLost c role key lost.channelId
          lost.reason lost.seqFirst lost.seqLast count
        if lost.rsv &&& lostFlagReceiverDrop ≠ 0 then
          some (record .sent (c.setTx (freeWhere (fun slot =>
            slot.isFor key lost.channelId &&
              seqInRange slot.seq lost.seqFirst lost.seqLast) c.tx)), .ok)
        else
          let expected := (c.peer key).expectedSeq lost.channelId
          if seqInRange expected lost.seqFirst lost.seqLast then
            let c := c.setExpected key lost.channelId (lost.seqLast + 1)
            (consumeContiguousWithin deliver now n c key lost.channelId).map
              fun c => (record .received c, .ok)
          else if seqBefore expected lost.seqFirst then
            let added := pendingLostAdd lost.channelId
              (c.peer key).pendingLost lost.seqFirst lost.seqLast
            let c := c.setPending key added.1
            if added.2 then some (record .received c, .ok)
            else some (clearPeerBuffers c key .overflow, .noMem)
          else some (record .received c, .ok)

/-- `keemash_rel_handle_rx` for a packet that passed `packet_valid`. -/
def handleRxWithin (deliver : Deliver) (n : ℕ) (c : Ctx) (src : Mac) (packet : Packet)
    (now : U32) : Option (Ctx × EspErr) :=
  if packet.srcMac ≠ src then some (c, .invalidArg)
  else
    match packet.body with
    | .hello hello => some (handleHello c src hello now)
    | .helloAck ack => some (handleHelloAck c src ack now)
    | .data rh payload => handleDataWithin deliver n c src rh payload now
    | .ack ack => some (handleAckPacket c src ack false now)
    | .nack ack => some (handleAckPacket c src ack true now)
    | .lost lost => handleLostPacketWithin deliver n c src lost now

/-! ## Fewer slots in use -/

/-- No more rx slots are in use than before, and no more pending-lost entries of any
peer. -/
structure Lighter (c c' : Ctx) : Prop where
  rx : (held c'.rx).card ≤ (held c.rx).card
  pending : ∀ key, (held (c'.peer key).pendingLost).card ≤ (held (c.peer key).pendingLost).card

section Lighter

variable {c c' : Ctx} {key : Mac} {channel : ℕ}

theorem Lighter.refl (c : Ctx) : Lighter c c :=
  ⟨Nat.le_refl _, fun _ => Nat.le_refl _⟩

theorem Lighter.trans {c'' : Ctx} (h : Lighter c c') (h' : Lighter c' c'') :
    Lighter c c'' :=
  ⟨h'.rx.trans h.rx, fun key => (h'.pending key).trans (h.pending key)⟩

/-- The rx table and the records are left alone. -/
theorem Lighter.tables (h : Lighter c c') {c'' : Ctx} (hrx : c''.rx = c'.rx)
    (hpeers : c''.peers = c'.peers) : Lighter c c'' := by
  refine h.trans ⟨by rw [hrx], fun key => ?_⟩
  rw [Ctx.peer, Ctx.peerAt, hpeers]
  exact Nat.le_refl _

theorem Lighter.emit (h : Lighter c c') (e : Effect) : Lighter c (c'.emit e) :=
  h.tables rfl rfl

theorem Lighter.setTx (h : Lighter c c') (table : List (Option TxSlot)) :
    Lighter c (c'.setTx table) :=
  h.tables rfl rfl

theorem Lighter.setReassembly (h : Lighter c c') (table : List (Option ReassemblySlot)) :
    Lighter c (c'.setReassembly table) :=
  h.tables rfl rfl

theorem Lighter.freeRx (h : Lighter c c') (p : RxSlot → Bool) :
    Lighter c (c'.setRx (freeWhere p c'.rx)) := by
  refine h.trans ⟨?_, fun _ => Nat.le_refl _⟩
  rw [Ctx.setRx, held_freeWhere]
  exact Multiset.card_le_card (Multiset.filter_le _ _)

/-- An assignment to a record that takes no pending-lost entry. -/
theorem Lighter.modPeer (h : Lighter c c') {f : Peer → Peer} (hmac : ∀ p, (f p).mac = p.mac)
    (hf : ∀ p, (held (f p).pendingLost).card ≤ (held p.pendingLost).card) :
    Lighter c (c'.modPeer key f) := by
  refine h.trans ⟨Nat.le_refl _, fun k => ?_⟩
  simp only [Ctx.peer, peerAt_modPeer hmac]
  cases c'.peerAt k with
  | none => exact Nat.le_refl _
  | some p =>
      by_cases hk : k = key
      · simpa [hk] using hf p
      · simp [hk]

theorem Lighter.setExpected (h : Lighter c c') (seq : U32) :
    Lighter c (c'.setExpected key channel seq) :=
  h.modPeer (fun _ => rfl) (fun _ => Nat.le_refl _)

theorem Lighter.foldl {α : Type} (h : Lighter c c') {f : Ctx → α → Ctx}
    (hf : ∀ c a, Lighter c (f c a)) (as : List α) : Lighter c (as.foldl f c') := by
  induction as generalizing c' with
  | nil => exact h
  | cons a as ih => exact ih (h.trans (hf c' a))

/-- A search that creates no record. -/
theorem Lighter.peerFind (h : Lighter c c') (mac : Mac) (now : U32) :
    Lighter c (peerFind c' mac false now).1 := by
  rw [Rel.peerFind]
  split
  · split
    · exact h.modPeer (fun _ => rfl) (fun _ => Nat.le_refl _)
    · exact h
  · exact h

theorem Lighter.sendPacket (h : Lighter c c') {sessionId : U32} {body : Body} :
    Lighter c (sendPacket c' key sessionId body).1 :=
  h.emit _

theorem Lighter.recordLost (h : Lighter c c') {role : Role} {reason : LostReason}
    {first last count : U32} :
    Lighter c (recordLost c' role key channel reason first last count) := by
  refine Lighter.emit (Lighter.modPeer h ?_ ?_) _
  · exact fun _ => rfl
  · exact fun _ => Nat.le_refl _

theorem Lighter.sendLostPacket (h : Lighter c c') {reason : LostReason}
    {flags : BitVec 16} {first last : U32} :
    Lighter c (sendLostPacket c' key channel reason flags first last).1 :=
  h.sendPacket

theorem Lighter.sendLost (h : Lighter c c') {reason : LostReason} {first last : U32} :
    Lighter c (sendLost c' key channel reason first last).1 :=
  h.recordLost.sendLostPacket

theorem Lighter.clearPeerBuffers (h : Lighter c c') {reason : LostReason} :
    Lighter c (clearPeerBuffers c' key reason) := by
  have hrx (c' : Ctx) (h : Lighter c c') : Lighter c (clearRx c' key reason) :=
    (h.foldl (fun c slot => (Lighter.refl c).recordLost) _).freeRx _
  have hreassembly (c' : Ctx) (h : Lighter c c') :
      Lighter c (clearReassembly c' key reason) :=
    (h.foldl (fun c slot => (Lighter.refl c).recordLost) _).setReassembly _
  rw [Rel.clearPeerBuffers]
  refine Lighter.foldl ?_ (fun c ch => ?_) _
  · refine Lighter.modPeer ?_ (fun _ => rfl) fun p => ?_
    · exact hreassembly _ (hrx _ ((h.emit _).setTx _))
    · have hnone : held (p.pendingLost.map fun _ => (none : Option PendingLostRange)) = 0 := by
        rw [List.map_const', held_replicate_none]
      rw [Peer.cleared, hnone]
      exact Nat.zero_le _
  · split
    · exact (Lighter.refl c).recordLost
    · exact Lighter.refl c

theorem Lighter.forgetRange (h : Lighter c c') {reason : LostReason} {first last : U32} :
    Lighter c (forgetRange c' key channel reason first last) :=
  ((h.freeRx _).setReassembly _).recordLost

theorem Lighter.reassemblyFind (h : Lighter c c') {rh : ReliableHdr} {create : Bool}
    {now : U32} : Lighter c (reassemblyFind c' key rh create now).1 := by
  rw [Rel.reassemblyFind]
  repeat' split
  all_goals first | exact h | exact h.setReassembly _

theorem Lighter.reassemblyFailed (h : Lighter c c') {rh : ReliableHdr} :
    Lighter c (reassemblyFailed c' key rh) := by
  rw [Rel.reassemblyFailed]
  refine Lighter.modPeer ?_ (fun _ => rfl) (fun _ => Nat.le_refl _)
  split
  · exact h
  · exact h.emit _

/-! ## Submitting -/

theorem Lighter.submitSlots {payload : List UInt8} {priority fragments : ℕ}
    {streamId now : U32} (is : List ℕ) {slots : List ℕ} (h : Lighter c c') :
    Lighter c
      (submitSlots key channel payload priority fragments streamId now is c' slots).1 := by
  induction is generalizing c' slots with
  | nil => exact h
  | cons i is ih =>
      have hnext : Lighter c (c'.modPeer key
          (Peer.setNext channel ((c'.peer key).nextSeq channel + 1))) :=
        h.modPeer (fun _ => rfl) (fun _ => Nat.le_refl _)
      simp only [Rel.submitSlots]
      split
      · exact hnext.setTx _
      · exact ih ((hnext.setTx _).emit _)

theorem Lighter.submitSend (slots : List ℕ) {err : EspErr} (h : Lighter c c') :
    Lighter c (submitSend key slots c' err).1 := by
  induction slots generalizing c' err with
  | nil => exact h
  | cons j slots ih =>
      rw [Rel.submitSend]
      split
      · exact ih h
      · exact ih (h.emit _)

theorem Lighter.submitOverflow (h : Lighter c c') {fragments : ℕ} {firstSeq : U32} :
    Lighter c (submitOverflow c' key channel fragments firstSeq) := by
  refine Lighter.sendLost (Lighter.modPeer (h.emit _) ?_ ?_)
  · exact fun _ => rfl
  · exact fun _ => Nat.le_refl _

theorem Lighter.submitMessage (h : Lighter c c') {payload : List UInt8}
    {priority fragments : ℕ} {streamId now : U32} :
    Lighter c (submitMessage c' key channel payload priority fragments streamId now).1 := by
  have hslots : Lighter c (Rel.submitSlots key channel payload priority fragments streamId now
      (List.range fragments) c' []).1 :=
    h.submitSlots _
  simp only [Rel.submitMessage]
  split
  · exact h.submitOverflow
  · split
    · next heq =>
        rw [heq] at hslots
        exact hslots.submitOverflow
    · next heq =>
        rw [heq] at hslots
        split
        · exact (hslots.emit _).submitSend _
        · exact hslots.emit _

theorem Lighter.submit (h : Lighter c c') (mac : Mac) (payload : List UInt8) (priority : ℕ)
    (now : U32) : Lighter c (submit c' mac channel payload priority now).1 := by
  have hfind := h.peerFind mac now
  simp only [Rel.submit]
  split
  · exact h
  · split
    · exact hfind
    · split
      · exact hfind
      · split
        · exact hfind
        · refine Lighter.submitMessage ?_
          exact hfind.tables rfl rfl

theorem Lighter.callDeliver (h : Lighter c c') {deliver : Deliver} {payload : List UInt8}
    {streamId : U32} : Lighter c (callDeliver deliver c' key channel payload streamId) := by
  refine Lighter.foldl (h.emit _) (fun c s => ?_) _
  exact (Lighter.refl c).submit _ _ _ _

theorem Lighter.storeFragmentWith (h : Lighter c c') {deliver : Deliver} {i : ℕ}
    {slot : ReassemblySlot} {rh : ReliableHdr} {payload : List UInt8} {now : U32} :
    Lighter c (storeFragmentWith deliver c' key i slot rh payload now) := by
  simp only [Rel.storeFragmentWith]
  split
  · exact (h.setReassembly _).callDeliver.setReassembly _
  · exact h.setReassembly _

end Lighter

/-! ## The pending-lost table -/

/-- No slot of the table is in use that was free before. -/
structure Fewer (table table' : List (Option PendingLostRange)) : Prop where
  length : table'.length = table.length
  entry : ∀ i, (entryAt table' i).isSome → (entryAt table i).isSome

theorem Fewer.refl (table : List (Option PendingLostRange)) : Fewer table table :=
  ⟨rfl, fun _ h => h⟩

theorem Fewer.trans {table table' table'' : List (Option PendingLostRange)}
    (h : Fewer table table') (h' : Fewer table' table'') : Fewer table table'' :=
  ⟨h'.length.trans h.length, fun i hi => h.entry i (h'.entry i hi)⟩

theorem Fewer.card {table table' : List (Option PendingLostRange)} (h : Fewer table table') :
    (held table').card ≤ (held table).card :=
  card_held_mono h.length h.entry

theorem Fewer.set_none (table : List (Option PendingLostRange)) (i : ℕ) :
    Fewer table (table.set i none) := by
  refine ⟨List.length_set, fun j hj => ?_⟩
  rw [entryAt_set_none] at hj
  split at hj
  · exact absurd hj (by simp)
  · exact hj

/-- Overwriting an entry. -/
theorem Fewer.set_entry {table : List (Option PendingLostRange)} {i : ℕ}
    {range : PendingLostRange} (h : entryAt table i = some range)
    (entry : Option PendingLostRange) : Fewer table (table.set i entry) := by
  refine ⟨List.length_set, fun j hj => ?_⟩
  rw [entryAt_set (lt_length_of_entryAt h)] at hj
  split at hj
  · next hji => rw [hji, h]; rfl
  · exact hj

/-- The join loop zeroes entries other than its own. -/
theorem fewer_pendingLostJoin {channel i : ℕ} (js : List ℕ)
    (table : List (Option PendingLostRange)) (first last : U32) :
    Fewer table (pendingLostJoin channel i js table first last).1 ∧
      entryAt (pendingLostJoin channel i js table first last).1 i = entryAt table i := by
  induction js generalizing table first last with
  | nil => exact ⟨.refl table, rfl⟩
  | cons j js ih =>
      rw [pendingLostJoin]
      split
      · split
        · next hjoin =>
            obtain ⟨hfewer, hentry⟩ := ih (table.set j none) _ _
            refine ⟨(Fewer.set_none table j).trans hfewer, hentry.trans ?_⟩
            rw [entryAt_set_none, if_neg (Ne.symm hjoin.1)]
        · exact ih table first last
      · exact ih table first last

theorem fewer_pendingLostPass {channel : ℕ} {table table' : List (Option PendingLostRange)}
    {first last first' last' : U32}
    (h : pendingLostPass channel table first last = some (table', first', last')) :
    Fewer table table' := by
  rw [pendingLostPass] at h
  split at h
  · cases h
  · split at h
    · cases h
    · next i _ range hentry =>
        cases h
        obtain ⟨hfewer, hsame⟩ := fewer_pendingLostJoin (List.range table.length) table
          (if seqBefore first range.first then first else range.first)
          (if seqAfter last range.last then last else range.last)
        exact hfewer.trans (Fewer.set_entry (hsame.trans hentry) _)

theorem fewer_pendingLostMerge (channel n : ℕ) (table : List (Option PendingLostRange))
    (first last : U32) : Fewer table (pendingLostMerge channel n table first last).1 := by
  induction n generalizing table first last with
  | zero => exact .refl table
  | succ n ih =>
      rw [pendingLostMerge]
      split
      · next hpass => exact (fewer_pendingLostPass hpass).trans (ih _ _ _)
      · exact .refl table

/-- A range takes at most one entry. -/
theorem card_pendingLostAdd (channel : ℕ) (table : List (Option PendingLostRange))
    (first last : U32) :
    (held (pendingLostAdd channel table first last).1).card ≤ (held table).card + 1 := by
  have hmerge := (fewer_pendingLostMerge channel pendingLostRanges table first last).card
  simp only [pendingLostAdd]
  split
  · exact Nat.le_succ_of_le hmerge
  · split
    · next hfree =>
        rw [held_set_some _ (getElem?_of_freeIdx hfree), Multiset.card_cons]
        exact Nat.succ_le_succ hmerge
    · exact Nat.le_succ_of_le hmerge

/-! ## What is left to drain -/

/-- Each rx slot in use counts twice, each pending-lost entry of the peer once. -/
def Ctx.load (c : Ctx) (key : Mac) : ℕ :=
  2 * (held c.rx).card + (held (c.peer key).pendingLost).card

section Load

variable {c c' : Ctx} {key : Mac} {channel : ℕ}

theorem Lighter.load (h : Lighter c c') (key : Mac) : c'.load key ≤ c.load key :=
  Nat.add_le_add (Nat.mul_le_mul_left 2 h.rx) (h.pending key)

theorem load_setPending (c : Ctx) (key : Mac) (table : List (Option PendingLostRange)) :
    (c.setPending key table).load key ≤ 2 * (held c.rx).card + (held table).card := by
  refine Nat.add_le_add_left ?_ _
  have hmac : ∀ p, (Peer.setPending table p).mac = p.mac := fun _ => rfl
  simp only [Ctx.setPending, Ctx.peer, peerAt_modPeer hmac]
  cases c.peerAt key with
  | none => exact Nat.zero_le _
  | some p => simp [Peer.setPending]

/-- An iteration that skips a lost range frees its entry. -/
theorem skipLost_frees (h : skipLost c key channel = some c') :
    c'.rx = c.rx ∧
      (held (c'.peer key).pendingLost).card < (held (c.peer key).pendingLost).card := by
  simp only [skipLost] at h
  split at h
  · cases h
  · split at h
    · cases h
    · next _ i _ _ range hentry =>
        cases h
        have hcard := congrArg Multiset.card (held_set_none hentry)
        rw [Multiset.card_cons] at hcard
        have hrest := load_setPending (c.setExpected key channel (range.last + 1)) key
          ((c.peer key).pendingLost.set i none)
        have hrx : (c.setExpected key channel (range.last + 1)).rx = c.rx := rfl
        rw [hrx] at hrest
        refine ⟨rfl, ?_⟩
        rw [hcard]
        exact Nat.lt_succ_of_le (Nat.le_of_add_le_add_left hrest)

theorem load_skipLost (h : skipLost c key channel = some c') : c'.load key < c.load key := by
  obtain ⟨hrx, hpending⟩ := skipLost_frees h
  rw [Ctx.load, Ctx.load, hrx]
  exact Nat.add_lt_add_left hpending _

/-- An iteration that takes a buffered frame frees its slot. -/
theorem load_takeBuffered {slot : RxSlot}
    (h : takeBuffered c key channel = some (c', slot)) : c'.load key + 2 ≤ c.load key := by
  simp only [takeBuffered] at h
  split at h
  · cases h
  · split at h
    · cases h
    · next _ i _ _ slot hentry =>
        cases h
        have hcard := congrArg Multiset.card (held_set_none hentry)
        rw [Multiset.card_cons] at hcard
        have hlighter : Lighter (c.setRx (c.rx.set i none))
            ((c.setRx (c.rx.set i none)).setExpected key channel
              ((c.peer key).expectedSeq channel + 1)) :=
          (Lighter.refl _).setExpected _
        have hrest := hlighter.load key
        have hfreed : (c.setRx (c.rx.set i none)).load key =
            2 * (held (c.rx.set i none)).card + (held (c.peer key).pendingLost).card := rfl
        have hload : c.load key = 2 * ((held (c.rx.set i none)).card + 1) +
            (held (c.peer key).pendingLost).card := by
          rw [Ctx.load, hcard]
        omega

/-! ## The loop and its calls end -/

variable {deliver : Deliver} {consume : Ctx → Option Ctx} {m : ℕ}

/-- `receiver_drop_range` ends if `consume_contiguous` does, and takes at most one
pending-lost entry. -/
theorem receiverDropRangeWithin_ends
    (hconsume : ∀ c, c.load key < m → ∃ c', consume c = some c' ∧ c'.load key ≤ c.load key)
    (hload : c.load key < m) (reason : LostReason) (first last : U32) :
    ∃ c', receiverDropRangeWithin consume c key channel reason first last = some c' ∧
      c'.load key ≤ c.load key + 1 := by
  have hforget : Lighter c (forgetRange c key channel reason first last) :=
    (Lighter.refl c).forgetRange
  have hforgetLoad := hforget.load key
  simp only [receiverDropRangeWithin]
  split
  · have hexpected : Lighter c ((forgetRange c key channel reason first last).setExpected key
        channel (last + 1)) :=
      hforget.setExpected _
    obtain ⟨c', hc', hle⟩ := hconsume _ ((hexpected.load key).trans_lt hload)
    rw [hc']
    refine ⟨_, rfl, ((Lighter.refl c').sendLostPacket.load key).trans ?_⟩
    exact (hle.trans (hexpected.load key)).trans (Nat.le_succ _)
  · split
    · have hadd := card_pendingLostAdd channel
        ((forgetRange c key channel reason first last).peer key).pendingLost first last
      have hset := load_setPending (forgetRange c key channel reason first last) key
        (pendingLostAdd channel
          ((forgetRange c key channel reason first last).peer key).pendingLost first last).1
      have hadded : ((forgetRange c key channel reason first last).setPending key
          (pendingLostAdd channel
            ((forgetRange c key channel reason first last).peer key).pendingLost
            first last).1).load key ≤ c.load key + 1 := by
        rw [Ctx.load] at hforgetLoad
        omega
      split
      · exact ⟨_, rfl, ((Lighter.refl _).sendLostPacket.load key).trans hadded⟩
      · exact ⟨_, rfl, ((Lighter.refl _).clearPeerBuffers.load key).trans hadded⟩
    · exact ⟨_, rfl, (hforget.sendLostPacket.load key).trans (Nat.le_succ _)⟩

/-- `deliver_fragment` ends if `consume_contiguous` does. -/
theorem deliverFragmentWithin_ends
    (hconsume : ∀ c, c.load key < m → ∃ c', consume c = some c' ∧ c'.load key ≤ c.load key)
    (hload : c.load key < m) (rh : ReliableHdr) (payload : List UInt8) (now : U32) :
    ∃ c', deliverFragmentWithin deliver consume c key rh payload now = some c' ∧
      c'.load key ≤ c.load key + 1 := by
  have hhand : Lighter c (c.emit (.handOff key rh payload)) := (Lighter.refl c).emit _
  have hfind : Lighter c (reassemblyFind (c.emit (.handOff key rh payload)) key rh true now).1 :=
    hhand.reassemblyFind
  have hkeep {c' : Ctx} (h : Lighter c c') : c'.load key ≤ c.load key + 1 :=
    (h.load key).trans (Nat.le_succ _)
  simp only [deliverFragmentWithin]
  split
  · exact ⟨_, rfl, hkeep hhand.callDeliver⟩
  · split
    · exact ⟨_, rfl, hkeep hhand⟩
    · split
      · next heq =>
          rw [heq] at hfind
          have hfailed : Lighter c (reassemblyFailed _ key rh) := hfind.reassemblyFailed
          obtain ⟨c', hc', hle⟩ := receiverDropRangeWithin_ends hconsume
            ((hfailed.load key).trans_lt hload) .overflow rh.firstSeq rh.lastSeq
          exact ⟨c', hc', hle.trans (Nat.succ_le_succ (hfailed.load key))⟩
      · next heq =>
          rw [heq] at hfind
          split
          · exact ⟨_, rfl, hkeep hfind⟩
          · exact ⟨_, rfl, hkeep hfind.storeFragmentWith⟩

/-- `consume_contiguous` ends within the load and one more iteration. -/
theorem consumeContiguousWithin_ends (deliver : Deliver) (now : U32) (n : ℕ) (c : Ctx)
    (channel : ℕ) (hload : c.load key < n) :
    ∃ c', consumeContiguousWithin deliver now n c key channel = some c' ∧
      c'.load key ≤ c.load key := by
  induction n generalizing c channel with
  | zero => exact absurd hload (Nat.not_lt_zero _)
  | succ n ih =>
      simp only [consumeContiguousWithin]
      split
      · next c₁ hskip =>
          have hfreed := load_skipLost hskip
          obtain ⟨c', hc', hle⟩ := ih c₁ channel (by omega)
          exact ⟨c', hc', by omega⟩
      · split
        · exact ⟨c, rfl, Nat.le_refl _⟩
        · next c₁ slot htake =>
            have hfreed := load_takeBuffered htake
            have htaken : c₁.load key < n := by omega
            obtain ⟨c₂, hc₂, hle₂⟩ := @deliverFragmentWithin_ends _ _ deliver _ _
              (fun c => ih c slot.hdr.channelId) htaken slot.hdr slot.payload now
            obtain ⟨c', hc', hle⟩ := ih c₂ channel (by omega)
            rw [hc₂]
            exact ⟨c', hc', by omega⟩

end Load

/-! ## More iterations change nothing -/

section Mono

variable {deliver : Deliver} {key : Mac} {c c' : Ctx} {n m : ℕ}

/-- What `f` gives, `g` gives too. -/
def Extends {α : Type} (f g : Ctx → Option α) : Prop :=
  ∀ c a, f c = some a → g c = some a

theorem Extends.map {α : Type} {f g : Ctx → Option Ctx} (h : Extends f g) (k : Ctx → α) :
    Extends (fun c => (f c).map k) fun c => (g c).map k := by
  intro c a ha
  obtain ⟨c', hc', rfl⟩ := Option.map_eq_some_iff.1 ha
  exact Option.map_eq_some_iff.2 ⟨c', h c c' hc', rfl⟩

theorem Extends.bind {f g : Ctx → Option Ctx} (h : Extends f g) {k l : Ctx → Option Ctx}
    (hk : Extends k l) : Extends (fun c => (f c).bind k) fun c => (g c).bind l := by
  intro c a ha
  obtain ⟨c', hc', hr⟩ := Option.bind_eq_some_iff.1 ha
  exact Option.bind_eq_some_iff.2 ⟨c', h c c' hc', hk c' a hr⟩

variable {consume consume' : Ctx → Option Ctx}

theorem receiverDropRangeWithin_mono (h : Extends consume consume') (key : Mac) (channel : ℕ)
    (reason : LostReason) (first last : U32) :
    Extends (receiverDropRangeWithin consume · key channel reason first last)
      (receiverDropRangeWithin consume' · key channel reason first last) := by
  intro c c' hc
  simp only [receiverDropRangeWithin] at hc ⊢
  split
  · next hin =>
      rw [if_pos hin] at hc
      exact h.map _ _ _ hc
  · next hin =>
      rwa [if_neg hin] at hc

theorem deliverFragmentWithin_mono (h : Extends consume consume') (key : Mac)
    (rh : ReliableHdr) (payload : List UInt8) (now : U32) :
    Extends (deliverFragmentWithin deliver consume · key rh payload now)
      (deliverFragmentWithin deliver consume' · key rh payload now) := by
  intro c c' hc
  simp only [deliverFragmentWithin] at hc ⊢
  split
  · next hsingle => rwa [if_pos hsingle] at hc
  · next hsingle =>
      rw [if_neg hsingle] at hc
      split
      · next hbad => rwa [if_pos hbad] at hc
      · next hbad =>
          rw [if_neg hbad] at hc
          split
          · next heq =>
              simp only [heq] at hc
              exact receiverDropRangeWithin_mono h _ _ _ _ _ _ _ hc
          · next heq =>
              simp only [heq] at hc
              exact hc

theorem consumeContiguousWithin_mono (deliver : Deliver) (now : U32) (hnm : n ≤ m) (key : Mac)
    (channel : ℕ) :
    Extends (consumeContiguousWithin deliver now n · key channel)
      (consumeContiguousWithin deliver now m · key channel) := by
  induction n generalizing m channel with
  | zero =>
      intro c c' hc
      cases hc
  | succ n ih =>
      obtain ⟨m, rfl⟩ : ∃ k, m = k + 1 := ⟨m - 1, by omega⟩
      have hn : n ≤ m := Nat.le_of_succ_le_succ hnm
      intro c c' hc
      simp only [consumeContiguousWithin] at hc ⊢
      split
      · next c₁ hskip =>
          simp only [hskip] at hc
          exact ih hn channel c₁ c' hc
      · next hskip =>
          simp only [hskip] at hc
          split
          · next htake =>
              simp only [htake] at hc
              exact hc
          · next c₁ slot htake =>
              simp only [htake] at hc
              exact (deliverFragmentWithin_mono (ih hn slot.hdr.channelId) key slot.hdr
                slot.payload now).bind (ih hn channel) c₁ c' hc

theorem acceptDataWithin_mono (hnm : n ≤ m) (key : Mac) (rh : ReliableHdr)
    (payload : List UInt8) (now : U32) :
    Extends (acceptDataWithin deliver n · key rh payload now)
      (acceptDataWithin deliver m · key rh payload now) := by
  have hconsume := consumeContiguousWithin_mono deliver now hnm key rh.channelId
  intro c r hc
  simp only [acceptDataWithin] at hc ⊢
  split
  · next hbefore => rwa [if_pos hbefore] at hc
  · next hbefore =>
      rw [if_neg hbefore] at hc
      split
      · next hnow =>
          rw [if_pos hnow] at hc
          exact ((deliverFragmentWithin_mono hconsume key rh _ now).bind hconsume).map _ _ _ hc
      · next hnow =>
          rw [if_neg hnow] at hc
          split
          · next hfar => rwa [if_pos hfar] at hc
          · next hfar =>
              rw [if_neg hfar] at hc
              split
              · next hheld => rwa [if_pos hheld] at hc
              · next hheld =>
                  rw [if_neg hheld] at hc
                  split
                  · next halloc =>
                      simp only [halloc] at hc
                      exact (receiverDropRangeWithin_mono hconsume key _ _ _ _).map _ _ _ hc
                  · next halloc =>
                      simp only [halloc] at hc
                      exact hc

theorem handleDataWithin_mono (hnm : n ≤ m) (src : Mac) (rh : ReliableHdr)
    (payload : List UInt8) (now : U32) :
    Extends (handleDataWithin deliver n · src rh payload now)
      (handleDataWithin deliver m · src rh payload now) := by
  intro c r hc
  simp only [handleDataWithin] at hc ⊢
  split
  · next hbad => rwa [if_pos hbad] at hc
  · next hbad =>
      rw [if_neg hbad] at hc
      split
      · next hkey =>
          simp only [hkey] at hc
          exact hc
      · next key hkey =>
          simp only [hkey] at hc
          split
          · next hlatest =>
              rw [if_pos hlatest] at hc
              split
              · next hwrong => rwa [if_pos hwrong] at hc
              · next hwrong =>
                  rw [if_neg hwrong] at hc
                  split
                  · next hnewer =>
                      rw [if_pos hnewer] at hc
                      exact acceptDataWithin_mono hnm key rh payload now _ _ hc
                  · next hnewer =>
                      rw [if_neg hnewer] at hc
                      exact acceptDataWithin_mono hnm key rh payload now _ _ hc
          · next hlatest =>
              rw [if_neg hlatest] at hc
              exact acceptDataWithin_mono hnm key rh payload now _ _ hc

theorem handleLostPacketWithin_mono (hnm : n ≤ m) (src : Mac) (lost : LostPayload)
    (now : U32) :
    Extends (handleLostPacketWithin deliver n · src lost now)
      (handleLostPacketWithin deliver m · src lost now) := by
  intro c r hc
  simp only [handleLostPacketWithin] at hc ⊢
  split
  · next hkey =>
      simp only [hkey] at hc
      exact hc
  · next key hkey =>
      simp only [hkey] at hc
      split
      · next hwrong => rwa [if_pos hwrong] at hc
      · next hwrong =>
          rw [if_neg hwrong] at hc
          split
          · next hdrop => rwa [if_pos hdrop] at hc
          · next hdrop =>
              rw [if_neg hdrop] at hc
              split
              · next hin =>
                  rw [if_pos hin] at hc
                  exact (consumeContiguousWithin_mono deliver now hnm key _).map _ _ _ hc
              · next hin => rwa [if_neg hin] at hc

theorem handleRxWithin_mono (hnm : n ≤ m) (src : Mac) (packet : Packet) (now : U32) :
    Extends (handleRxWithin deliver n · src packet now)
      (handleRxWithin deliver m · src packet now) := by
  intro c r hc
  simp only [handleRxWithin] at hc ⊢
  split
  · next hsrc => rwa [if_pos hsrc] at hc
  · next hsrc =>
      rw [if_neg hsrc] at hc
      cases hbody : packet.body with
      | data rh payload =>
          simp only [hbody] at hc
          exact handleDataWithin_mono hnm src rh payload now c r hc
      | lost lost =>
          simp only [hbody] at hc
          exact handleLostPacketWithin_mono hnm src lost now c r hc
      | hello hello => simpa only [hbody] using hc
      | helloAck ack => simpa only [hbody] using hc
      | ack ack => simpa only [hbody] using hc
      | nack ack => simpa only [hbody] using hc

end Mono

/-! ## The packet handlers end -/

section Ends

variable {deliver : Deliver} {key : Mac} {c : Ctx} {n : ℕ}

theorem acceptDataWithin_ends (hload : c.load key + 1 < n) (rh : ReliableHdr)
    (payload : List UInt8) (now : U32) :
    ∃ r, acceptDataWithin deliver n c key rh payload now = some r := by
  have hconsume (c : Ctx) (h : c.load key < n) :=
    consumeContiguousWithin_ends deliver now n c rh.channelId h
  simp only [acceptDataWithin]
  split
  · exact ⟨_, rfl⟩
  split
  · have hexpected : Lighter c (c.setExpected key rh.channelId
        ((c.peer key).expectedSeq rh.channelId + 1)) :=
      (Lighter.refl c).setExpected _
    have hstart := (hexpected.load key).trans_lt (Nat.lt_of_succ_lt hload)
    obtain ⟨c₁, hc₁, hle⟩ := @deliverFragmentWithin_ends _ _ deliver _ _ hconsume hstart rh
      (payload.take rh.payloadLen) now
    have hdelivered := hexpected.load key
    obtain ⟨c₂, hc₂, -⟩ := hconsume c₁ (by omega)
    rw [hc₁, Option.bind_some, hc₂]
    exact ⟨_, rfl⟩
  split
  · exact ⟨_, rfl⟩
  split
  · exact ⟨_, rfl⟩
  split
  · have hcount : Lighter c ((c.emit (.exhausted key)).modPeer key Peer.countOverflow) :=
      ((Lighter.refl c).emit _).modPeer (fun _ => rfl) (fun _ => Nat.le_refl _)
    obtain ⟨c', hc', -⟩ := receiverDropRangeWithin_ends hconsume
      ((hcount.load key).trans_lt (Nat.lt_of_succ_lt hload)) .overflow rh.seq rh.seq
    rw [hc']
    exact ⟨_, rfl⟩
  · exact ⟨_, rfl⟩

theorem handleDataWithin_ends (deliver : Deliver) (c : Ctx) (src : Mac) (rh : ReliableHdr)
    (payload : List UInt8) (now : U32) :
    ∃ n r, handleDataWithin deliver n c src rh payload now = some r := by
  simp only [handleDataWithin]
  split
  · exact ⟨0, _, rfl⟩
  split
  · exact ⟨0, _, rfl⟩
  split
  · split
    · exact ⟨0, _, rfl⟩
    · split
      · exact ⟨_, acceptDataWithin_ends (Nat.lt_succ_self _) rh payload now⟩
      · exact ⟨_, acceptDataWithin_ends (Nat.lt_succ_self _) rh payload now⟩
  · exact ⟨_, acceptDataWithin_ends (Nat.lt_succ_self _) rh payload now⟩

theorem handleLostPacketWithin_ends (deliver : Deliver) (c : Ctx) (src : Mac)
    (lost : LostPayload) (now : U32) :
    ∃ n r, handleLostPacketWithin deliver n c src lost now = some r := by
  simp only [handleLostPacketWithin]
  split
  · exact ⟨0, _, rfl⟩
  next key _ =>
    split
    · exact ⟨0, _, rfl⟩
    split
    · exact ⟨0, _, rfl⟩
    split
    · set c₁ := (peerFind c src false now).1.setExpected key lost.channelId (lost.seqLast + 1)
      obtain ⟨c', hc', -⟩ := consumeContiguousWithin_ends deliver now _ c₁ lost.channelId
        (Nat.lt_succ_self (c₁.load key))
      exact ⟨_, _, Option.map_eq_some_iff.2 ⟨c', hc', rfl⟩⟩
    split
    · split
      · exact ⟨0, _, rfl⟩
      · exact ⟨0, _, rfl⟩
    · exact ⟨0, _, rfl⟩

/-- Every packet is handled in finitely many iterations. -/
theorem handleRxWithin_ends (deliver : Deliver) (c : Ctx) (src : Mac) (packet : Packet)
    (now : U32) : ∃ n r, handleRxWithin deliver n c src packet now = some r := by
  simp only [handleRxWithin]
  split
  · exact ⟨0, _, rfl⟩
  split
  · exact ⟨0, _, rfl⟩
  · exact ⟨0, _, rfl⟩
  · exact handleDataWithin_ends deliver c src _ _ now
  · exact ⟨0, _, rfl⟩
  · exact ⟨0, _, rfl⟩
  · exact handleLostPacketWithin_ends deliver c src _ now

/-- The merge passes of `pending_lost_add` end: the counter is used up, or a pass
merges nothing. -/
theorem pendingLostMerge_passes (channel n : ℕ) (table : List (Option PendingLostRange))
    (first last : U32) :
    ∃ k ≤ n, (Option.bind · fun merged =>
          pendingLostPass channel merged.1 merged.2.1 merged.2.2)^[k]
        (some (table, first, last)) = some (pendingLostMerge channel n table first last) ∧
      (k < n → pendingLostPass channel (pendingLostMerge channel n table first last).1
        (pendingLostMerge channel n table first last).2.1
        (pendingLostMerge channel n table first last).2.2 = none) := by
  induction n generalizing table first last with
  | zero => exact ⟨0, Nat.le_refl 0, rfl, fun h => absurd h (Nat.lt_irrefl 0)⟩
  | succ n ih =>
      cases hpass : pendingLostPass channel table first last with
      | none =>
          have hmerge : pendingLostMerge channel (n + 1) table first last =
              (table, first, last) := by
            simp only [pendingLostMerge, hpass]
          rw [hmerge]
          exact ⟨0, Nat.zero_le _, rfl, fun _ => hpass⟩
      | some merged =>
          obtain ⟨table', first', last'⟩ := merged
          have hmerge : pendingLostMerge channel (n + 1) table first last =
              pendingLostMerge channel n table' first' last' := by
            simp only [pendingLostMerge, hpass]
          obtain ⟨k, hk, hiterate, hlast⟩ := ih table' first' last'
          rw [hmerge]
          refine ⟨k + 1, Nat.succ_le_succ hk, ?_, fun h => hlast (Nat.lt_of_succ_lt_succ h)⟩
          rw [Function.iterate_succ_apply, Option.bind_some, hpass]
          exact hiterate

/-- From every context, for every packet and every callback that submits, the receive
path ends, and its result does not depend on the bound.  Skipping a lost range frees
an entry each time, and the merge passes of `pending_lost_add` end. -/
theorem receivePath_ends (deliver : Deliver) :
    (∀ c key channel now, ∃ n c', ∀ m, n ≤ m →
        consumeContiguousWithin deliver now m c key channel = some c') ∧
      (∀ c src packet now, ∃ n r, ∀ m, n ≤ m →
        handleRxWithin deliver m c src packet now = some r) ∧
      (∀ c c' key channel, skipLost c key channel = some c' → c'.rx = c.rx ∧
        (held (c'.peer key).pendingLost).card < (held (c.peer key).pendingLost).card) ∧
      ∀ channel table first last, ∃ k ≤ pendingLostRanges, (Option.bind · fun merged =>
          pendingLostPass channel merged.1 merged.2.1 merged.2.2)^[k]
        (some (table, first, last)) =
          some (pendingLostMerge channel pendingLostRanges table first last) := by
  refine ⟨?_, ?_, fun c c' key channel => skipLost_frees, ?_⟩
  · intro c key channel now
    obtain ⟨c', hc', -⟩ := consumeContiguousWithin_ends deliver now _ c channel
      (Nat.lt_succ_self (c.load key))
    exact ⟨_, c', fun m hm => consumeContiguousWithin_mono deliver now hm key channel c c' hc'⟩
  · intro c src packet now
    obtain ⟨n, r, hr⟩ := handleRxWithin_ends deliver c src packet now
    exact ⟨n, r, fun m hm => handleRxWithin_mono hm src packet now c r hr⟩
  · intro channel table first last
    obtain ⟨k, hk, hiterate, -⟩ :=
      pendingLostMerge_passes channel pendingLostRanges table first last
    exact ⟨k, hk, hiterate⟩

end Ends

/-! ## The bounded loop is the loop -/

section Bounded

variable {key : Mac} {channel : ℕ} {c c' : Ctx} {n : ℕ}
  {consume : Ctx → Option Ctx} {total : Ctx → Ctx}

/-- Where `consume` gives a result, `total` gives it too. -/
def Computes (consume : Ctx → Option Ctx) (total : Ctx → Ctx) : Prop :=
  ∀ c c', consume c = some c' → total c = c'

theorem receiverDropRangeWithin_eq (h : Computes consume total) {reason : LostReason}
    {first last : U32}
    (hc : receiverDropRangeWithin consume c key channel reason first last = some c') :
    receiverDropRange total c key channel reason first last = c' := by
  simp only [receiverDropRangeWithin] at hc
  simp only [receiverDropRange]
  split
  · next hin =>
      rw [if_pos hin] at hc
      obtain ⟨c₁, hc₁, rfl⟩ := Option.map_eq_some_iff.1 hc
      rw [h _ _ hc₁]
  · next hin =>
      rw [if_neg hin] at hc
      split
      · next hbefore =>
          rw [if_pos hbefore] at hc
          split
          · next hadded =>
              rw [if_pos hadded] at hc
              exact Option.some.inj hc
          · next hadded =>
              rw [if_neg hadded] at hc
              exact Option.some.inj hc
      · next hbefore =>
          rw [if_neg hbefore] at hc
          exact Option.some.inj hc

theorem storeFragmentWith_noSubmissions (c : Ctx) (key : Mac) (i : ℕ) (slot : ReassemblySlot)
    (rh : ReliableHdr) (payload : List UInt8) (now : U32) :
    storeFragmentWith noSubmissions c key i slot rh payload now =
      storeFragment c key i slot rh payload now := by
  simp only [storeFragmentWith, storeFragment]
  split
  · simp only [callDeliver, noSubmissions, submitAll, List.foldl_nil, Ctx.setReassembly,
      Ctx.emit, Ctx.peerSendMac, Ctx.peer, Ctx.peerAt, List.set_set]
    rfl
  · rfl

theorem deliverFragmentWithin_eq (h : Computes consume total) {rh : ReliableHdr}
    {payload : List UInt8} {now : U32}
    (hc : deliverFragmentWithin noSubmissions consume c key rh payload now = some c') :
    deliverFragment total c key rh payload now = c' := by
  simp only [deliverFragmentWithin] at hc
  simp only [deliverFragment]
  split
  · next hsingle =>
      rw [if_pos hsingle] at hc
      exact Option.some.inj hc
  · next hsingle =>
      rw [if_neg hsingle] at hc
      split
      · next hbad =>
          rw [if_pos hbad] at hc
          exact Option.some.inj hc
      · next hbad =>
          rw [if_neg hbad] at hc
          split
          · next heq =>
              simp only [heq] at hc
              exact receiverDropRangeWithin_eq h hc
          · next heq =>
              simp only [heq] at hc
              split
              · next hentry =>
                  simp only [hentry] at hc
                  exact Option.some.inj hc
              · next hentry =>
                  simp only [hentry, storeFragmentWith_noSubmissions] at hc
                  exact Option.some.inj hc

theorem consumeContiguousWithin_eq (now : U32) (key : Mac) (channel : ℕ) :
    Computes (consumeContiguousWithin noSubmissions now n · key channel)
      (consumeContiguous n · key channel now) := by
  induction n generalizing channel with
  | zero =>
      intro c c' hc
      cases hc
  | succ n ih =>
      intro c c' hc
      simp only [consumeContiguousWithin] at hc
      simp only [consumeContiguous]
      split
      · next c₁ hskip =>
          simp only [hskip] at hc
          exact ih channel c₁ c' hc
      · next hskip =>
          simp only [hskip] at hc
          split
          · next htake =>
              simp only [htake] at hc
              exact Option.some.inj hc
          · next c₁ slot htake =>
              simp only [htake] at hc
              obtain ⟨c₂, hc₂, hrest⟩ := Option.bind_eq_some_iff.1 hc
              rw [deliverFragmentWithin_eq (ih slot.hdr.channelId) hc₂]
              exact ih channel c₂ c' hrest

theorem Ctx.load_lt_drainFuel (c : Ctx) (key : Mac) : c.load key < drainFuel c key := by
  have hrx := card_held_le_length c.rx
  have hpending := card_held_le_length (c.peer key).pendingLost
  rw [Ctx.load, drainFuel]
  omega

/-- The bound that `drain` chooses is enough for every context. -/
theorem drain_eq (now : U32) (key : Mac) (channel : ℕ) :
    Computes (consumeContiguousWithin noSubmissions now n · key channel)
      (drain · key channel now) := by
  intro c c' hc
  obtain ⟨c₁, hc₁, -⟩ := consumeContiguousWithin_ends noSubmissions now _ c channel
    (Ctx.load_lt_drainFuel c key)
  have hmax := consumeContiguousWithin_mono noSubmissions now
    (Nat.le_max_left n (drainFuel c key)) key channel c c' hc
  have hmax₁ := consumeContiguousWithin_mono noSubmissions now
    (Nat.le_max_right n (drainFuel c key)) key channel c c₁ hc₁
  have hsame : c₁ = c' := Option.some.inj (hmax₁.symm.trans hmax)
  exact hsame ▸ consumeContiguousWithin_eq now key channel c c₁ hc₁

theorem acceptDataWithin_eq {rh : ReliableHdr} {payload : List UInt8} {now : U32}
    {r : Ctx × EspErr}
    (hc : acceptDataWithin noSubmissions n c key rh payload now = some r) :
    acceptData c key rh payload now = r := by
  have hdrain := @drain_eq n now key rh.channelId
  simp only [acceptDataWithin] at hc
  simp only [acceptData]
  split
  · next hbefore =>
      rw [if_pos hbefore] at hc
      exact Option.some.inj hc
  next hbefore =>
  rw [if_neg hbefore] at hc
  split
  · next hnow =>
      rw [if_pos hnow] at hc
      obtain ⟨c₂, hc₂, rfl⟩ := Option.map_eq_some_iff.1 hc
      obtain ⟨c₁, hc₁, hrest⟩ := Option.bind_eq_some_iff.1 hc₂
      have hlast : drain c₁ key rh.channelId now = c₂ := hdrain c₁ c₂ hrest
      rw [deliverFragmentWithin_eq hdrain hc₁, hlast]
  next hnow =>
  rw [if_neg hnow] at hc
  split
  · next hfar =>
      rw [if_pos hfar] at hc
      exact Option.some.inj hc
  next hfar =>
  rw [if_neg hfar] at hc
  split
  · next hheld =>
      rw [if_pos hheld] at hc
      exact Option.some.inj hc
  next hheld =>
  rw [if_neg hheld] at hc
  split
  · next halloc =>
      simp only [halloc] at hc
      obtain ⟨c₁, hc₁, rfl⟩ := Option.map_eq_some_iff.1 hc
      rw [receiverDropRangeWithin_eq hdrain hc₁]
  · next halloc =>
      simp only [halloc] at hc
      exact Option.some.inj hc

theorem handleDataWithin_eq {src : Mac} {rh : ReliableHdr} {payload : List UInt8} {now : U32}
    {r : Ctx × EspErr}
    (hc : handleDataWithin noSubmissions n c src rh payload now = some r) :
    handleData c src rh payload now = r := by
  simp only [handleDataWithin] at hc
  simp only [handleData]
  split
  · next hbad =>
      rw [if_pos hbad] at hc
      exact Option.some.inj hc
  next hbad =>
  rw [if_neg hbad] at hc
  split
  · next hkey =>
      simp only [hkey] at hc
      exact Option.some.inj hc
  next key hkey =>
  simp only [hkey] at hc
  split
  · next hlatest =>
      rw [if_pos hlatest] at hc
      split
      · next hwrong =>
          rw [if_pos hwrong] at hc
          exact Option.some.inj hc
      · next hwrong =>
          rw [if_neg hwrong] at hc
          split
          · next hnewer =>
              rw [if_pos hnewer] at hc
              exact acceptDataWithin_eq hc
          · next hnewer =>
              rw [if_neg hnewer] at hc
              exact acceptDataWithin_eq hc
  · next hlatest =>
      rw [if_neg hlatest] at hc
      exact acceptDataWithin_eq hc

theorem handleLostPacketWithin_eq {src : Mac} {lost : LostPayload} {now : U32}
    {r : Ctx × EspErr} (hc : handleLostPacketWithin noSubmissions n c src lost now = some r) :
    handleLostPacket c src lost now = r := by
  simp only [handleLostPacketWithin] at hc
  simp only [handleLostPacket]
  split
  · next hkey =>
      simp only [hkey] at hc
      exact Option.some.inj hc
  next key hkey =>
  simp only [hkey] at hc
  split
  · next hwrong =>
      rw [if_pos hwrong] at hc
      exact Option.some.inj hc
  next hwrong =>
  rw [if_neg hwrong] at hc
  split
  · next hdrop =>
      rw [if_pos hdrop] at hc
      exact Option.some.inj hc
  next hdrop =>
  rw [if_neg hdrop] at hc
  split
  · next hin =>
      rw [if_pos hin] at hc
      obtain ⟨c₁, hc₁, rfl⟩ := Option.map_eq_some_iff.1 hc
      have hdrained : drain _ key lost.channelId now = c₁ :=
        drain_eq now key lost.channelId _ c₁ hc₁
      rw [hdrained]
  next hin =>
  rw [if_neg hin] at hc
  split
  · next hbefore =>
      rw [if_pos hbefore] at hc
      split
      · next hadded =>
          rw [if_pos hadded] at hc
          exact Option.some.inj hc
      · next hadded =>
          rw [if_neg hadded] at hc
          exact Option.some.inj hc
  · next hbefore =>
      rw [if_neg hbefore] at hc
      exact Option.some.inj hc

/-- With a callback that submits nothing the result is that of `handleRx`, whose loop
is bounded. -/
theorem handleRxWithin_eq {src : Mac} {packet : Packet} {now : U32} {r : Ctx × EspErr}
    (hc : handleRxWithin noSubmissions n c src packet now = some r) :
    handleRx c src packet now = r := by
  simp only [handleRxWithin] at hc
  simp only [handleRx]
  split
  · next hsrc =>
      rw [if_pos hsrc] at hc
      exact Option.some.inj hc
  next hsrc =>
  rw [if_neg hsrc] at hc
  cases hbody : packet.body with
  | data rh payload =>
      simp only [hbody] at hc
      exact handleDataWithin_eq hc
  | lost lost =>
      simp only [hbody] at hc
      exact handleLostPacketWithin_eq hc
  | hello hello => simpa only [hbody, Option.some.injEq] using hc
  | helloAck ack => simpa only [hbody, Option.some.injEq] using hc
  | ack ack => simpa only [hbody, Option.some.injEq] using hc
  | nack ack => simpa only [hbody, Option.some.injEq] using hc

end Bounded

end KeemashCore.Rel

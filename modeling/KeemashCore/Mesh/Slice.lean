import KeemashCore.Mesh.System
import KeemashCore.SelectiveRepeat.Order

/-!
# The part of a context that one channel of one peer uses

A context serves many peers and channels.  `Ctx.slice` collects what belongs to
one peer and channel: the two counters, the slots, the pending-lost ranges and
the effects.  Seen as the two ends of a selective-repeat link, a slice is both
the sender of one direction and the receiver of the other.

`Touches` says which slices an operation may change, so that every result about
one slice holds whatever happens on the others.
-/

namespace KeemashCore.Rel

open SlotTable SelectiveRepeat

/-! ## Frames -/

/-- What a frame says, apart from its number and the fields that a
retransmission rewrites. -/
structure Frame where
  channelId : ℕ
  streamId : U32
  fragmentIndex : ℕ
  fragmentCount : ℕ
  payloadLen : ℕ
  payload : List UInt8
  latest : Bool
  deriving DecidableEq, Repr, Inhabited

def ReliableHdr.frame (rh : ReliableHdr) (payload : List UInt8) : Frame where
  channelId := rh.channelId
  streamId := rh.streamId
  fragmentIndex := rh.fragmentIndex
  fragmentCount := rh.fragmentCount
  payloadLen := rh.payloadLen
  payload := payload
  latest := rh.flags &&& flagLatest != 0

/-- A frame as `keemash_rel_submit` builds it. -/
structure Frame.Valid (channel : ℕ) (f : Frame) : Prop where
  channel_eq : f.channelId = channel
  latest_eq : f.latest = (channel == channelTime)
  index_lt : f.fragmentIndex < f.fragmentCount
  count_le : f.fragmentCount ≤ reliableMaxFragments
  payload_len : f.payloadLen = f.payload.length
  payload_le : f.payload.length ≤ reliableInnerMax
  /-- Only the last fragment may be short. -/
  payload_full : f.fragmentIndex + 1 < f.fragmentCount →
    f.payload.length = reliableInnerMax

/-! ## Effects -/

/-- The channel a packet belongs to; handshake packets belong to none. -/
def Body.channel? : Body → Option ℕ
  | .hello _ => none
  | .helloAck _ => none
  | .data rh _ => some rh.channelId
  | .ack a => some a.channelId
  | .nack a => some a.channelId
  | .lost l => some l.channelId

/-- The effect belongs to channel `ch` of the peer stored under `k`. -/
def Effect.concerns (k : Mac) (ch : ℕ) : Effect → Bool
  | .send key packet => key == k && packet.body.channel? == some ch
  | .deliver key _ channel _ _ => key == k && channel == ch
  | .event _ key _ channel _ _ _ => key == k && channel == ch
  | .handOff key rh _ => key == k && rh.channelId == ch
  | .queued key rh _ => key == k && rh.channelId == ch
  | .accepted key channel _ _ _ => key == k && channel == ch
  | .exhausted _ => false
  | .fragmentsExpired _ => false
  | .cleared _ => false

/-- The event callback was called for the peer stored under `k`. -/
def Effect.reports (k : Mac) : Effect → Bool
  | .event _ key _ _ _ _ _ => key == k
  | _ => false

/-- A frame stored by `keemash_rel_submit`. -/
def Effect.stored? : Effect → Option (ℕ × Frame)
  | .queued _ rh payload => some (rh.seq.toNat, rh.frame payload)
  | _ => none

/-- A transmitted DATA frame. -/
def Effect.data? : Effect → Option (ℕ × Frame)
  | .send _ ⟨_, _, .data rh payload⟩ => some (rh.seq.toNat, rh.frame payload)
  | _ => none

/-- A transmitted LOST range; `drop` selects those with the receiver-drop flag. -/
def Effect.lost? (drop : Bool) : Effect → Option (ℕ × ℕ)
  | .send _ ⟨_, _, .lost lost⟩ =>
      if (lost.rsv &&& lostFlagReceiverDrop != 0) = drop
      then some (lost.seqFirst.toNat, lost.seqLast.toNat) else none
  | _ => none

/-- A range reported through the event callback. -/
def Effect.report? (role : Role) : Effect → Option (ℕ × ℕ)
  | .event role' _ _ _ _ first last =>
      if role' = role then some (first.toNat, last.toNat) else none
  | _ => none

/-- A frame handed to `deliver_fragment`. -/
def Effect.handed? : Effect → Option (ℕ × Frame)
  | .handOff _ rh payload => some (rh.seq.toNat, rh.frame payload)
  | _ => none

/-- The numbers selected by the bitmap of an acknowledgement. -/
def AckPayload.sacked (ack : AckPayload) : Set ℕ :=
  {n | ack.ackSeq.toNat < n ∧ n - ack.ackSeq.toNat - 1 < reliableWindow ∧
    ack.sackBitmap.getLsbD (n - ack.ackSeq.toNat - 1) = true}

/-- A transmitted ACK or NACK. -/
def Effect.ack? : Effect → Option (ℕ × Set ℕ)
  | .send _ ⟨_, _, .ack ack⟩ => some (ack.ackSeq.toNat, ack.sacked)
  | .send _ ⟨_, _, .nack ack⟩ => some (ack.ackSeq.toNat, ack.sacked)
  | _ => none

/-- The number a transmitted NACK asks for. -/
def Effect.nack? : Effect → Option ℕ
  | .send _ ⟨_, _, .nack ack⟩ =>
      if ack.nackSeq = 0 then none else some ack.nackSeq.toNat
  | _ => none

/-- A message passed to the deliver callback. -/
def Effect.delivered? : Effect → Option (U32 × List UInt8)
  | .deliver _ _ _ bytes streamId => some (streamId, bytes)
  | _ => none

/-- A message accepted by `keemash_rel_submit`. -/
def Effect.accepted? : Effect → Option (ℕ × U32 × List UInt8)
  | .accepted _ _ streamId first payload => some (first.toNat, streamId, payload)
  | _ => none

/-- The values that a log yields. -/
def logged {α : Type} (g : Effect → Option α) (log : List Effect) : Set α :=
  {a | ∃ e ∈ log, g e = some a}

/-- The numbers of the ranges in a set. -/
def covered (ranges : Set (ℕ × ℕ)) : Set ℕ :=
  {n | ∃ x ∈ ranges, n ∈ Set.Icc x.1 x.2}

@[simp] theorem logged_append {α : Type} (g : Effect → Option α)
    (log log' : List Effect) : logged g (log ++ log') = logged g log ∪ logged g log' := by
  ext a
  simp [logged, or_and_right, exists_or]

@[simp] theorem logged_nil {α : Type} (g : Effect → Option α) :
    logged g [] = ∅ := by
  simp [logged]

theorem logged_singleton {α : Type} {g : Effect → Option α} {e : Effect} {a : α}
    (h : g e = some a) : logged g [e] = {a} := by
  ext b
  simp [logged, h, eq_comm]

theorem logged_singleton_none {α : Type} {g : Effect → Option α} {e : Effect}
    (h : g e = none) : logged g [e] = ∅ := by
  simp [logged, h]

theorem logged_append_none {α : Type} {g : Effect → Option α} {e : Effect}
    (h : g e = none) (log : List Effect) : logged g (log ++ [e]) = logged g log := by
  rw [logged_append, logged_singleton_none h, Set.union_empty]

@[simp] theorem covered_union (A B : Set (ℕ × ℕ)) :
    covered (A ∪ B) = covered A ∪ covered B := by
  ext n
  simp [covered, or_and_right, exists_or]

@[simp] theorem covered_empty : covered ∅ = ∅ := by
  simp [covered]

@[simp] theorem covered_singleton (x : ℕ × ℕ) :
    covered {x} = Set.Icc x.1 x.2 := by
  ext n
  simp [covered]

theorem covered_insert (x : ℕ × ℕ) (A : Set (ℕ × ℕ)) :
    covered (insert x A) = covered A ∪ Set.Icc x.1 x.2 := by
  rw [Set.insert_eq, Set.union_comm, covered_union, covered_singleton]

/-! ## Slices -/

/-- Readiness, session binding and address of a peer. -/
structure Binding where
  ready : Bool
  rootSessionId : U32
  nodeSessionId : U32
  remoteMac : Mac
  deriving DecidableEq, Repr

def Peer.binding (p : Peer) : Binding where
  ready := p.ready
  rootSessionId := p.rootSessionId
  nodeSessionId := p.nodeSessionId
  remoteMac := p.remoteMac

/-- What one channel of one peer uses of a context. -/
structure Slice where
  binding : Binding
  next : U32
  expected : U32
  tx : Multiset TxSlot
  rx : Multiset RxSlot
  reassembly : Multiset ReassemblySlot
  pending : List (Option PendingLostRange)
  log : List Effect

/-- The pending-lost table with the entries of one channel only. -/
def pendingOn (ch : ℕ) (table : List (Option PendingLostRange)) :
    List (Option PendingLostRange) :=
  freeWhere (fun range => range.channel != ch) table

def Ctx.slice (c : Ctx) (k : Mac) (ch : ℕ) : Slice where
  binding := (c.peer k).binding
  next := (c.peer k).nextSeq ch
  expected := (c.peer k).expectedSeq ch
  tx := (held c.tx).filter fun slot => slot.isFor k ch
  rx := (held c.rx).filter fun slot => slot.isFor k ch
  reassembly := (held c.reassembly).filter fun slot => slot.isFor k ch
  pending := pendingOn ch (c.peer k).pendingLost
  log := c.trace.filter fun e => e.concerns k ch

/-- The numbers of a pending-lost range. -/
def PendingLostRange.range (range : PendingLostRange) : ℕ × ℕ :=
  (range.first.toNat, range.last.toNat)

/-- The frame held in a tx slot, with its number. -/
def TxSlot.numbered (slot : TxSlot) : ℕ × Frame :=
  (slot.seq.toNat, slot.rh.frame slot.payload)

/-- The frame held in an rx slot, with its number. -/
def RxSlot.numbered (slot : RxSlot) : ℕ × Frame :=
  (slot.seq.toNat, slot.hdr.frame slot.payload)

/-- A slice as the sending end of a link. -/
def Slice.sender (s : Slice) : Sender Frame where
  next := s.next.toNat
  sent := logged Effect.stored? s.log
  tx := {x | ∃ slot ∈ s.tx, slot.numbered = x}
  data := logged Effect.data? s.log
  losts := logged (Effect.lost? false) s.log
  lost := covered (logged (Effect.report? .sent) s.log)

/-- A slice as the receiving end of a link. -/
def Slice.receiver (s : Slice) : Receiver Frame where
  exp := s.expected.toNat
  rx := {x | ∃ slot ∈ s.rx, slot.numbered = x}
  pend := covered {x | ∃ range ∈ held s.pending, range.range = x}
  handed := s.log.filterMap Effect.handed?
  acks := logged Effect.ack? s.log
  nacks := logged Effect.nack? s.log
  drops := logged (Effect.lost? true) s.log
  lost := covered (logged (Effect.report? .received) s.log)

/-! ## Peers -/

/-- A record is stored under the key. -/
def Ctx.has (c : Ctx) (key : Mac) : Prop :=
  (c.peerAt key).isSome = true

theorem peerAt_mac {c : Ctx} {key : Mac} {p : Peer} (h : c.peerAt key = some p) :
    p.mac = key := by
  simpa using List.find?_some h

theorem peerAt_modPeer {c : Ctx} {key : Mac} {f : Peer → Peer}
    (hf : ∀ p, (f p).mac = p.mac) (k : Mac) :
    (c.modPeer key f).peerAt k =
      (c.peerAt k).map fun p => if k = key then f p else p := by
  have hmac : ((fun p : Peer => p.mac == k) ∘ fun p : Peer =>
      if p.mac == key then f p else p) = fun p => p.mac == k := by
    funext p
    simp only [Function.comp_apply]
    split
    · rw [hf]
    · rfl
  have hused : used (c.modPeer key f).peers =
      (used c.peers).map fun p => if p.mac == key then f p else p := by
    simp [Ctx.modPeer, Ctx.setPeers, used, List.filterMap_map, List.map_filterMap]
  rw [Ctx.peerAt, hused, List.find?_map, hmac]
  cases hp : c.peerAt k with
  | none =>
      rw [Ctx.peerAt] at hp
      rw [hp]
      rfl
  | some p =>
      have hk := peerAt_mac hp
      rw [Ctx.peerAt] at hp
      rw [hp]
      simp [hk]

theorem has_modPeer {c : Ctx} {key : Mac} {f : Peer → Peer}
    (hf : ∀ p, (f p).mac = p.mac) (k : Mac) : (c.modPeer key f).has k ↔ c.has k := by
  simp [Ctx.has, peerAt_modPeer hf]

theorem peer_modPeer_self {c : Ctx} {key : Mac} {f : Peer → Peer}
    (hf : ∀ p, (f p).mac = p.mac) (h : c.has key) :
    (c.modPeer key f).peer key = f (c.peer key) := by
  obtain ⟨p, hp⟩ := Option.isSome_iff_exists.mp h
  simp [Ctx.peer, peerAt_modPeer hf, hp]

theorem peer_modPeer_ne {c : Ctx} {key k : Mac} {f : Peer → Peer}
    (hf : ∀ p, (f p).mac = p.mac) (h : k ≠ key) :
    (c.modPeer key f).peer k = c.peer k := by
  simp [Ctx.peer, peerAt_modPeer hf, h]

/-- A field of a record that an assignment leaves alone. -/
theorem peer_modPeer_field {α : Type} (g : Peer → α) {c : Ctx} {key : Mac}
    {f : Peer → Peer} (hf : ∀ p, (f p).mac = p.mac) (hg : ∀ p, g (f p) = g p)
    (k : Mac) : g ((c.modPeer key f).peer k) = g (c.peer k) := by
  simp only [Ctx.peer, peerAt_modPeer hf]
  cases c.peerAt k with
  | none => rfl
  | some p =>
      by_cases hk : k = key
      · simp [hk, hg]
      · simp [hk]

/-! ## Slices after the basic operations -/

theorem slice_emit {c : Ctx} {e : Effect} {k : Mac} {ch : ℕ}
    (h : e.concerns k ch = true) :
    (c.emit e).slice k ch = { c.slice k ch with log := (c.slice k ch).log ++ [e] } := by
  have hlog : ((c.emit e).slice k ch).log = (c.slice k ch).log ++ [e] := by
    simp [Ctx.slice, Ctx.emit, h]
  rw [← hlog]
  rfl

theorem slice_emit_other {c : Ctx} {e : Effect} {k : Mac} {ch : ℕ}
    (h : e.concerns k ch = false) : (c.emit e).slice k ch = c.slice k ch := by
  have hlog : ((c.emit e).slice k ch).log = (c.slice k ch).log := by
    simp [Ctx.slice, Ctx.emit, h]
  calc
    (c.emit e).slice k ch =
        { c.slice k ch with log := ((c.emit e).slice k ch).log } := rfl
    _ = c.slice k ch := by rw [hlog]

/-- The fields of a record that a slice sees. -/
def Peer.seen (p : Peer) :
    Mac × Binding × (ℕ → U32) × (ℕ → U32) × List (Option PendingLostRange) :=
  (p.mac, p.binding, p.nextSeq, p.expectedSeq, p.pendingLost)

/-- Assignments to the diagnostic fields of a record. -/
theorem slice_modPeer {c : Ctx} {key : Mac} {f : Peer → Peer}
    (hf : ∀ p, (f p).seen = p.seen) (k : Mac) (ch : ℕ) :
    (c.modPeer key f).slice k ch = c.slice k ch := by
  have hseen : ((c.modPeer key f).peer k).seen = (c.peer k).seen :=
    peer_modPeer_field Peer.seen (fun p => congrArg Prod.fst (hf p)) hf k
  simp only [Peer.seen, Prod.mk.injEq] at hseen
  obtain ⟨-, h1, h2, h3, h4⟩ := hseen
  simp only [Ctx.slice, h1, h2, h3, h4]
  rfl

theorem slice_modPeer_ne {c : Ctx} {key k : Mac} {f : Peer → Peer}
    (hmac : ∀ p, (f p).mac = p.mac) (h : k ≠ key) (ch : ℕ) :
    (c.modPeer key f).slice k ch = c.slice k ch := by
  simp only [Ctx.slice, peer_modPeer_ne hmac h]
  rfl

theorem slice_setExpected_self {c : Ctx} {key : Mac} (h : c.has key)
    (ch : ℕ) (seq : U32) :
    (c.setExpected key ch seq).slice key ch =
      { c.slice key ch with expected := seq } := by
  have hpeer := peer_modPeer_self (f := Peer.setExpected ch seq) (fun _ => rfl) h
  simp only [Ctx.slice, Ctx.setExpected, hpeer, Peer.setExpected,
    Function.update_self]
  rfl

theorem slice_setExpected_other {c : Ctx} {key k : Mac} {channel ch : ℕ}
    (h : k ≠ key ∨ ch ≠ channel) (seq : U32) :
    (c.setExpected key channel seq).slice k ch = c.slice k ch := by
  have hmac : ∀ p, (Peer.setExpected channel seq p).mac = p.mac := fun _ => rfl
  by_cases hk : k = key
  · subst hk
    have hch : ch ≠ channel := h.resolve_left fun h => h rfl
    have hsame {α : Type} (g : Peer → α) (hg : ∀ p, g (Peer.setExpected channel seq p) = g p) :
        g ((c.modPeer k (Peer.setExpected channel seq)).peer k) = g (c.peer k) :=
      peer_modPeer_field g hmac hg k
    have hexp := hsame (fun p => p.expectedSeq ch) fun p => Function.update_of_ne hch _ _
    have hnext := hsame Peer.nextSeq fun _ => rfl
    have hpend := hsame Peer.pendingLost fun _ => rfl
    have hbind := hsame Peer.binding fun _ => rfl
    simp only [Ctx.slice, Ctx.setExpected, hexp, hnext, hpend, hbind]
    rfl
  · exact slice_modPeer_ne hmac hk ch

theorem slice_setPending_self {c : Ctx} {key : Mac} (h : c.has key)
    (table : List (Option PendingLostRange)) (ch : ℕ) :
    (c.setPending key table).slice key ch =
      { c.slice key ch with pending := pendingOn ch table } := by
  have hpeer := peer_modPeer_self (f := Peer.setPending table) (fun _ => rfl) h
  simp only [Ctx.slice, Ctx.setPending, hpeer]
  rfl

/-! ## Footprints -/

/-- Nothing was reported to the event callback for the peer stored under `k`. -/
def Ctx.Unreported (c : Ctx) (k : Mac) : Prop :=
  ∀ e ∈ c.trace, e.reports k = false

/-- `c'` differs from `c` only in the slices of `A`. -/
structure Touches (A : Set (Mac × ℕ)) (c c' : Ctx) : Prop where
  trace : c.trace <+: c'.trace
  cfg : c'.cfg = c.cfg
  session : c'.localSession = c.localSession
  has : ∀ k, c.has k → c'.has k
  slice : ∀ k ch, (k, ch) ∉ A → c'.slice k ch = c.slice k ch
  /-- `lost_count` changes only together with a report. -/
  lostCount : ∀ k, c.has k → c'.Unreported k →
    (c'.peer k).lostCount = (c.peer k).lostCount

theorem Touches.refl (A : Set (Mac × ℕ)) (c : Ctx) : Touches A c c :=
  ⟨List.prefix_rfl, rfl, rfl, fun _ h => h, fun _ _ _ => rfl, fun _ _ _ => rfl⟩

theorem Touches.trans {A : Set (Mac × ℕ)} {c c' c'' : Ctx}
    (h : Touches A c c') (h' : Touches A c' c'') : Touches A c c'' :=
  ⟨h.trace.trans h'.trace, h'.cfg.trans h.cfg, h'.session.trans h.session,
    fun k hk => h'.has k (h.has k hk),
    fun k ch hA => (h'.slice k ch hA).trans (h.slice k ch hA),
    fun k hk hu => (h'.lostCount k (h.has k hk) hu).trans
      (h.lostCount k hk fun e he => hu e (h'.trace.subset he))⟩

theorem Touches.mono {A B : Set (Mac × ℕ)} {c c' : Ctx}
    (h : Touches A c c') (hAB : A ⊆ B) : Touches B c c' :=
  { h with slice := fun k ch hB => h.slice k ch fun hA => hB (hAB hA) }

section Touches

variable {A : Set (Mac × ℕ)} {c c' : Ctx}

theorem Touches.emit (h : Touches A c c') {e : Effect}
    (he : ∀ k ch, e.concerns k ch = true → (k, ch) ∈ A) : Touches A c (c'.emit e) := by
  refine h.trans ⟨List.prefix_append _ _, rfl, rfl, fun _ h => h, ?_, fun _ _ _ => rfl⟩
  intro k ch hA
  refine slice_emit_other ?_
  by_contra hne
  exact hA (he k ch (by simpa using hne))

theorem Touches.modPeer (h : Touches A c c') {key : Mac} {f : Peer → Peer}
    (hf : ∀ p, (f p).seen = p.seen) (hcount : ∀ p, (f p).lostCount = p.lostCount) :
    Touches A c (c'.modPeer key f) :=
  have hmac : ∀ p, (f p).mac = p.mac := fun p => congrArg Prod.fst (hf p)
  h.trans ⟨List.prefix_rfl, rfl, rfl, fun k h => (has_modPeer hmac k).mpr h,
    fun k ch _ => slice_modPeer hf k ch,
    fun k _ _ => peer_modPeer_field Peer.lostCount hmac hcount k⟩

/-- Assignments to any field of the record under `key`. -/
theorem Touches.modPeer_wide (h : Touches A c c') {key : Mac} {f : Peer → Peer}
    (hf : ∀ p, (f p).mac = p.mac) (hcount : ∀ p, (f p).lostCount = p.lostCount)
    (hA : ∀ ch, (key, ch) ∈ A) : Touches A c (c'.modPeer key f) := by
  refine h.trans ⟨List.prefix_rfl, rfl, rfl, fun k h => (has_modPeer hf k).mpr h, ?_,
    fun k _ _ => peer_modPeer_field Peer.lostCount hf hcount k⟩
  intro k ch hk
  refine slice_modPeer_ne hf ?_ ch
  rintro rfl
  exact hk (hA ch)

theorem Touches.setExpected (h : Touches A c c') {key : Mac} {channel : ℕ}
    (hA : (key, channel) ∈ A) (seq : U32) :
    Touches A c (c'.setExpected key channel seq) := by
  have hmac : ∀ p, (Peer.setExpected channel seq p).mac = p.mac := fun _ => rfl
  refine h.trans ⟨List.prefix_rfl, rfl, rfl, fun k h => (has_modPeer hmac k).mpr h, ?_,
    fun k _ _ => peer_modPeer_field Peer.lostCount hmac (fun _ => rfl) k⟩
  intro k ch hk
  refine slice_setExpected_other ?_ seq
  rw [← not_and_or]
  rintro ⟨rfl, rfl⟩
  exact hk hA

/-- Replacing the pending-lost table touches a channel only if its ranges
change. -/
theorem Touches.setPending (h : Touches A c c') {key : Mac}
    {table : List (Option PendingLostRange)}
    (htable : ∀ ch, (key, ch) ∉ A →
      pendingOn ch table = pendingOn ch (c'.peer key).pendingLost) :
    Touches A c (c'.setPending key table) := by
  have hmac : ∀ p, (Peer.setPending table p).mac = p.mac := fun _ => rfl
  refine h.trans ⟨List.prefix_rfl, rfl, rfl, fun k h => (has_modPeer hmac k).mpr h, ?_,
    fun k _ _ => peer_modPeer_field Peer.lostCount hmac (fun _ => rfl) k⟩
  intro k ch hk
  by_cases hkey : k = key
  · subst hkey
    by_cases hhas : c'.has k
    · rw [slice_setPending_self hhas, htable ch hk]
      rfl
    · have hnone : c'.peerAt k = none := by
        simpa [Ctx.has] using hhas
      have hpeer : (c'.setPending k table).peer k = c'.peer k := by
        simp [Ctx.setPending, Ctx.peer, peerAt_modPeer hmac, hnone]
      simp only [Ctx.slice, hpeer]
      rfl
  · exact slice_modPeer_ne hmac hkey ch

end Touches

/-- Table operations. -/
theorem touches_tables {A : Set (Mac × ℕ)} {c c' : Ctx}
    (hpeers : c'.peers = c.peers) (htrace : c'.trace = c.trace)
    (hcfg : c'.cfg = c.cfg) (hsession : c'.localSession = c.localSession)
    (htx : ∀ k ch, (k, ch) ∉ A → (c'.slice k ch).tx = (c.slice k ch).tx)
    (hrx : ∀ k ch, (k, ch) ∉ A → (c'.slice k ch).rx = (c.slice k ch).rx)
    (hreassembly : ∀ k ch, (k, ch) ∉ A →
      (c'.slice k ch).reassembly = (c.slice k ch).reassembly) : Touches A c c' := by
  have hat : ∀ k, c'.peerAt k = c.peerAt k := fun k => by rw [Ctx.peerAt, hpeers]; rfl
  have hpeer : ∀ k, c'.peer k = c.peer k := fun k => by rw [Ctx.peer, hat]; rfl
  refine ⟨htrace ▸ List.prefix_rfl, hcfg, hsession, fun k h => by rwa [Ctx.has, hat], ?_,
    fun k _ _ => by rw [hpeer]⟩
  intro k ch hA
  have h1 := htx k ch hA
  have h2 := hrx k ch hA
  have h3 := hreassembly k ch hA
  simp only [Ctx.slice, hpeer, htrace] at h1 h2 h3 ⊢
  rw [h1, h2, h3]

end KeemashCore.Rel

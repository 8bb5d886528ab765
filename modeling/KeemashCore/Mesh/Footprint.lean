import KeemashCore.Mesh.PendingLost

/-!
# Footprints

Which slices the operations of the reliable context may change.  An operation
that works for one channel of one peer changes only that slice, unless it clears
the peer; a packet handler changes only slices of the peer that sent the packet.
-/

namespace KeemashCore.Rel

open SlotTable SelectiveRepeat

/-- All channels of one peer. -/
def ofKey (key : Mac) : Set (Mac × ℕ) :=
  {x | x.1 = key}

theorem singleton_subset_ofKey (key : Mac) (channel : ℕ) :
    {(key, channel)} ⊆ ofKey key := by
  rintro _ rfl
  rfl

/-- The operation works for one channel of `key`; if it clears the peer, the
other channels of `key` change too. -/
structure Local (key : Mac) (channel : ℕ) (c c' : Ctx) : Prop where
  wide : Touches (ofKey key) c c'
  narrow : Effect.cleared key ∉ c'.trace → Touches {(key, channel)} c c'

theorem Touches.toLocal {key : Mac} {channel : ℕ} {c c' : Ctx}
    (h : Touches {(key, channel)} c c') : Local key channel c c' :=
  ⟨h.mono (singleton_subset_ofKey key channel), fun _ => h⟩

theorem Local.refl (key : Mac) (channel : ℕ) (c : Ctx) : Local key channel c c :=
  (Touches.refl _ c).toLocal

theorem Local.trans {key : Mac} {channel : ℕ} {c c' c'' : Ctx}
    (h : Local key channel c c') (h' : Local key channel c' c'') :
    Local key channel c c'' := by
  refine ⟨h.wide.trans h'.wide, fun hclear => ?_⟩
  have hclear' : Effect.cleared key ∉ c'.trace :=
    fun hmem => hclear (h'.wide.trace.subset hmem)
  exact (h.narrow hclear').trans (h'.narrow hclear)

/-! ## Tables -/

theorem TxSlot.isFor_iff {k : Mac} {ch : ℕ} {slot : TxSlot} :
    slot.isFor k ch = true ↔ slot.channel = ch ∧ slot.peer = k := by
  simp [TxSlot.isFor]

theorem RxSlot.isFor_iff {k : Mac} {ch : ℕ} {slot : RxSlot} :
    slot.isFor k ch = true ↔ slot.channel = ch ∧ slot.peer = k := by
  simp [RxSlot.isFor]

theorem ReassemblySlot.isFor_iff {k : Mac} {ch : ℕ} {slot : ReassemblySlot} :
    slot.isFor k ch = true ↔ slot.channel = ch ∧ slot.peer = k := by
  simp [ReassemblySlot.isFor]

section Touches

variable {A : Set (Mac × ℕ)} {c c' : Ctx}

theorem Touches.setTx (h : Touches A c c') {table : List (Option TxSlot)}
    (htable : ∀ k ch, (k, ch) ∉ A →
      ((held table).filter fun slot => slot.isFor k ch) =
        (held c'.tx).filter fun slot => slot.isFor k ch) :
    Touches A c (c'.setTx table) :=
  h.trans (touches_tables rfl rfl rfl rfl htable (fun _ _ _ => rfl) fun _ _ _ => rfl)

theorem Touches.setRx (h : Touches A c c') {table : List (Option RxSlot)}
    (htable : ∀ k ch, (k, ch) ∉ A →
      ((held table).filter fun slot => slot.isFor k ch) =
        (held c'.rx).filter fun slot => slot.isFor k ch) :
    Touches A c (c'.setRx table) :=
  h.trans (touches_tables rfl rfl rfl rfl (fun _ _ _ => rfl) htable fun _ _ _ => rfl)

theorem Touches.setReassembly (h : Touches A c c')
    {table : List (Option ReassemblySlot)}
    (htable : ∀ k ch, (k, ch) ∉ A →
      ((held table).filter fun slot => slot.isFor k ch) =
        (held c'.reassembly).filter fun slot => slot.isFor k ch) :
    Touches A c (c'.setReassembly table) :=
  h.trans (touches_tables rfl rfl rfl rfl (fun _ _ _ => rfl) (fun _ _ _ => rfl) htable)

theorem not_isFor_tx {k : Mac} {ch : ℕ} {slot : TxSlot}
    (hA : (k, ch) ∉ A) (h : (slot.peer, slot.channel) ∈ A) :
    slot.isFor k ch = false := by
  rw [← Bool.not_eq_true, TxSlot.isFor_iff]
  rintro ⟨rfl, rfl⟩
  exact hA h

theorem not_isFor_rx {k : Mac} {ch : ℕ} {slot : RxSlot}
    (hA : (k, ch) ∉ A) (h : (slot.peer, slot.channel) ∈ A) :
    slot.isFor k ch = false := by
  rw [← Bool.not_eq_true, RxSlot.isFor_iff]
  rintro ⟨rfl, rfl⟩
  exact hA h

theorem not_isFor_reassembly {k : Mac} {ch : ℕ}
    {slot : ReassemblySlot} (hA : (k, ch) ∉ A) (h : (slot.peer, slot.channel) ∈ A) :
    slot.isFor k ch = false := by
  rw [← Bool.not_eq_true, ReassemblySlot.isFor_iff]
  rintro ⟨rfl, rfl⟩
  exact hA h

theorem Touches.freeTx (h : Touches A c c') {p : TxSlot → Bool}
    (hp : ∀ slot, p slot = true → (slot.peer, slot.channel) ∈ A) :
    Touches A c (c'.setTx (freeWhere p c'.tx)) := by
  refine h.setTx fun k ch hA => filter_freeWhere fun slot hfor => ?_
  by_contra hfree
  rw [not_isFor_tx hA (hp slot (by simpa using hfree))] at hfor
  exact absurd hfor (by simp)

theorem Touches.freeRx (h : Touches A c c') {p : RxSlot → Bool}
    (hp : ∀ slot, p slot = true → (slot.peer, slot.channel) ∈ A) :
    Touches A c (c'.setRx (freeWhere p c'.rx)) := by
  refine h.setRx fun k ch hA => filter_freeWhere fun slot hfor => ?_
  by_contra hfree
  rw [not_isFor_rx hA (hp slot (by simpa using hfree))] at hfor
  exact absurd hfor (by simp)

theorem Touches.freeReassembly (h : Touches A c c') {p : ReassemblySlot → Bool}
    (hp : ∀ slot, p slot = true → (slot.peer, slot.channel) ∈ A) :
    Touches A c (c'.setReassembly (freeWhere p c'.reassembly)) := by
  refine h.setReassembly fun k ch hA => filter_freeWhere fun slot hfor => ?_
  by_contra hfree
  rw [not_isFor_reassembly hA (hp slot (by simpa using hfree))] at hfor
  exact absurd hfor (by simp)

theorem Touches.foldl {α : Type} {f : Ctx → α → Ctx} (h : Touches A c c')
    (hf : ∀ c a, Touches A c (f c a)) (as : List α) : Touches A c (as.foldl f c') := by
  induction as generalizing c' with
  | nil => exact h
  | cons a as ih => exact ih (h.trans (hf c' a))

/-! ## Sending and reporting -/

theorem Touches.sendPacket (h : Touches A c c') {key : Mac} {sessionId : U32}
    {body : Body} (hA : ∀ ch, body.channel? = some ch → (key, ch) ∈ A) :
    Touches A c (sendPacket c' key sessionId body).1 := by
  refine h.emit fun k ch hc => ?_
  simp only [Effect.concerns, Bool.and_eq_true, beq_iff_eq] at hc
  obtain ⟨rfl, hch⟩ := hc
  exact hA ch hch

variable {key : Mac} {channel : ℕ}

theorem Touches.recordLost (h : Touches A c c') (hA : (key, channel) ∈ A)
    {role : Role} {reason : LostReason} {first last count : U32} :
    Touches A c (recordLost c' role key channel reason first last count) := by
  have hmac : ∀ p, (Peer.countLost reason count p).mac = p.mac := fun _ => rfl
  refine h.trans ⟨List.prefix_append _ _, rfl, rfl,
    fun k hk => (has_modPeer hmac k).mpr hk, fun k ch hk => ?_, fun k _ hu => ?_⟩
  · rw [Rel.recordLost, notifyEvent, slice_emit_other ?_]
    · exact slice_modPeer (f := Peer.countLost reason count) (fun _ => rfl) k ch
    by_contra hc
    simp only [Effect.concerns, Bool.not_eq_false, Bool.and_eq_true, beq_iff_eq] at hc
    rw [← hc.1, ← hc.2] at hk
    exact hk hA
  · have hne : k ≠ key := by
      rintro rfl
      have := hu _ (List.mem_append_right _ (List.mem_singleton_self _))
      simp [Effect.reports] at this
    exact congrArg Peer.lostCount (peer_modPeer_ne hmac hne)

theorem Touches.sendLostPacket (h : Touches A c c') (hA : (key, channel) ∈ A)
    {reason : LostReason} {flags : BitVec 16} {first last : U32} :
    Touches A c (sendLostPacket c' key channel reason flags first last).1 := by
  refine h.sendPacket fun ch hch => ?_
  rw [← Option.some.inj hch]
  exact hA

theorem Touches.sendLost (h : Touches A c c') (hA : (key, channel) ∈ A)
    {reason : LostReason} {first last : U32} :
    Touches A c (sendLost c' key channel reason first last).1 :=
  (h.recordLost hA).sendLostPacket hA

/-! ## Clearing a peer -/

theorem Touches.clearRx (h : Touches A c c') (hA : ∀ ch, (key, ch) ∈ A)
    {reason : LostReason} : Touches A c (clearRx c' key reason) := by
  refine Touches.freeRx (h.foldl (fun c slot => ?_) _) fun slot hs => ?_
  · exact (Touches.refl A c).recordLost (hA _)
  · rw [beq_iff_eq.mp hs]
    exact hA _

theorem Touches.clearReassembly (h : Touches A c c') (hA : ∀ ch, (key, ch) ∈ A)
    {reason : LostReason} : Touches A c (clearReassembly c' key reason) := by
  refine Touches.freeReassembly (h.foldl (fun c slot => ?_) _) fun slot hs => ?_
  · exact (Touches.refl A c).recordLost (hA _)
  · rw [beq_iff_eq.mp hs]
    exact hA _

theorem Touches.reportSpans (h : Touches A c c') (hA : ∀ ch, (key, ch) ∈ A)
    {reason : LostReason} {spans : ℕ → Option (U32 × U32 × U32)} :
    Touches A c (reportSpans c' key reason spans) := by
  refine h.foldl (fun c channel => ?_) _
  split
  · exact (Touches.refl A c).recordLost (hA _)
  · exact Touches.refl A c

end Touches

/-- Clearing a peer touches only its slices. -/
theorem touches_clearPeerBuffers (c : Ctx) (key : Mac) (reason : LostReason) :
    Touches (ofKey key) (c.emit (.cleared key)) (clearPeerBuffers c key reason) := by
  have hA : ∀ ch, (key, ch) ∈ ofKey key := fun _ => rfl
  rw [clearPeerBuffers]
  refine Touches.reportSpans ?_ hA
  refine Touches.modPeer_wide ?_ (fun _ => rfl) (fun _ => rfl) hA
  refine Touches.clearReassembly ?_ hA
  refine Touches.clearRx ?_ hA
  refine Touches.freeTx (.refl _ _) ?_
  intro slot hs
  rw [beq_iff_eq.mp hs]
  exact hA _

/-- Clearing a peer leaves a mark in the trace. -/
theorem local_clearPeerBuffers (c : Ctx) (key : Mac) (reason : LostReason)
    (channel : ℕ) : Local key channel c (clearPeerBuffers c key reason) := by
  have hrest := touches_clearPeerBuffers c key reason
  refine ⟨Touches.trans (Touches.emit (.refl _ c) fun k ch hc => ?_) hrest,
    fun hclear => ?_⟩
  · simp [Effect.concerns] at hc
  · exact absurd (hrest.trace.subset (by simp [Ctx.emit])) hclear

/-! ## The receive path -/

section Touches

variable {A : Set (Mac × ℕ)} {c c' : Ctx} {key : Mac} {channel : ℕ}

theorem Touches.clearPeerBuffers (h : Touches A c c') (hA : ofKey key ⊆ A)
    {reason : LostReason} : Touches A c (clearPeerBuffers c' key reason) :=
  h.trans ((local_clearPeerBuffers c' key reason 0).wide.mono hA)

theorem Touches.forgetRange (h : Touches A c c') (hA : (key, channel) ∈ A)
    {reason : LostReason} {first last : U32} :
    Touches A c (forgetRange c' key channel reason first last) := by
  refine Touches.recordLost (Touches.freeReassembly (Touches.freeRx h ?_) ?_) hA
  · intro slot hs
    obtain ⟨rfl, rfl⟩ := RxSlot.isFor_iff.mp (Bool.and_elim_left hs)
    exact hA
  · intro slot hs
    obtain ⟨rfl, rfl⟩ := ReassemblySlot.isFor_iff.mp (Bool.and_elim_left hs)
    exact hA

/-- Replacing the pending-lost table of a peer all of whose channels may change. -/
theorem Touches.setPending_wide (h : Touches A c c') (hA : ofKey key ⊆ A)
    (table : List (Option PendingLostRange)) : Touches A c (c'.setPending key table) :=
  h.setPending fun _ hk => absurd (hA rfl) hk

theorem Touches.receiverDropRange {consume : Ctx → Ctx} (h : Touches A c c')
    (hA : ofKey key ⊆ A) (hconsume : ∀ c, Touches A c (consume c))
    {reason : LostReason} {first last : U32} :
    Touches A c (receiverDropRange consume c' key channel reason first last) := by
  have hin : (key, channel) ∈ A := hA rfl
  have hforget : Touches A c (Rel.forgetRange c' key channel reason first last) :=
    h.forgetRange hin
  simp only [Rel.receiverDropRange]
  split
  · exact ((hforget.setExpected hin _).trans (hconsume _)).sendLostPacket hin
  · split
    · split
      · exact (hforget.setPending_wide hA _).sendLostPacket hin
      · exact (hforget.setPending_wide hA _).clearPeerBuffers hA
    · exact hforget.sendLostPacket hin

theorem Touches.reassemblyFind (h : Touches A c c') {rh : ReliableHdr}
    (hA : (key, rh.channelId) ∈ A) {create : Bool} {now : U32} :
    Touches A c (reassemblyFind c' key rh create now).1 := by
  rw [Rel.reassemblyFind]
  split
  · split
    · split
      · exact h
      · exact h
    · exact h
  · split
    · exact h
    · split
      · exact h
      · split
        · next hfree =>
            refine h.setReassembly fun k ch hk => ?_
            exact filter_set_some (getElem?_of_freeIdx hfree) (not_isFor_reassembly hk hA)
        · exact h

theorem Touches.emit_silent (h : Touches A c c') {e : Effect}
    (he : ∀ k ch, e.concerns k ch = false) : Touches A c (c'.emit e) :=
  h.emit fun k ch hc => by simp [he k ch] at hc

theorem Touches.reassemblyFailed (h : Touches A c c') {rh : ReliableHdr} :
    Touches A c (reassemblyFailed c' key rh) := by
  rw [Rel.reassemblyFailed]
  refine Touches.modPeer ?_ (fun _ => rfl) (fun _ => rfl)
  split
  · exact h
  · exact h.emit_silent fun _ _ => rfl

/-- An effect of one channel. -/
theorem Touches.emit_on (h : Touches A c c') (hA : (key, channel) ∈ A) {e : Effect}
    (he : ∀ k ch, e.concerns k ch = (key == k && channel == ch)) :
    Touches A c (c'.emit e) := by
  refine h.emit fun k ch hc => ?_
  rw [he, Bool.and_eq_true, beq_iff_eq, beq_iff_eq] at hc
  rw [← hc.1, ← hc.2]
  exact hA

theorem Touches.storeFragment (h : Touches A c c') {i : ℕ} {slot : ReassemblySlot}
    {rh : ReliableHdr} {payload : List UInt8} {now : U32}
    (hi : entryAt c'.reassembly i = some slot)
    (hA : (slot.peer, slot.channel) ∈ A) (hkey : (key, slot.channel) ∈ A) :
    Touches A c (storeFragment c' key i slot rh payload now) := by
  rw [Rel.storeFragment]
  split
  · refine Touches.setReassembly (h.emit_on hkey fun _ _ => rfl) fun k ch hk => ?_
    exact filter_set_none hi (not_isFor_reassembly hk hA)
  · refine h.setReassembly fun k ch hk => ?_
    exact filter_set_entry hi (not_isFor_reassembly hk hA) (not_isFor_reassembly hk hA)

/-- The slot that `reassembly_find` returns belongs to the channel. -/
theorem reassemblyFind_slot {c c' : Ctx} {rh : ReliableHdr} {create : Bool} {now : U32}
    {i : ℕ} (h : reassemblyFind c key rh create now = (c', some i)) :
    ∃ slot, entryAt c'.reassembly i = some slot ∧
      slot.isFor key rh.channelId = true := by
  rw [reassemblyFind] at h
  split at h
  · next j hj =>
      obtain ⟨slot, hslot, hp⟩ := entryAt_of_findIdx hj
      simp only [hslot] at h
      split at h
      · simp at h
      · simp only [Prod.mk.injEq, Option.some.injEq] at h
        obtain ⟨rfl, rfl⟩ := h
        exact ⟨slot, hslot, Bool.and_elim_left hp⟩
  · split at h
    · simp at h
    · split at h
      · simp at h
      · split at h
        · next j hj =>
            simp only [Prod.mk.injEq, Option.some.injEq] at h
            obtain ⟨rfl, rfl⟩ := h
            have hlt := lt_length_of_freeIdx hj
            refine ⟨newReassemblySlot key rh now, ?_, ReassemblySlot.isFor_iff.mpr
              ⟨rfl, rfl⟩⟩
            change entryAt (c.reassembly.set j _) j = _
            rw [entryAt_set hlt, if_pos rfl]
        · simp at h

theorem Touches.deliverFragment {consume : Ctx → Ctx} (h : Touches A c c')
    (hA : ofKey key ⊆ A) (hconsume : ∀ c, Touches A c (consume c)) {rh : ReliableHdr}
    {payload : List UInt8} {now : U32} :
    Touches A c (deliverFragment consume c' key rh payload now) := by
  have hin : ∀ ch, (key, ch) ∈ A := fun ch => hA rfl
  have hhand : Touches A c (c'.emit (.handOff key rh payload)) :=
    h.emit_on (hin rh.channelId) fun _ _ => rfl
  rw [Rel.deliverFragment]
  split
  · exact hhand.emit_on (hin rh.channelId) fun _ _ => rfl
  · split
    · exact hhand
    · have hfind : Touches A c
          (Rel.reassemblyFind (c'.emit (.handOff key rh payload)) key rh true now).1 :=
        hhand.reassemblyFind (hin rh.channelId)
      split
      · next heq =>
          rw [heq] at hfind
          exact hfind.reassemblyFailed.receiverDropRange hA hconsume
      · next heq =>
          rw [heq] at hfind
          obtain ⟨slot, hslot, hfor⟩ := reassemblyFind_slot heq
          rw [hslot]
          obtain ⟨-, rfl⟩ := ReassemblySlot.isFor_iff.mp hfor
          exact hfind.storeFragment hslot (hin _) (hin _)

theorem Touches.skipLost {c'' : Ctx} (h : Touches A c c') (hA : ofKey key ⊆ A)
    (hskip : skipLost c' key channel = some c'') : Touches A c c'' := by
  rw [Rel.skipLost] at hskip
  split at hskip
  · simp at hskip
  · split at hskip
    · simp at hskip
    · obtain rfl := Option.some.inj hskip
      exact (h.setExpected (hA rfl) _).setPending_wide hA _

theorem Touches.takeBuffered {c'' : Ctx} {slot : RxSlot} (h : Touches A c c')
    (hA : (key, channel) ∈ A) (htake : takeBuffered c' key channel = some (c'', slot)) :
    Touches A c c'' := by
  simp only [Rel.takeBuffered] at htake
  split at htake
  · simp at htake
  · next i hi =>
      obtain ⟨found, hfound, hp⟩ := entryAt_of_findIdx hi
      rw [hfound] at htake
      simp only [Option.some.injEq, Prod.mk.injEq] at htake
      obtain ⟨rfl, -⟩ := htake
      obtain ⟨rfl, rfl⟩ := RxSlot.isFor_iff.mp (Bool.and_elim_left hp)
      refine Touches.setExpected (h.setRx fun k ch hk => ?_) hA _
      exact filter_set_none hfound (not_isFor_rx hk hA)

theorem touches_consumeContiguous (hA : ofKey key ⊆ A) (n : ℕ) (c : Ctx) (channel : ℕ)
    (now : U32) : Touches A c (consumeContiguous n c key channel now) := by
  induction n generalizing c channel with
  | zero => exact .refl A c
  | succ n ih =>
      rw [consumeContiguous]
      split
      · next hskip => exact ((Touches.refl A c).skipLost hA hskip).trans (ih _ _)
      · split
        · exact .refl A c
        · next htake =>
            have hstart := (Touches.refl A c).takeBuffered (hA rfl) htake
            exact (hstart.deliverFragment hA fun c => ih c _).trans (ih _ _)

theorem touches_drain (hA : ofKey key ⊆ A) (c : Ctx) (channel : ℕ) (now : U32) :
    Touches A c (drain c key channel now) :=
  touches_consumeContiguous hA _ c channel now

end Touches

end KeemashCore.Rel

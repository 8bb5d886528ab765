import KeemashCore.Mesh.Epoch

/-!
# The side tables of a receiver

During an epoch the rx slots and the pending-lost ranges of a channel lie ahead of
`expected_seq` and do not meet, as long as no frame is buffered under a pending range and
`expected_seq` is not moved past one.  A frame that arrives again after it was given up is
buffered all the same, and then its slot is never freed.
-/

namespace KeemashCore.Rel

open SlotTable SelectiveRepeat

/-- The side tables of one channel of a peer. -/
structure Ctx.SideTablesOk (c : Ctx) (key : Mac) (ch : ℕ) : Prop where
  window : ∀ slot ∈ used c.rx, slot.isFor key ch = true →
    0 < (slot.seq - (c.peer key).expectedSeq ch).toNat ∧
      (slot.seq - (c.peer key).expectedSeq ch).toNat < reliableWindow
  distinct : (((used c.rx).filter fun slot => slot.isFor key ch).map RxSlot.seq).Nodup
  uncovered : ∀ slot ∈ used c.rx, slot.isFor key ch = true →
    ∀ range ∈ used (c.peer key).pendingLost, range.channel = ch →
      seqInRange slot.seq range.first range.last = false
  ahead : ∀ range ∈ used (c.peer key).pendingLost, range.channel = ch →
    seqBefore ((c.peer key).expectedSeq ch) range.first = true
  apart : ∀ i j range range', OnChannel ch (c.peer key).pendingLost i range →
    OnChannel ch (c.peer key).pendingLost j range' → i ≠ j → Apart range.range range'.range

/-- Only buffering under a pending range and moving past one are excluded. -/
def Allow.tidy : Allow where
  bufferPending := False
  overrun := False
  expireAhead := True
  disown := True
  lossy := True

/-- No packet of the binding arrives that is buffered under a pending range, or that moves
`expected_seq` past one. -/
def Pairing.TidyStep (l : Pairing) (s : Sys) (a : Action) : Prop :=
  l.Avoids Body.buffersPending s a ∧ l.Avoids Body.passesPending s a

section

variable {Q : Allow} {l : Pairing} {s s₀ : Sys} {c : Ctx} {key : Mac} {ch : ℕ}
  {S : Sender Frame}

theorem Pairing.TidyStep.regular {a : Action} (h : l.TidyStep s a) : l.Regular .tidy s a where
  buffers := fun _ => h.1
  passes := fun _ => h.2
  expires := fun h => absurd trivial h
  asks := fun h => absurd ⟨trivial, trivial⟩ h
  spares := fun h => absurd trivial h

/-- The representation of a tidy receiver. -/
theorem RecvOk.sideTables (hS : Honest Q ch S) (h : RecvOk Q ch S (c.slice key ch))
    (hdrained : Drained (c.slice key ch))
    (htidy : Tidy (linkPolicy Q ch) S (c.slice key ch).receiver) : c.SideTablesOk key ch := by
  have hcore := h.toRecvCore
  have hexp := expected_lt hS hcore
  have hnext := hS.next_le
  have hexpected : (c.slice key ch).expected = (c.peer key).expectedSeq ch := rfl
  have hslice (slot : RxSlot) (hslot : slot ∈ used c.rx) (hfor : slot.isFor key ch = true) :
      slot.seq.toNat ∈ (c.slice key ch).receiver.buffered :=
    mem_buffered.mpr ⟨slot, Multiset.mem_filter.mpr ⟨mem_used.mp hslot, hfor⟩, rfl⟩
  have hentry (range : PendingLostRange) (hrange : range ∈ used (c.peer key).pendingLost)
      (hchannel : range.channel = ch) :
      ∃ i, OnChannel ch (c.slice key ch).pending i range := by
    obtain ⟨i, hi⟩ := mem_held_iff_entryAt.mp (mem_used.mp hrange)
    have hon : OnChannel ch (c.peer key).pendingLost i range := ⟨hi, hchannel⟩
    exact ⟨i, entryAt_pendingOn.mpr hon, hchannel⟩
  have hrangeOk (range : PendingLostRange)
      (hrange : range ∈ used (c.peer key).pendingLost) (hchannel : range.channel = ch) :
      range.first.toNat ≤ range.last.toNat ∧
        Set.Icc range.first.toNat range.last.toNat ⊆ (c.slice key ch).receiver.pend := by
    obtain ⟨i, hi⟩ := hentry range hrange hchannel
    refine ⟨(h.pending_ok.range i range hi (by simp)).1, fun n hn => ?_⟩
    rw [receiver_pend h.pending_channel]
    exact ⟨i, range, hi, hn⟩
  constructor
  · intro slot hslot hfor
    have hmem := hslice slot hslot hfor
    have hwindow := htidy.rx_window _ hmem
    have hne : slot.seq.toNat ≠ (c.slice key ch).receiver.exp := by
      intro heq
      rw [heq] at hmem
      exact hdrained.1 hmem
    simp only [Slice.receiver, linkPolicy] at hwindow hne
    rw [← hexpected, BitVec.toNat_sub]
    have hlt := slot.seq.isLt
    omega
  · have hrx : (c.slice key ch).rx =
        ((used c.rx).filter fun slot => slot.isFor key ch : List RxSlot) := by
      simp [Ctx.slice, held]
    have hnodup := h.rx_nodup
    rw [hrx, Multiset.map_coe, Multiset.coe_nodup] at hnodup
    exact hnodup
  · intro slot hslot hfor range hrange hchannel
    obtain ⟨hle, hsub⟩ := hrangeOk range hrange hchannel
    rw [← Bool.not_eq_true, seqInRange_iff hle]
    intro hin
    exact htidy.disjoint _ (hslice slot hslot hfor) (hsub hin)
  · intro range hrange hchannel
    obtain ⟨hle, hsub⟩ := hrangeOk range hrange hchannel
    have hmem := hsub ⟨le_rfl, hle⟩
    have hahead := htidy.pend_ahead hdrained.2 _ hmem
    have hbelow := hcore.bounded.pend_below _ hmem
    rw [← hexpected]
    exact (seqBefore_iff hexp.2 (by omega) (by omega)).mpr hahead
  · intro i j range range' hi hj hne
    exact h.pending_ok.apart i j range range' ⟨entryAt_pendingOn.mpr hi, hi.2⟩
      ⟨entryAt_pendingOn.mpr hj, hj.2⟩ hne (by simp) (by simp)

/-- In every epoch in which no packet arrives that is buffered under a pending range or
moves past one, the side tables are in order in every state. -/
theorem Epoch.sideTablesOk (hopen : l.Opens s₀) (h : Epoch l l.TidyStep s₀ s) (side : Side)
    (hch : Channel ch) : (s.ctx side).SideTablesOk (l.key side) ch := by
  obtain ⟨hlink, hkept⟩ := h.linked (Q := .tidy) hopen (fun _ => trivial)
    fun s a hstep => hstep.regular
  have hrecv := (hlink.ends side).recv ch hch
  have hsteps := hlink.link side.other ch hch
  rw [Side.other_other] at hsteps
  refine hrecv.sideTables ?_ ((hlink.ends side).drained ch hch)
    (Steps.tidy id id hsteps (bounded_fresh _) (tidy_fresh _))
  exact ((hlink.ends side.other).send ch hch).honest ((hkept side.other).room ch hch)

end

instance (l : Pairing) (s : Sys) (a : Action) : Decidable (l.TidyStep s a) :=
  inferInstanceAs (Decidable (_ ∧ _))

/-- A frame that arrives early is buffered in the window. -/
theorem sideTablesOk_early :
    Ctx.SideTablesOk (smallSys.fresh.run
      [.call .node (.submit 0 2 [1, 2, 3] 2) 10, .call .node (.submit 0 2 [4, 5] 2) 11,
        .deliver 1 20]).root 0x11 2 :=
  Epoch.sideTablesOk opens_smallSys (Epoch.start.run (by decide +kernel)) .root (by decide)

/-! ## A leaked slot -/

/-- The root of the small link with two rx slots only. -/
def tightRoot : Ctx :=
  { smallCtx true 0x22 7 with
    cfg := { smallConfig true 0x22 with rxSlots := 2, perPeerRxSlots := 2 }
    rx := List.replicate 2 none }

/-- A node and that root, right after the greeting. -/
def tightSys : Sys :=
  Sys.run ⟨smallCtx false 0x11 9, tightRoot, []⟩
    [.call .node (.sendHello 0) 1, .deliver 0 2, .deliver 0 3]

theorem init_tightRoot :
    init { smallConfig true 0x22 with rxSlots := 2 } 7 1 = some tightRoot := by
  rfl

/-- Frames 2 and 4 fill the rx slots, frame 5 is given up, frame 1 frees a slot, and then
frame 5 arrives once more. -/
def leakActions : List Action :=
  [.call .node (.submit 0 2 [1] 2) 10, .call .node (.submit 0 2 [2] 2) 10,
    .call .node (.submit 0 2 [3] 2) 10, .call .node (.submit 0 2 [4] 2) 10,
    .call .node (.submit 0 2 [5] 2) 10, .duplicate 4, .deliver 1 20, .deliver 2 20,
    .deliver 2 20, .deliver 0 20, .deliver 1 20, .deliver 0 20]

theorem opens_tightSys : smallPairing.Opens tightSys :=
  ⟨by decide, by decide, by decide +kernel, by decide⟩

/-- The slot of frame 5 stays behind `expected_seq`. -/
theorem leaks_behind_expected :
    ¬∀ (l : Pairing) (s₀ s : Sys), l.Opens s₀ → Epoch l (fun _ _ => True) s₀ s →
      ∀ side ch, Channel ch → (s.ctx side).SideTablesOk (l.key side) ch := by
  intro h
  have hrun : smallPairing.Runs (fun _ _ => True) tightSys.fresh leakActions := by
    decide +kernel
  have hok := h smallPairing tightSys _ opens_tightSys (Epoch.start.run hrun) .root 2
    (by decide)
  have hleak : ∃ slot ∈ used (tightSys.fresh.run leakActions).root.rx,
      slot.isFor 0x11 2 = true ∧
        ¬(slot.seq - ((tightSys.fresh.run leakActions).root.peer 0x11).expectedSeq 2).toNat <
          reliableWindow := by
    decide +kernel
  obtain ⟨slot, hslot, hfor, hfar⟩ := hleak
  exact hfar (hok.window slot hslot hfor).2

end KeemashCore.Rel

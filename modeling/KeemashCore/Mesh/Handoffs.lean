import KeemashCore.Mesh.Epoch

/-!
# What an epoch hands off, loses and delivers

Three results for every run of an epoch: frames are handed off once and in order, no
number disappears in silence, and a delivered message is one that was submitted.
-/

namespace KeemashCore.Rel

open SlotTable SelectiveRepeat

/-- The messages that `keemash_rel_submit` accepted for the other end on a channel: first
number, stream id and bytes. -/
def Pairing.accepted (l : Pairing) (s : Sys) (side : Side) (ch : ℕ) :
    List (ℕ × U32 × List UInt8) :=
  ((s.ctx side).slice (l.key side) ch).log.filterMap Effect.accepted?

/-- The messages passed to the deliver callback for the other end on a channel. -/
def Pairing.delivered (l : Pairing) (s : Sys) (side : Side) (ch : ℕ) :
    List (U32 × List UInt8) :=
  ((s.ctx side).slice (l.key side) ch).log.filterMap Effect.delivered?

/-- Steps that are irregular in any way may be taken. -/
def Allow.any : Allow where
  bufferPending := True
  overrun := True
  expireAhead := True
  disown := True
  lossy := True

/-- The node has submitted two log messages, and the second has arrived before the first. -/
def swappedSys : Sys :=
  smallSys.fresh.run
    [.call .node (.submit 0 2 [1, 2, 3] 2) 10,
      .call .node (.submit 0 2 [4, 5] 2) 11, .deliver 1 20, .deliver 0 21]

theorem epoch_swappedSys : Epoch smallPairing (fun _ _ => True) smallSys swappedSys :=
  Epoch.start.run (by decide +kernel)

section

variable {Q : Allow} {l : Pairing} {s s₀ : Sys} {ch : ℕ} {near far : Mac}

theorem Pairing.regular_any (l : Pairing) (s : Sys) (a : Action) : l.Regular .any s a where
  buffers := fun h => absurd trivial h
  passes := fun h => absurd trivial h
  expires := fun h => absurd trivial h
  asks := fun h => absurd ⟨trivial, trivial⟩ h
  spares := fun h => absurd trivial h

theorem Linked.bounded (h : Linked Q l s) (side : Side) (hch : Channel ch) :
    Bounded (linkPolicy Q ch) (l.sender s side ch) (l.receiver s side.other ch) :=
  Steps.bounded (h.link side ch hch) (bounded_fresh _)

/-- Nothing is handed off outside the message channels. -/
theorem Linked.log_outside (h : Linked Q l s) (side : Side) (hch : ¬Channel ch) :
    ((s.ctx side).slice (l.key side) ch).log = [] :=
  ((h.ends side).outside ch hch).log

/-! ## Frames are handed off once and in order -/

/-- In every epoch, the numbers handed to `deliver_fragment` on a channel increase, and
each frame is the one that `keemash_rel_submit` stored under its number. -/
theorem Epoch.handed_once (hopen : l.Opens s₀) (h : Epoch l (fun _ _ => True) s₀ s)
    (side : Side) (ch : ℕ) :
    ((l.receiver s side ch).handed.map Prod.fst).Pairwise (· < ·) ∧
      ∀ x ∈ (l.receiver s side ch).handed, x ∈ (l.sender s side.other ch).sent ∧
        ∀ f, (x.1, f) ∈ (l.sender s side.other ch).sent → f = x.2 := by
  obtain ⟨hlink, -⟩ := h.linked (Q := .any) hopen (fun _ => trivial)
    fun s a _ => l.regular_any s a
  by_cases hch : Channel ch
  · have hrecv := (hlink.ends side).recv ch hch
    refine ⟨hrecv.ordered.sorted, fun x hx => ?_⟩
    have hsent := hrecv.bounded.handed_sent x hx
    exact ⟨hsent, fun f hf => hrecv.bounded.unique x.1 f x.2 hf hsent⟩
  · have hnone : (l.receiver s side ch).handed = [] := by
      rw [Pairing.receiver, Slice.receiver, hlink.log_outside side hch]
      rfl
    rw [hnone]
    exact ⟨List.Pairwise.nil, fun x hx => absurd hx List.not_mem_nil⟩

/-- Both frames are handed off, in the order of their numbers. -/
theorem handed_once_swappedSys :
    (smallPairing.receiver swappedSys .root 2).handed.map Prod.fst = [1, 2] ∧
      ((smallPairing.receiver swappedSys .root 2).handed.map Prod.fst).Pairwise
        (· < ·) ∧
      ∀ x ∈ (smallPairing.receiver swappedSys .root 2).handed,
        x ∈ (smallPairing.sender swappedSys .node 2).sent ∧
          ∀ f, (x.1, f) ∈ (smallPairing.sender swappedSys .node 2).sent → f = x.2 :=
  ⟨by decide +kernel, Epoch.handed_once opens_smallSys epoch_swappedSys .root 2⟩

/-! ## No number disappears in silence -/

/-- A range with the number was reported through the event callback. -/
def Ctx.Reported (c : Ctx) (role : Role) (key : Mac) (ch n : ℕ) : Prop :=
  ∃ peer reason first last, Effect.event role key peer ch reason first last ∈ c.trace ∧
    first.toNat ≤ n ∧ n ≤ last.toNat

theorem reported_of_covered {c : Ctx} {role : Role} {key : Mac} {n : ℕ}
    (h : n ∈ covered (logged (Effect.report? role) (c.slice key ch).log)) :
    c.Reported role key ch n := by
  obtain ⟨x, ⟨e, he, hx⟩, hlow, hhigh⟩ := h
  obtain ⟨htrace, hconcerns⟩ := List.mem_filter.mp he
  cases e with
  | event role' key' peer channel reason first last =>
      simp only [Effect.report?] at hx
      split at hx
      · next hrole =>
          obtain rfl := Option.some.inj hx
          simp only [Effect.concerns, Bool.and_eq_true, beq_iff_eq] at hconcerns
          obtain ⟨rfl, rfl⟩ := hconcerns
          rw [hrole] at htrace
          exact ⟨peer, reason, first, last, htrace, hlow, hhigh⟩
      · exact absurd hx (by simp)
  | _ => exact absurd hx (by simp [Effect.report?])

/-- In every epoch, every number assigned by `keemash_rel_submit` on a channel other than
TIME is held in a tx slot, was handed off, is held in an rx slot of the other end, or was
reported lost by one of the ends. -/
theorem Epoch.no_silent_loss (hopen : l.Opens s₀) (h : Epoch l (fun _ _ => True) s₀ s)
    (side : Side) (hch : Channel ch) (htime : ch ≠ channelTime) {n : ℕ} (hpos : 1 ≤ n)
    (hlt : n < (((s.ctx side).peer (l.key side)).nextSeq ch).toNat) :
    (∃ slot ∈ used (s.ctx side).tx, slot.peer = l.key side ∧ slot.channel = ch ∧
      slot.seq.toNat = n) ∨
    (∃ f, (n, f) ∈ (l.receiver s side.other ch).handed) ∨
    (∃ slot ∈ used (s.ctx side.other).rx, slot.peer = l.key side.other ∧
      slot.channel = ch ∧ slot.seq.toNat = n) ∨
    (s.ctx side).Reported .sent (l.key side) ch n ∨
    (s.ctx side.other).Reported .received (l.key side.other) ch n := by
  obtain ⟨hlink, -⟩ := h.linked (Q := .any) hopen (fun _ => trivial)
    fun s a _ => l.regular_any s a
  have haccountable := Steps.accountable (P := linkPolicy .any ch) htime
    (hlink.link side ch hch) (bounded_fresh _) accountable_fresh
  rcases haccountable.assigned n hpos hlt with ⟨f, slot, hslot, hnumbered⟩ | hdone | hbuffered |
    hreceived | hsent
  · obtain ⟨hheld, hchannel, hpeer⟩ := mem_slice_tx.mp hslot
    exact .inl ⟨slot, mem_used.mpr hheld, hpeer, hchannel, congrArg Prod.fst hnumbered⟩
  · exact .inr (.inl hdone)
  · obtain ⟨slot, hslot, hseq⟩ := mem_buffered.mp hbuffered
    rw [Ctx.slice, Multiset.mem_filter] at hslot
    obtain ⟨hchannel, hpeer⟩ := RxSlot.isFor_iff.mp hslot.2
    exact .inr (.inr (.inl ⟨slot, mem_used.mpr hslot.1, hpeer, hchannel, hseq⟩))
  · exact .inr (.inr (.inr (.inr (reported_of_covered hreceived))))
  · exact .inr (.inr (.inr (.inl (reported_of_covered hsent))))

/-- The first of the two numbers. -/
theorem no_silent_loss_swappedSys :
    (∃ slot ∈ used swappedSys.node.tx, slot.peer = 0 ∧ slot.channel = 2 ∧
      slot.seq.toNat = 1) ∨
    (∃ f, (1, f) ∈ (smallPairing.receiver swappedSys .root 2).handed) ∨
    (∃ slot ∈ used swappedSys.root.rx, slot.peer = 0x11 ∧ slot.channel = 2 ∧
      slot.seq.toNat = 1) ∨
    swappedSys.node.Reported .sent 0 2 1 ∨
    swappedSys.root.Reported .received 0x11 2 1 :=
  Epoch.no_silent_loss opens_smallSys epoch_swappedSys .node (by decide) (by decide) le_rfl
    (by decide +kernel)

/-! ## A delivered message was submitted -/

/-- A message assembled from stored frames is one of the accepted messages. -/
theorem Assembled.accepted {slice : Slice} (hsend : SendOk Q ch near far slice)
    {handed : List (ℕ × Frame)} (hsub : ∀ x ∈ handed, x ∈ slice.sender.sent) {n : ℕ}
    {d : U32 × List UInt8} (h : Assembled handed n d) :
    ∃ m ∈ slice.log.filterMap Effect.accepted?, m.2 = d ∧
      m.1 + fragmentsOf m.2.2.length - 1 = n := by
  obtain ⟨fs, hne, hle, hparts, hbytes⟩ := h
  have hpos : 0 < fs.length := List.length_pos_iff.mpr hne
  obtain ⟨hfirst, hindex, hcount, hstream⟩ := hparts 0 _ (List.getElem?_eq_getElem hpos)
  obtain ⟨m, hm, hpart⟩ := hsend.part _ (hsub _ hfirst)
  have hframe := hpart.frame
  have hnumber := hpart.first
  simp only [hindex] at hframe hnumber
  have hfragments : fragmentsOf m.2.2.length = fs.length := by
    rw [hframe] at hcount
    exact hcount
  have hpieces : fs = (List.range fs.length).map
      (submitFrame ch m.2.1 m.2.2 (fragmentsOf m.2.2.length)) := by
    refine List.ext_getElem (by simp) fun i hi _ => ?_
    obtain ⟨hmem, hi', -⟩ := hparts i _ (List.getElem?_eq_getElem hi)
    obtain ⟨m', hm', hpart'⟩ := hsend.part _ (hsub _ hmem)
    have hnumber' := hpart'.first
    simp only [hi'] at hnumber'
    obtain rfl := hsend.unique hm' hm (by omega)
    have hframe' := hpart'.frame
    simp only [hi'] at hframe'
    rw [List.getElem_map, List.getElem_range]
    exact hframe'
  obtain ⟨hlen, hmax⟩ := hsend.lengths m hm
  refine ⟨m, hm, Prod.ext ?_ ?_, by omega⟩
  · rw [← hstream, hframe]
    rfl
  · have hall := (fragmentsOf_bounds hlen hmax).2.2.2
    rw [hfragments] at hall
    have hflat := flatMap_pieces m.2.2 reliableInnerMax fs.length
    rw [List.take_of_length_le hall] at hflat
    rw [hbytes, hpieces, List.map_map]
    exact hflat.symm

/-- The accepted messages behind the delivered ones. -/
theorem Delivered.accepted {slice : Slice} (hsend : SendOk Q ch near far slice)
    {handed : List (ℕ × Frame)} (hsub : ∀ x ∈ handed, x ∈ slice.sender.sent)
    {ds : List (U32 × List UInt8)} (h : Delivered handed ds) :
    ∃ ms, List.Subperm ms (slice.log.filterMap Effect.accepted?) ∧ ms.map Prod.snd = ds := by
  obtain ⟨ns, hsorted, -, hall⟩ := h
  have hmessages : ∃ ms : List (ℕ × U32 × List UInt8), ms.map Prod.snd = ds ∧
      ms.map (fun m => m.1 + fragmentsOf m.2.2.length - 1) = ns ∧
      ms ⊆ slice.log.filterMap Effect.accepted? := by
    induction hall with
    | nil => exact ⟨[], rfl, rfl, List.nil_subset _⟩
    | cons hd _ ih =>
        obtain ⟨ms, hds, hns, hms⟩ := ih hsorted.of_cons
        obtain ⟨m, hm, rfl, rfl⟩ := hd.accepted hsend hsub
        refine ⟨m :: ms, ?_, ?_, List.cons_subset.mpr ⟨hm, hms⟩⟩
        · rw [List.map_cons, hds]
        · rw [List.map_cons, hns]
  obtain ⟨ms, hds, hns, hms⟩ := hmessages
  have hnodup : (ms.map fun m => m.1 + fragmentsOf m.2.2.length - 1).Nodup := by
    rw [hns]
    exact hsorted.imp fun hlt => hlt.ne
  exact ⟨ms, List.subperm_of_subset (List.Nodup.of_map _ hnodup) hms, hds⟩

/-- In every epoch, what is passed to the deliver callback on a channel are messages that
`keemash_rel_submit` accepted there, with their stream ids and all their bytes, and each of
them at most once. -/
theorem Epoch.delivered_accepted (hopen : l.Opens s₀) (h : Epoch l (fun _ _ => True) s₀ s)
    (side : Side) (ch : ℕ) :
    ∃ ms, List.Subperm ms (l.accepted s side.other ch) ∧
      ms.map Prod.snd = l.delivered s side ch := by
  obtain ⟨hlink, -⟩ := h.linked (Q := .any) hopen (fun _ => trivial)
    fun s a _ => l.regular_any s a
  by_cases hch : Channel ch
  · have hrecv := (hlink.ends side).recv ch hch
    exact hrecv.delivered.accepted ((hlink.ends side.other).send ch hch)
      hrecv.bounded.handed_sent
  · refine ⟨[], List.nil_subperm, ?_⟩
    rw [Pairing.delivered, hlink.log_outside side hch]
    rfl

/-- Both messages are delivered. -/
theorem delivered_accepted_swappedSys :
    smallPairing.delivered swappedSys .root 2 = [(1, [1, 2, 3]), (2, [4, 5])] ∧
      ∃ ms, List.Subperm ms (smallPairing.accepted swappedSys .node 2) ∧
        ms.map Prod.snd = smallPairing.delivered swappedSys .root 2 :=
  ⟨by decide +kernel,
    Epoch.delivered_accepted opens_smallSys epoch_swappedSys .root 2⟩

end

end KeemashCore.Rel

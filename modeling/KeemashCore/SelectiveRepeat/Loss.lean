import KeemashCore.SelectiveRepeat.Order

/-!
# What an acknowledgement promises

When no newer frame displaces an older one, a link never loses a number in
silence: every assigned number is still held by the sender, was handed off, is
buffered, or was reported lost by one of the ends.  When in addition no end gives
numbers up, nothing is ever reported lost.
-/

namespace SelectiveRepeat

variable {F : Type}

/-- The number was handed off, is buffered, or was reported at one end. -/
def Accounted (s : Sender F) (r : Receiver F) (n : ℕ) : Prop :=
  n ∈ r.done ∨ n ∈ r.buffered ∨ n ∈ r.lost ∨ n ∈ s.lost

/-- No number disappears in silence. -/
structure Accountable (s : Sender F) (r : Receiver F) : Prop where
  assigned : ∀ n, 1 ≤ n → n < s.next → (∃ f, (n, f) ∈ s.tx) ∨ Accounted s r n
  passed : ∀ n, 1 ≤ n → n < r.exp → Accounted s r n
  pend_lost : r.pend ⊆ r.lost
  acks_accounted : ∀ x ∈ r.acks, ∀ n ∈ x.2, Accounted s r n
  drops_lost : ∀ x ∈ r.drops, Set.Icc x.1 x.2 ⊆ r.lost

theorem Receiver.done_hand (r : Receiver F) (f : F) :
    (r.hand f).done = insert r.exp r.done := by
  ext n
  simp [Receiver.done, Receiver.hand, exists_or, or_comm]

theorem Accounted.mono {s s' : Sender F} {r r' : Receiver F} {n : ℕ}
    (h : Accounted s r n) (hs : s.lost ⊆ s'.lost) (hdone : r.done ⊆ r'.done)
    (hlost : r.lost ⊆ r'.lost)
    (hrx : n ∈ r.buffered → Accounted s' r' n) : Accounted s' r' n := by
  rcases h with h | h | h | h
  · exact .inl (hdone h)
  · exact hrx h
  · exact .inr (.inr (.inl (hlost h)))
  · exact .inr (.inr (.inr (hs h)))

theorem Receiver.buffered_drop {r : Receiver F} {a b n : ℕ}
    (h : n ∈ r.buffered) : n ∈ (r.drop a b).buffered ∨ n ∈ Set.Icc a b := by
  obtain ⟨f, hf⟩ := h
  by_cases hn : n ∈ Set.Icc a b
  · exact .inr hn
  · exact .inl ⟨f, hf, hn⟩

/-- What is accounted for stays accounted for. -/
theorem Receiver.Step.accounted {P : Policy F} (hP : ¬P.latest) {s : Sender F}
    {r r' : Receiver F} (h : Receiver.Step P s r r') {n : ℕ}
    (hn : Accounted s r n) : Accounted s r' n := by
  have hdrop : ∀ a b, Accounted s (r.drop a b) n := by
    intro a b
    refine hn.mono subset_rfl subset_rfl Set.subset_union_left ?_
    intro hrx
    rcases Receiver.buffered_drop (a := a) (b := b) hrx with h | h
    · exact .inr (.inl h)
    · exact .inr (.inr (.inl (.inr h)))
  cases h with
  | accept _ _ _ =>
      rw [Accounted, Receiver.done_hand]
      exact hn.imp_left (Set.mem_insert_of_mem _)
  | @take f hrx =>
      have hdone : Receiver.done { r.hand f with rx := r.rx \ {(r.exp, f)} } =
          insert r.exp r.done := r.done_hand f
      refine hn.mono subset_rfl (hdone ▸ Set.subset_insert _ _) subset_rfl ?_
      rintro ⟨g, hg⟩
      by_cases hne : (n, g) = (r.exp, f)
      · refine .inl ?_
        rw [hdone, (Prod.mk.inj hne).1]
        exact Set.mem_insert _ _
      · exact .inr (.inl ⟨g, hg, hne⟩)
  | skip _ _ _ _ _ => exact hn
  | buffer _ _ _ _ _ =>
      refine hn.mono subset_rfl subset_rfl subset_rfl ?_
      rintro ⟨g, hg⟩
      exact .inr (.inl ⟨g, Set.mem_insert_of_mem _ hg⟩)
  | jump h _ _ => exact absurd h hP
  | dropPast _ _ => exact hdrop _ _
  | dropHere _ _ _ _ => exact hdrop _ _
  | dropAhead _ _ => exact hdrop _ _
  | expire _ _ _ =>
      exact hn.mono subset_rfl subset_rfl Set.subset_union_left fun h => .inr (.inl h)
  | lostPast _ _ =>
      exact hn.mono subset_rfl subset_rfl Set.subset_union_left fun h => .inr (.inl h)
  | lostHere _ _ _ _ _ =>
      exact hn.mono subset_rfl subset_rfl Set.subset_union_left fun h => .inr (.inl h)
  | lostAhead _ _ =>
      exact hn.mono subset_rfl subset_rfl Set.subset_union_left fun h => .inr (.inl h)
  | ack _ => exact hn
  | nack _ _ => exact hn

/-- Every step of the receiver keeps the numbers accounted for. -/
theorem Receiver.Step.accountable {P : Policy F} (hP : ¬P.latest) {s : Sender F}
    {r r' : Receiver F} (h : Receiver.Step P s r r') (hA : Accountable s r) :
    Accountable s r' := by
  have hacc : ∀ n, Accounted s r n → Accounted s r' n := fun n => h.accounted hP
  have hassigned : ∀ n, 1 ≤ n → n < s.next →
      (∃ f, (n, f) ∈ s.tx) ∨ Accounted s r' n :=
    fun n hpos hlt => (hA.assigned n hpos hlt).imp_right (hacc n)
  have hacks : ∀ x ∈ r.acks, ∀ n ∈ x.2, Accounted s r' n :=
    fun x hx n hn => hacc n (hA.acks_accounted x hx n hn)
  have hpassed : ∀ n, 1 ≤ n → n < r.exp → Accounted s r' n :=
    fun n hpos hlt => hacc n (hA.passed n hpos hlt)
  -- Numbers up to `b` that the counter jumps over must have been reported.
  have hjump : ∀ b, (∀ n, r.exp ≤ n → n ≤ b → n ∈ r'.lost) →
      ∀ n, 1 ≤ n → n < b + 1 → Accounted s r' n := by
    intro b hb n hpos hlt
    by_cases hn : n < r.exp
    · exact hpassed n hpos hn
    · exact .inr (.inr (.inl (hb n (by omega) (by omega))))
  have hhand : ∀ f, r'.handed = (r.hand f).handed →
      ∀ n, 1 ≤ n → n < r.exp + 1 → Accounted s r' n := by
    intro f hhanded n hpos hlt
    by_cases hn : n < r.exp
    · exact hpassed n hpos hn
    · refine .inl ⟨f, ?_⟩
      rw [hhanded, show n = r.exp by omega]
      simp [Receiver.hand]
  have hdrops : ∀ a b, ∀ x ∈ insert (a, b) r.drops,
      Set.Icc x.1 x.2 ⊆ r.lost ∪ Set.Icc a b := by
    rintro a b x (rfl | hx)
    · exact Set.subset_union_right
    · exact (hA.drops_lost x hx).trans Set.subset_union_left
  cases h with
  | accept _ _ _ =>
      exact ⟨hassigned, hhand _ rfl, hA.pend_lost, hacks, hA.drops_lost⟩
  | take _ =>
      exact ⟨hassigned, hhand _ rfl, hA.pend_lost, hacks, hA.drops_lost⟩
  | skip ha hb hsub _ _ =>
      refine ⟨hassigned, hjump _ ?_, Set.sdiff_subset.trans hA.pend_lost, hacks,
        hA.drops_lost⟩
      intro n hle hge
      exact hA.pend_lost (hsub ⟨ha.trans hle, hge⟩)
  | buffer _ _ _ _ _ =>
      exact ⟨hassigned, hpassed, hA.pend_lost, hacks, hA.drops_lost⟩
  | jump h _ _ => exact absurd h hP
  | dropPast _ _ =>
      exact ⟨hassigned, hpassed, hA.pend_lost.trans Set.subset_union_left, hacks,
        hdrops _ _⟩
  | dropHere _ ha _ _ =>
      refine ⟨hassigned, hjump _ ?_, hA.pend_lost.trans Set.subset_union_left, hacks,
        hdrops _ _⟩
      intro n hle hge
      exact .inr ⟨ha.trans hle, hge⟩
  | dropAhead _ _ =>
      exact ⟨hassigned, hpassed, Set.union_subset_union_left _ hA.pend_lost, hacks,
        hdrops _ _⟩
  | expire _ _ _ =>
      refine ⟨hassigned, hpassed, hA.pend_lost.trans Set.subset_union_left, hacks, ?_⟩
      rintro x (hx | rfl)
      · exact (hA.drops_lost x hx).trans Set.subset_union_left
      · exact Set.subset_union_right
  | lostPast _ _ =>
      refine ⟨hassigned, hpassed, hA.pend_lost.trans Set.subset_union_left, hacks, ?_⟩
      rintro x (hx | hx)
      · exact (hA.drops_lost x hx).trans Set.subset_union_left
      · exact hx.elim
  | lostHere _ ha _ _ _ =>
      refine ⟨hassigned, hjump _ ?_, hA.pend_lost.trans Set.subset_union_left, hacks, ?_⟩
      · intro n hle hge
        exact .inr ⟨ha.trans hle, hge⟩
      · rintro x (hx | hx)
        · exact (hA.drops_lost x hx).trans Set.subset_union_left
        · exact hx.elim
  | lostAhead _ _ =>
      refine ⟨hassigned, hpassed, Set.union_subset_union_left _ hA.pend_lost, hacks, ?_⟩
      rintro x (hx | hx)
      · exact (hA.drops_lost x hx).trans Set.subset_union_left
      · exact hx.elim
  | ack _ =>
      refine ⟨hassigned, hpassed, hA.pend_lost, ?_, hA.drops_lost⟩
      rintro x (rfl | hx) n hn
      · exact .inr (.inl hn.1)
      · exact hacks x hx n hn
  | nack _ _ =>
      refine ⟨hassigned, hpassed, hA.pend_lost, ?_, hA.drops_lost⟩
      rintro x (rfl | hx) n hn
      · exact .inr (.inl hn.1)
      · exact hacks x hx n hn

/-- Every step of the sender keeps the numbers accounted for. -/
theorem Sender.Step.accountable {P : Policy F} (hP : ¬P.latest) {s s' : Sender F}
    {r : Receiver F} (h : Sender.Step P r s s') (hB : Bounded P s r)
    (hA : Accountable s r) : Accountable s' r := by
  -- It is enough that reports grow and that freed numbers are accounted for.
  have hgrow : ∀ s' : Sender F, s.lost ⊆ s'.lost →
      (∀ n, 1 ≤ n → n < s'.next → (∃ f, (n, f) ∈ s'.tx) ∨ Accounted s' r n) →
      Accountable s' r := by
    intro s' hlost hassigned
    have hacc : ∀ n, Accounted s r n → Accounted s' r n := fun n hn =>
      hn.mono hlost subset_rfl subset_rfl fun h => .inr (.inl h)
    exact ⟨hassigned, fun n hpos hlt => hacc n (hA.passed n hpos hlt), hA.pend_lost,
      fun x hx n hn => hacc n (hA.acks_accounted x hx n hn), hA.drops_lost⟩
  cases h with
  | submit fs hspan =>
      refine hgrow _ subset_rfl ?_
      intro n hpos hlt
      by_cases hn : n < s.next
      · exact (hA.assigned n hpos hn).imp_left fun ⟨f, hf⟩ => ⟨f, .inl hf⟩
      · obtain ⟨f, hf⟩ := exists_mem_numbered _ (Nat.le_of_not_lt hn) hlt
        exact .inl ⟨f, .inr hf⟩
  | burn hb _ =>
      refine hgrow _ Set.subset_union_left ?_
      intro n hpos hlt
      by_cases hn : n < s.next
      · refine (hA.assigned n hpos hn).imp_right fun h => ?_
        exact h.mono Set.subset_union_left subset_rfl subset_rfl fun h => .inr (.inl h)
      · exact .inr (.inr (.inr (.inr (.inr
          ⟨Nat.le_of_not_lt hn, Nat.le_of_lt_succ hlt⟩))))
  | transmit _ => exact hgrow _ subset_rfl hA.assigned
  | @acked a T h =>
      refine hgrow _ subset_rfl ?_
      intro n hpos hlt
      rcases hA.assigned n hpos hlt with ⟨f, hf⟩ | hn
      · by_cases hle : n ≤ a
        · have hexp := (hB.acks_below (a, T) h).1
          exact .inr (hA.passed n hpos (hle.trans_lt hexp))
        · by_cases hT : n ∈ T
          · exact .inr (hA.acks_accounted (a, T) h n hT)
          · exact .inl ⟨f, hf, Nat.lt_of_not_le hle, hT⟩
      · exact .inr hn
  | disown _ _ =>
      refine hgrow _ Set.subset_union_left ?_
      intro n hpos hlt
      refine (hA.assigned n hpos hlt).imp_right fun h => ?_
      exact h.mono Set.subset_union_left subset_rfl subset_rfl fun h => .inr (.inl h)
  | @dropped a b h =>
      refine hgrow _ Set.subset_union_left ?_
      intro n hpos hlt
      rcases hA.assigned n hpos hlt with ⟨f, hf⟩ | hn
      · by_cases hin : n ∈ Set.Icc a b
        · exact .inr (.inr (.inr (.inl (hA.drops_lost (a, b) h hin))))
        · exact .inl ⟨f, hf, hin⟩
      · exact .inr (hn.mono Set.subset_union_left subset_rfl subset_rfl
          fun h => .inr (.inl h))
  | supersede h => exact absurd h hP

theorem accountable_fresh : Accountable (.fresh : Sender F) .fresh where
  assigned := fun _ hpos hlt => absurd hpos (Nat.not_le_of_lt hlt)
  passed := fun _ hpos hlt => absurd hpos (Nat.not_le_of_lt hlt)
  pend_lost := Set.empty_subset _
  acks_accounted := fun _ hx => absurd hx (Set.notMem_empty _)
  drops_lost := fun _ hx => absurd hx (Set.notMem_empty _)

/-- A whole run of the link keeps the numbers accounted for. -/
theorem Steps.accountable {P : Policy F} (hP : ¬P.latest) {l l' : Sender F × Receiver F}
    (h : Steps P l l') (hB : Bounded P l.1 l.2) (hA : Accountable l.1 l.2) :
    Accountable l'.1 l'.2 := by
  induction h with
  | refl => exact hA
  | tail hsteps hlast ih =>
      have hbounded := Steps.bounded hsteps hB
      cases hlast with
      | sender h => exact h.accountable hP hbounded ih
      | receiver h => exact h.accountable hP ih

/-! ## Links that give nothing up -/

/-- Neither end has given a number up. -/
structure Lossless (s : Sender F) (r : Receiver F) : Prop where
  losts : s.losts = ∅
  drops : r.drops = ∅
  pend : r.pend = ∅
  lost_sender : s.lost = ∅
  lost_receiver : r.lost = ∅

theorem Receiver.Step.lossless {P : Policy F} (hP : ¬P.lossy) {s : Sender F}
    {r r' : Receiver F} (h : Receiver.Step P s r r') (hL : Lossless s r) :
    Lossless s r' := by
  have hlosts : ∀ x, x ∉ s.losts := by simp [hL.losts]
  cases h with
  | accept _ _ _ => exact { hL with }
  | take _ => exact { hL with }
  | skip ha hb hsub _ _ =>
      have := hsub ⟨ha, hb⟩
      simp [hL.pend] at this
  | buffer _ _ _ _ _ => exact { hL with }
  | jump _ _ _ => exact { hL with pend := rfl }
  | dropPast h _ => exact absurd h.1 hP
  | dropHere h _ _ _ => exact absurd h.1 hP
  | dropAhead h _ => exact absurd h.1 hP
  | expire _ h _ => exact absurd h hP
  | lostPast h _ => exact absurd h (hlosts _)
  | lostHere h _ _ _ _ => exact absurd h (hlosts _)
  | lostAhead h _ => exact absurd h (hlosts _)
  | ack _ => exact { hL with }
  | nack _ _ => exact { hL with }

theorem Sender.Step.lossless {P : Policy F} (hP : ¬P.lossy) (hD : ¬P.disown)
    {s s' : Sender F} {r : Receiver F} (h : Sender.Step P r s s')
    (hL : Lossless s r) : Lossless s' r := by
  cases h with
  | submit _ _ => exact { hL with }
  | burn _ h => exact absurd h hP
  | transmit _ => exact { hL with }
  | acked _ => exact { hL with }
  | disown _ h => exact absurd h hD
  | dropped h => simp [hL.drops] at h
  | supersede _ => exact { hL with }

theorem lossless_fresh : Lossless (.fresh : Sender F) .fresh :=
  ⟨rfl, rfl, rfl, rfl, rfl⟩

/-- A whole run of such a link gives nothing up. -/
theorem Steps.lossless {P : Policy F} (hP : ¬P.lossy) (hD : ¬P.disown)
    {l l' : Sender F × Receiver F} (h : Steps P l l') (hL : Lossless l.1 l.2) :
    Lossless l'.1 l'.2 := by
  refine Steps.invariant (I := fun l => Lossless l.1 l.2) ?_ h hL
  rintro _ _ (h | h) hL
  · exact h.lossless hP hD hL
  · exact h.lossless hP hL

end SelectiveRepeat

import KeemashCore.SelectiveRepeat.Link
import Mathlib.Tactic.Common

/-!
# Bounds and hand-off order

The facts that every run of a link keeps, whatever irregular steps it takes: all
numbers in use lie below the sender's counter, frames are those that were stored
under their number, and the receiver hands numbers off in increasing order.
-/

namespace SelectiveRepeat

variable {F : Type}

/-- A range of numbers below `next`. -/
def RangeBelow (next : ℕ) (x : ℕ × ℕ) : Prop :=
  1 ≤ x.1 ∧ x.1 ≤ x.2 ∧ x.2 < next

/-! ## The sender's frames -/

/-- What holds of the frames a sender has stored. -/
structure Sender.Framed (P : Policy F) (s : Sender F) : Prop where
  span : ∀ x ∈ s.sent, RangeBelow s.next (P.lo x.1 x.2, P.hi x.1 x.2) ∧
    x.1 ∈ Set.Icc (P.lo x.1 x.2) (P.hi x.1 x.2)
  /-- Every number of a message has a frame of that message. -/
  whole : ∀ x ∈ s.sent, ∀ m ∈ Set.Icc (P.lo x.1 x.2) (P.hi x.1 x.2),
    ∃ g, (m, g) ∈ s.sent ∧ P.lo m g = P.lo x.1 x.2 ∧ P.hi m g = P.hi x.1 x.2
  unique : ∀ n f g, (n, f) ∈ s.sent → (n, g) ∈ s.sent → f = g
  tx_sent : s.tx ⊆ s.sent
  data_sent : s.data ⊆ s.sent
  losts_below : ∀ x ∈ s.losts, RangeBelow s.next x

theorem RangeBelow.mono {next next' : ℕ} {x : ℕ × ℕ}
    (h : RangeBelow next x) (hle : next ≤ next') : RangeBelow next' x :=
  ⟨h.1, h.2.1, h.2.2.trans_le hle⟩

theorem numbered_lt {n : ℕ} {fs : List F} {x : ℕ × F}
    (h : x ∈ numbered n fs) : n ≤ x.1 ∧ x.1 < n + fs.length := by
  obtain ⟨hle, hget⟩ := h
  obtain ⟨hlt, -⟩ := List.getElem?_eq_some_iff.mp hget
  omega

theorem exists_mem_numbered {n m : ℕ} (fs : List F)
    (hle : n ≤ m) (hlt : m < n + fs.length) : ∃ f, (m, f) ∈ numbered n fs := by
  have hidx : m - n < fs.length := by omega
  exact ⟨fs[m - n], hle, List.getElem?_eq_getElem hidx⟩

/-- Storing a new message keeps the frames in order. -/
theorem Sender.Framed.submit {P : Policy F} {s : Sender F} {fs : List F}
    (hs : s.Framed P) (hpos : 1 ≤ s.next)
    (hspan : ∀ x ∈ numbered s.next fs,
      P.lo x.1 x.2 = s.next ∧ P.hi x.1 x.2 + 1 = s.next + fs.length) :
    Sender.Framed P
      { s with
        next := s.next + fs.length
        sent := s.sent ∪ numbered s.next fs
        tx := s.tx ∪ numbered s.next fs } where
  span := by
    rintro x (hx | hx)
    · exact ⟨(hs.span x hx).1.mono (Nat.le_add_right _ _), (hs.span x hx).2⟩
    · obtain ⟨hlo, hhi⟩ := hspan x hx
      have hlt := numbered_lt hx
      exact ⟨⟨by dsimp only; omega, by dsimp only; omega, by dsimp only; omega⟩,
        by omega, by omega⟩
  whole := by
    rintro x (hx | hx) m hm
    · obtain ⟨g, hg, hspan⟩ := hs.whole x hx m hm
      exact ⟨g, .inl hg, hspan⟩
    · obtain ⟨hlo, hhi⟩ := hspan x hx
      rw [hlo, Set.mem_Icc] at hm
      obtain ⟨g, hg⟩ := exists_mem_numbered fs hm.1 (by omega)
      have hspan' := hspan (m, g) hg
      dsimp only at hspan'
      exact ⟨g, .inr hg, by rw [hspan'.1, hlo], by omega⟩
  unique := by
    have hfresh : ∀ {n f g}, (n, f) ∈ s.sent → (n, g) ∉ numbered s.next fs := by
      intro n f g hf hg
      have hspan := hs.span (n, f) hf
      have hle : s.next ≤ n := (numbered_lt hg).1
      have hin : n ≤ P.hi n f := hspan.2.2
      have hlt : P.hi n f < s.next := hspan.1.2.2
      omega
    rintro n f g (hf | hf) (hg | hg)
    · exact hs.unique n f g hf hg
    · exact absurd hg (hfresh hf)
    · exact absurd hf (hfresh hg)
    · exact Option.some.inj (hf.2.symm.trans hg.2)
  tx_sent := Set.union_subset_union_left _ hs.tx_sent
  data_sent := hs.data_sent.trans Set.subset_union_left
  losts_below := fun x hx => (hs.losts_below x hx).mono (Nat.le_add_right _ _)

/-! ## Bounds of the link -/

/-- The numbers of both ends lie below the sender's counter. -/
structure Bounded (P : Policy F) (s : Sender F) (r : Receiver F) : Prop
    extends s.Framed P where
  exp_pos : 1 ≤ r.exp
  exp_le : r.exp ≤ s.next
  rx_sent : r.rx ⊆ s.sent
  handed_sent : ∀ x ∈ r.handed, x ∈ s.sent
  pend_below : ∀ n ∈ r.pend, 1 ≤ n ∧ n < s.next
  drops_below : ∀ x ∈ r.drops, RangeBelow s.next x
  acks_below : ∀ x ∈ r.acks, x.1 < r.exp ∧ ∀ n ∈ x.2, n < s.next
  nacks_below : ∀ n ∈ r.nacks, 1 ≤ n ∧ n ≤ r.exp ∧ n < s.next

theorem Droppable.range {P : Policy F} {s : Sender F} {a b : ℕ}
    (h : Droppable P s a b) (hs : s.Framed P) : RangeBelow s.next (a, b) := by
  obtain ⟨-, x, hx, h⟩ := h
  obtain ⟨hrange, hin⟩ := hs.span x hx
  rcases h with ⟨rfl, rfl⟩ | ⟨rfl, rfl⟩
  · exact ⟨hrange.1.trans hin.1, le_rfl, hin.2.trans_lt hrange.2.2⟩
  · exact hrange

theorem Bounded.sent_lt {P : Policy F} {s : Sender F} {r : Receiver F}
    (h : Bounded P s r) {x : ℕ × F} (hx : x ∈ s.sent) : 1 ≤ x.1 ∧ x.1 < s.next := by
  obtain ⟨⟨hpos, -, hlt⟩, hle, hge⟩ := h.span x hx
  exact ⟨hpos.trans hle, hge.trans_lt hlt⟩

/-- Every step of the sender keeps the bounds. -/
theorem Sender.Step.bounded {P : Policy F} {s s' : Sender F} {r : Receiver F}
    (h : Sender.Step P r s s') (hB : Bounded P s r) : Bounded P s' r := by
  -- A larger counter bounds everything that the receiver holds.
  have hmono : ∀ s', s'.Framed P → s.next ≤ s'.next → s.sent ⊆ s'.sent →
      Bounded P s' r := by
    intro s' hframed hnext hsent
    exact
      { hframed with
        exp_pos := hB.exp_pos
        exp_le := hB.exp_le.trans hnext
        rx_sent := hB.rx_sent.trans hsent
        handed_sent := fun x hx => hsent (hB.handed_sent x hx)
        pend_below := fun n hn =>
          ⟨(hB.pend_below n hn).1, (hB.pend_below n hn).2.trans_le hnext⟩
        drops_below := fun x hx => (hB.drops_below x hx).mono hnext
        acks_below := fun x hx => ⟨(hB.acks_below x hx).1, fun n hn =>
          ((hB.acks_below x hx).2 n hn).trans_le hnext⟩
        nacks_below := fun n hn =>
          ⟨(hB.nacks_below n hn).1, (hB.nacks_below n hn).2.1,
            (hB.nacks_below n hn).2.2.trans_le hnext⟩ }
  have hframed := hB.toFramed
  cases h with
  | submit fs hspan =>
      exact hmono _ (hframed.submit (hB.exp_pos.trans hB.exp_le) hspan)
        (Nat.le_add_right _ _) Set.subset_union_left
  | @burn b hb hlossy =>
      have hle : s.next ≤ b + 1 := by omega
      refine hmono _ { hframed with
        span := fun x hx => ⟨(hframed.span x hx).1.mono hle, (hframed.span x hx).2⟩
        losts_below := ?_ } hle subset_rfl
      rintro x (rfl | hx)
      · exact ⟨hB.exp_pos.trans hB.exp_le, hb, Nat.lt_succ_self b⟩
      · exact (hframed.losts_below x hx).mono hle
  | transmit hx =>
      exact hmono _ { hframed with
        data_sent := Set.insert_subset (hframed.tx_sent hx) hframed.data_sent }
        le_rfl subset_rfl
  | acked h =>
      exact hmono _ { hframed with
        tx_sent := (Set.sep_subset _ _).trans hframed.tx_sent } le_rfl subset_rfl
  | @disown n h hP =>
      refine hmono _ { hframed with losts_below := ?_ } le_rfl subset_rfl
      rintro x (rfl | hx)
      · obtain ⟨hpos, -, hlt⟩ := hB.nacks_below n h
        exact ⟨hpos, le_rfl, hlt⟩
      · exact hframed.losts_below x hx
  | dropped h =>
      exact hmono _ { hframed with
        tx_sent := (Set.sep_subset _ _).trans hframed.tx_sent } le_rfl subset_rfl
  | supersede hP =>
      exact hmono _ { hframed with tx_sent := Set.empty_subset _ } le_rfl subset_rfl

/-- Moving the receiver's counter forward, and forgetting what it buffers, keeps
the bounds. -/
theorem Bounded.advance {P : Policy F} {s : Sender F} {r r' : Receiver F}
    (hB : Bounded P s r) (hexp : r.exp ≤ r'.exp) (hle : r'.exp ≤ s.next)
    (hrx : r'.rx ⊆ r.rx) (hpend : ∀ n ∈ r'.pend, n ∈ r.pend ∨ 1 ≤ n ∧ n < s.next)
    (hhanded : ∀ x ∈ r'.handed, x ∈ r.handed ∨ x ∈ s.sent)
    (hdrops : ∀ x ∈ r'.drops, x ∈ r.drops ∨ RangeBelow s.next x)
    (hacks : r'.acks = r.acks) (hnacks : r'.nacks = r.nacks) : Bounded P s r' where
  toFramed := hB.toFramed
  exp_pos := hB.exp_pos.trans hexp
  exp_le := hle
  rx_sent := hrx.trans hB.rx_sent
  handed_sent := fun x hx => (hhanded x hx).elim (hB.handed_sent x) id
  pend_below := fun n hn => (hpend n hn).elim (hB.pend_below n) id
  drops_below := fun x hx => (hdrops x hx).elim (hB.drops_below x) id
  acks_below := fun x hx => by
    rw [hacks] at hx
    exact ⟨(hB.acks_below x hx).1.trans_le hexp, (hB.acks_below x hx).2⟩
  nacks_below := fun n hn => by
    rw [hnacks] at hn
    obtain ⟨hpos, hle, hlt⟩ := hB.nacks_below n hn
    exact ⟨hpos, hle.trans hexp, hlt⟩

theorem Bounded.acks_insert {P : Policy F} {s : Sender F} {r : Receiver F}
    (hB : Bounded P s r) {a : ℕ} (ha : a + 1 = r.exp) (W : Set ℕ) :
    ∀ x ∈ insert (a, r.buffered ∩ W) r.acks,
      x.1 < r.exp ∧ ∀ n ∈ x.2, n < s.next := by
  rintro x (rfl | hx)
  · refine ⟨by simp only; omega, ?_⟩
    rintro n ⟨⟨f, hf⟩, -⟩
    exact (hB.sent_lt (hB.rx_sent hf)).2
  · exact hB.acks_below x hx

/-- Every step of the receiver keeps the bounds. -/
theorem Receiver.Step.bounded {P : Policy F} {s : Sender F} {r r' : Receiver F}
    (h : Receiver.Step P s r r') (hB : Bounded P s r) : Bounded P s r' := by
  cases h with
  | @accept f hdata hrx hpend =>
      have hsent := hB.data_sent hdata
      refine hB.advance (Nat.le_succ _) (hB.sent_lt hsent).2 subset_rfl
        (fun n hn => .inl hn) ?_ (fun x hx => .inl hx) rfl rfl
      intro x hx
      rcases List.mem_append.mp hx with hx | hx
      · exact .inl hx
      · rw [List.mem_singleton.mp hx]
        exact .inr hsent
  | @take f hrx =>
      have hsent := hB.rx_sent hrx
      refine hB.advance (Nat.le_succ _) (hB.sent_lt hsent).2 Set.sdiff_subset
        (fun n hn => .inl hn) ?_ (fun x hx => .inl hx) rfl rfl
      intro x hx
      rcases List.mem_append.mp hx with hx | hx
      · exact .inl hx
      · rw [List.mem_singleton.mp hx]
        exact .inr hsent
  | @skip a b ha hb hsub hlow hhigh =>
      have hlt := (hB.pend_below b (hsub ⟨ha.trans hb, le_rfl⟩)).2
      exact hB.advance (hb.trans (Nat.le_succ _)) hlt subset_rfl
        (fun n hn => .inl hn.1) (fun x hx => .inl hx) (fun x hx => .inl hx) rfl rfl
  | @buffer n f hdata hlt hwin hrx hpend =>
      exact { hB with
        rx_sent := Set.insert_subset (hB.data_sent hdata) hB.rx_sent }
  | @jump n f hP hdata hlt =>
      exact hB.advance hlt.le (hB.sent_lt (hB.data_sent hdata)).2.le
        (Set.empty_subset _) (fun n hn => hn.elim) (fun x hx => .inl hx)
        (fun x hx => .inl hx) rfl rfl
  | @dropPast a b h hb =>
      refine hB.advance le_rfl hB.exp_le (Set.sep_subset _ _)
        (fun n hn => .inl hn) (fun x hx => .inl hx) ?_ rfl rfl
      rintro x (rfl | hx)
      · exact .inr (h.range hB.toFramed)
      · exact .inl hx
  | @dropHere a b h ha hb hover =>
      have hrange := h.range hB.toFramed
      refine hB.advance (hb.trans (Nat.le_succ _)) hrange.2.2 (Set.sep_subset _ _)
        (fun n hn => .inl hn) (fun x hx => .inl hx) ?_ rfl rfl
      rintro x (rfl | hx)
      · exact .inr hrange
      · exact .inl hx
  | @dropAhead a b h ha =>
      have hrange := h.range hB.toFramed
      refine hB.advance le_rfl hB.exp_le (Set.sep_subset _ _) ?_
        (fun x hx => .inl hx) ?_ rfl rfl
      · rintro n (hn | hn)
        · exact .inl hn
        · exact .inr ⟨hrange.1.trans hn.1, hn.2.trans_lt hrange.2.2⟩
      · rintro x (rfl | hx)
        · exact .inr hrange
        · exact .inl hx
  | @expire x hx hP hb =>
      refine hB.advance le_rfl hB.exp_le subset_rfl (fun n hn => .inl hn)
        (fun x hx => .inl hx) ?_ rfl rfl
      rintro y (hy | rfl)
      · exact .inl hy
      · exact .inr (hB.span x (hB.handed_sent x hx)).1
  | lostPast h hb =>
      exact hB.advance le_rfl hB.exp_le subset_rfl (fun n hn => .inl hn)
        (fun x hx => .inl hx) (fun x hx => .inl (hx.elim id False.elim)) rfl rfl
  | @lostHere a b h ha hb hrx hpend =>
      have hrange := hB.losts_below (a, b) h
      exact hB.advance (hb.trans (Nat.le_succ _)) hrange.2.2 subset_rfl
        (fun n hn => .inl hn) (fun x hx => .inl hx)
        (fun x hx => .inl (hx.elim id False.elim)) rfl rfl
  | @lostAhead a b h ha =>
      have hrange := hB.losts_below (a, b) h
      refine hB.advance le_rfl hB.exp_le subset_rfl ?_ (fun x hx => .inl hx)
        (fun x hx => .inl (hx.elim id False.elim)) rfl rfl
      rintro n (hn | hn)
      · exact .inl hn
      · exact .inr ⟨hrange.1.trans hn.1, hn.2.trans_lt hrange.2.2⟩
  | @ack a ha => exact { hB with acks_below := hB.acks_insert ha _ }
  | @nack a ha hgap =>
      refine { hB with acks_below := hB.acks_insert ha _, nacks_below := ?_ }
      rintro n (rfl | hn)
      · obtain ⟨x, hx, hlt⟩ := hgap
        exact ⟨hB.exp_pos, le_rfl,
          hlt.trans (hB.sent_lt (hB.data_sent hx)).2⟩
      · exact hB.nacks_below n hn

theorem Receiver.Steps.bounded {P : Policy F} {s : Sender F} {r r' : Receiver F}
    (h : Receiver.Steps P s r r') (hB : Bounded P s r) : Bounded P s r' := by
  induction h with
  | refl => exact hB
  | tail _ hstep ih => exact hstep.bounded ih

theorem Sender.Steps.bounded {P : Policy F} {s s' : Sender F} {r : Receiver F}
    (h : Sender.Steps P r s s') (hB : Bounded P s r) : Bounded P s' r := by
  induction h with
  | refl => exact hB
  | tail _ hstep ih => exact hstep.bounded ih

theorem Steps.bounded {P : Policy F} {l l' : Sender F × Receiver F}
    (h : Steps P l l') (hB : Bounded P l.1 l.2) : Bounded P l'.1 l'.2 := by
  refine Steps.invariant (I := fun l => Bounded P l.1 l.2) ?_ h hB
  rintro _ _ (h | h) hB
  · exact h.bounded hB
  · exact h.bounded hB

theorem bounded_fresh (P : Policy F) : Bounded P .fresh .fresh where
  span := fun _ hx => absurd hx (Set.notMem_empty _)
  whole := fun _ hx => absurd hx (Set.notMem_empty _)
  unique := fun _ _ _ hf => absurd hf (Set.notMem_empty _)
  tx_sent := Set.empty_subset _
  data_sent := Set.empty_subset _
  losts_below := fun _ hx => absurd hx (Set.notMem_empty _)
  exp_pos := le_rfl
  exp_le := le_rfl
  rx_sent := Set.empty_subset _
  handed_sent := fun _ hx => absurd hx List.not_mem_nil
  pend_below := fun _ hn => absurd hn (Set.notMem_empty _)
  drops_below := fun _ hx => absurd hx (Set.notMem_empty _)
  acks_below := fun _ hx => absurd hx (Set.notMem_empty _)
  nacks_below := fun _ hn => absurd hn (Set.notMem_empty _)

/-! ## Hand-off order -/

/-- The receiver hands numbers off in increasing order, each below `exp`. -/
structure Receiver.Ordered (r : Receiver F) : Prop where
  sorted : (r.handed.map Prod.fst).Pairwise (· < ·)
  below : ∀ x ∈ r.handed, x.1 < r.exp

theorem Receiver.ordered_fresh : (Receiver.fresh : Receiver F).Ordered :=
  ⟨List.Pairwise.nil, fun _ hx => absurd hx List.not_mem_nil⟩

theorem Receiver.Ordered.hand {r : Receiver F} (h : r.Ordered) (f : F) :
    (r.hand f).Ordered where
  sorted := by
    simp only [Receiver.hand, List.map_append, List.map_cons, List.map_nil,
      List.pairwise_append, List.pairwise_singleton, List.mem_singleton, true_and]
    refine ⟨h.sorted, ?_⟩
    rintro n hn _ rfl
    obtain ⟨x, hx, rfl⟩ := List.mem_map.mp hn
    exact h.below x hx
  below := by
    intro x hx
    rcases List.mem_append.mp hx with hx | hx
    · exact (h.below x hx).trans (Nat.lt_succ_self _)
    · rw [List.mem_singleton.mp hx]
      exact Nat.lt_succ_self _

/-- Every step of the receiver keeps the hand-off order. -/
theorem Receiver.Step.ordered {P : Policy F} {s : Sender F} {r r' : Receiver F}
    (h : Receiver.Step P s r r') (ho : r.Ordered) : r'.Ordered := by
  have hmove : ∀ r' : Receiver F, r'.handed = r.handed → r.exp ≤ r'.exp →
      r'.Ordered := by
    intro r' hhanded hexp
    refine ⟨?_, ?_⟩
    · rw [hhanded]
      exact ho.sorted
    · intro x hx
      rw [hhanded] at hx
      exact (ho.below x hx).trans_le hexp
  cases h with
  | accept _ _ _ => exact ho.hand _
  | take _ => exact ⟨(ho.hand _).sorted, (ho.hand _).below⟩
  | skip _ hb _ _ _ => exact hmove _ rfl (hb.trans (Nat.le_succ _))
  | buffer _ _ _ _ _ => exact hmove _ rfl le_rfl
  | jump _ _ hlt => exact hmove _ rfl hlt.le
  | dropPast _ _ => exact hmove _ rfl le_rfl
  | dropHere _ _ hb _ => exact hmove _ rfl (hb.trans (Nat.le_succ _))
  | dropAhead _ _ => exact hmove _ rfl le_rfl
  | expire _ _ _ => exact hmove _ rfl le_rfl
  | lostPast _ _ => exact hmove _ rfl le_rfl
  | lostHere _ _ hb _ _ => exact hmove _ rfl (hb.trans (Nat.le_succ _))
  | lostAhead _ _ => exact hmove _ rfl le_rfl
  | ack _ => exact hmove _ rfl le_rfl
  | nack _ _ => exact hmove _ rfl le_rfl

theorem Receiver.Steps.ordered {P : Policy F} {s : Sender F} {r r' : Receiver F}
    (h : Receiver.Steps P s r r') (ho : r.Ordered) : r'.Ordered := by
  induction h with
  | refl => exact ho
  | tail _ hstep ih => exact hstep.ordered ih

end SelectiveRepeat

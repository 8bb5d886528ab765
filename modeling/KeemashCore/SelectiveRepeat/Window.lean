import KeemashCore.SelectiveRepeat.Order

/-!
# The reorder buffer and the pending numbers

A receiver that neither buffers a number it has already given up, nor drops past
a pending number, keeps its two side tables tidy: buffered numbers lie in the
window, pending numbers lie ahead, and the two do not meet.  If moreover no
message expires that the receiver has not passed, then a link with nothing held
and nothing on the way has no gap.
-/

namespace SelectiveRepeat

variable {F : Type}

/-! ## Tidy side tables -/

/-- An announcement of a single number that the receiver has reached. -/
def Receiver.Reached (r : Receiver F) (x : ℕ × ℕ) : Prop :=
  x.1 = x.2 ∧ x.1 ≤ r.exp

/-- The side tables of a receiver whose sender announced `s.losts`. -/
structure Tidy (P : Policy F) (s : Sender F) (r : Receiver F) : Prop where
  rx_window : ∀ n ∈ r.buffered, r.exp ≤ n ∧ n < r.exp + P.window
  /-- A pending number behind `exp` is joined to `exp` by pending numbers. -/
  pend_joined : ∀ n ∈ r.pend, n < r.exp → Set.Icc n r.exp ⊆ r.pend
  disjoint : ∀ n ∈ r.buffered, n ∉ r.pend
  /-- The sender announces numbers the receiver asked for, or numbers without a
  frame. -/
  losts_split : ∀ x ∈ s.losts, r.Reached x ∨
    ∀ n ∈ Set.Icc x.1 x.2, ∀ f, (n, f) ∉ s.sent
  losts_apart : ∀ x ∈ s.losts, ∀ y ∈ s.losts, ∀ n ∈ Set.Icc x.1 x.2,
    n ∈ Set.Icc y.1 y.2 → x = y ∨ r.Reached x ∨ r.Reached y
  /-- An announced range is pending as a whole or not at all. -/
  pend_whole : ∀ x ∈ s.losts, ∀ n ∈ Set.Icc x.1 x.2, n ∈ r.pend →
    Set.Icc x.1 x.2 ⊆ r.pend

theorem Receiver.Reached.whole {r : Receiver F} {x : ℕ × ℕ} (h : r.Reached x)
    {A : Set ℕ} {n : ℕ} (hn : n ∈ Set.Icc x.1 x.2) (hA : n ∈ A) :
    Set.Icc x.1 x.2 ⊆ A := by
  intro m hm
  have heq := h.1
  rwa [show m = n by simp only [Set.mem_Icc] at hn hm; omega]

/-- The numbers a receiver may drop have frames. -/
theorem Droppable.sent {P : Policy F} {s : Sender F} {a b : ℕ}
    (h : Droppable P s a b) (hs : s.Framed P) :
    ∀ n ∈ Set.Icc a b, ∃ f, (n, f) ∈ s.sent := by
  obtain ⟨-, x, hx, ⟨rfl, rfl⟩ | ⟨rfl, rfl⟩⟩ := h
  · intro n hn
    rw [show n = x.1 from le_antisymm hn.2 hn.1]
    exact ⟨x.2, hx⟩
  · intro n hn
    obtain ⟨g, hg, -⟩ := hs.whole x hx n hn
    exact ⟨g, hg⟩

/-- The facts about announcements only need `exp` not to move back. -/
theorem Tidy.losts_advance {P : Policy F} {s : Sender F} {r r' : Receiver F}
    (h : Tidy P s r) (hexp : r.exp ≤ r'.exp) :
    (∀ x ∈ s.losts, r'.Reached x ∨ ∀ n ∈ Set.Icc x.1 x.2, ∀ f, (n, f) ∉ s.sent) ∧
    (∀ x ∈ s.losts, ∀ y ∈ s.losts, ∀ n ∈ Set.Icc x.1 x.2,
      n ∈ Set.Icc y.1 y.2 → x = y ∨ r'.Reached x ∨ r'.Reached y) := by
  have hreach : ∀ x, r.Reached x → r'.Reached x := fun x hx => ⟨hx.1, hx.2.trans hexp⟩
  refine ⟨fun x hx => (h.losts_split x hx).imp_left (hreach x), ?_⟩
  intro x hx y hy n hn hm
  exact (h.losts_apart x hx y hy n hn hm).imp_right
    (Or.imp (hreach x) (hreach y))

/-- At a drained receiver no pending number lies behind `exp`. -/
theorem Tidy.pend_ahead {P : Policy F} {s : Sender F} {r : Receiver F}
    (h : Tidy P s r) (hexp : r.exp ∉ r.pend) : ∀ n ∈ r.pend, r.exp < n := by
  intro n hn
  by_contra hle
  rcases Nat.lt_or_ge n r.exp with hlt | hge
  · exact hexp (h.pend_joined n hn hlt ⟨hlt.le, le_rfl⟩)
  · rw [show n = r.exp by omega] at hn
    exact hexp hn

/-- Handing off the expected number keeps the tables tidy. -/
theorem Tidy.hand {P : Policy F} {s : Sender F} {r r' : Receiver F}
    (h : Tidy P s r) (hexp : r'.exp = r.exp + 1) (hpend : r'.pend = r.pend)
    (hrx : r'.rx ⊆ r.rx) (hgone : r.exp ∉ r'.buffered) (hnot : r.exp ∉ r.pend) :
    Tidy P s r' where
  rx_window := by
    rintro n ⟨f, hf⟩
    have hwin := h.rx_window n ⟨f, hrx hf⟩
    have hne : n ≠ r.exp := by
      rintro rfl
      exact hgone ⟨f, hf⟩
    omega
  pend_joined := by
    intro n hn hlt
    rw [hpend] at hn
    have := h.pend_ahead hnot n hn
    omega
  disjoint := by
    rintro n ⟨f, hf⟩
    rw [hpend]
    exact h.disjoint n ⟨f, hrx hf⟩
  losts_split := (h.losts_advance (by omega)).1
  losts_apart := (h.losts_advance (by omega)).2
  pend_whole := by
    rw [hpend]
    exact h.pend_whole

/-- Numbers of a range in which no pending block ends are joined to its end. -/
theorem pend_chain {A : Set ℕ} {a b n : ℕ}
    (hchain : ∀ n ∈ Set.Icc a b, n ∈ A → n + 1 ∈ A) (ha : a ≤ n) (hn : n ∈ A) :
    Set.Icc n (b + 1) ⊆ A := by
  rintro m ⟨hle, hge⟩
  induction m, hle using Nat.le_induction with
  | base => exact hn
  | succ m hle ih => exact hchain m ⟨ha.trans hle, by omega⟩ (ih (by omega))

/-- Moving `exp` past a block of pending numbers. -/
theorem Tidy.skip {P : Policy F} {s : Sender F} {r : Receiver F} {a b : ℕ}
    (h : Tidy P s r) (ha : a ≤ r.exp) (hb : r.exp ≤ b)
    (hsub : Set.Icc a b ⊆ r.pend) (hlow : ∀ n, n + 1 = a → n ∉ r.pend)
    (hhigh : b + 1 ∉ r.pend) :
    Tidy P s { r with exp := b + 1, pend := r.pend \ Set.Icc a b } where
  rx_window := by
    intro n hn
    have hwin := h.rx_window n hn
    have hnot : n ∉ Set.Icc a b := fun hin => h.disjoint n hn (hsub hin)
    rw [Set.mem_Icc] at hnot
    dsimp only
    omega
  pend_joined := by
    rintro n ⟨hn, hout⟩ hlt
    dsimp only at hlt
    rw [Set.mem_Icc] at hout
    have hlt' : n < a := by omega
    have hjoin := h.pend_joined n hn (hlt'.trans_le ha)
    exact absurd (hjoin ⟨by omega, by omega⟩) (hlow (a - 1) (by omega))
  disjoint := fun n hn hp => h.disjoint n hn hp.1
  losts_split := (h.losts_advance (by dsimp only; omega)).1
  losts_apart := (h.losts_advance (by dsimp only; omega)).2
  pend_whole := by
    rintro x hx n hn ⟨hp, hout⟩
    have hwhole := h.pend_whole x hx n hn hp
    intro m hm
    refine ⟨hwhole hm, fun hin => ?_⟩
    -- Between `n` and `m` the range would cross an end of the block.
    simp only [Set.mem_Icc] at hn hm hin hout
    rcases Nat.lt_or_ge n a with hlt | hge
    · exact hlow (a - 1) (by omega) (hwhole ⟨by omega, by omega⟩)
    · exact hhigh (hwhole ⟨by omega, by omega⟩)

/-- Moving `exp` past a range whose numbers are neither buffered nor the end of
a pending block. -/
theorem Tidy.pass {P : Policy F} {s : Sender F} {r r' : Receiver F} {a b : ℕ}
    (h : Tidy P s r) (ha : a ≤ r.exp) (hb : r.exp ≤ b) (hexp : r'.exp = b + 1)
    (hpend : r'.pend = r.pend) (hrx : r'.rx ⊆ r.rx)
    (hgone : ∀ n ∈ Set.Icc a b, n ∉ r'.buffered)
    (hchain : ∀ n ∈ Set.Icc a b, n ∈ r.pend → n + 1 ∈ r.pend) : Tidy P s r' where
  rx_window := by
    rintro n ⟨f, hf⟩
    have hwin := h.rx_window n ⟨f, hrx hf⟩
    have hnot : n ∉ Set.Icc a b := fun hin => hgone n hin ⟨f, hf⟩
    rw [Set.mem_Icc] at hnot
    omega
  pend_joined := by
    intro n hn hlt
    rw [hpend] at hn ⊢
    rw [hexp] at hlt ⊢
    rcases Nat.lt_or_ge n r.exp with hbehind | hahead
    · have hjoin := h.pend_joined n hn hbehind
      have hrest := pend_chain hchain ha (hjoin ⟨hbehind.le, le_rfl⟩)
      intro m hm
      rcases Nat.le_total m r.exp with hle | hge
      · exact hjoin ⟨hm.1, hle⟩
      · exact hrest ⟨hge, hm.2⟩
    · exact pend_chain hchain (ha.trans hahead) hn
  disjoint := by
    rintro n ⟨f, hf⟩
    rw [hpend]
    exact h.disjoint n ⟨f, hrx hf⟩
  losts_split := (h.losts_advance (by omega)).1
  losts_apart := (h.losts_advance (by omega)).2
  pend_whole := by
    rw [hpend]
    exact h.pend_whole

/-- Adding a range ahead of `exp` to the pending numbers. -/
theorem Tidy.postpone {P : Policy F} {s : Sender F} {r r' : Receiver F} {a b : ℕ}
    (h : Tidy P s r) (ha : r.exp < a) (hexp : r'.exp = r.exp)
    (hpend : r'.pend = r.pend ∪ Set.Icc a b) (hrx : r'.rx ⊆ r.rx)
    (hgone : ∀ n ∈ Set.Icc a b, n ∉ r'.buffered)
    (hwhole : ∀ x ∈ s.losts, ∀ n ∈ Set.Icc x.1 x.2, n ∈ Set.Icc a b →
      Set.Icc x.1 x.2 ⊆ Set.Icc a b) : Tidy P s r' where
  rx_window := by
    rintro n ⟨f, hf⟩
    rw [hexp]
    exact h.rx_window n ⟨f, hrx hf⟩
  pend_joined := by
    intro n hn hlt
    rw [hpend] at hn ⊢
    rw [hexp] at hlt ⊢
    rcases hn with hn | hn
    · exact (h.pend_joined n hn hlt).trans Set.subset_union_left
    · rw [Set.mem_Icc] at hn
      omega
  disjoint := by
    rintro n ⟨f, hf⟩ hn
    rw [hpend] at hn
    rcases hn with hn | hn
    · exact h.disjoint n ⟨f, hrx hf⟩ hn
    · exact hgone n hn ⟨f, hf⟩
  losts_split := (h.losts_advance hexp.ge).1
  losts_apart := (h.losts_advance hexp.ge).2
  pend_whole := by
    intro x hx n hn hp
    rw [hpend] at hp ⊢
    rcases hp with hp | hp
    · exact (h.pend_whole x hx n hn hp).trans Set.subset_union_left
    · exact (hwhole x hx n hn hp).trans Set.subset_union_right

/-- Forgetting buffered frames keeps the tables tidy. -/
theorem Tidy.forget {P : Policy F} {s : Sender F} {r r' : Receiver F}
    (h : Tidy P s r) (hexp : r'.exp = r.exp) (hpend : r'.pend = r.pend)
    (hrx : r'.rx ⊆ r.rx) : Tidy P s r' where
  rx_window := by
    rintro n ⟨f, hf⟩
    rw [hexp]
    exact h.rx_window n ⟨f, hrx hf⟩
  pend_joined := by
    rw [hexp, hpend]
    exact h.pend_joined
  disjoint := by
    rintro n ⟨f, hf⟩
    rw [hpend]
    exact h.disjoint n ⟨f, hrx hf⟩
  losts_split := (h.losts_advance hexp.ge).1
  losts_apart := (h.losts_advance hexp.ge).2
  pend_whole := by
    rw [hpend]
    exact h.pend_whole

/-- Every step of the receiver keeps the tables tidy. -/
theorem Receiver.Step.tidy {P : Policy F} (hbuf : ¬P.bufferPending)
    (hover : ¬P.overrun) {s : Sender F} {r r' : Receiver F}
    (h : Receiver.Step P s r r') (hB : Bounded P s r) (hT : Tidy P s r) :
    Tidy P s r' := by
  cases h with
  | accept _ hrx hpend =>
      exact hT.hand rfl rfl subset_rfl hrx hpend
  | @take f hrx =>
      refine hT.hand rfl rfl Set.sdiff_subset ?_ (hT.disjoint _ ⟨f, hrx⟩)
      rintro ⟨g, hg, hne⟩
      have heq := hB.unique r.exp g f (hB.rx_sent hg) (hB.rx_sent hrx)
      exact hne (by rw [heq]; rfl)
  | skip ha hb hsub hlow hhigh => exact hT.skip ha hb hsub hlow hhigh
  | @buffer n f _ hlt hwin _ hpend =>
      have hnot : n ∉ r.pend := hpend.resolve_right hbuf
      refine { hT with rx_window := ?_, disjoint := ?_ }
      · rintro m ⟨g, hg⟩
        rcases Set.mem_insert_iff.mp hg with hg | hg
        · obtain ⟨rfl, -⟩ := Prod.mk.inj hg
          exact ⟨hlt.le, hwin⟩
        · exact hT.rx_window m ⟨g, hg⟩
      · rintro m ⟨g, hg⟩
        rcases Set.mem_insert_iff.mp hg with hg | hg
        · obtain ⟨rfl, -⟩ := Prod.mk.inj hg
          exact hnot
        · exact hT.disjoint m ⟨g, hg⟩
  | jump _ _ hlt =>
      exact
        { rx_window := fun n ⟨f, hf⟩ => hf.elim
          pend_joined := fun n hn => hn.elim
          disjoint := fun n ⟨f, hf⟩ => hf.elim
          losts_split := (hT.losts_advance hlt.le).1
          losts_apart := (hT.losts_advance hlt.le).2
          pend_whole := fun x hx n hn hp => hp.elim }
  | dropPast _ _ => exact hT.forget rfl rfl (Set.sep_subset _ _)
  | dropHere _ ha hb h =>
      refine hT.pass ha hb rfl rfl (Set.sep_subset _ _) ?_ (h.resolve_right hover)
      rintro n hn ⟨f, hf⟩
      exact hf.2 hn
  | @dropAhead a b hdrop ha =>
      refine hT.postpone ha rfl rfl (Set.sep_subset _ _) ?_ ?_
      · rintro n hn ⟨f, hf⟩
        exact hf.2 hn
      · intro x hx n hn hin
        rcases hT.losts_split x hx with hreach | hfree
        · exact hreach.whole hn hin
        · obtain ⟨f, hf⟩ := hdrop.sent hB.toFramed n hin
          exact absurd hf (hfree n hn f)
  | expire _ _ _ => exact hT.forget rfl rfl subset_rfl
  | lostPast _ _ => exact hT.forget rfl rfl subset_rfl
  | @lostHere a b h ha hb hrx hpend =>
      refine hT.pass ha hb rfl rfl subset_rfl ?_ ?_
      · rintro n hn ⟨f, hf⟩
        rcases hT.losts_split (a, b) h with ⟨heq, hle⟩ | hfree
        · rw [Set.mem_Icc] at hn
          dsimp only at heq hle
          rw [show n = r.exp by omega] at hf
          exact hrx ⟨f, hf⟩
        · exact hfree n hn f (hB.rx_sent hf)
      · intro n hn hp
        exact absurd (hT.pend_whole (a, b) h n hn hp ⟨ha, hb⟩) hpend
  | @lostAhead a b h ha =>
      have hahead : ¬r.Reached (a, b) := fun hreach => absurd hreach.2 (by simpa using ha)
      refine hT.postpone ha rfl rfl subset_rfl ?_ ?_
      · rintro n hn ⟨f, hf⟩
        exact (hT.losts_split (a, b) h).resolve_left hahead n hn f (hB.rx_sent hf)
      · intro x hx n hn hin
        rcases hT.losts_apart x hx (a, b) h n hn hin with rfl | hreach | hreach
        · exact subset_rfl
        · exact hreach.whole hn hin
        · exact absurd hreach hahead
  | ack _ => exact hT.forget rfl rfl subset_rfl
  | nack _ _ => exact hT.forget rfl rfl subset_rfl

/-- Every step of the sender keeps the tables tidy. -/
theorem Sender.Step.tidy {P : Policy F} {s s' : Sender F} {r : Receiver F}
    (h : Sender.Step P r s s') (hB : Bounded P s r) (hT : Tidy P s r) :
    Tidy P s' r := by
  cases h with
  | submit fs hspan =>
      refine { hT with losts_split := ?_ }
      intro x hx
      refine (hT.losts_split x hx).imp_right fun hfree n hn f => ?_
      rintro (hf | hf)
      · exact hfree n hn f hf
      · have hlt := (hB.losts_below x hx).2.2
        have hle := (numbered_lt hf).1
        rw [Set.mem_Icc] at hn
        dsimp only at hle
        omega
  | @burn b hb _ =>
      have hbelow : ∀ x ∈ s.losts, ∀ n ∈ Set.Icc x.1 x.2, n < s.next :=
        fun x hx n hn => hn.2.trans_lt (hB.losts_below x hx).2.2
      refine { hT with losts_split := ?_, losts_apart := ?_, pend_whole := ?_ }
      · rintro x (rfl | hx)
        · refine .inr fun n hn f hf => ?_
          have := (hB.sent_lt hf).2
          rw [Set.mem_Icc] at hn
          dsimp only at this hn
          omega
        · exact hT.losts_split x hx
      · rintro x (rfl | hx) y (rfl | hy) n hn hm
        · exact .inl rfl
        · exact absurd hn.1 (Nat.not_le_of_lt (hbelow y hy n hm))
        · exact absurd hm.1 (Nat.not_le_of_lt (hbelow x hx n hn))
        · exact hT.losts_apart x hx y hy n hn hm
      · rintro x (rfl | hx) n hn hp
        · exact absurd hn.1 (Nat.not_le_of_lt (hB.pend_below n hp).2)
        · exact hT.pend_whole x hx n hn hp
  | transmit _ => exact { hT with }
  | acked _ => exact { hT with }
  | @disown n h _ =>
      have hreach : r.Reached (n, n) := ⟨rfl, (hB.nacks_below n h).2.1⟩
      refine { hT with losts_split := ?_, losts_apart := ?_, pend_whole := ?_ }
      · rintro x (rfl | hx)
        · exact .inl hreach
        · exact hT.losts_split x hx
      · rintro x (rfl | hx) y (rfl | hy) m hn hm
        · exact .inl rfl
        · exact .inr (.inl hreach)
        · exact .inr (.inr hreach)
        · exact hT.losts_apart x hx y hy m hn hm
      · rintro x (rfl | hx) m hm hp
        · exact hreach.whole hm hp
        · exact hT.pend_whole x hx m hm hp
  | dropped _ => exact { hT with }
  | supersede _ => exact { hT with }

theorem tidy_fresh (P : Policy F) : Tidy P .fresh .fresh where
  rx_window := fun _ hn => absurd hn.choose_spec (Set.notMem_empty _)
  pend_joined := fun _ hn => absurd hn (Set.notMem_empty _)
  disjoint := fun _ _ => Set.notMem_empty _
  losts_split := fun _ hx => absurd hx (Set.notMem_empty _)
  losts_apart := fun _ hx => absurd hx (Set.notMem_empty _)
  pend_whole := fun _ hx => absurd hx (Set.notMem_empty _)

/-- A whole run of the link keeps the tables tidy. -/
theorem Steps.tidy {P : Policy F} (hbuf : ¬P.bufferPending) (hover : ¬P.overrun)
    {l l' : Sender F × Receiver F} (h : Steps P l l') (hB : Bounded P l.1 l.2)
    (hT : Tidy P l.1 l.2) : Tidy P l'.1 l'.2 := by
  induction h with
  | refl => exact hT
  | tail hsteps hlast ih =>
      have hbounded := Steps.bounded hsteps hB
      cases hlast with
      | sender h => exact h.tidy hbounded ih
      | receiver h => exact h.tidy hbuf hover hbounded ih

/-! ## Agreement of the two ends -/

/-- The receiver has passed the number, buffers it, or will skip it. -/
def Receiver.Settled (r : Receiver F) (n : ℕ) : Prop :=
  n < r.exp ∨ n ∈ r.buffered ∨ n ∈ r.pend

/-- What the two ends know of each other's progress. -/
structure Agreed (s : Sender F) (r : Receiver F) : Prop where
  lost_settled : ∀ n ∈ r.lost, n < r.exp ∨ n ∈ r.pend
  drops_lost : ∀ x ∈ r.drops, Set.Icc x.1 x.2 ⊆ r.lost
  acks_settled : ∀ x ∈ r.acks, ∀ n ∈ x.2, r.Settled n
  /-- The sender lets a number go only when the receiver has settled it or the
  number was announced. -/
  held : ∀ n < s.next, (∃ f, (n, f) ∈ s.tx) ∨ r.Settled n ∨
    ∃ x ∈ s.losts, n ∈ Set.Icc x.1 x.2

theorem Receiver.Settled.mono {r r' : Receiver F} {n : ℕ} (h : r.Settled n)
    (hexp : r.exp ≤ r'.exp) (hrx : n ∈ r.buffered → r'.Settled n)
    (hpend : n ∈ r.pend → r'.Settled n) : r'.Settled n := by
  rcases h with h | h | h
  · exact .inl (h.trans_le hexp)
  · exact hrx h
  · exact hpend h

/-- What is settled stays settled. -/
theorem Receiver.Step.settled {P : Policy F} (hP : ¬P.latest) {s : Sender F}
    {r r' : Receiver F} (h : Receiver.Step P s r r') {n : ℕ}
    (hn : r.Settled n) : r'.Settled n := by
  cases h with
  | accept _ _ _ =>
      exact hn.mono (Nat.le_succ _) (fun h => .inr (.inl h)) fun h => .inr (.inr h)
  | @take f _ =>
      refine hn.mono (Nat.le_succ _) ?_ fun h => .inr (.inr h)
      rintro ⟨g, hg⟩
      by_cases hne : (n, g) = (r.exp, f)
      · exact .inl (by rw [(Prod.mk.inj hne).1]; exact Nat.lt_succ_self _)
      · exact .inr (.inl ⟨g, hg, hne⟩)
  | @skip a b _ hb _ _ _ =>
      refine hn.mono (hb.trans (Nat.le_succ _)) (fun h => .inr (.inl h)) ?_
      intro hp
      by_cases hin : n ∈ Set.Icc a b
      · exact .inl (Nat.lt_succ_of_le hin.2)
      · exact .inr (.inr ⟨hp, hin⟩)
  | buffer _ _ _ _ _ =>
      refine hn.mono le_rfl ?_ fun h => .inr (.inr h)
      rintro ⟨g, hg⟩
      exact .inr (.inl ⟨g, Set.mem_insert_of_mem _ hg⟩)
  | jump h _ _ => exact absurd h hP
  | @dropPast a b _ hb =>
      refine hn.mono le_rfl ?_ fun h => .inr (.inr h)
      rintro ⟨g, hg⟩
      by_cases hin : n ∈ Set.Icc a b
      · exact .inl (hin.2.trans_lt hb)
      · exact .inr (.inl ⟨g, hg, hin⟩)
  | @dropHere a b _ _ hb _ =>
      refine hn.mono (hb.trans (Nat.le_succ _)) ?_ fun h => .inr (.inr h)
      rintro ⟨g, hg⟩
      by_cases hin : n ∈ Set.Icc a b
      · exact .inl (Nat.lt_succ_of_le hin.2)
      · exact .inr (.inl ⟨g, hg, hin⟩)
  | @dropAhead a b _ _ =>
      refine hn.mono le_rfl ?_ fun h => .inr (.inr (.inl h))
      rintro ⟨g, hg⟩
      by_cases hin : n ∈ Set.Icc a b
      · exact .inr (.inr (.inr hin))
      · exact .inr (.inl ⟨g, hg, hin⟩)
  | expire _ _ _ => exact hn
  | lostPast _ _ => exact hn
  | lostHere _ _ hb _ _ =>
      exact hn.mono (hb.trans (Nat.le_succ _)) (fun h => .inr (.inl h))
        fun h => .inr (.inr h)
  | lostAhead _ _ =>
      exact hn.mono le_rfl (fun h => .inr (.inl h)) fun h => .inr (.inr (.inl h))
  | ack _ => exact hn
  | nack _ _ => exact hn

/-- Every step of the receiver keeps the ends in agreement. -/
theorem Receiver.Step.agreed {P : Policy F} (hP : ¬P.latest)
    (hexpire : ¬P.expireAhead) {s : Sender F} {r r' : Receiver F}
    (h : Receiver.Step P s r r') (hA : Agreed s r) : Agreed s r' := by
  have hsettled : ∀ n, r.Settled n → r'.Settled n := fun n => h.settled hP
  have hheld : ∀ n < s.next, (∃ f, (n, f) ∈ s.tx) ∨ r'.Settled n ∨
      ∃ x ∈ s.losts, n ∈ Set.Icc x.1 x.2 :=
    fun n hn => (hA.held n hn).imp_right (Or.imp_left (hsettled n))
  have hacks : ∀ x ∈ r.acks, ∀ n ∈ x.2, r'.Settled n :=
    fun x hx n hn => hsettled n (hA.acks_settled x hx n hn)
  -- A report of the range from `a` to `b` must come with a move past it.
  have hreport : ∀ a b : ℕ, r'.lost = r.lost ∪ Set.Icc a b →
      (∀ n ∈ Set.Icc a b, n < r'.exp ∨ n ∈ r'.pend) →
      (∀ n, n < r.exp ∨ n ∈ r.pend → n < r'.exp ∨ n ∈ r'.pend) →
      ∀ n ∈ r'.lost, n < r'.exp ∨ n ∈ r'.pend := by
    intro a b hlost hnew hold n hn
    rw [hlost] at hn
    rcases hn with hn | hn
    · exact hold n (hA.lost_settled n hn)
    · exact hnew n hn
  have hdrops : ∀ a b : ℕ, ∀ x ∈ insert (a, b) r.drops,
      Set.Icc x.1 x.2 ⊆ r.lost ∪ Set.Icc a b := by
    rintro a b x (rfl | hx)
    · exact Set.subset_union_right
    · exact (hA.drops_lost x hx).trans Set.subset_union_left
  have hnone : ∀ a b : ℕ, ∀ x ∈ r.drops ∪ ∅, Set.Icc x.1 x.2 ⊆ r.lost ∪ Set.Icc a b := by
    rintro a b x (hx | hx)
    · exact (hA.drops_lost x hx).trans Set.subset_union_left
    · exact hx.elim
  cases h with
  | accept _ _ _ =>
      refine ⟨fun n hn => ?_, hA.drops_lost, hacks, hheld⟩
      exact (hA.lost_settled n hn).imp_left fun h => h.trans (Nat.lt_succ_self _)
  | take _ =>
      refine ⟨fun n hn => ?_, hA.drops_lost, hacks, hheld⟩
      exact (hA.lost_settled n hn).imp_left fun h => h.trans (Nat.lt_succ_self _)
  | @skip a b _ hb _ _ _ =>
      refine ⟨fun n hn => ?_, hA.drops_lost, hacks, hheld⟩
      rcases hA.lost_settled n hn with h | h
      · exact .inl (by dsimp only; omega)
      · by_cases hin : n ∈ Set.Icc a b
        · exact .inl (Nat.lt_succ_of_le hin.2)
        · exact .inr ⟨h, hin⟩
  | buffer _ _ _ _ _ => exact ⟨hA.lost_settled, hA.drops_lost, hacks, hheld⟩
  | jump h _ _ => exact absurd h hP
  | @dropPast a b _ hb =>
      refine ⟨hreport a b rfl ?_ fun n h => h, hdrops a b, hacks, hheld⟩
      exact fun n hn => .inl (hn.2.trans_lt hb)
  | @dropHere a b _ _ hb _ =>
      refine ⟨hreport a b rfl ?_ ?_, hdrops a b, hacks, hheld⟩
      · exact fun n hn => .inl (Nat.lt_succ_of_le hn.2)
      · exact fun n h => h.imp_left fun hlt => hlt.trans (Nat.lt_succ_of_le hb)
  | @dropAhead a b _ _ =>
      refine ⟨hreport a b rfl ?_ ?_, hdrops a b, hacks, hheld⟩
      · exact fun n hn => .inr (.inr hn)
      · exact fun n h => h.imp_right .inl
  | @expire x _ _ hb =>
      have hpast := hb.resolve_right hexpire
      refine ⟨hreport _ _ rfl ?_ fun n h => h, ?_, hacks, hheld⟩
      · exact fun n hn => .inl (hn.2.trans_lt hpast)
      · rintro y (hy | rfl)
        · exact (hA.drops_lost y hy).trans Set.subset_union_left
        · exact Set.subset_union_right
  | @lostPast a b _ hb =>
      refine ⟨hreport a b rfl ?_ fun n h => h, hnone a b, hacks, hheld⟩
      exact fun n hn => .inl (hn.2.trans_lt hb)
  | @lostHere a b _ _ hb _ _ =>
      refine ⟨hreport a b rfl ?_ ?_, hnone a b, hacks, hheld⟩
      · exact fun n hn => .inl (Nat.lt_succ_of_le hn.2)
      · exact fun n h => h.imp_left fun hlt => hlt.trans (Nat.lt_succ_of_le hb)
  | @lostAhead a b _ _ =>
      refine ⟨hreport a b rfl ?_ ?_, hnone a b, hacks, hheld⟩
      · exact fun n hn => .inr (.inr hn)
      · exact fun n h => h.imp_right .inl
  | ack _ =>
      refine ⟨hA.lost_settled, hA.drops_lost, ?_, hheld⟩
      rintro x (rfl | hx) n hn
      · exact .inr (.inl hn.1)
      · exact hacks x hx n hn
  | nack _ _ =>
      refine ⟨hA.lost_settled, hA.drops_lost, ?_, hheld⟩
      rintro x (rfl | hx) n hn
      · exact .inr (.inl hn.1)
      · exact hacks x hx n hn

/-- Every step of the sender keeps the ends in agreement. -/
theorem Sender.Step.agreed {P : Policy F} (hP : ¬P.latest) {s s' : Sender F}
    {r : Receiver F} (h : Sender.Step P r s s') (hB : Bounded P s r)
    (hA : Agreed s r) : Agreed s' r := by
  cases h with
  | submit fs _ =>
      refine { hA with held := ?_ }
      intro n hlt
      by_cases hn : n < s.next
      · exact (hA.held n hn).imp_left fun ⟨f, hf⟩ => ⟨f, .inl hf⟩
      · obtain ⟨f, hf⟩ := exists_mem_numbered _ (Nat.le_of_not_lt hn) hlt
        exact .inl ⟨f, .inr hf⟩
  | @burn b _ _ =>
      refine { hA with held := ?_ }
      intro n hlt
      by_cases hn : n < s.next
      · refine (hA.held n hn).imp_right (Or.imp_right ?_)
        exact fun ⟨x, hx, hin⟩ => ⟨x, Set.mem_insert_of_mem _ hx, hin⟩
      · exact .inr (.inr ⟨_, Set.mem_insert _ _, Nat.le_of_not_lt hn,
          Nat.le_of_lt_succ hlt⟩)
  | transmit _ => exact { hA with }
  | @acked a T h =>
      refine { hA with held := ?_ }
      intro n hlt
      rcases hA.held n hlt with ⟨f, hf⟩ | hn
      · by_cases hle : n ≤ a
        · exact .inr (.inl (.inl (hle.trans_lt (hB.acks_below (a, T) h).1)))
        · by_cases hT : n ∈ T
          · exact .inr (.inl (hA.acks_settled (a, T) h n hT))
          · exact .inl ⟨f, hf, Nat.lt_of_not_le hle, hT⟩
      · exact .inr hn
  | disown _ _ =>
      refine { hA with held := ?_ }
      intro n hlt
      refine (hA.held n hlt).imp_right (Or.imp_right ?_)
      exact fun ⟨x, hx, hin⟩ => ⟨x, Set.mem_insert_of_mem _ hx, hin⟩
  | @dropped a b h =>
      refine { hA with held := ?_ }
      intro n hlt
      rcases hA.held n hlt with ⟨f, hf⟩ | hn
      · by_cases hin : n ∈ Set.Icc a b
        · refine .inr (.inl ?_)
          exact (hA.lost_settled n (hA.drops_lost (a, b) h hin)).imp_right .inr
        · exact .inl ⟨f, hf, hin⟩
      · exact .inr hn
  | supersede h => exact absurd h hP

theorem agreed_fresh : Agreed (.fresh : Sender F) .fresh where
  lost_settled := fun _ hn => absurd hn (Set.notMem_empty _)
  drops_lost := fun _ hx => absurd hx (Set.notMem_empty _)
  acks_settled := fun _ hx => absurd hx (Set.notMem_empty _)
  held := fun _ hlt => .inr (.inl (.inl hlt))

/-- A whole run of the link keeps the ends in agreement. -/
theorem Steps.agreed {P : Policy F} (hP : ¬P.latest) (hexpire : ¬P.expireAhead)
    {l l' : Sender F × Receiver F} (h : Steps P l l') (hB : Bounded P l.1 l.2)
    (hA : Agreed l.1 l.2) : Agreed l'.1 l'.2 := by
  induction h with
  | refl => exact hA
  | tail hsteps hlast ih =>
      have hbounded := Steps.bounded hsteps hB
      cases hlast with
      | sender h => exact h.agreed hP hbounded ih
      | receiver h => exact h.agreed hP hexpire ih

/-- A drained link that holds nothing, and whose announcements all arrived, has
no gap and empty side tables. -/
theorem Agreed.quiescent {P : Policy F} {s : Sender F} {r : Receiver F}
    (hA : Agreed s r) (hB : Bounded P s r) (hT : Tidy P s r)
    (hrx : r.exp ∉ r.buffered) (hpend : r.exp ∉ r.pend) (htx : s.tx = ∅)
    (harrived : ∀ x ∈ s.losts, Set.Icc x.1 x.2 ⊆ r.lost) :
    r.exp = s.next ∧ r.rx = ∅ ∧ r.pend = ∅ := by
  have hexp : r.exp = s.next := by
    refine le_antisymm hB.exp_le (Nat.le_of_not_lt fun hlt => ?_)
    rcases hA.held r.exp hlt with ⟨f, hf⟩ | hset | ⟨x, hx, hin⟩
    · simp [htx] at hf
    · rcases hset with h | h | h
      · exact lt_irrefl _ h
      · exact hrx h
      · exact hpend h
    · rcases hA.lost_settled r.exp (harrived x hx hin) with h | h
      · exact lt_irrefl _ h
      · exact hpend h
  refine ⟨hexp, ?_, ?_⟩
  · refine Set.eq_empty_of_forall_notMem fun x hx => ?_
    have hwin := (hT.rx_window x.1 ⟨x.2, hx⟩).1
    have hlt := (hB.sent_lt (hB.rx_sent hx)).2
    omega
  · refine Set.eq_empty_of_forall_notMem fun n hn => ?_
    have hahead := hT.pend_ahead hpend n hn
    have hlt := (hB.pend_below n hn).2
    omega

end SelectiveRepeat

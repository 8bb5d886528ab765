import Mathlib.Data.BitVec
import Mathlib.Data.List.Pairwise
import Mathlib.Data.List.Nodup

/-!
# Serial numbers

Numbers of `w` bits that wrap around.  A range runs upwards from its first number to its
last one and may pass zero, and a number is before another if it is reached downwards in at
most half a round.

Ranges on a circle have no order of their own.  Once a number `n` is kept out of all of
them, they are intervals of the distances to `n`: `gap n x` is the number of steps up from
`x` to `n`.
-/

namespace SerialNumber

variable {w : ℕ}

/-- Steps up from `x` to `n`. -/
def gap (n x : BitVec w) : ℕ :=
  (n - x).toNat

/-- `x` is in the range from `first` up to `last`. -/
def Between (first last x : BitVec w) : Prop :=
  x - first ≤ last - first

/-- `a` is at most half a round before `b`. -/
def Before (a b : BitVec w) : Prop :=
  2 ^ w ≤ 2 * (a - b).toNat

/-! ## Distances -/

/-- The difference of two numbers, with and without a round. -/
theorem toNat_sub_or (a b : BitVec w) :
    (a - b).toNat + b.toNat = a.toNat ∨ (a - b).toNat + b.toNat = a.toNat + 2 ^ w := by
  have ha := a.isLt
  have hb := b.isLt
  rw [BitVec.toNat_sub]
  by_cases hle : b.toNat ≤ a.toNat
  · left
    have hsum : 2 ^ w - b.toNat + a.toNat = 2 ^ w + (a.toNat - b.toNat) := by omega
    rw [hsum, Nat.add_mod_left, Nat.mod_eq_of_lt (by omega)]
    omega
  · right
    rw [Nat.mod_eq_of_lt (by omega)]
    omega

theorem gap_lt (n x : BitVec w) : gap n x < 2 ^ w :=
  (n - x).isLt

@[simp] theorem gap_self (n : BitVec w) : gap n n = 0 := by
  simp [gap]

theorem gap_eq_zero {n x : BitVec w} : gap n x = 0 ↔ x = n := by
  have hn := n.isLt
  have hx := x.isLt
  constructor
  · intro h
    apply BitVec.eq_of_toNat_eq
    rw [gap] at h
    rcases toNat_sub_or n x with heq | heq
    · omega
    · omega
  · rintro rfl
    exact gap_self x

theorem gap_inj {n x y : BitVec w} : gap n x = gap n y ↔ x = y := by
  constructor
  · intro h
    have hx := x.isLt
    have hy := y.isLt
    apply BitVec.eq_of_toNat_eq
    rw [gap, gap] at h
    rcases toNat_sub_or n x with heq | heq
    · rcases toNat_sub_or n y with heq' | heq'
      · omega
      · omega
    · rcases toNat_sub_or n y with heq' | heq'
      · omega
      · omega
  · rintro rfl
    rfl

/-- The difference of two numbers from their distances. -/
theorem toNat_sub_gap (n x y : BitVec w) :
    (gap n x ≤ gap n y ∧ (x - y).toNat + gap n x = gap n y) ∨
      (gap n y < gap n x ∧ (x - y).toNat + gap n x = gap n y + 2 ^ w) := by
  have hx := gap_lt n x
  have hy := gap_lt n y
  have hxy := (x - y).isLt
  rw [gap] at hx hy ⊢
  rw [gap]
  rcases toNat_sub_or n x with h | h
  · rcases toNat_sub_or n y with h' | h'
    · rcases toNat_sub_or x y with h'' | h''
      · omega
      · omega
    · rcases toNat_sub_or x y with h'' | h''
      · omega
      · omega
  · rcases toNat_sub_or n y with h' | h'
    · rcases toNat_sub_or x y with h'' | h''
      · omega
      · omega
    · rcases toNat_sub_or x y with h'' | h''
      · omega
      · omega

theorem gap_add_one {n x : BitVec w} (h : x ≠ n) : gap n (x + 1) + 1 = gap n x := by
  have hpos : gap n x ≠ 0 := fun hzero => h (gap_eq_zero.mp hzero)
  have hone : n - (x + 1) = n - x - 1 := sub_add_eq_sub_sub n x 1
  have hle : (1 : BitVec w) ≤ n - x := by
    rw [BitVec.le_def]
    refine Nat.le_trans (Nat.mod_le 1 _) ?_
    exact Nat.one_le_iff_ne_zero.mpr hpos
  have hw : w ≠ 0 := by
    rintro rfl
    exact hpos (Nat.lt_one_iff.mp (gap_lt n x))
  have hone' : (1 : BitVec w).toNat = 1 := by
    simp [Nat.pos_of_ne_zero hw]
  rw [gap, hone, BitVec.toNat_sub_of_le hle, hone']
  exact Nat.sub_add_cancel (Nat.one_le_iff_ne_zero.mpr hpos)

/-! ## Ranges -/

theorem between_self_first (first last : BitVec w) : Between first last first := by
  rw [Between, BitVec.sub_self, BitVec.le_def]
  exact Nat.zero_le _

theorem between_self_last (first last : BitVec w) : Between first last last :=
  BitVec.le_refl _

/-- A range does not contain `n` if its distances to `n` fall from its first number to its
last. -/
theorem not_between_iff {n first last : BitVec w} :
    ¬Between first last n ↔ 1 ≤ gap n last ∧ gap n last ≤ gap n first := by
  have hself : gap n n = 0 := gap_self n
  have hlast := gap_lt n last
  rw [Between, BitVec.le_def]
  rcases toNat_sub_gap n n first with h | h
  · rcases toNat_sub_gap n last first with h' | h'
    · omega
    · omega
  · rcases toNat_sub_gap n last first with h' | h'
    · omega
    · omega

/-- A range without `n` is an interval of distances. -/
theorem between_iff_gap {n first last : BitVec w} (h : ¬Between first last n)
    (x : BitVec w) : Between first last x ↔ gap n last ≤ gap n x ∧ gap n x ≤ gap n first := by
  rw [not_between_iff] at h
  have hx := gap_lt n x
  rw [Between, BitVec.le_def]
  rcases toNat_sub_gap n x first with hx' | hx'
  · rcases toNat_sub_gap n last first with h' | h'
    · omega
    · omega
  · rcases toNat_sub_gap n last first with h' | h'
    · omega
    · omega

/-- The number after a range without `n` is nearer to `n` than any number of the range. -/
theorem gap_after {n first last x : BitVec w} (hn : ¬Between first last n)
    (hx : Between first last x) : gap n (last + 1) < gap n x := by
  have hne : last ≠ n := by
    rintro rfl
    exact hn (between_self_last first last)
  have hlast := gap_add_one hne
  have hle := ((between_iff_gap hn x).mp hx).1
  omega

/-- Cutting the last number off a range makes it no longer. -/
theorem not_between_pred {n first last : BitVec w} (hne : last ≠ first)
    (h : ¬Between first last n) : ¬Between first (last - 1) n := by
  have hsucc : last - 1 + 1 = last := BitVec.sub_add_cancel last 1
  have hgap : gap n last ≠ gap n first := fun heq => hne (gap_inj.mp heq)
  have hlt := gap_lt n first
  rw [not_between_iff] at h ⊢
  by_cases hn : last - 1 = n
  · -- Then `last` is a whole round from `n` but for one step.
    have hround : gap n last + 1 = 2 ^ w := by
      have hlast : last - n = 1 := by
        rw [← hn]
        exact sub_sub_cancel last 1
      have hzero := gap_self n
      have hback := toNat_sub_gap n last n
      rw [hlast] at hback
      have hbound : (1 : BitVec w).toNat ≤ 1 := Nat.mod_le 1 _
      have hle := gap_lt n last
      omega
    omega
  · have hstep := gap_add_one hn
    rw [hsucc] at hstep
    omega

/-! ## Order -/

theorem before_iff_gap (n a b : BitVec w) : Before a b ↔
    (gap n b < gap n a ∧ 2 * (gap n a - gap n b) ≤ 2 ^ w) ∨
      2 * gap n a + 2 ^ w ≤ 2 * gap n b := by
  have ha := gap_lt n a
  have hb := gap_lt n b
  rw [Before]
  rcases toNat_sub_gap n a b with h | h
  · omega
  · omega

/-- Coming nearer to a number at most half a round away is moving forward by at most half a
round. -/
theorem before_of_gap {n a b : BitVec w} (hnear : 2 * gap n a ≤ 2 ^ w)
    (h : gap n b ≤ gap n a) : b = a ∨ Before a b := by
  by_cases heq : gap n b = gap n a
  · exact .inl (gap_inj.mp heq)
  · right
    rw [before_iff_gap n]
    omega

/-! ## Merging ranges -/

/-- Two ranges overlap or follow each other. -/
def Touch (first last first' last' : BitVec w) : Prop :=
  Between first' last' first ∨ Between first' last' last ∨ Between first last first' ∨
    Between first last last' ∨ last' + 1 = first ∨ last + 1 = first'

/-- The range that two touching ranges are merged into holds no number that is in neither
of them, wherever the two lie. -/
theorem not_between_merge {n first last first' last' : BitVec w}
    (htouch : Touch first last first' last') (h : ¬Between first last n)
    (h' : ¬Between first' last' n) {lo hi : BitVec w}
    (hlo : Before first first' ∧ lo = first ∨ ¬Before first first' ∧ lo = first')
    (hhi : Before last' last ∧ hi = last ∨ ¬Before last' last ∧ hi = last') :
    ¬Between lo hi n := by
  -- The distances to `n` turn the circle into a line on which both ranges are intervals.
  have hnear : gap n last' ≤ gap n first + 1 ∧ gap n last ≤ gap n first' + 1 := by
    have hlast : last ≠ n := by
      rintro rfl
      exact h (between_self_last first last)
    have hlast' : last' ≠ n := by
      rintro rfl
      exact h' (between_self_last first' last')
    have hnext := gap_add_one hlast
    have hnext' := gap_add_one hlast'
    have hfalls := not_between_iff.mp h
    have hfalls' := not_between_iff.mp h'
    rw [Touch, between_iff_gap h, between_iff_gap h, between_iff_gap h', between_iff_gap h',
      ← @gap_inj w n, ← @gap_inj w n] at htouch
    omega
  rw [not_between_iff] at h h' ⊢
  rw [before_iff_gap n] at hlo hhi
  have hfirst := gap_lt n first
  have hfirst' := gap_lt n first'
  rcases hlo with ⟨hlo, rfl⟩ | ⟨hlo, rfl⟩
  · rcases hhi with ⟨hhi, rfl⟩ | ⟨hhi, rfl⟩
    · omega
    · omega
  · rcases hhi with ⟨hhi, rfl⟩ | ⟨hhi, rfl⟩
    · omega
    · omega

/-! ## Numbers used one after another -/

/-- Going from `a` up to `b`, the numbers of the list are passed one after another, and `n` is
not reached. -/
structure Descends (n a b : BitVec w) (xs : List (BitVec w)) : Prop where
  le : gap n b ≤ gap n a
  passed : ∀ x ∈ xs, gap n b < gap n x ∧ gap n x ≤ gap n a
  falls : xs.Pairwise fun x y => gap n y < gap n x

theorem Descends.refl (n a : BitVec w) : Descends n a a [] :=
  ⟨Nat.le_refl _, fun _ hx => absurd hx List.not_mem_nil, List.Pairwise.nil⟩

theorem Descends.trans {n a b c : BitVec w} {xs ys : List (BitVec w)}
    (h : Descends n a b xs) (h' : Descends n b c ys) : Descends n a c (xs ++ ys) := by
  refine ⟨h'.le.trans h.le, fun x hx => ?_, ?_⟩
  · rcases List.mem_append.mp hx with hx | hx
    · exact ⟨h'.le.trans_lt (h.passed x hx).1, (h.passed x hx).2⟩
    · exact ⟨(h'.passed x hx).1, (h'.passed x hx).2.trans h.le⟩
  · rw [List.pairwise_append]
    refine ⟨h.falls, h'.falls, fun x hx y hy => ?_⟩
    exact (h'.passed y hy).2.trans_lt (h.passed x hx).1

/-- A range is jumped over. -/
theorem Descends.skip {n a first last : BitVec w} (ha : Between first last a)
    (hn : ¬Between first last n) : Descends n a (last + 1) [] :=
  ⟨(gap_after hn ha).le, fun _ hx => absurd hx List.not_mem_nil, List.Pairwise.nil⟩

/-- The next number is used. -/
theorem Descends.use {n a : BitVec w} (hne : a ≠ n) : Descends n a (a + 1) [a] := by
  have hstep := gap_add_one hne
  refine ⟨by omega, fun x hx => ?_, List.pairwise_singleton _ _⟩
  rw [List.mem_singleton.mp hx]
  omega

/-- No number is used twice. -/
theorem Descends.nodup {n a b : BitVec w} {xs : List (BitVec w)} (h : Descends n a b xs) :
    xs.Nodup := by
  refine h.falls.imp fun hlt heq => ?_
  rw [heq] at hlt
  exact Nat.lt_irrefl _ hlt

end SerialNumber

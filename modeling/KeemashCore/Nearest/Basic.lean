import Mathlib.Data.Set.Lattice
import Mathlib.Data.Nat.Notation

/-!
# The nearest event of a cycle

Events that come back in every round of `n` moments, and a scan that keeps the least offer
it has seen.  How long ago an event was and how far ahead it is are two measures of its
moment; an event is the nearest one for a measure if no other is closer.
-/

namespace Nearest

/-! ## A scan for the least offer -/

section Scan

variable {κ ι α : Type*} [LinearOrder κ]

/-- The least key so far, and what it belongs to. -/
structure Best (κ ι : Type*) where
  key : κ
  item : ι

/-- Keep the offer if it is less than what there is. -/
def Best.offer (best : Best κ ι) (key : κ) (item : ι) : Best κ ι :=
  if key < best.key then { key := key, item := item } else best

/-- What a scan that starts with `start` keeps of the offers in `S`. -/
structure Least (start : Best κ ι) (S : Set (κ × ι)) (best : Best κ ι) : Prop where
  start_or_mem : best = start ∨ (best.key, best.item) ∈ S
  le_start : best.key ≤ start.key
  le_offer : ∀ offer ∈ S, best.key ≤ offer.1

theorem Least.empty (start : Best κ ι) : Least start ∅ start := by
  constructor
  · exact Or.inl rfl
  · exact le_refl _
  · intro offer hoffer
    exact absurd hoffer (Set.notMem_empty offer)

theorem Least.offer (start : Best κ ι) (key : κ) (item : ι) :
    Least start {(key, item)} (start.offer key item) := by
  by_cases hlt : key < start.key
  · rw [Best.offer, if_pos hlt]
    constructor
    · exact Or.inr rfl
    · exact le_of_lt hlt
    · rintro offer rfl
      exact le_refl _
  · rw [Best.offer, if_neg hlt]
    constructor
    · exact Or.inl rfl
    · exact le_refl _
    · rintro offer rfl
      exact le_of_not_gt hlt

theorem Least.trans {start mid best : Best κ ι} {S T : Set (κ × ι)}
    (hS : Least start S mid) (hT : Least mid T best) : Least start (S ∪ T) best := by
  constructor
  · rcases hT.start_or_mem with rfl | hmem
    · exact hS.start_or_mem.imp_right (Set.mem_union_left T)
    · exact Or.inr (Set.mem_union_right S hmem)
  · exact le_trans hT.le_start hS.le_start
  · rintro offer (hoffer | hoffer)
    · exact le_trans hT.le_start (hS.le_offer offer hoffer)
    · exact hT.le_offer offer hoffer

/-- A scan along a list, each of whose items makes several offers. -/
theorem Least.foldl {scan : Best κ ι → α → Best κ ι} {offers : α → Set (κ × ι)}
    (hscan : ∀ best a, Least best (offers a) (scan best a)) (items : List α)
    (start : Best κ ι) :
    Least start {offer | ∃ a ∈ items, offer ∈ offers a} (items.foldl scan start) := by
  induction items generalizing start with
  | nil =>
      have hnone : {offer | ∃ a ∈ ([] : List α), offer ∈ offers a} = ∅ := by
        ext offer
        simp
      rw [hnone]
      exact Least.empty start
  | cons a items ih =>
      have hunion : {offer | ∃ b ∈ a :: items, offer ∈ offers b} =
          offers a ∪ {offer | ∃ b ∈ items, offer ∈ offers b} := by
        ext offer
        simp
      rw [hunion, List.foldl_cons]
      exact (hscan start a).trans (ih (scan start a))

/-- An offer below the start has displaced it. -/
theorem Least.mem_of_lt {start best : Best κ ι} {S : Set (κ × ι)} (h : Least start S best)
    {offer : κ × ι} (hoffer : offer ∈ S) (hlt : offer.1 < start.key) :
    (best.key, best.item) ∈ S := by
  rcases h.start_or_mem with rfl | hmem
  · exact absurd (h.le_offer offer hoffer) (not_le_of_gt hlt)
  · exact hmem

theorem Least.eq_start {start best : Best κ ι} {S : Set (κ × ι)} (h : Least start S best)
    (hS : ∀ offer, offer ∉ S) : best = start :=
  h.start_or_mem.resolve_right (hS _)

end Scan

/-! ## Rounds -/

/-- How long ago the moment `t` was at the moment `now`. -/
def since (n now t : ℕ) : ℕ :=
  (now + n - t) % n

/-- How far ahead the moment `t` is at the moment `now`; it is a whole round ahead at
`t` itself. -/
def ahead (n now t : ℕ) : ℕ :=
  (t + n - now - 1) % n + 1

variable {n now t u : ℕ}

theorem since_of_le (hnow : now < n) (ht : t ≤ now) : since n now t = now - t := by
  have hsum : now + n - t = now - t + n := by omega
  rw [since, hsum, Nat.add_mod_right, Nat.mod_eq_of_lt (by omega)]

theorem since_of_lt (ht : t < n) (hlt : now < t) : since n now t = now + n - t := by
  rw [since, Nat.mod_eq_of_lt (by omega)]

theorem ahead_of_lt (ht : t < n) (hlt : now < t) : ahead n now t = t - now := by
  have hsum : t + n - now - 1 = t - now - 1 + n := by omega
  rw [ahead, hsum, Nat.add_mod_right, Nat.mod_eq_of_lt (by omega)]
  omega

theorem ahead_of_le (hnow : now < n) (hle : t ≤ now) : ahead n now t = t + n - now := by
  rw [ahead, Nat.mod_eq_of_lt (by omega)]
  omega

/-- When `d` moments have passed, all is `d` moments longer ago, unless it has come in
between. -/
theorem since_add {d : ℕ} (hnow : now < n) (ht : t < n) (hd : d ≤ since n ((now + d) % n) t)
    (hlt : d < n) : since n now t + d = since n ((now + d) % n) t := by
  rw [since, since] at *
  rcases Nat.lt_or_ge (now + d) n with hround | hround
  · rw [Nat.mod_eq_of_lt hround] at hd ⊢
    rcases Nat.lt_or_ge now t with hlater | hearlier
    · rcases Nat.lt_or_ge (now + d) t with hahead | hpassed
      · rw [Nat.mod_eq_of_lt (by omega), Nat.mod_eq_of_lt (by omega)]
        omega
      · rw [show now + d + n - t = now + d - t + n by omega, Nat.add_mod_right,
          Nat.mod_eq_of_lt (by omega)] at hd
        omega
    · rw [show now + n - t = now - t + n by omega,
        show now + d + n - t = now + d - t + n by omega, Nat.add_mod_right, Nat.add_mod_right,
        Nat.mod_eq_of_lt (by omega), Nat.mod_eq_of_lt (by omega)]
      omega
  · have hwrap : (now + d) % n = now + d - n := by
      rw [Nat.mod_eq_sub_mod hround, Nat.mod_eq_of_lt (by omega)]
    rw [hwrap] at hd ⊢
    rcases Nat.lt_or_ge (now + d - n) t with hahead | hpassed
    · rw [Nat.mod_eq_of_lt (show now + d - n + n - t < n by omega)] at hd ⊢
      rw [show now + n - t = now - t + n by omega, Nat.add_mod_right,
        Nat.mod_eq_of_lt (by omega)]
      omega
    · rw [show now + d - n + n - t = now + d - n - t + n by omega, Nat.add_mod_right,
        Nat.mod_eq_of_lt (by omega)] at hd
      omega

theorem since_lt (hn : 0 < n) : since n now t < n :=
  Nat.mod_lt _ hn

theorem ahead_le (hn : 0 < n) : ahead n now t ≤ n :=
  Nat.mod_lt _ hn

theorem ahead_pos : 0 < ahead n now t :=
  Nat.succ_pos _

theorem since_injective (hnow : now < n) (ht : t < n) (hu : u < n)
    (h : since n now t = since n now u) : t = u := by
  rcases Nat.lt_or_ge now t with hlt | hle <;> rcases Nat.lt_or_ge now u with hlt' | hle'
  · rw [since_of_lt ht hlt, since_of_lt hu hlt'] at h
    omega
  · rw [since_of_lt ht hlt, since_of_le hnow hle'] at h
    omega
  · rw [since_of_le hnow hle, since_of_lt hu hlt'] at h
    omega
  · rw [since_of_le hnow hle, since_of_le hnow hle'] at h
    omega

theorem ahead_injective (hnow : now < n) (ht : t < n) (hu : u < n)
    (h : ahead n now t = ahead n now u) : t = u := by
  rcases Nat.lt_or_ge now t with hlt | hle <;> rcases Nat.lt_or_ge now u with hlt' | hle'
  · rw [ahead_of_lt ht hlt, ahead_of_lt hu hlt'] at h
    omega
  · rw [ahead_of_lt ht hlt, ahead_of_le hnow hle'] at h
    omega
  · rw [ahead_of_le hnow hle, ahead_of_lt hu hlt'] at h
    omega
  · rw [ahead_of_le hnow hle, ahead_of_le hnow hle'] at h
    omega

/-! ## The nearest event -/

section Event

variable {ι : Type*} {occurs : ι → ℕ → Prop} {measure : ℕ → ℕ}

/-- The event `i` comes at `t`, and nothing is closer. -/
def IsNearestAt (occurs : ι → ℕ → Prop) (measure : ℕ → ℕ) (i : ι) (t : ℕ) : Prop :=
  occurs i t ∧ ∀ j u, occurs j u → measure t ≤ measure u

def IsNearest (occurs : ι → ℕ → Prop) (measure : ℕ → ℕ) (i : ι) : Prop :=
  ∃ t, IsNearestAt occurs measure i t

/-- Events that never coincide have one nearest among them. -/
theorem IsNearest.unique
    (hinjective : ∀ i j t u, occurs i t → occurs j u → measure t = measure u → t = u)
    (happart : ∀ i j t, occurs i t → occurs j t → i = j) {i j : ι}
    (hi : IsNearest occurs measure i) (hj : IsNearest occurs measure j) : i = j := by
  obtain ⟨t, hoccurs, ht⟩ := hi
  obtain ⟨u, hoccurs', hu⟩ := hj
  have hmeasure : measure t = measure u := le_antisymm (ht j u hoccurs') (hu i t hoccurs)
  have hsame := hinjective i j t u hoccurs hoccurs' hmeasure
  subst hsame
  exact happart i j t hoccurs hoccurs'

end Event

end Nearest

import Mathlib.Data.List.Basic
import Mathlib.Data.Nat.ModEq

/-!
# Round robin

A cursor goes round a table.  Every turn takes the first eligible entry from the cursor on
and leaves the cursor behind it.  An entry that is eligible at every turn comes closer with
each turn of another one, so it waits for fewer turns than the table has entries.
-/

namespace KeemashCore.RoundRobin

variable {size cursor i j k : ℕ} {eligible : ℕ → Bool}

/-- The first eligible entry from the cursor on. -/
def pick (size cursor : ℕ) (eligible : ℕ → Bool) : Option ℕ :=
  ((List.range size).map fun offset => (cursor + offset) % size).find? eligible

/-- The cursor behind an entry. -/
def next (size i : ℕ) : ℕ :=
  (i + 1) % size

/-- The entry lies `k` places from the cursor on. -/
def Ahead (size cursor k i : ℕ) : Prop :=
  k < size ∧ (cursor + k) % size = i

theorem exists_ahead (cursor : ℕ) (hi : i < size) : ∃ k, Ahead size cursor k i := by
  have hsize : 0 < size := Nat.zero_lt_of_lt hi
  refine ⟨(i + (size - cursor % size)) % size, Nat.mod_lt _ hsize, ?_⟩
  have hle : cursor % size ≤ size := (Nat.mod_lt cursor hsize).le
  calc (cursor + (i + (size - cursor % size)) % size) % size
      = (cursor % size + (i + (size - cursor % size))) % size := by
        rw [Nat.add_mod, Nat.mod_mod, ← Nat.add_mod, ← Nat.mod_add_mod]
    _ = (i + size) % size := by
        congr 1
        omega
    _ = i := by rw [Nat.add_mod_right, Nat.mod_eq_of_lt hi]

/-- The entry that is taken, and the places that were passed over. -/
theorem pick_eq_some : pick size cursor eligible = some j ↔
    ∃ k, Ahead size cursor k j ∧ eligible j = true ∧
      ∀ l < k, eligible ((cursor + l) % size) = false := by
  rw [pick, List.find?_map, Option.map_eq_some_iff]
  simp only [List.find?_range_eq_some, Function.comp_apply, List.mem_range, Bool.not_eq_true',
    Ahead]
  constructor
  · rintro ⟨k, ⟨heligible, hlt, hbefore⟩, rfl⟩
    exact ⟨k, ⟨hlt, rfl⟩, heligible, hbefore⟩
  · rintro ⟨k, ⟨hlt, rfl⟩, heligible, hbefore⟩
    exact ⟨k, ⟨heligible, hlt, hbefore⟩, rfl⟩

theorem pick_lt (h : pick size cursor eligible = some j) : j < size := by
  obtain ⟨k, ⟨hlt, rfl⟩, -⟩ := pick_eq_some.mp h
  exact Nat.mod_lt _ (Nat.zero_lt_of_lt hlt)

theorem pick_eligible (h : pick size cursor eligible = some j) : eligible j = true := by
  obtain ⟨-, -, heligible, -⟩ := pick_eq_some.mp h
  exact heligible

/-- An eligible entry comes closer with each turn of another one. -/
theorem pick_closer (h : pick size cursor eligible = some j) (hi : Ahead size cursor k i)
    (heligible : eligible i = true) (hother : j ≠ i) :
    ∃ l < k, Ahead size (next size j) l i := by
  obtain ⟨k', ⟨hlt', rfl⟩, -, hbefore⟩ := pick_eq_some.mp h
  obtain ⟨hlt, rfl⟩ := hi
  have hpassed : k' < k := by
    rcases Nat.lt_trichotomy k' k with hless | heq | hgreater
    · exact hless
    · subst heq
      exact absurd rfl hother
    · rw [hbefore k hgreater] at heligible
      simp at heligible
  refine ⟨k - k' - 1, by omega, by omega, ?_⟩
  rw [next, Nat.mod_add_mod, Nat.add_assoc, Nat.mod_add_mod]
  congr 1
  omega

end KeemashCore.RoundRobin

import Mathlib.Data.List.Induction
import KeemashCore.SlotTable.Basic

/-!
# Tables filled in turn

A table of `n` slots in which each new entry goes into the slot after the one
before it, round the end of the table.  Such a table holds the last `n` entries
that went in, and this file proves so for the list of all of them.
-/

namespace SlotTable

variable {α : Type}

/-- The table of `n` slots after the entries of a list went in. -/
def ring (n : ℕ) (entries : List α) : List (Option α) :=
  (entries.zipIdx.foldl (fun table entry => table.set (entry.2 % n) (some entry.1))
    (List.replicate n none))

theorem ring_nil (n : ℕ) : ring n ([] : List α) = List.replicate n none := rfl

theorem ring_snoc (n : ℕ) (entries : List α) (a : α) :
    ring n (entries ++ [a]) = (ring n entries).set (entries.length % n) (some a) := by
  simp [ring, List.zipIdx_append]

theorem length_ring (n : ℕ) (entries : List α) : (ring n entries).length = n := by
  induction entries using List.reverseRecOn with
  | nil => simp [ring_nil]
  | append_singleton entries a ih => rw [ring_snoc, List.length_set, ih]

/-- Two numbers with one remainder are equal when they are less than `n` apart. -/
theorem eq_of_mod_eq {n k m : ℕ} (hkm : k ≤ m) (hclose : m < k + n)
    (hmod : k % n = m % n) : k = m := by
  have hsub : (m - k) % n = 0 := Nat.sub_mod_eq_zero_of_mod_eq hmod.symm
  rw [Nat.mod_eq_of_lt (by omega)] at hsub
  omega

/-- A slot holds the one of the last `n` entries whose number leads there. -/
theorem entryAt_ring {n : ℕ} (hn : 0 < n) (entries : List α) (i : ℕ) (hi : i < n) (a : α) :
    entryAt (ring n entries) i = some a ↔
      ∃ k, k % n = i ∧ entries.length ≤ k + n ∧ entries[k]? = some a := by
  induction entries using List.reverseRecOn with
  | nil =>
      simp [ring_nil, entryAt, hi]
  | append_singleton entries b ih =>
      have hset : entryAt (ring n (entries ++ [b])) i =
          if entries.length % n = i then some b else entryAt (ring n entries) i := by
        have hlast : entries.length % n < n := Nat.mod_lt _ hn
        rw [ring_snoc, entryAt, entryAt, List.getElem?_set]
        split
        · next heq => simp [length_ring, heq, hi]
        · rfl
      rw [hset, List.length_append, List.length_singleton]
      by_cases hlast : entries.length % n = i
      · rw [if_pos hlast, Option.some.injEq]
        constructor
        · intro heq
          refine ⟨entries.length, hlast, by omega, ?_⟩
          rw [List.getElem?_append_right (le_refl _), Nat.sub_self, heq]
          rfl
        · rintro ⟨k, hk, hrecent, hget⟩
          have hbound : k < entries.length + 1 := by
            obtain ⟨hlt, -⟩ := List.getElem?_eq_some_iff.mp hget
            simpa using hlt
          have heq : k = entries.length :=
            eq_of_mod_eq (by omega) (by omega) (hk.trans hlast.symm)
          rw [heq, List.getElem?_append_right (le_refl _), Nat.sub_self] at hget
          exact Option.some.inj hget
      · rw [if_neg hlast, ih]
        constructor
        · rintro ⟨k, hk, hrecent, hget⟩
          have hne : entries.length ≠ k + n := by
            intro heq
            rw [heq, Nat.add_mod_right] at hlast
            exact hlast hk
          refine ⟨k, hk, by omega, ?_⟩
          obtain ⟨hlt, -⟩ := List.getElem?_eq_some_iff.mp hget
          rw [List.getElem?_append_left hlt, hget]
        · rintro ⟨k, hk, hrecent, hget⟩
          have hne : k ≠ entries.length := by
            rintro rfl
            exact hlast hk
          have hbound : k < entries.length + 1 := by
            obtain ⟨hlt, -⟩ := List.getElem?_eq_some_iff.mp hget
            simpa using hlt
          refine ⟨k, hk, by omega, ?_⟩
          rwa [List.getElem?_append_left (by omega)] at hget

/-- The table holds the entries that fewer than `n` others came after. -/
theorem mem_held_ring {n : ℕ} (entries : List α) (a : α) :
    a ∈ held (ring n entries) ↔
      ∃ older newer, entries = older ++ a :: newer ∧ newer.length < n := by
  rw [mem_held_iff_entryAt]
  constructor
  · rintro ⟨i, hi⟩
    have hbound : i < n := by
      by_contra hno
      rw [entryAt_of_length_le (by rw [length_ring]; omega)] at hi
      cases hi
    obtain ⟨k, -, hrecent, hget⟩ :=
      (entryAt_ring (Nat.zero_lt_of_lt hbound) entries i hbound a).mp hi
    obtain ⟨hlt, hget⟩ := List.getElem?_eq_some_iff.mp hget
    refine ⟨entries.take k, entries.drop (k + 1), ?_, ?_⟩
    · rw [← hget, List.getElem_cons_drop, List.take_append_drop]
    · rw [List.length_drop]
      omega
  · rintro ⟨older, newer, rfl, hnewer⟩
    have hn : 0 < n := Nat.zero_lt_of_lt hnewer
    refine ⟨older.length % n,
      (entryAt_ring hn _ _ (Nat.mod_lt _ hn) a).mpr ⟨older.length, rfl, ?_, ?_⟩⟩
    · rw [List.length_append, List.length_cons]
      omega
    · rw [List.getElem?_append_right (le_refl _), Nat.sub_self]
      rfl

end SlotTable

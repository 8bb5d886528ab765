import KeemashCore.SlotTable.Basic

/-!
# Quotas on a slot table

A table is thinned when slots are freed and the entries that stay give way to related
ones.  The number of entries of a kind that the relation respects does not grow when the
table is thinned, and grows by at most one when a free slot is filled; a quota that is
checked before a slot is filled therefore holds at all times.
-/

namespace SlotTable

variable {α : Type} {r : α → α → Prop} {p : α → Bool}
variable {table table' table'' : List (Option α)}

/-! ## Thinning -/

/-- Slots were freed, and an entry that is there stands for the one that was there. -/
structure Thinned (r : α → α → Prop) (table table' : List (Option α)) : Prop where
  length : table'.length = table.length
  entry : ∀ i b, entryAt table' i = some b → ∃ a, entryAt table i = some a ∧ r a b

theorem Thinned.refl (hr : ∀ a, r a a) (table : List (Option α)) : Thinned r table table :=
  ⟨rfl, fun _ b hb => ⟨b, hb, hr b⟩⟩

theorem Thinned.trans (hr : ∀ a b d, r a b → r b d → r a d) (h : Thinned r table table')
    (h' : Thinned r table' table'') : Thinned r table table'' := by
  refine ⟨h'.length.trans h.length, fun i d hd => ?_⟩
  obtain ⟨b, hb, hbd⟩ := h'.entry i d hd
  obtain ⟨a, ha, hab⟩ := h.entry i b hb
  exact ⟨a, ha, hr a b d hab hbd⟩

theorem thinned_freeWhere (hr : ∀ a, r a a) (q : α → Bool) (table : List (Option α)) :
    Thinned r table (freeWhere q table) := by
  refine ⟨length_freeWhere q table, fun i b hb => ⟨b, ?_, hr b⟩⟩
  rw [entryAt_freeWhere] at hb
  exact (Option.filter_eq_some_iff.mp hb).1

theorem thinned_set_none (hr : ∀ a, r a a) (table : List (Option α)) (i : ℕ) :
    Thinned r table (table.set i none) := by
  refine ⟨List.length_set, fun j b hb => ?_⟩
  rw [entryAt_set_none] at hb
  split at hb
  · simp at hb
  · exact ⟨b, hb, hr b⟩

theorem thinned_set_entry (hr : ∀ a, r a a) {i : ℕ} {a b : α} (ha : entryAt table i = some a)
    (hab : r a b) : Thinned r table (table.set i (some b)) := by
  refine ⟨List.length_set, fun j d hd => ?_⟩
  rw [entryAt_set (lt_length_of_entryAt ha)] at hd
  split at hd
  · next hj =>
      obtain rfl := Option.some.inj hd
      exact ⟨a, by rw [hj, ha], hab⟩
  · exact ⟨d, hd, hr d⟩

/-- What a table holds after an assignment to one entry. -/
theorem mem_held_set {i : ℕ} {a b : α} (h : b ∈ held (table.set i (some a))) :
    b = a ∨ b ∈ held table := by
  rw [mem_held] at h
  rcases List.mem_or_eq_of_mem_set h with h | h
  · exact .inr (mem_held.mpr h)
  · exact .inl (Option.some.inj h)

theorem thinned_map {f : α → α} (hf : ∀ a, r a (f a)) (table : List (Option α)) :
    Thinned r table (table.map fun entry => entry.map f) := by
  refine ⟨List.length_map _, fun i b hb => ?_⟩
  rw [entryAt, List.getElem?_map] at hb
  rw [entryAt]
  cases h : table[i]? with
  | none => simp [h] at hb
  | some entry =>
      cases entry with
      | none => simp [h] at hb
      | some a =>
          simp only [h, Option.map_some, Option.join_some, Option.some.injEq] at hb
          exact ⟨a, rfl, hb ▸ hf a⟩

/-- What a thinned table holds stands for something the table held. -/
theorem Thinned.exists_held (h : Thinned r table table') {b : α} (hb : b ∈ held table') :
    ∃ a ∈ held table, r a b := by
  obtain ⟨i, hi⟩ := mem_held_iff_entryAt.mp hb
  obtain ⟨a, ha, hab⟩ := h.entry i b hi
  exact ⟨a, mem_held_of_entryAt ha, hab⟩

/-! ## Counting -/

theorem usedCount_cons_none (p : α → Bool) (table : List (Option α)) :
    usedCount p (none :: table) = usedCount p table :=
  rfl

theorem usedCount_cons_some (p : α → Bool) (a : α) (table : List (Option α)) :
    usedCount p (some a :: table) = usedCount p table + if p a then 1 else 0 := by
  have hused : used (some a :: table) = a :: used table := rfl
  rw [usedCount, usedCount, hused, List.filter_cons]
  split
  · rfl
  · rfl

theorem Thinned.tail {entry entry' : Option α}
    (h : Thinned r (entry :: table) (entry' :: table')) : Thinned r table table' :=
  ⟨by simpa using h.length, fun i => h.entry (i + 1)⟩

/-- Thinning a table does not add to a count that the relation respects. -/
theorem Thinned.usedCount_le (hp : ∀ a b, r a b → p b = true → p a = true)
    (h : Thinned r table table') : usedCount p table' ≤ usedCount p table := by
  induction table generalizing table' with
  | nil =>
      have hnil : table' = [] := List.eq_nil_of_length_eq_zero h.length
      rw [hnil]
  | cons entry table ih =>
      cases table' with
      | nil => exact Nat.zero_le _
      | cons entry' table' =>
          have htail := ih h.tail
          cases entry' with
          | none =>
              rw [usedCount_cons_none]
              cases entry with
              | none => exact htail
              | some a =>
                  rw [usedCount_cons_some]
                  exact htail.trans (Nat.le_add_right _ _)
          | some b =>
              obtain ⟨a, ha, hab⟩ := h.entry 0 b rfl
              obtain rfl : entry = some a := ha
              rw [usedCount_cons_some, usedCount_cons_some]
              apply Nat.add_le_add htail
              by_cases hb : p b = true
              · rw [if_pos hb, if_pos (hp a b hab hb)]
              · rw [if_neg hb]
                exact Nat.zero_le _

/-- Filling a free slot adds the new entry to the counts it belongs to. -/
theorem usedCount_set_some {i : ℕ} (a : α) (h : table[i]? = some none) :
    usedCount p (table.set i (some a)) = usedCount p table + if p a then 1 else 0 := by
  rw [usedCount_eq_card, usedCount_eq_card, held_set_some a h, Multiset.filter_cons]
  by_cases ha : p a = true
  · simp [ha, Nat.add_comm]
  · simp [ha]

theorem usedCount_le_card (p : α → Bool) (table : List (Option α)) :
    usedCount p table ≤ (held table).card := by
  rw [usedCount_eq_card]
  exact Multiset.card_le_card (Multiset.filter_le _ _)

/-- The entries of a kind and the free slots fit in the table. -/
theorem usedCount_add_freeCount_le (p : α → Bool) (table : List (Option α)) :
    usedCount p table + freeCount table ≤ table.length := by
  have hcard := usedCount_le_card p table
  have hfree := freeCount_add_card table
  omega

theorem freeCount_set_some {i : ℕ} (a : α) (h : table[i]? = some none) :
    freeCount (table.set i (some a)) + 1 = freeCount table := by
  have hafter := freeCount_add_card (table.set i (some a))
  have hbefore := freeCount_add_card table
  rw [held_set_some a h, Multiset.card_cons, List.length_set] at hafter
  omega

theorem usedCount_replicate_none (p : α → Bool) (n : ℕ) :
    usedCount p (List.replicate n none) = 0 := by
  rw [usedCount_eq_card, held_replicate_none]
  rfl

end SlotTable

import Mathlib.Algebra.GroupWithZero.Nat
import Mathlib.Data.Multiset.Filter

/-!
# Fixed-size slot tables

A table of a fixed number of slots, each free or holding an entry: a list of
optional entries whose length no operation changes.  Programs search such a
table by a linear scan and fill the first free slot, so which entries a table
holds matters and where they stand does not.  `held` is the multiset of the
entries in use, and the lemmas of this file say what every operation does to it.
-/

namespace SlotTable

variable {α : Type}

/-- The entries in use, in table order. -/
def used (table : List (Option α)) : List α :=
  table.filterMap id

/-- Free every slot whose entry satisfies `p`. -/
def freeWhere (p : α → Bool) (table : List (Option α)) : List (Option α) :=
  table.map fun entry => entry.filter fun a => !p a

/-- Index of the first free slot. -/
def freeIdx (table : List (Option α)) : Option ℕ :=
  table.findIdx? fun entry => entry.isNone

/-- Index of the first entry that satisfies `p`. -/
def findIdx (p : α → Bool) (table : List (Option α)) : Option ℕ :=
  table.findIdx? fun entry => entry.any p

/-- The entry in a slot. -/
def entryAt (table : List (Option α)) (i : ℕ) : Option α :=
  (table[i]?).join

/-- Number of entries in use that satisfy `p`. -/
def usedCount (p : α → Bool) (table : List (Option α)) : ℕ :=
  ((used table).filter p).length

/-- Number of free slots. -/
def freeCount (table : List (Option α)) : ℕ :=
  (table.filter fun entry => entry.isNone).length

/-- The entries in use, without their places. -/
def held (table : List (Option α)) : Multiset α :=
  (used table : Multiset α)

/-! ## Membership -/

theorem mem_held {table : List (Option α)} {a : α} :
    a ∈ held table ↔ some a ∈ table := by
  simp [held, used]

theorem mem_used {table : List (Option α)} {a : α} :
    a ∈ used table ↔ a ∈ held table := by
  simp [held]

theorem held_replicate_none (n : ℕ) :
    held (List.replicate n (none : Option α)) = 0 := by
  simp [held, used]

theorem card_held_le_length (table : List (Option α)) :
    (held table).card ≤ table.length := by
  simpa [held, used] using List.length_filterMap_le id table

theorem usedCount_eq_card (p : α → Bool) (table : List (Option α)) :
    usedCount p table = ((held table).filter fun a => p a).card := by
  simp [usedCount, held]

theorem used_any {table : List (Option α)} {p : α → Bool} :
    (used table).any p = true ↔ ∃ a ∈ held table, p a = true := by
  simp [held]

/-! ## Searching -/

theorem entryAt_eq_some {table : List (Option α)} {i : ℕ} {a : α} :
    entryAt table i = some a ↔ table[i]? = some (some a) := by
  simp [entryAt, Option.join_eq_some_iff]

theorem entryAt_replicate_none (n i : ℕ) :
    entryAt (List.replicate n (none : Option α)) i = none := by
  cases hentry : entryAt (List.replicate n (none : Option α)) i with
  | none => rfl
  | some a =>
      rw [entryAt_eq_some, List.getElem?_replicate] at hentry
      split at hentry
      · exact nomatch hentry
      · exact nomatch hentry

theorem mem_held_of_entryAt {table : List (Option α)} {i : ℕ} {a : α}
    (h : entryAt table i = some a) : a ∈ held table :=
  mem_held.mpr (List.mem_of_getElem? (entryAt_eq_some.mp h))

/-- A successful search names a slot in use. -/
theorem entryAt_of_findIdx {table : List (Option α)} {p : α → Bool} {i : ℕ}
    (h : findIdx p table = some i) :
    ∃ a, entryAt table i = some a ∧ p a = true := by
  obtain ⟨hi, hp, -⟩ := List.findIdx?_eq_some_iff_getElem.mp h
  cases he : table[i] with
  | none => simp [he] at hp
  | some a =>
      refine ⟨a, ?_, by simpa [he] using hp⟩
      rw [entryAt_eq_some, List.getElem?_eq_getElem hi, he]

theorem findIdx_eq_none {table : List (Option α)} {p : α → Bool} :
    findIdx p table = none ↔ ∀ a ∈ held table, p a = false := by
  rw [findIdx, List.findIdx?_eq_none_iff]
  constructor
  · intro h a ha
    simpa using h (some a) (mem_held.mp ha)
  · rintro h (_ | a) ha
    · rfl
    · simpa using h a (mem_held.mpr ha)

theorem entryAt_of_length_le {table : List (Option α)} {i : ℕ}
    (h : table.length ≤ i) : entryAt table i = none := by
  simp [entryAt, List.getElem?_eq_none h]

/-- A search ends at the first entry that satisfies `p`. -/
theorem findIdx_eq_some {table : List (Option α)} {p : α → Bool} {i : ℕ} :
    findIdx p table = some i ↔
      (entryAt table i).any p = true ∧ ∀ j < i, (entryAt table j).any p = false := by
  have hany (j : ℕ) (hj : j < table.length) : (entryAt table j).any p = table[j].any p := by
    rw [entryAt, List.getElem?_eq_getElem hj, Option.join_some]
  rw [findIdx, List.findIdx?_eq_some_iff_getElem]
  constructor
  · rintro ⟨hi, hp, hfirst⟩
    refine ⟨(hany i hi).trans hp, fun j hj => ?_⟩
    rw [hany j (hj.trans hi), ← Bool.not_eq_true]
    exact hfirst j hj
  · rintro ⟨hp, hfirst⟩
    have hi : i < table.length := by
      by_contra hle
      rw [entryAt_of_length_le (Nat.not_lt.mp hle)] at hp
      exact Bool.noConfusion hp
    refine ⟨hi, (hany i hi).symm.trans hp, fun j hj => ?_⟩
    rw [← hany j (hj.trans hi), hfirst j hj]
    exact Bool.false_ne_true

theorem findIdx_isSome {table : List (Option α)} {p : α → Bool} :
    (findIdx p table).isSome = true ↔ ∃ a ∈ held table, p a = true := by
  rw [← Option.ne_none_iff_isSome, ne_eq, findIdx_eq_none]
  simp

theorem getElem?_of_freeIdx {table : List (Option α)} {i : ℕ}
    (h : freeIdx table = some i) : table[i]? = some none := by
  obtain ⟨hi, hp, -⟩ := List.findIdx?_eq_some_iff_getElem.mp h
  rw [List.getElem?_eq_getElem hi, Option.isNone_iff_eq_none.mp hp]

theorem entryAt_of_freeIdx {table : List (Option α)} {i : ℕ}
    (h : freeIdx table = some i) : entryAt table i = none := by
  rw [entryAt, getElem?_of_freeIdx h]
  rfl

theorem lt_length_of_freeIdx {table : List (Option α)} {i : ℕ}
    (h : freeIdx table = some i) : i < table.length :=
  (List.getElem?_eq_some_iff.mp (getElem?_of_freeIdx h)).1

theorem freeIdx_eq_none {table : List (Option α)} :
    freeIdx table = none ↔ freeCount table = 0 := by
  simp [freeIdx, freeCount, List.findIdx?_eq_none_iff, List.filter_eq_nil_iff,
    Option.isSome_iff_ne_none]

theorem mem_held_iff_entryAt {table : List (Option α)} {a : α} :
    a ∈ held table ↔ ∃ i, entryAt table i = some a := by
  simp only [mem_held, entryAt_eq_some, List.mem_iff_getElem?]

/-- Every slot is free or in use. -/
theorem freeCount_add_card (table : List (Option α)) :
    freeCount table + (held table).card = table.length := by
  induction table with
  | nil => rfl
  | cons entry table ih =>
      cases entry with
      | none =>
          have hfree : freeCount (none :: table) = freeCount table + 1 := rfl
          have hheld : held (none :: table) = held table := rfl
          rw [hfree, hheld, List.length_cons, ← ih]
          omega
      | some a =>
          have hfree : freeCount (some a :: table) = freeCount table := rfl
          have hheld : held (some a :: table) = a ::ₘ held table := rfl
          rw [hfree, hheld, Multiset.card_cons, List.length_cons, ← ih]
          omega

/-- Tables of one length with the same entries are equal. -/
theorem ext_entryAt {table table' : List (Option α)}
    (hlen : table.length = table'.length)
    (h : ∀ i, entryAt table i = entryAt table' i) : table = table' := by
  refine List.ext_getElem hlen fun i hi hi' => ?_
  simpa [entryAt, hi, hi'] using h i

/-- A table with entries in fewer places holds no more entries. -/
theorem card_held_mono {table table' : List (Option α)}
    (hlen : table'.length = table.length)
    (h : ∀ i, (entryAt table' i).isSome → (entryAt table i).isSome) :
    (held table').card ≤ (held table).card := by
  induction table generalizing table' with
  | nil =>
      rw [List.length_nil, List.length_eq_zero_iff] at hlen
      rw [hlen]
  | cons entry table ih =>
      cases table' with
      | nil => exact Nat.zero_le _
      | cons entry' table' =>
          have htail : (held table').card ≤ (held table).card :=
            ih (by simpa using hlen) fun i => h (i + 1)
          have hhead : entry'.isSome → entry.isSome := h 0
          cases entry' with
          | none =>
              cases entry with
              | none => exact htail
              | some a => exact htail.trans (Nat.le_succ _)
          | some b =>
              obtain ⟨a, rfl⟩ := Option.isSome_iff_exists.mp (hhead rfl)
              exact Nat.succ_le_succ htail

/-! ## Updating -/

theorem entryAt_set {table : List (Option α)} {i : ℕ} (hi : i < table.length)
    (entry : Option α) (j : ℕ) :
    entryAt (table.set i entry) j = if j = i then entry else entryAt table j := by
  by_cases h : j = i
  · subst h
    simp [entryAt, hi]
  · simp [entryAt, List.getElem?_set_ne (Ne.symm h), h]

theorem entryAt_set_none (table : List (Option α)) (i j : ℕ) :
    entryAt (table.set i none) j = if j = i then none else entryAt table j := by
  by_cases hi : i < table.length
  · exact entryAt_set hi none j
  · rw [List.set_eq_of_length_le (Nat.le_of_not_lt hi)]
    by_cases h : j = i
    · rw [if_pos h, h, entryAt_of_length_le (Nat.le_of_not_lt hi)]
    · rw [if_neg h]

theorem entryAt_freeWhere (p : α → Bool) (table : List (Option α)) (i : ℕ) :
    entryAt (freeWhere p table) i = (entryAt table i).filter fun a => !p a := by
  rw [entryAt, entryAt, freeWhere, List.getElem?_map]
  cases table[i]? with
  | none => rfl
  | some entry => rfl

theorem findIdx_freeWhere (p q : α → Bool) (table : List (Option α)) :
    findIdx p (freeWhere q table) = findIdx (fun a => p a && !q a) table := by
  rw [findIdx, findIdx, freeWhere, List.findIdx?_map]
  congr 1
  funext entry
  cases entry with
  | none => rfl
  | some a => cases hq : q a <;> simp [hq]

theorem lt_length_of_entryAt {table : List (Option α)} {i : ℕ} {a : α}
    (h : entryAt table i = some a) : i < table.length := by
  by_contra hle
  rw [entryAt_of_length_le (Nat.le_of_not_lt hle)] at h
  simp at h

private theorem used_split {table : List (Option α)} {i : ℕ} {e : Option α}
    (h : table[i]? = some e) (e' : Option α) :
    used (table.set i e') =
      used (table.take i) ++ (e'.toList ++ used (table.drop (i + 1))) := by
  obtain ⟨hi, -⟩ := List.getElem?_eq_some_iff.mp h
  rw [List.set_eq_take_append_cons_drop, if_pos hi]
  cases e' <;> simp [used]

private theorem set_getElem?_self {table : List (Option α)} {i : ℕ} {e : Option α}
    (h : table[i]? = some e) : table.set i e = table := by
  obtain ⟨hi, rfl⟩ := List.getElem?_eq_some_iff.mp h
  exact List.set_getElem_self hi

/-- Filling a slot that is free adds the entry. -/
theorem held_set_some {table : List (Option α)} {i : ℕ} (a : α)
    (h : table[i]? = some none) :
    held (table.set i (some a)) = a ::ₘ held table := by
  conv_rhs => rw [← set_getElem?_self h]
  rw [held, held, used_split h, used_split h, Multiset.cons_coe,
    Multiset.coe_eq_coe]
  simp

/-- A search does not see a new entry that does not match. -/
theorem find?_used_set_some {table : List (Option α)} {i : ℕ} {a : α} {p : α → Bool}
    (h : table[i]? = some none) (hp : p a = false) :
    (used (table.set i (some a))).find? p = (used table).find? p := by
  conv_rhs => rw [← set_getElem?_self h]
  rw [used_split h, used_split h, List.find?_append, List.find?_append]
  simp [hp]

/-- Freeing a slot in use removes its entry. -/
theorem held_set_none {table : List (Option α)} {i : ℕ} {a : α}
    (h : entryAt table i = some a) :
    held table = a ::ₘ held (table.set i none) := by
  rw [entryAt_eq_some] at h
  conv_lhs => rw [← set_getElem?_self h]
  rw [held, held, used_split h, used_split h, Multiset.cons_coe,
    Multiset.coe_eq_coe]
  simp

/-- Overwriting a slot in use exchanges its entry. -/
theorem held_set_entry {table : List (Option α)} {i : ℕ} {a : α} (b : α)
    (h : entryAt table i = some a) :
    held (table.set i (some b)) = b ::ₘ held (table.set i none) := by
  rw [entryAt_eq_some] at h
  obtain ⟨hi, -⟩ := List.getElem?_eq_some_iff.mp h
  have hfree : (table.set i none)[i]? = some none := by
    simp [hi]
  rw [← held_set_some b hfree, List.set_set]

theorem used_freeWhere (p : α → Bool) (table : List (Option α)) :
    used (freeWhere p table) = (used table).filter fun a => !p a := by
  rw [used, used, freeWhere, List.filterMap_map, List.filter_filterMap]
  rfl

theorem held_freeWhere (p : α → Bool) (table : List (Option α)) :
    held (freeWhere p table) = (held table).filter fun a => p a = false := by
  rw [held, held, used_freeWhere, Multiset.filter_coe]
  simp

theorem length_freeWhere (p : α → Bool) (table : List (Option α)) :
    (freeWhere p table).length = table.length := by
  simp [freeWhere]

/-! ## Selections that an update leaves alone -/

theorem filter_freeWhere {p q : α → Bool} {table : List (Option α)}
    (h : ∀ a, q a = true → p a = false) :
    ((held (freeWhere p table)).filter fun a => q a) =
      (held table).filter fun a => q a := by
  rw [held_freeWhere, Multiset.filter_filter]
  refine Multiset.filter_congr fun a _ => ?_
  exact ⟨fun hq => hq.1, fun hq => ⟨hq, h a hq⟩⟩

theorem filter_set_none {q : α → Bool} {table : List (Option α)} {i : ℕ} {a : α}
    (h : entryAt table i = some a) (hq : q a = false) :
    ((held (table.set i none)).filter fun a => q a) =
      (held table).filter fun a => q a := by
  rw [held_set_none h, Multiset.filter_cons_of_neg _ (by simp [hq])]

theorem filter_set_some {q : α → Bool} {table : List (Option α)} {i : ℕ} {a : α}
    (h : table[i]? = some none) (hq : q a = false) :
    ((held (table.set i (some a))).filter fun a => q a) =
      (held table).filter fun a => q a := by
  rw [held_set_some a h, Multiset.filter_cons_of_neg _ (by simp [hq])]

theorem filter_set_entry {q : α → Bool} {table : List (Option α)} {i : ℕ} {a b : α}
    (h : entryAt table i = some a) (ha : q a = false) (hb : q b = false) :
    ((held (table.set i (some b))).filter fun a => q a) =
      (held table).filter fun a => q a := by
  rw [held_set_entry b h, Multiset.filter_cons_of_neg _ (by simp [hb]),
    filter_set_none h ha]

theorem held_map (f : α → α) (table : List (Option α)) :
    held (table.map fun entry => entry.map f) = (held table).map f := by
  simp [held, used, List.filterMap_map, List.map_filterMap]

end SlotTable

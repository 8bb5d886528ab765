import Mathlib.Data.List.Basic
import Mathlib.Tactic.Ring

/-!
# Rings of numbered items

A ring keeps an item in the slot that its number has modulo the number of slots, so a new
item displaces the one stored as many numbers earlier.  Items up to a bound are released
together.  Seen from outside, a ring that is filled in order holds the most recent items
that were not released.
-/

namespace KeemashCore.ReplayRing

universe u

variable {α : Type u}

/-- A slot in use. -/
structure Slot (α : Type u) where
  seq : ℕ
  item : α
  deriving DecidableEq, Repr

/-- The slots of a ring; a free slot is `none`. -/
abbrev Slots (α : Type u) := List (Option (Slot α))

/-- A ring without items. -/
def empty (size : ℕ) : Slots α :=
  List.replicate size none

/-- Store an item under its number. -/
def store (ring : Slots α) (seq : ℕ) (item : α) : Slots α :=
  ring.set (seq % ring.length) (some ⟨seq, item⟩)

/-- Release the items numbered up to a bound. -/
def release (ring : Slots α) (upTo : ℕ) : Slots α :=
  ring.map fun entry => entry.filter fun slot => decide (upTo < slot.seq)

/-- The item stored under a number. -/
def lookup (ring : Slots α) (seq : ℕ) : Option α :=
  (ring[seq % ring.length]?.join).bind fun slot =>
    if slot.seq = seq then some slot.item else none

@[simp] theorem length_empty (size : ℕ) : (empty size : Slots α).length = size :=
  List.length_replicate

@[simp] theorem length_store (ring : Slots α) (seq : ℕ) (item : α) :
    (store ring seq item).length = ring.length :=
  List.length_set

@[simp] theorem length_release (ring : Slots α) (upTo : ℕ) :
    (release ring upTo).length = ring.length :=
  List.length_map _

@[simp] theorem lookup_empty (size seq : ℕ) : lookup (empty size : Slots α) seq = none := by
  rw [lookup, empty, List.getElem?_replicate]
  split
  · rfl
  · rfl

theorem lookup_release (ring : Slots α) (upTo seq : ℕ) :
    lookup (release ring upTo) seq = if upTo < seq then lookup ring seq else none := by
  rw [lookup, lookup, length_release, release, List.getElem?_map]
  cases ring[seq % ring.length]? with
  | none => simp
  | some entry =>
      cases entry with
      | none => simp
      | some slot =>
          by_cases hseq : slot.seq = seq
          · subst hseq
            by_cases hlt : upTo < slot.seq
            · simp [Option.filter, hlt]
            · simp [Option.filter, hlt]
          · by_cases hlt : upTo < slot.seq
            · simp [Option.filter, hlt, hseq]
            · simp [Option.filter, hlt, hseq]

/-- A new item displaces what shared its slot. -/
theorem lookup_store {ring : Slots α} (hsize : 0 < ring.length) (seq k : ℕ) (item : α) :
    lookup (store ring seq item) k =
      if k = seq then some item
      else if k % ring.length = seq % ring.length then none else lookup ring k := by
  rw [lookup, length_store, store, List.getElem?_set]
  by_cases hslot : seq % ring.length = k % ring.length
  · rw [if_pos hslot, ← hslot, if_pos (Nat.mod_lt _ hsize)]
    by_cases hk : k = seq
    · subst hk
      simp
    · have hne : ¬seq = k := fun h => hk h.symm
      simp [hk, hne]
  · have hk : k ≠ seq := fun h => hslot (h ▸ rfl)
    rw [if_neg hslot, if_neg hk, if_neg (Ne.symm hslot), lookup]

/-! ## Rings that are filled in order -/

/-- The item with a number, counted from 1. -/
def numbered (items : List α) (seq : ℕ) : Option α :=
  if seq = 0 then none else items[seq - 1]?

theorem numbered_snoc {items : List α} {item : α} {seq : ℕ} :
    numbered (items ++ [item]) seq =
      if seq = items.length + 1 then some item else numbered items seq := by
  rw [numbered, numbered]
  by_cases hzero : seq = 0
  · subst hzero
    simp
  · by_cases hlast : seq = items.length + 1
    · subst hlast
      simp
    · rw [if_neg hzero, if_neg hzero, if_neg hlast, List.getElem?_append]
      split
      · rfl
      · next hle =>
          have hlt : items.length < seq - 1 := by omega
          rw [List.getElem?_eq_none (by omega : items.length ≤ seq - 1),
            List.getElem?_eq_none (by rw [List.length_singleton]; omega)]

theorem numbered_eq_none {items : List α} {seq : ℕ} :
    numbered items seq = none ↔ seq = 0 ∨ items.length < seq := by
  rw [numbered]
  by_cases hzero : seq = 0
  · simp [hzero]
  · rw [if_neg hzero, List.getElem?_eq_none_iff]
    omega

theorem numbered_mem {items : List α} {seq : ℕ} {item : α} (h : numbered items seq = some item) :
    item ∈ items := by
  rw [numbered] at h
  split at h
  · simp at h
  · exact List.mem_of_getElem? h

/-- The ring after the items were stored in order, numbered from 1, and the numbers up to
`released` released. -/
structure Holds (items : List α) (released : ℕ) (ring : Slots α) : Prop where
  bound : released ≤ items.length
  lookup : ∀ seq, lookup ring seq =
    if released < seq ∧ items.length < seq + ring.length then numbered items seq else none

section Holds

variable {items : List α} {released : ℕ} {ring : Slots α}

theorem holds_empty (size : ℕ) : Holds ([] : List α) 0 (empty size) where
  bound := le_rfl
  lookup seq := by
    have hnone : numbered ([] : List α) seq = none :=
      numbered_eq_none.mpr (by rw [List.length_nil]; omega)
    rw [lookup_empty, hnone]
    split
    · rfl
    · rfl

/-- The next item is stored. -/
theorem Holds.store (h : Holds items released ring) (hsize : 0 < ring.length) (item : α) :
    Holds (items ++ [item]) released (store ring (items.length + 1) item) where
  bound := by
    rw [List.length_append]
    exact h.bound.trans (Nat.le_add_right _ _)
  lookup seq := by
    have hbound := h.bound
    rw [lookup_store hsize, numbered_snoc, length_store, List.length_append,
      List.length_singleton]
    by_cases hlast : seq = items.length + 1
    · rw [if_pos hlast, if_pos hlast, if_pos ⟨by omega, by omega⟩]
    · rw [if_neg hlast, if_neg hlast, h.lookup seq]
      by_cases hslot : seq % ring.length = (items.length + 1) % ring.length
      · rw [if_pos hslot]
        split
        · next hin =>
            -- Inside the window only the newest number falls into this slot.
            symm
            rw [numbered_eq_none]
            by_contra hnot
            push Not at hnot
            have hle : seq ≤ items.length + 1 := by omega
            have hdvd : ring.length ∣ items.length + 1 - seq :=
              Nat.dvd_of_mod_eq_zero (Nat.sub_mod_eq_zero_of_mod_eq hslot.symm)
            have hge := Nat.le_of_dvd (by omega) hdvd
            omega
        · rfl
      · rw [if_neg hslot]
        have hne : seq + ring.length ≠ items.length + 1 := by
          intro heq
          apply hslot
          rw [← heq, Nat.add_mod_right]
        by_cases hin : released < seq ∧ items.length < seq + ring.length
        · rw [if_pos hin, if_pos ⟨hin.1, by omega⟩]
        · rw [if_neg hin, if_neg fun hnew => hin ⟨hnew.1, by omega⟩]

/-- Numbers are released; a bound above the newest number releases what there is. -/
theorem Holds.release (h : Holds items released ring) (upTo : ℕ) :
    Holds items (max released (min upTo items.length)) (release ring upTo) where
  bound := by
    have hbound := h.bound
    omega
  lookup seq := by
    rw [lookup_release, h.lookup seq, length_release]
    by_cases hlast : items.length < seq
    · rw [numbered_eq_none.mpr (.inr hlast)]
      simp only [ite_self]
    · by_cases hup : upTo < seq
      · rw [if_pos hup]
        refine if_congr ?_ rfl rfl
        omega
      · rw [if_neg hup, if_neg]
        omega

/-- A recent item that was not released is there. -/
theorem Holds.found (h : Holds items released ring) {seq : ℕ} (hout : released < seq)
    (hrecent : items.length < seq + ring.length) :
    ReplayRing.lookup ring seq = numbered items seq := by
  rw [h.lookup seq, if_pos ⟨hout, hrecent⟩]

/-- What is found was stored under that number. -/
theorem Holds.sound (h : Holds items released ring) {seq : ℕ} {item : α}
    (hfound : ReplayRing.lookup ring seq = some item) :
    numbered items seq = some item ∧ released < seq ∧ items.length < seq + ring.length := by
  rw [h.lookup seq] at hfound
  split at hfound
  · next hin => exact ⟨hfound, hin⟩
  · simp at hfound

end Holds

end KeemashCore.ReplayRing

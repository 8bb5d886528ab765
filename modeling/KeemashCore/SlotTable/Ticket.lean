import KeemashCore.SlotTable.Basic

/-!
# Tables with tickets

Entries that carry a ticket, given out in turn from a counter, and the scan for the
best entry of a table.  A program compares tickets of a fixed width by the sign of
their difference; run on tickets that do not wrap, the same program compares numbers.
The two runs agree as long as the tickets in use are less than half the width apart.
-/

namespace SlotTable

/-! ## Tickets -/

/-- Tickets given out in turn. -/
class Ticket (T : Type) where
  /-- What the counter holds at the start. -/
  zero : T
  next : T → T
  before : T → T → Bool

/-- Tickets of 32 bits, compared by the sign of their difference. -/
instance : Ticket (BitVec 32) where
  zero := 0
  next t := t + 1
  before a b := decide ((a - b).toInt < 0)

/-- Tickets that do not wrap. -/
instance : Ticket ℕ where
  zero := 0
  next := Nat.succ
  before a b := decide (a < b)

/-- The ticket of 32 bits with this number. -/
def wrap (n : ℕ) : BitVec 32 :=
  BitVec.ofNat 32 n

theorem wrap_zero : wrap (Ticket.zero : ℕ) = Ticket.zero :=
  rfl

theorem wrap_next (n : ℕ) : wrap (Ticket.next n) = Ticket.next (wrap n) :=
  BitVec.ofNat_add n 1

/-- Tickets less than half the width apart compare as their numbers do. -/
theorem before_wrap {a b : ℕ} (hab : a < b + 2 ^ 31) (hba : b < a + 2 ^ 31) :
    Ticket.before (wrap a) (wrap b) = Ticket.before a b := by
  simp only [Ticket.before, wrap]
  refine decide_eq_decide.2 ?_
  rw [BitVec.toInt_neg_iff, BitVec.toNat_sub, BitVec.toNat_ofNat, BitVec.toNat_ofNat]
  omega

/-! ## The scan for the best entry -/

section Best

variable {α β : Type} (eligible : α → Bool) (better : α → α → Bool)

/-- One entry of the scan: it replaces the best so far if it is eligible and better. -/
def bestStep (i : ℕ) (entry : Option α) (best : Option (ℕ × α)) : Option (ℕ × α) :=
  match entry with
  | none => best
  | some a =>
      if eligible a && best.all fun found => better a found.2 then some (i, a) else best

/-- The scan from slot `i` on. -/
def bestFrom : ℕ → List (Option α) → Option (ℕ × α) → Option (ℕ × α)
  | _, [], best => best
  | i, entry :: table, best => bestFrom (i + 1) table (bestStep eligible better i entry best)

/-- The index and the entry that the scan of the table ends with. -/
def bestEntry (table : List (Option α)) : Option (ℕ × α) :=
  bestFrom eligible better 0 table none

/-- What the scan has found in the slots that it has passed. -/
structure BestOf (table : List (Option α)) (best : Option (ℕ × α)) : Prop where
  none_eligible : best = none → ∀ a ∈ held table, eligible a = false
  found : ∀ i a, best = some (i, a) → entryAt table i = some a ∧ eligible a = true ∧
    ∀ b ∈ held table, eligible b = true → better b a = false

variable {eligible better}

theorem entryAt_append {table : List (Option α)} {i : ℕ} {a : α}
    (h : entryAt table i = some a) (table' : List (Option α)) :
    entryAt (table ++ table') i = some a := by
  rw [entryAt, List.getElem?_append_left (lt_length_of_entryAt h)]
  exact h

/-- Passing one more slot. -/
theorem BestOf.step {table : List (Option α)} {best : Option (ℕ × α)}
    (h : BestOf eligible better table best) (hirrefl : ∀ a, better a a = false)
    (htrans : ∀ a b c, better a b = true → better b c = true → better a c = true)
    (entry : Option α) :
    BestOf eligible better (table ++ [entry])
      (bestStep eligible better table.length entry best) := by
  cases entry with
  | none =>
      have hheld : held (table ++ [none]) = held table := by
        simp [held, used]
      refine ⟨fun hnone => hheld ▸ h.none_eligible hnone, fun i a hfound => ?_⟩
      obtain ⟨hentry, heligible, hbest⟩ := h.found i a hfound
      exact ⟨entryAt_append hentry _, heligible, hheld ▸ hbest⟩
  | some b =>
      have hheld : ∀ x, x ∈ held (table ++ [some b]) ↔ x ∈ held table ∨ x = b := by
        intro x
        simp [mem_held]
      have hlast : entryAt (table ++ [some b]) table.length = some b := by
        simp [entryAt]
      simp only [bestStep]
      split
      · next htake =>
          obtain ⟨heligible, hbetter⟩ := Bool.and_eq_true_iff.1 htake
          refine ⟨fun hno => absurd hno (Option.some_ne_none _), fun i a hfound => ?_⟩
          cases hfound
          refine ⟨hlast, heligible, fun x hx hxe => ?_⟩
          rcases (hheld x).1 hx with hx | rfl
          · -- A better one among those passed would beat the best so far.
            cases hbest : best with
            | none => rw [h.none_eligible hbest x hx] at hxe; cases hxe
            | some found =>
                rw [hbest, Option.all_some] at hbetter
                rw [← Bool.not_eq_true]
                intro hxb
                have hbeats := htrans x b found.2 hxb hbetter
                rw [(h.found found.1 found.2 hbest).2.2 x hx hxe] at hbeats
                cases hbeats
          · exact hirrefl x
      · next hkeep =>
          refine ⟨fun hnone x hx => ?_, fun i a hfound => ?_⟩
          · rcases (hheld x).1 hx with hx | rfl
            · exact h.none_eligible hnone x hx
            · rw [hnone, Option.all_none, Bool.and_true, Bool.not_eq_true] at hkeep
              exact hkeep
          · obtain ⟨hentry, heligible, hbest⟩ := h.found i a hfound
            refine ⟨entryAt_append hentry _, heligible, fun x hx hxe => ?_⟩
            rcases (hheld x).1 hx with hx | rfl
            · exact hbest x hx hxe
            · rw [hfound, Option.all_some, hxe, Bool.true_and, Bool.not_eq_true] at hkeep
              exact hkeep

theorem BestOf.scan (hirrefl : ∀ a, better a a = false)
    (htrans : ∀ a b c, better a b = true → better b c = true → better a c = true)
    (table : List (Option α)) :
    ∀ {passed : List (Option α)} {best : Option (ℕ × α)},
      BestOf eligible better passed best →
        BestOf eligible better (passed ++ table)
          (bestFrom eligible better passed.length table best) := by
  induction table with
  | nil =>
      intro passed best h
      rwa [List.append_nil]
  | cons entry table ih =>
      intro passed best h
      have hstep := h.step hirrefl htrans entry
      have hrest := ih hstep
      rw [List.append_assoc, List.singleton_append, List.length_append,
        List.length_singleton] at hrest
      exact hrest

/-- The scan finds an eligible entry that no other eligible one beats, if there is an
eligible one. -/
theorem bestEntry_spec (hirrefl : ∀ a, better a a = false)
    (htrans : ∀ a b c, better a b = true → better b c = true → better a c = true)
    (table : List (Option α)) :
    BestOf eligible better table (bestEntry eligible better table) := by
  have hstart : BestOf eligible better [] none :=
    ⟨fun _ a ha => absurd (mem_held.1 ha) List.not_mem_nil, fun _ _ hfound => nomatch hfound⟩
  exact hstart.scan hirrefl htrans table

/-- Whatever the scan ends with stands in the table, also where `better` is no order. -/
theorem entryAt_bestFrom (table : List (Option α)) {passed : List (Option α)}
    {best : Option (ℕ × α)} (hbest : ∀ i a, best = some (i, a) → entryAt passed i = some a)
    {i : ℕ} {a : α} (h : bestFrom eligible better passed.length table best = some (i, a)) :
    entryAt (passed ++ table) i = some a := by
  induction table generalizing passed best with
  | nil =>
      rw [List.append_nil]
      exact hbest i a h
  | cons entry table ih =>
      have hlength : (passed ++ [entry]).length = passed.length + 1 := List.length_append
      rw [bestFrom, ← hlength] at h
      rw [← List.singleton_append, ← List.append_assoc]
      refine ih (fun j b hfound => ?_) h
      cases entry with
      | none => exact entryAt_append (hbest j b hfound) _
      | some last =>
          rw [bestStep] at hfound
          split at hfound
          · obtain ⟨rfl, rfl⟩ := Prod.mk.inj (Option.some.inj hfound)
            rw [entryAt, List.getElem?_concat_length]
            rfl
          · exact entryAt_append (hbest j b hfound) _

theorem entryAt_of_bestEntry {table : List (Option α)} {i : ℕ} {a : α}
    (h : bestEntry eligible better table = some (i, a)) : entryAt table i = some a :=
  @entryAt_bestFrom α eligible better table [] none (fun _ _ hnone => nomatch hnone) i a h

/-! ## Scans of corresponding tables -/

variable {eligible' : β → Bool} {better' : β → β → Bool} {f : α → β}

theorem bestStep_map {p : α → Prop} (heligible : ∀ a, p a → eligible' (f a) = eligible a)
    (hbetter : ∀ a b, p a → p b → better' (f a) (f b) = better a b) (i : ℕ)
    {entry : Option α} (hentry : ∀ a, entry = some a → p a) {best : Option (ℕ × α)}
    (hbest : ∀ found, best = some found → p found.2) :
    bestStep eligible' better' i (entry.map f) (best.map (Prod.map id f)) =
      (bestStep eligible better i entry best).map (Prod.map id f) := by
  cases entry with
  | none => rfl
  | some a =>
      have ha := hentry a rfl
      have hall : ((best.map (Prod.map id f)).all fun found => better' (f a) found.2) =
          best.all fun found => better a found.2 := by
        cases best with
        | none => rfl
        | some found => exact hbetter a found.2 ha (hbest found rfl)
      simp only [Option.map_some, bestStep, heligible a ha, hall]
      split
      · rfl
      · rfl

/-- Tables whose entries compare alike are scanned alike. -/
theorem bestFrom_map {p : α → Prop} (heligible : ∀ a, p a → eligible' (f a) = eligible a)
    (hbetter : ∀ a b, p a → p b → better' (f a) (f b) = better a b)
    {table : List (Option α)} :
    ∀ {i : ℕ} {best : Option (ℕ × α)}, (∀ a ∈ held table, p a) →
      (∀ found, best = some found → p found.2) →
        bestFrom eligible' better' i (table.map (Option.map f)) (best.map (Prod.map id f)) =
          (bestFrom eligible better i table best).map (Prod.map id f) := by
  induction table with
  | nil =>
      intro i best _ _
      rfl
  | cons entry table ih =>
      intro i best htable hbest
      have hentry : ∀ a, entry = some a → p a := by
        rintro a rfl
        exact htable a (mem_held.2 List.mem_cons_self)
      have hrest : ∀ a ∈ held table, p a := fun a ha =>
        htable a (mem_held.2 (List.mem_cons_of_mem entry (mem_held.1 ha)))
      rw [List.map_cons, bestFrom, bestFrom, bestStep_map heligible hbetter i hentry hbest]
      refine ih hrest fun found hfound => ?_
      cases entry with
      | none => exact hbest found hfound
      | some a =>
          simp only [bestStep] at hfound
          split at hfound
          · cases hfound
            exact hentry a rfl
          · exact hbest found hfound

theorem bestEntry_map {p : α → Prop} (heligible : ∀ a, p a → eligible' (f a) = eligible a)
    (hbetter : ∀ a b, p a → p b → better' (f a) (f b) = better a b)
    {table : List (Option α)} (htable : ∀ a ∈ held table, p a) :
    bestEntry eligible' better' (table.map (Option.map f)) =
      (bestEntry eligible better table).map (Prod.map id f) := by
  have hnone : ∀ found, (none : Option (ℕ × α)) = some found → p found.2 := by
    intro found h
    cases h
  exact bestFrom_map heligible hbetter htable hnone

end Best

/-! ## Corresponding tables -/

section Map

variable {α β : Type} (f : α → β)

theorem entryAt_map (table : List (Option α)) (i : ℕ) :
    entryAt (table.map (Option.map f)) i = (entryAt table i).map f := by
  rw [entryAt, entryAt, List.getElem?_map]
  cases table[i]? with
  | none => rfl
  | some entry => rfl

theorem freeIdx_map (table : List (Option α)) :
    freeIdx (table.map (Option.map f)) = freeIdx table := by
  simp [freeIdx, List.findIdx?_map, Function.comp_def]

theorem freeCount_map (table : List (Option α)) :
    freeCount (table.map (Option.map f)) = freeCount table := by
  simp [freeCount, List.filter_map, Function.comp_def]

theorem findIdx_map {p : α → Bool} {q : β → Bool} (h : ∀ a, q (f a) = p a)
    (table : List (Option α)) :
    findIdx q (table.map (Option.map f)) = findIdx p table := by
  have hany : (fun entry : Option α => (entry.map f).any q) = fun entry => entry.any p := by
    funext entry
    cases entry with
    | none => rfl
    | some a => exact h a
  rw [findIdx, findIdx, List.findIdx?_map, Function.comp_def, hany]

theorem set_map (table : List (Option α)) (i : ℕ) (entry : Option α) :
    (table.map (Option.map f)).set i (entry.map f) =
      (table.set i entry).map (Option.map f) :=
  List.map_set.symm

end Map

end SlotTable

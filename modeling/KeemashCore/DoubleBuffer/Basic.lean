import Mathlib.Data.List.Induction

/-!
# A record kept in two alternating slots

A program that must not lose its last record to a crash keeps two slots and
numbers its records.  A record with an odd number lives in one slot and one
with an even number in the other, so a write always goes to the slot that does
not hold the latest record.  A write that is cut short leaves its slot
unreadable and touches nothing else.

`committed` says what such a pair should show after a history of writes, and
`latest_replay` that it does.
-/

namespace DoubleBuffer

variable {α : Type}

/-- The two slots; a slot holds a numbered record or nothing readable. -/
structure Pair (α : Type) where
  odd : Option (ℕ × α)
  even : Option (ℕ × α)

namespace Pair

def empty : Pair α := ⟨none, none⟩

/-- The record with the greater number. -/
def latest (p : Pair α) : Option (ℕ × α) :=
  match p.odd, p.even with
  | some a, some b => if a.1 < b.1 then some b else some a
  | some a, none => some a
  | none, b => b

/-- The number of the next record. -/
def next (p : Pair α) : ℕ :=
  match p.latest with
  | some a => a.1 + 1
  | none => 1

/-- Replace the slot in which records numbered `n` live. -/
def set (p : Pair α) (n : ℕ) (slot : Option (ℕ × α)) : Pair α :=
  if n % 2 = 1 then { p with odd := slot } else { p with even := slot }

/-- A completed write. -/
def commit (p : Pair α) (a : α) : Pair α :=
  p.set p.next (some (p.next, a))

/-- A write cut short. -/
def tear (p : Pair α) : Pair α :=
  p.set p.next none

/-- Every record lives in the slot of its number's parity. -/
structure Orderly (p : Pair α) : Prop where
  odd : ∀ a, p.odd = some a → a.1 % 2 = 1
  even : ∀ b, p.even = some b → b.1 % 2 = 0

theorem orderly_empty : (empty : Pair α).Orderly :=
  ⟨fun _ h => (nomatch h), fun _ h => (nomatch h)⟩

theorem Orderly.set {p : Pair α} (hp : p.Orderly) (n : ℕ) {slot : Option (ℕ × α)}
    (hslot : ∀ a, slot = some a → a.1 = n) : (p.set n slot).Orderly := by
  by_cases hn : n % 2 = 1
  · simp only [Pair.set, hn, if_true]
    refine ⟨fun a ha => ?_, hp.even⟩
    rw [hslot a ha]
    exact hn
  · simp only [Pair.set, hn, if_false]
    refine ⟨hp.odd, fun b hb => ?_⟩
    rw [hslot b hb]
    omega

theorem Orderly.commit {p : Pair α} (hp : p.Orderly) (a : α) : (p.commit a).Orderly :=
  hp.set p.next fun b hb => by
    cases hb
    rfl

theorem Orderly.tear {p : Pair α} (hp : p.Orderly) : p.tear.Orderly :=
  hp.set p.next fun _ hb => nomatch hb

/-- The latest record is one of the two, and no slot holds a greater number. -/
theorem latest_some {p : Pair α} {a : ℕ × α} (h : p.latest = some a) :
    (p.odd = some a ∨ p.even = some a) ∧
      (∀ b, p.odd = some b → b.1 ≤ a.1) ∧ ∀ b, p.even = some b → b.1 ≤ a.1 := by
  obtain ⟨o, e⟩ := p
  rcases o with _ | o <;> rcases e with _ | e
  · simp [latest] at h
  · simp_all [latest]
  · simp_all [latest]
  · by_cases hlt : o.1 < e.1
    · simp only [latest, hlt, if_true, Option.some.injEq] at h
      subst h
      simp [Nat.le_of_lt hlt]
    · simp only [latest, hlt, if_false, Option.some.injEq] at h
      subst h
      simp only [Option.some.injEq, forall_eq', true_or, Nat.le_refl, true_and]
      omega

theorem latest_none {p : Pair α} (h : p.latest = none) : p.odd = none ∧ p.even = none := by
  obtain ⟨o, e⟩ := p
  rcases o with _ | o <;> rcases e with _ | e
  · exact ⟨rfl, rfl⟩
  · simp [latest] at h
  · simp [latest] at h
  · simp only [latest] at h
    split at h <;> exact absurd h (Option.some_ne_none _)

/-- The other slot holds only records with a smaller number than the next one. -/
theorem lt_next {p : Pair α} {b : ℕ × α} (h : p.odd = some b ∨ p.even = some b) :
    b.1 < p.next := by
  cases hl : p.latest with
  | none =>
      obtain ⟨ho, he⟩ := latest_none hl
      simp [ho, he] at h
  | some a =>
      obtain ⟨-, hodd, heven⟩ := latest_some hl
      have hle : b.1 ≤ a.1 := h.elim (hodd b) (heven b)
      simp only [next, hl]
      omega

/-- A completed write is the latest record. -/
theorem latest_commit (p : Pair α) (a : α) : (p.commit a).latest = some (p.next, a) := by
  by_cases hn : p.next % 2 = 1
  · simp only [commit, set, hn, if_true, latest]
    cases he : p.even with
    | none => rfl
    | some b =>
        have hlt : b.1 < p.next := lt_next (Or.inr he)
        simp [Nat.not_lt_of_gt hlt]
  · simp only [commit, set, hn, if_false, latest]
    cases ho : p.odd with
    | none => rfl
    | some b =>
        have hlt : b.1 < p.next := lt_next (Or.inl ho)
        simp [hlt]

/-- A write cut short leaves the latest record as it was: the next number goes
to the other slot. -/
theorem latest_tear {p : Pair α} (hp : p.Orderly) : p.tear.latest = p.latest := by
  cases hl : p.latest with
  | none =>
      obtain ⟨ho, he⟩ := latest_none hl
      by_cases hn : p.next % 2 = 1 <;> simp [tear, set, hn, latest, ho, he]
  | some a =>
      have hnext : p.next = a.1 + 1 := by simp [next, hl]
      obtain ⟨hmem, -, -⟩ := latest_some hl
      by_cases hn : p.next % 2 = 1
      · -- The torn slot is the odd one; the latest record has an even number.
        have heven : p.even = some a := by
          refine hmem.resolve_left fun ho => ?_
          have hodd : a.1 % 2 = 1 := hp.odd a ho
          omega
        simp [tear, set, hn, latest, heven]
      · have hodd : p.odd = some a := by
          refine hmem.resolve_right fun he => ?_
          have heven : a.1 % 2 = 0 := hp.even a he
          omega
        simp [tear, set, hn, latest, hodd]

end Pair

/-! ## Histories -/

/-- What became of one write. -/
inductive Write (α : Type) where
  | done (a : α)
  | torn

def Pair.apply (p : Pair α) : Write α → Pair α
  | .done a => p.commit a
  | .torn => p.tear

/-- The pair after a history of writes. -/
def replay (history : List (Write α)) : Pair α :=
  history.foldl Pair.apply Pair.empty

/-- The records whose writes completed, oldest first. -/
def committed (history : List (Write α)) : List α :=
  history.filterMap fun
    | .done a => some a
    | .torn => none

theorem committed_append (history : List (Write α)) (w : Write α) :
    committed (history ++ [w]) = committed history ++ committed [w] := by
  simp [committed]

theorem replay_append (history : List (Write α)) (w : Write α) :
    replay (history ++ [w]) = (replay history).apply w := by
  simp [replay]

theorem replay_orderly (history : List (Write α)) : (replay history).Orderly := by
  induction history using List.reverseRecOn with
  | nil => exact Pair.orderly_empty
  | append_singleton history w ih =>
      rw [replay_append]
      cases w with
      | done a => exact ih.commit a
      | torn => exact ih.tear

/-- The pair shows the last completed write, numbered by how many there were. -/
theorem latest_replay (history : List (Write α)) :
    (replay history).latest =
      (committed history).getLast?.map fun a => ((committed history).length, a) := by
  induction history using List.reverseRecOn with
  | nil => rfl
  | append_singleton history w ih =>
      rw [replay_append, committed_append]
      cases w with
      | torn =>
          rw [Pair.apply, Pair.latest_tear (replay_orderly history), ih]
          simp [committed]
      | done a =>
          have hnext : (replay history).next = (committed history).length + 1 := by
            rw [Pair.next, ih]
            cases hc : (committed history).getLast? with
            | none => simp [List.getLast?_eq_none_iff.mp hc]
            | some b => rfl
          rw [Pair.apply, Pair.latest_commit, hnext]
          simp [committed]

/-- A record is never numbered beyond the number of completed writes. -/
theorem number_le {history : List (Write α)} {b : ℕ × α}
    (h : (replay history).odd = some b ∨ (replay history).even = some b) :
    b.1 ≤ (committed history).length := by
  have hlt : b.1 < (replay history).next := Pair.lt_next h
  rw [Pair.next, latest_replay] at hlt
  cases hc : (committed history).getLast? with
  | none =>
      obtain ⟨ho, he⟩ := Pair.latest_none (p := replay history) (by rw [latest_replay, hc]; rfl)
      simp [ho, he] at h
  | some a =>
      rw [hc] at hlt
      simp only [Option.map_some] at hlt
      omega

end DoubleBuffer

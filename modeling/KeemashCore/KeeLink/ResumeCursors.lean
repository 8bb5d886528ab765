import KeemashCore.SerialNumber.Range
import KeemashCore.Trace.Basic
import Mathlib.Data.Vector.Basic

/-!
# Resume cursors

A receiver of Fabric envelopes keeps, for every traffic class, the sequence number it has
seen last.  `observe` tells it whether the next number is the one expected, an old one, or
leaves a gap, and the gaps drive the requests for retransmission.  What is reported for a
class adds up to the numbers from the first one to the cursor.
-/

namespace KeemashCore.KeeLink

open SerialNumber

abbrev U64 := BitVec 64

/-- `TrafficClass` of the Fabric protocol. -/
inductive TrafficClass where
  | unspecified
  | control
  | fault
  | graph
  | task
  | memory
  | state
  | sensor
  | log
  | ota
  deriving DecidableEq, Repr

/-- The number of a class on the wire, `traffic_class as usize`. -/
def TrafficClass.slot (k : TrafficClass) : ℕ :=
  k.ctorIdx

inductive SequenceDisposition where
  | first
  | next
  | duplicate
  | gap (first last : U64)
  deriving DecidableEq, Repr

/-- `sequence_after`. -/
def sequenceAfter (candidate reference : U64) : Bool :=
  candidate != reference && decide (0 < (candidate - reference).toInt)

structure ResumeCursors where
  values : Vector (Option U64) 10
  deriving DecidableEq, Repr

namespace ResumeCursors

/-- No class has been observed. -/
def empty : ResumeCursors where
  values := Vector.replicate 10 none

def get (s : ResumeCursors) (k : TrafficClass) : Option U64 :=
  s.values[k.slot]?.join

/-- Assign to the value of a class. -/
def set (s : ResumeCursors) (k : TrafficClass) (sequence : U64) : ResumeCursors where
  values := s.values.setIfInBounds k.slot (some sequence)

/-- `observe`. -/
def observe (s : ResumeCursors) (k : TrafficClass) (sequence : U64) :
    ResumeCursors × SequenceDisposition :=
  if k.slot = 0 ∨ k.slot ≥ s.values.size then (s, .duplicate)
  else
    match s.get k with
    | none => (s.set k sequence, .first)
    | some previous =>
        if sequence = previous ∨ sequenceAfter sequence previous = false then (s, .duplicate)
        else
          (s.set k sequence,
            if sequence = previous + 1 then .next
            else .gap (previous + 1) (sequence - 1))

end ResumeCursors

theorem TrafficClass.slot_lt (k : TrafficClass) : k.slot < 10 := by
  cases k <;> decide

theorem TrafficClass.slot_inj {k k' : TrafficClass} : k.slot = k'.slot ↔ k = k' := by
  constructor
  · intro h
    cases k <;> cases k' <;> first | rfl | exact absurd h (by decide)
  · rintro rfl
    rfl

namespace ResumeCursors

section Values

variable {s : ResumeCursors} {k k' : TrafficClass} {sequence : U64}

@[simp] theorem get_empty (k : TrafficClass) : empty.get k = none := by
  rw [get, empty, Vector.getElem?_replicate_of_lt k.slot_lt]
  rfl

@[simp] theorem get_set_self : (s.set k sequence).get k = some sequence := by
  rw [get, set, Vector.getElem?_setIfInBounds_self_of_lt k.slot_lt]
  rfl

theorem get_set_ne (h : k' ≠ k) : (s.set k sequence).get k' = s.get k' := by
  have hslot : k.slot ≠ k'.slot := fun heq => h (TrafficClass.slot_inj.1 heq).symm
  rw [get, set, Vector.getElem?_setIfInBounds_ne hslot]
  rfl

/-- What `observe` can do. -/
theorem observe_cases (s : ResumeCursors) (k : TrafficClass) (sequence : U64) :
    ((k = .unspecified ∨ ∃ previous, s.get k = some previous ∧
        (sequence = previous ∨ sequenceAfter sequence previous = false)) ∧
        s.observe k sequence = (s, .duplicate)) ∨
      (s.get k = none ∧ s.observe k sequence = (s.set k sequence, .first)) ∨
      ∃ previous, s.get k = some previous ∧ sequenceAfter sequence previous = true ∧
        s.observe k sequence =
          (s.set k sequence,
            if sequence = previous + 1 then .next
            else .gap (previous + 1) (sequence - 1)) := by
  rw [observe]
  by_cases hslot : k.slot = 0 ∨ k.slot ≥ s.values.size
  · left
    rw [if_pos hslot]
    refine ⟨.inl ?_, rfl⟩
    have hlt := k.slot_lt
    exact TrafficClass.slot_inj.1 (hslot.resolve_right (not_le.2 hlt))
  · rw [if_neg hslot]
    cases hget : s.get k with
    | none => exact .inr (.inl ⟨rfl, rfl⟩)
    | some previous =>
        dsimp only
        by_cases hold : sequence = previous ∨ sequenceAfter sequence previous = false
        · left
          rw [if_pos hold]
          exact ⟨.inr ⟨previous, rfl, hold⟩, rfl⟩
        · right
          right
          rw [if_neg hold]
          exact ⟨previous, rfl, Bool.eq_true_of_not_eq_false fun h => hold (.inr h), rfl⟩

theorem observe_duplicate (h : (s.observe k sequence).2 = .duplicate) :
    (s.observe k sequence).1 = s := by
  obtain ⟨-, heq⟩ | ⟨-, heq⟩ | ⟨previous, -, -, heq⟩ := observe_cases s k sequence
  · rw [heq]
  · rw [heq] at h
    exact absurd h SequenceDisposition.noConfusion
  · rw [heq] at h
    dsimp only at h
    split_ifs at h

theorem get_observe_ne (h : k' ≠ k) : (s.observe k sequence).1.get k' = s.get k' := by
  obtain ⟨-, heq⟩ | ⟨-, heq⟩ | ⟨previous, -, -, heq⟩ := observe_cases s k sequence
  · rw [heq]
  · rw [heq, get_set_ne h]
  · rw [heq, get_set_ne h]

end Values

end ResumeCursors

/-! ## Reports -/

/-- An observation with the answer it got. -/
structure Report where
  trafficClass : TrafficClass
  sequence : U64
  disposition : SequenceDisposition
  deriving DecidableEq, Repr

/-- The numbers a report stands for: the observed one, if it is new, after those of the gap. -/
def Report.numbers (r : Report) : List U64 :=
  match r.disposition with
  | .first => [r.sequence]
  | .next => [r.sequence]
  | .duplicate => []
  | .gap first last => upTo first last ++ [r.sequence]

/-- All numbers reported for a class. -/
def covered (k : TrafficClass) (rs : List Report) : List U64 :=
  (rs.filter fun r => decide (r.trafficClass = k)).flatMap Report.numbers

/-- How far a cursor has moved. -/
def moved : Option U64 → Option U64 → ℕ
  | some previous, some cursor => (cursor - previous).toNat
  | _, _ => 0

namespace ResumeCursors

def step (s : ResumeCursors) (o : TrafficClass × U64) : ResumeCursors :=
  (s.observe o.1 o.2).1

def report (s : ResumeCursors) (o : TrafficClass × U64) : Report where
  trafficClass := o.1
  sequence := o.2
  disposition := (s.observe o.1 o.2).2

/-- The answers to observations made one after another. -/
def reports (s : ResumeCursors) : List (TrafficClass × U64) → List Report
  | [] => []
  | o :: rest => s.report o :: (s.step o).reports rest

/-- How far the cursor of a class moves on the whole. -/
def advance (k : TrafficClass) (s : ResumeCursors) : List (TrafficClass × U64) → ℕ
  | [] => 0
  | o :: rest => moved (s.get k) ((s.step o).get k) + advance k (s.step o) rest

end ResumeCursors

/-- The first number observed for a class. -/
def firstObserved (k : TrafficClass) (observations : List (TrafficClass × U64)) : Option U64 :=
  (observations.find? fun o => decide (o.1 = k)).map Prod.snd

open ResumeCursors

section Step

variable {s : ResumeCursors} {k : TrafficClass} {o : TrafficClass × U64}

theorem covered_cons (r : Report) (rs : List Report) :
    covered k (r :: rs) = covered k [r] ++ covered k rs := by
  rw [covered, covered, covered, ← List.flatMap_append, ← List.filter_append]
  rfl

theorem covered_self {r : Report} (h : r.trafficClass = k) : covered k [r] = r.numbers := by
  simp [covered, h]

theorem covered_other {r : Report} (h : r.trafficClass ≠ k) : covered k [r] = [] := by
  simp [covered, h]

/-- The numbers that a jump reports. -/
theorem numbers_jump (previous sequence : U64) :
    Report.numbers
        ⟨k, sequence,
          if sequence = previous + 1 then .next else .gap (previous + 1) (sequence - 1)⟩ =
      upTo (previous + 1) sequence := by
  by_cases hnext : sequence = previous + 1
  · rw [if_pos hnext, hnext, upTo_self]
    rfl
  · rw [if_neg hnext, Report.numbers]
    have hpred : sequence - 1 ≠ sequence := by
      bv_omega
    have hsucc : sequence - 1 + 1 = sequence := BitVec.sub_add_cancel sequence 1
    have hsum : (sequence - 1 - (previous + 1)).toNat + (sequence - (sequence - 1)).toNat <
        2 ^ 64 := by
      bv_omega
    rw [← upTo_append hpred hsum, hsucc, upTo_self]

theorem ne_of_sequenceAfter {candidate reference : U64}
    (h : sequenceAfter candidate reference = true) : reference ≠ candidate := by
  rintro rfl
  rw [sequenceAfter, bne_self_eq_false, Bool.false_and] at h
  exact Bool.noConfusion h

/-- One observation reports the numbers that the cursor passes. -/
theorem step_known {previous : U64} (hget : s.get k = some previous) (o : TrafficClass × U64) :
    ∃ cursor, (s.step o).get k = some cursor ∧
      (cursor = previous ∨ sequenceAfter cursor previous = true) ∧
      upTo previous cursor = previous :: covered k [s.report o] := by
  by_cases hk : o.1 = k
  · rw [covered_self hk]
    obtain ⟨-, heq⟩ | ⟨hnone, -⟩ | ⟨p, hp, hafter, heq⟩ := observe_cases s o.1 o.2
    · refine ⟨previous, ?_, .inl rfl, ?_⟩
      · rw [step, heq]
        exact hget
      · rw [upTo_self, report, heq]
        rfl
    · rw [hk, hget] at hnone
      exact absurd hnone (Option.some_ne_none previous)
    · rw [hk, hget] at hp
      obtain rfl : previous = p := Option.some.inj hp
      refine ⟨o.2, ?_, .inr hafter, ?_⟩
      · rw [step, heq, hk, get_set_self]
      · rw [report, heq, numbers_jump]
        exact upTo_eq_cons (ne_of_sequenceAfter hafter)
  · rw [covered_other hk]
    refine ⟨previous, ?_, .inl rfl, upTo_self previous⟩
    rw [step, get_observe_ne fun h => hk h.symm]
    exact hget

/-- The first observation of a class sets its cursor and reports it. -/
theorem step_unknown (hk : k ≠ .unspecified) (hget : s.get k = none)
    (o : TrafficClass × U64) :
    (o.1 ≠ k ∧ (s.step o).get k = none ∧ covered k [s.report o] = []) ∨
      (o.1 = k ∧ (s.step o).get k = some o.2 ∧ covered k [s.report o] = [o.2]) := by
  by_cases hclass : o.1 = k
  · right
    rw [covered_self hclass]
    obtain ⟨hwhy, -⟩ | ⟨-, heq⟩ | ⟨p, hp, -, -⟩ := observe_cases s o.1 o.2
    · rw [hclass] at hwhy
      obtain hzero | ⟨p, hp, -⟩ := hwhy
      · exact absurd hzero hk
      · rw [hget] at hp
        exact absurd hp (Option.some_ne_none p).symm
    · rw [step, report, heq, ← hclass]
      exact ⟨rfl, get_set_self, rfl⟩
    · rw [hclass, hget] at hp
      exact absurd hp (Option.some_ne_none p).symm
  · left
    rw [covered_other hclass, step, get_observe_ne fun h => hclass h.symm]
    exact ⟨hclass, hget, rfl⟩

/-- The class that stands for none is never recorded. -/
theorem step_unspecified (o : TrafficClass × U64) :
    (s.step o).get .unspecified = s.get .unspecified ∧
      covered .unspecified [s.report o] = [] := by
  by_cases hclass : o.1 = .unspecified
  · have heq : s.observe o.1 o.2 = (s, .duplicate) := by
      rw [hclass]
      rfl
    rw [covered_self hclass, step, report, heq]
    exact ⟨rfl, rfl⟩
  · rw [covered_other hclass, step, get_observe_ne fun h => hclass h.symm]
    exact ⟨rfl, rfl⟩

end Step

section Run

variable {s : ResumeCursors} {k : TrafficClass} {observations : List (TrafficClass × U64)}

/-- Once a class has a cursor, the reports for it are the numbers after that cursor up to the
last one. -/
theorem run_known {previous : U64} (hget : s.get k = some previous)
    (hadvance : s.advance k observations < 2 ^ 64) :
    ∃ cursor, (Trace.run step s observations).get k = some cursor ∧
      upTo previous cursor = previous :: covered k (s.reports observations) ∧
      (cursor - previous).toNat = s.advance k observations := by
  induction observations generalizing s previous with
  | nil =>
      refine ⟨previous, hget, upTo_self previous, ?_⟩
      rw [BitVec.sub_self]
      rfl
  | cons o rest ih =>
      obtain ⟨middle, hmiddle, -, hnumbers⟩ := step_known hget o
      have hmoved : moved (s.get k) ((s.step o).get k) = (middle - previous).toNat := by
        rw [hget, hmiddle]
        rfl
      rw [advance, hmoved] at hadvance
      obtain ⟨cursor, hcursor, hrest, hdist⟩ := ih hmiddle (by omega)
      rw [← hdist] at hadvance
      refine ⟨cursor, ?_, ?_, ?_⟩
      · rw [Trace.run_cons]
        exact hcursor
      · rw [upTo_trans hadvance, hnumbers, hrest, List.tail_cons, reports,
          covered_cons (s.report o) ((s.step o).reports rest), List.cons_append]
      · rw [toNat_sub_trans hadvance, advance, hmoved, hdist]

/-- What is reported for a class is the range from its first number to its cursor. -/
theorem run_unknown (hk : k ≠ .unspecified) (hget : s.get k = none)
    (hadvance : s.advance k observations < 2 ^ 64) :
    ((Trace.run step s observations).get k = none ∧ covered k (s.reports observations) = []) ∨
      ∃ first cursor, firstObserved k observations = some first ∧
        (Trace.run step s observations).get k = some cursor ∧
        covered k (s.reports observations) = upTo first cursor := by
  induction observations generalizing s with
  | nil => exact .inl ⟨hget, rfl⟩
  | cons o rest ih =>
      rw [Trace.run_cons, reports, covered_cons]
      rw [advance] at hadvance
      obtain ⟨hclass, hnone, hnumbers⟩ | ⟨hclass, hsome, hnumbers⟩ := step_unknown hk hget o
      · rw [hnumbers, List.nil_append, firstObserved,
          List.find?_cons_of_neg (by simpa using hclass)]
        exact ih hnone (by omega)
      · right
        have hrest : (s.step o).advance k rest < 2 ^ 64 := by
          omega
        obtain ⟨cursor, hcursor, hrest, -⟩ := run_known hsome hrest
        refine ⟨o.2, cursor, ?_, hcursor, ?_⟩
        · rw [firstObserved, List.find?_cons_of_pos (by simpa using hclass)]
          rfl
        · rw [hnumbers, hrest]
          rfl

theorem run_unspecified :
    (Trace.run step s observations).get .unspecified = s.get .unspecified ∧
      covered .unspecified (s.reports observations) = [] := by
  induction observations generalizing s with
  | nil => exact ⟨rfl, rfl⟩
  | cons o rest ih =>
      obtain ⟨hget, hnumbers⟩ := step_unspecified (s := s) o
      rw [Trace.run_cons, reports, covered_cons, hnumbers, (ih (s := s.step o)).1,
        (ih (s := s.step o)).2]
      exact ⟨hget, rfl⟩

end Run

/-- The observations of one class, whatever is observed for the others: its cursor only
moves forward, a duplicate changes nothing, the other classes keep out of it, and while it
moves less than a round, the numbers reported for it are those from its first one up to its
cursor, each once. -/
theorem observe_accounting (k : TrafficClass) (observations : List (TrafficClass × U64))
    (hadvance : empty.advance k observations < 2 ^ 64) :
    (∀ (s : ResumeCursors) o previous, s.get k = some previous →
      ∃ cursor, (s.step o).get k = some cursor ∧
        (cursor = previous ∨ sequenceAfter cursor previous = true)) ∧
    (∀ (s : ResumeCursors) o, (s.observe o.1 o.2).2 = .duplicate → s.step o = s) ∧
    (∀ (s : ResumeCursors) o, o.1 ≠ k → (s.step o).get k = s.get k) ∧
    ((Trace.run step empty observations).get k = none →
      covered k (empty.reports observations) = []) ∧
    ∀ cursor, (Trace.run step empty observations).get k = some cursor →
      ∃ first, firstObserved k observations = some first ∧
        (covered k (empty.reports observations)).Nodup ∧
        ∀ x, x ∈ covered k (empty.reports observations) ↔ Between first cursor x := by
  refine ⟨?_, ?_, ?_, ?_, ?_⟩
  · intro s o previous hget
    obtain ⟨cursor, hcursor, hforward, -⟩ := step_known hget o
    exact ⟨cursor, hcursor, hforward⟩
  · intro s o h
    exact observe_duplicate h
  · intro s o h
    exact get_observe_ne fun heq => h heq.symm
  · intro hnone
    by_cases hk : k = .unspecified
    · rw [hk]
      exact run_unspecified.2
    · obtain ⟨-, hcovered⟩ | ⟨first, cursor, -, hcursor, -⟩ :=
        run_unknown hk (get_empty k) hadvance
      · exact hcovered
      · rw [hnone] at hcursor
        exact absurd hcursor (Option.some_ne_none cursor).symm
  · intro cursor hcursor
    by_cases hk : k = .unspecified
    · rw [hk, run_unspecified.1, get_empty] at hcursor
      exact absurd hcursor (Option.some_ne_none cursor).symm
    · obtain ⟨hnone, -⟩ | ⟨first, cursor', hfirst, hcursor', hcovered⟩ :=
        run_unknown hk (get_empty k) hadvance
      · rw [hnone] at hcursor
        exact absurd hcursor (Option.some_ne_none cursor).symm
      · obtain rfl : cursor' = cursor := Option.some.inj (hcursor'.symm.trans hcursor)
        refine ⟨first, hfirst, ?_, ?_⟩
        · rw [hcovered]
          exact nodup_upTo first cursor'
        · intro x
          rw [hcovered]
          exact mem_upTo

/-- A class that wraps around and then jumps, with another one in between. -/
theorem observe_accounting_wrapped :
    {x | x ∈ covered .control (empty.reports
        [(.control, BitVec.allOnes 64), (.control, 0), (.graph, 7), (.control, 0),
          (.control, 3)])} = {x | Between (BitVec.allOnes 64) 3 x} := by
  obtain ⟨first, hfirst, -, hmem⟩ := (observe_accounting .control
    [(.control, BitVec.allOnes 64), (.control, 0), (.graph, 7), (.control, 0), (.control, 3)]
    (by decide +kernel)).2.2.2.2 3 (by decide +kernel)
  obtain rfl : BitVec.allOnes 64 = first := Option.some.inj hfirst
  exact Set.ext hmem

end KeemashCore.KeeLink

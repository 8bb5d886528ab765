import Mathlib.Order.Interval.Set.Disjoint
import Mathlib.Order.Interval.Set.LinearOrder
import Mathlib.Order.CompletePartialOrder
import Mathlib.Data.Set.Lattice
import Mathlib.Data.List.Basic

/-!
# Tilings

Spans of places that stand one after the other, without a gap and without a place
in two of them, from one place to another.
-/

namespace Tiling

/-- `size` places from `start` on. -/
structure Span where
  start : ℕ
  size : ℕ
  deriving DecidableEq

/-- The first place after the span. -/
def Span.stop (span : Span) : ℕ :=
  span.start + span.size

def Span.places (span : Span) : Set ℕ :=
  Set.Ico span.start span.stop

/-- The span lies between two places. -/
def Span.Within (span : Span) (lo hi : ℕ) : Prop :=
  lo ≤ span.start ∧ span.stop ≤ hi

/-- The piece of a list that stands at the span. -/
def Span.slice {α : Type} (span : Span) (xs : List α) : List α :=
  (xs.drop span.start).take span.size

/-- The spans stand one after the other from `lo` to `hi`. -/
def Tiles (lo : ℕ) : List Span → ℕ → Prop
  | [], hi => lo = hi
  | span :: spans, hi => span.start = lo ∧ Tiles span.stop spans hi

instance Tiles.decidable (lo : ℕ) (spans : List Span) (hi : ℕ) : Decidable (Tiles lo spans hi) :=
  match spans with
  | [] => inferInstanceAs (Decidable (lo = hi))
  | span :: spans =>
      haveI := Tiles.decidable span.stop spans hi
      inferInstanceAs (Decidable (span.start = lo ∧ Tiles span.stop spans hi))

variable {lo mid hi : ℕ} {spans more : List Span}

@[simp]
theorem tiles_nil : Tiles lo [] hi ↔ lo = hi :=
  Iff.rfl

@[simp]
theorem tiles_cons {span : Span} :
    Tiles lo (span :: spans) hi ↔ span.start = lo ∧ Tiles span.stop spans hi :=
  Iff.rfl

theorem Tiles.append (h : Tiles lo spans mid) (hmore : Tiles mid more hi) :
    Tiles lo (spans ++ more) hi := by
  induction spans generalizing lo with
  | nil =>
      obtain rfl := tiles_nil.mp h
      exact hmore
  | cons span spans ih =>
      obtain ⟨hstart, hrest⟩ := tiles_cons.mp h
      exact ⟨hstart, ih hrest⟩

/-- A tiling goes on with a span that starts where it ends. -/
theorem Tiles.snoc (h : Tiles lo spans mid) (size : ℕ) :
    Tiles lo (spans ++ [⟨mid, size⟩]) (mid + size) :=
  h.append ⟨rfl, rfl⟩

theorem Tiles.le (h : Tiles lo spans hi) : lo ≤ hi := by
  induction spans generalizing lo with
  | nil => exact Nat.le_of_eq h
  | cons span spans ih =>
      obtain ⟨rfl, hrest⟩ := tiles_cons.mp h
      exact (Nat.le_add_right _ _).trans (ih hrest)

theorem Tiles.within (h : Tiles lo spans hi) : ∀ span ∈ spans, span.Within lo hi := by
  induction spans generalizing lo with
  | nil => exact fun _ hmem => absurd hmem List.not_mem_nil
  | cons first spans ih =>
      obtain ⟨rfl, hrest⟩ := tiles_cons.mp h
      intro span hmem
      rcases List.mem_cons.mp hmem with rfl | hmem
      · exact ⟨Nat.le_refl _, hrest.le⟩
      · obtain ⟨hstart, hstop⟩ := ih hrest span hmem
        exact ⟨(Nat.le_add_right _ _).trans hstart, hstop⟩

/-- The places of a tiling are those between its ends. -/
theorem Tiles.covers (h : Tiles lo spans hi) :
    (⋃ span ∈ spans, span.places) = Set.Ico lo hi := by
  induction spans generalizing lo with
  | nil =>
      obtain rfl := tiles_nil.mp h
      simp
  | cons span spans ih =>
      obtain ⟨rfl, hrest⟩ := tiles_cons.mp h
      have hle : span.start ≤ span.stop := Nat.le_add_right _ _
      calc
        (⋃ other ∈ span :: spans, other.places) =
            span.places ∪ ⋃ other ∈ spans, other.places := by
          simp [Set.iUnion_or, Set.iUnion_union_distrib]
        _ = Set.Ico span.start span.stop ∪ Set.Ico span.stop hi := by
          rw [ih hrest]
          rfl
        _ = Set.Ico span.start hi := Set.Ico_union_Ico_eq_Ico hle hrest.le

/-- No place is in two spans of a tiling. -/
theorem Tiles.disjoint (h : Tiles lo spans hi) :
    spans.Pairwise fun a b => Disjoint a.places b.places := by
  induction spans generalizing lo with
  | nil => exact List.Pairwise.nil
  | cons span spans ih =>
      obtain ⟨-, hrest⟩ := tiles_cons.mp h
      refine List.pairwise_cons.mpr ⟨fun other hmem => ?_, ih hrest⟩
      have hafter := (hrest.within other hmem).1
      rw [Set.disjoint_left]
      intro place hplace hother
      exact absurd (hafter.trans hother.1) (Nat.not_le_of_gt hplace.2)

/-- The tiling moved along by `offset` places. -/
theorem Tiles.shift (h : Tiles lo spans hi) (offset : ℕ) :
    Tiles (offset + lo) (spans.map fun span => ⟨offset + span.start, span.size⟩)
      (offset + hi) := by
  induction spans generalizing lo with
  | nil =>
      obtain rfl := tiles_nil.mp h
      exact rfl
  | cons span spans ih =>
      obtain ⟨rfl, hrest⟩ := tiles_cons.mp h
      refine ⟨rfl, ?_⟩
      have hnext := ih hrest
      rwa [Span.stop, ← Nat.add_assoc] at hnext

/-- The pieces of a list at the spans of a tiling give back the list. -/
theorem Tiles.flatten_slices {α : Type} (h : Tiles lo spans hi) {xs : List α}
    (hlength : hi = xs.length) : (spans.map fun span => span.slice xs).flatten = xs.drop lo := by
  induction spans generalizing lo with
  | nil =>
      obtain rfl := tiles_nil.mp h
      rw [hlength, List.drop_length]
      rfl
  | cons span spans ih =>
      obtain ⟨rfl, hrest⟩ := tiles_cons.mp h
      rw [List.map_cons, List.flatten_cons, ih hrest, Span.slice, Span.stop, ← List.drop_drop,
        List.take_append_drop]

/-! ## Pieces of a list -/

section Pieces

variable {α : Type} {xs ys zs : List α}

theorem Span.length_slice {span : Span} (h : span.stop ≤ xs.length) :
    (span.slice xs).length = span.size := by
  rw [Span.stop] at h
  rw [Span.slice, List.length_take, List.length_drop]
  omega

/-- A piece of the first part of a list. -/
theorem Span.slice_append {span : Span} (h : span.stop ≤ xs.length) :
    span.slice (xs ++ ys) = span.slice xs := by
  rw [Span.stop] at h
  have hdrop : span.size ≤ (xs.drop span.start).length := by
    rw [List.length_drop]
    omega
  rw [Span.slice, Span.slice, List.drop_append_of_le_length (by omega),
    List.take_append_of_le_length hdrop]

theorem Span.slice_middle : (⟨xs.length, ys.length⟩ : Span).slice (xs ++ ys ++ zs) = ys := by
  rw [Span.slice, List.append_assoc, List.drop_left, List.take_left]

/-- Writing into a list leaves what stands in front of the place. -/
theorem Span.slice_write {span : Span} {start : ℕ} (hspan : span.stop ≤ start)
    (hstart : start ≤ xs.length) :
    span.slice (xs.take start ++ ys ++ zs) = span.slice xs := by
  have hfront : span.stop ≤ (xs.take start).length := by
    rw [List.length_take]
    omega
  calc
    span.slice (xs.take start ++ ys ++ zs) = span.slice (xs.take start) := by
      rw [List.append_assoc, Span.slice_append hfront]
    _ = span.slice (xs.take start ++ xs.drop start) := (Span.slice_append hfront).symm
    _ = span.slice xs := by rw [List.take_append_drop]

end Pieces

end Tiling

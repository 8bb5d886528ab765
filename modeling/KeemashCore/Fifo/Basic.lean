import Mathlib.Data.List.Basic

/-!
# Lines

A line of items: those served so far, in the order in which they were, and those
that wait, the next one first.  Items join at the end and are served at the front;
some items that wait may be taken out and join again, changed, at the end.  Items
that join together and may not be taken out stay together.
-/

namespace Fifo

variable {E : Type}

structure Line (E : Type) where
  served : List E
  waiting : List E

/-- Served and waiting items in one row. -/
def Line.all (line : Line E) : List E :=
  line.served ++ line.waiting

/-- What can happen to a line; `moves x y` says that a waiting `x` may be taken out and
join again as `y`. -/
inductive Step (moves : E → E → Prop) : Line E → Line E → Prop where
  | join {served waiting : List E} (items : List E) :
      Step moves ⟨served, waiting⟩ ⟨served, waiting ++ items⟩
  | rejoin {served front back : List E} {x y : E} (h : moves x y) :
      Step moves ⟨served, front ++ x :: back⟩ ⟨served, front ++ back ++ [y]⟩
  | serve {served waiting : List E} {x : E} :
      Step moves ⟨served, x :: waiting⟩ ⟨served ++ [x], waiting⟩

theorem Step.refl {moves : E → E → Prop} (line : Line E) : Step moves line line := by
  have h := @Step.join E moves line.served line.waiting []
  rwa [List.append_nil] at h

/-- The items of a block stand next to each other in the line. -/
def Together (block : List E) (line : Line E) : Prop :=
  block <:+: line.all

/-- Taking out an item that is not in the block, and letting one join, leaves the block
together. -/
theorem infix_of_moved {block front back : List E} {x : E} (hx : x ∉ block)
    (h : block <:+: front ++ x :: back) : block <:+: front ++ back := by
  obtain ⟨before, after, heq⟩ := h
  rw [List.append_assoc] at heq
  rcases List.append_eq_append_iff.1 heq with ⟨mid, hfront, hblock⟩ | ⟨mid, hbefore, hback⟩
  · rcases List.append_eq_append_iff.1 hblock with ⟨rest, hmid, hafter⟩ | ⟨rest, hmid, hafter⟩
    · -- The block ends in front of the item.
      refine ⟨before, rest ++ back, ?_⟩
      rw [hfront, hmid]
      simp only [List.append_assoc]
    · cases rest with
      | nil =>
          rw [List.append_nil] at hmid
          refine ⟨before, back, ?_⟩
          rw [hfront, hmid]
      | cons y rest =>
          rw [List.cons_append] at hafter
          obtain ⟨rfl, -⟩ := List.cons.inj hafter
          exact absurd (hmid ▸ List.mem_append_right mid List.mem_cons_self) hx
  · cases mid with
    | nil =>
        rw [List.nil_append] at hback
        rw [List.append_nil] at hbefore
        cases block with
        | nil => exact List.nil_infix
        | cons y block =>
            obtain ⟨rfl, -⟩ := List.cons.inj hback
            exact absurd List.mem_cons_self hx
    | cons y mid =>
        -- The block starts behind the item.
        rw [List.cons_append] at hback
        obtain ⟨-, hrest⟩ := List.cons.inj hback
        refine ⟨front ++ mid, after, ?_⟩
        rw [hrest]
        simp only [List.append_assoc]

theorem Step.together {moves : E → E → Prop} {block : List E} {line line' : Line E}
    (h : Step moves line line') (hfixed : ∀ x ∈ block, ∀ y, ¬moves x y)
    (htogether : Together block line) : Together block line' := by
  cases h with
  | join items =>
      rw [Together, Line.all] at htogether ⊢
      exact htogether.trans ⟨[], items, by simp⟩
  | @rejoin served front back x y hmoves =>
      rw [Together, Line.all] at htogether ⊢
      have hx : x ∉ block := fun hmem => hfixed x hmem y hmoves
      rw [← List.append_assoc] at htogether
      have hmoved := infix_of_moved hx htogether
      exact hmoved.trans ⟨[], [y], by simp⟩
  | serve =>
      rw [Together, Line.all] at htogether ⊢
      simpa using htogether

end Fifo

import Mathlib.Data.List.Basic

/-!
# Runs of a deterministic machine

A machine takes one input after another.  A condition on a state and its next input holds
along a run if it holds at each of its steps, and an invariant that every step keeps under
such a condition holds in every state of the run.
-/

namespace Trace

variable {σ ι : Type*}

/-- The state after the inputs. -/
def run (step : σ → ι → σ) (s : σ) (inputs : List ι) : σ :=
  inputs.foldl step s

/-- The condition holds at each step of the run. -/
def Always (step : σ → ι → σ) (P : σ → ι → Prop) : σ → List ι → Prop
  | _, [] => True
  | s, input :: inputs => P s input ∧ Always step P (step s input) inputs

instance Always.decidable {step : σ → ι → σ} {P : σ → ι → Prop}
    [∀ s input, Decidable (P s input)] (s : σ) (inputs : List ι) :
    Decidable (Always step P s inputs) :=
  match inputs with
  | [] => isTrue True.intro
  | input :: inputs =>
      have := @Always.decidable step P _ (step s input) inputs
      inferInstanceAs (Decidable (_ ∧ _))

section Run

variable {step : σ → ι → σ} {P Q : σ → ι → Prop} {s : σ}

@[simp] theorem run_nil : run step s [] = s :=
  List.foldl_nil

@[simp] theorem run_cons (input : ι) (inputs : List ι) :
    run step s (input :: inputs) = run step (step s input) inputs :=
  List.foldl_cons

theorem run_append (inputs more : List ι) :
    run step s (inputs ++ more) = run step (run step s inputs) more :=
  List.foldl_append

theorem always_append {inputs more : List ι} :
    Always step P s (inputs ++ more) ↔
      Always step P s inputs ∧ Always step P (run step s inputs) more := by
  induction inputs generalizing s with
  | nil => simp [Always]
  | cons input inputs ih =>
      rw [List.cons_append, Always, Always, run_cons, ih, and_assoc]

/-- What holds along a run holds at a step in the middle of it. -/
theorem Always.at {before after : List ι} {input : ι}
    (h : Always step P s (before ++ input :: after)) : P (run step s before) input :=
  (always_append.1 h).2.1

theorem Always.left {inputs more : List ι} (h : Always step P s (inputs ++ more)) :
    Always step P s inputs :=
  (always_append.1 h).1

/-- The state after a run under a condition. -/
theorem Always.invariant (Inv : σ → Prop) {inputs : List ι} (h : Always step P s inputs)
    (hstart : Inv s) (hstep : ∀ s input, Inv s → P s input → Inv (step s input)) :
    Inv (run step s inputs) := by
  induction inputs generalizing s with
  | nil => exact hstart
  | cons input inputs ih =>
      rw [run_cons]
      exact ih h.2 (hstep s input hstart h.1)

/-- What an invariant gives at each step. -/
theorem Always.of_invariant {Inv : σ → Prop} {inputs : List ι} (h : Always step P s inputs)
    (hstart : Inv s) (hstep : ∀ s input, Inv s → P s input → Inv (step s input))
    (hlocal : ∀ s input, Inv s → P s input → Q s input) : Always step Q s inputs := by
  induction inputs generalizing s with
  | nil => exact True.intro
  | cons input inputs ih =>
      exact ⟨hlocal s input hstart h.1, ih h.2 (hstep s input hstart h.1)⟩

end Run

end Trace

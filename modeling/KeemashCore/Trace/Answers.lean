import KeemashCore.Trace.Basic

/-!
# Runs that answer

Each step of the machine also gives an answer.  An input is inert after a run if putting it
there is not noticed later: no other answer changes, whatever follows, nor what is seen of
the last state.
-/

namespace Trace

variable {σ ι ω θ : Type*}

/-- The state after a step. -/
def next (step : σ → ι → σ × ω) (s : σ) (input : ι) : σ :=
  (step s input).1

/-- The answers along a run. -/
def answers (step : σ → ι → σ × ω) : σ → List ι → List ω
  | _, [] => []
  | s, input :: inputs => (step s input).2 :: answers step (step s input).1 inputs

/-- An input put between two others is not noticed by what is seen. -/
def Inert (step : σ → ι → σ × ω) (see : σ → θ) (s : σ) (before : List ι) (input : ι) : Prop :=
  ∀ after,
    (answers step s (before ++ input :: after)).eraseIdx before.length =
        answers step s (before ++ after) ∧
      see (run (next step) s (before ++ input :: after)) =
        see (run (next step) s (before ++ after))

section Answers

variable {step : σ → ι → σ × ω} {see : σ → θ} {s : σ} {before : List ι} {input : ι}

@[simp] theorem length_answers (s : σ) (inputs : List ι) :
    (answers step s inputs).length = inputs.length := by
  induction inputs generalizing s with
  | nil => rfl
  | cons input inputs ih => rw [answers, List.length_cons, List.length_cons, ih]

theorem answers_append (inputs more : List ι) :
    answers step s (inputs ++ more) =
      answers step s inputs ++ answers step (run (next step) s inputs) more := by
  induction inputs generalizing s with
  | nil => rfl
  | cons input inputs ih =>
      rw [List.cons_append, answers, answers, ih, run_cons, List.cons_append]
      rfl

/-- The other answers are those before the input and those after it. -/
theorem eraseIdx_answers (after : List ι) :
    (answers step s (before ++ input :: after)).eraseIdx before.length =
      answers step s before ++
        answers step (next step (run (next step) s before) input) after := by
  rw [answers_append, List.eraseIdx_append_of_length_le (Nat.le_of_eq (length_answers s before)),
    length_answers, Nat.sub_self]
  rfl

/-- An input that leaves the state alone is inert. -/
theorem inert_of_same
    (h : next step (run (next step) s before) input = run (next step) s before) :
    Inert step see s before input := by
  intro after
  rw [eraseIdx_answers, answers_append, run_append, run_append, run_cons, h]
  exact ⟨rfl, rfl⟩

/-- An inert input is not seen at once either. -/
theorem Inert.see_eq (h : Inert step see s before input) :
    see (next step (run (next step) s before) input) = see (run (next step) s before) := by
  have hnow := (h []).2
  rwa [run_append, run_append, run_cons, run_nil, run_nil] at hnow

end Answers

end Trace

import Mathlib.Logic.Basic

/-!
# Computations that can fail

`Keeps P x Q` says of a computation `x` with a state that it keeps the property `P` of
the state, whether it fails or not, and that its result satisfies `Q`.  There is a rule
for each way to put computations together, and an inversion for runs that succeed.

`Safe x Q` says of a computation that returns, fails or breaks off that it does not break
off, and that its result satisfies `Q`.
-/

namespace Effects

variable {ε σ α β : Type}

/-- What holds of a run that succeeds, and of one that fails. -/
def Outcome (P : σ → Prop) (Q : α → Prop) : EStateM.Result ε σ α → Prop
  | .ok a s => P s ∧ Q a
  | .error _ s => P s

def Keeps (P : σ → Prop) (x : EStateM ε σ α) (Q : α → Prop) : Prop :=
  ∀ s, P s → Outcome P Q (x s)

variable {P : σ → Prop} {Q : α → Prop} {R : β → Prop}

theorem keeps_pure {a : α} (h : Q a) : Keeps P (pure a : EStateM ε σ α) Q :=
  fun _ hs => ⟨hs, h⟩

theorem keeps_throw (err : ε) : Keeps P (throw err : EStateM ε σ α) Q :=
  fun _ hs => hs

theorem Keeps.bind {x : EStateM ε σ α} {f : α → EStateM ε σ β} (hx : Keeps P x Q)
    (hf : ∀ a, Q a → Keeps P (f a) R) : Keeps P (x >>= f) R := by
  intro s hs
  have hrun := hx s hs
  change Outcome P R (EStateM.bind x f s)
  rw [EStateM.bind]
  cases hres : x s with
  | ok a s' =>
      rw [hres] at hrun
      exact hf a hrun.2 s' hrun.1
  | error err s' =>
      rw [hres] at hrun
      exact hrun

theorem Keeps.mono {x : EStateM ε σ α} {Q' : α → Prop} (hx : Keeps P x Q)
    (h : ∀ a, Q a → Q' a) : Keeps P x Q' := by
  intro s hs
  have hrun := hx s hs
  cases hres : x s with
  | ok a s' =>
      rw [hres] at hrun
      exact ⟨hrun.1, h a hrun.2⟩
  | error err s' =>
      rw [hres] at hrun
      exact hrun

/-- Each step of a fold keeps the property of the state and of what is folded. -/
theorem keeps_foldlM {f : β → α → EStateM ε σ β} {xs : List α}
    (hf : ∀ b, R b → ∀ a, Keeps P (f b a) R) {b : β} (hb : R b) :
    Keeps P (xs.foldlM f b) R := by
  induction xs generalizing b with
  | nil => exact keeps_pure hb
  | cons x xs ih =>
      rw [List.foldlM_cons]
      exact (hf b hb x).bind fun b' hb' => ih hb'

/-- A sequence that succeeds goes through a success of its first part. -/
theorem bind_ok {x : EStateM ε σ α} {f : α → EStateM ε σ β} {s s' : σ} {b : β}
    (h : (x >>= f) s = .ok b s') : ∃ a s₁, x s = .ok a s₁ ∧ f a s₁ = .ok b s' := by
  change EStateM.bind x f s = .ok b s' at h
  rw [EStateM.bind] at h
  cases hres : x s with
  | ok a s₁ =>
      rw [hres] at h
      exact ⟨a, s₁, rfl, h⟩
  | error err s₁ =>
      rw [hres] at h
      cases h

theorem bind_eq {x : EStateM ε σ α} {f : α → EStateM ε σ β} {s s₁ : σ} {a : α}
    (h : x s = .ok a s₁) : (x >>= f) s = f a s₁ := by
  change EStateM.bind x f s = f a s₁
  rw [EStateM.bind, h]

theorem pure_ok {a b : α} {s s' : σ} (h : (pure a : EStateM ε σ α) s = .ok b s') :
    a = b ∧ s = s' := by
  cases h
  exact ⟨rfl, rfl⟩

theorem throw_ok {err : ε} {b : α} {s s' : σ}
    (h : (throw err : EStateM ε σ α) s = .ok b s') : False := by
  cases h

/-! ## Computations that can break off -/

/-- The computation returns a value that satisfies `Q`, or fails. -/
def Safe (x : ExceptT ε Option α) (Q : α → Prop) : Prop :=
  match x.run with
  | none => False
  | some (.error _) => True
  | some (.ok a) => Q a

theorem safe_pure {a : α} (h : Q a) : Safe (pure a : ExceptT ε Option α) Q :=
  h

theorem safe_throw (err : ε) : Safe (throw err : ExceptT ε Option α) Q :=
  trivial

theorem Safe.bind {x : ExceptT ε Option α} {f : α → ExceptT ε Option β} (hx : Safe x Q)
    (hf : ∀ a, Q a → Safe (f a) R) : Safe (x >>= f) R := by
  rw [Safe] at hx
  rw [Safe, ExceptT.run_bind]
  cases hrun : x.run with
  | none =>
      rw [hrun] at hx
      exact hx
  | some result =>
      rw [hrun] at hx
      cases result with
      | error err => exact trivial
      | ok a => exact hf a hx

theorem Safe.mono {x : ExceptT ε Option α} {Q' : α → Prop} (hx : Safe x Q)
    (h : ∀ a, Q a → Q' a) : Safe x Q' := by
  rw [Safe] at hx ⊢
  cases hrun : x.run with
  | none =>
      rw [hrun] at hx
      exact hx
  | some result =>
      rw [hrun] at hx
      cases result with
      | error err => exact trivial
      | ok a => exact h a hx

theorem Safe.not_none {x : ExceptT ε Option α} (h : Safe x Q) : x.run ≠ none := by
  intro hrun
  rw [Safe, hrun] at h
  exact h

theorem Safe.of_ok {x : ExceptT ε Option α} (h : Safe x Q) {a : α}
    (hrun : x.run = some (.ok a)) : Q a := by
  rw [Safe, hrun] at h
  exact h

/-- A sequence that returns goes through what its first part returns. -/
theorem bind_eq_pure {x : ExceptT ε Option α} {f : α → ExceptT ε Option β} {b : β}
    (h : x >>= f = pure b) : ∃ a, x = pure a ∧ f a = pure b := by
  have hrun : (x >>= f).run = some (.ok b) := h
  rw [ExceptT.run_bind] at hrun
  cases hx : x.run with
  | none =>
      rw [hx] at hrun
      cases hrun
  | some result =>
      rw [hx] at hrun
      cases result with
      | error err => cases hrun
      | ok a => exact ⟨a, hx, hrun⟩

theorem eq_of_pure_eq {a b : α} (h : (pure a : ExceptT ε Option α) = pure b) : a = b := by
  have hrun : some (Except.ok a : Except ε α) = some (.ok b) := h
  cases hrun
  rfl

theorem throw_ne_pure {err : ε} {a : α} :
    (throw err : ExceptT ε Option α) ≠ pure a := by
  intro h
  have hrun : some (Except.error err : Except ε α) = some (.ok a) := h
  cases hrun

end Effects

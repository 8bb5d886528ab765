import Mathlib.Data.Nat.Dist

/-!
# Integer smoothing of a mean and a deviation

A running mean keeps `w` parts of the old value for one part of the new one, rounded
down.  The deviation is smoothed in the same way, from the distance of each sample to the
mean before it.  A mean of zero stands for "no sample yet".
-/

namespace Smoothing

/-- The running mean with weight `w` on the old value. -/
def average (w old new : ℕ) : ℕ :=
  (w * old + new) / (w + 1)

section Average

variable {w old new bound : ℕ}

theorem average_le (hold : old ≤ bound) (hnew : new ≤ bound) : average w old new ≤ bound := by
  apply Nat.div_le_of_le_mul
  calc
    w * old + new ≤ w * bound + bound := add_le_add (Nat.mul_le_mul_left w hold) hnew
    _ = (w + 1) * bound := (Nat.succ_mul w bound).symm

theorem le_average (hold : bound ≤ old) (hnew : bound ≤ new) : bound ≤ average w old new := by
  apply (Nat.le_div_iff_mul_le (Nat.succ_pos w)).2
  calc
    bound * (w + 1) = w * bound + bound := by rw [Nat.mul_succ, Nat.mul_comm]
    _ ≤ w * old + new := add_le_add (Nat.mul_le_mul_left w hold) hnew

end Average

/-- A smoothed mean and a smoothed deviation from it. -/
structure Estimate where
  mean : ℕ
  deviation : ℕ
  deriving DecidableEq, Repr

namespace Estimate

/-- Take in one sample; the first sets the mean, and half of itself as the deviation. -/
def update (wmean wdev : ℕ) (e : Estimate) (sample : ℕ) : Estimate :=
  if e.mean = 0 then ⟨sample, sample / 2⟩
  else ⟨average wmean e.mean sample, average wdev e.deviation (Nat.dist e.mean sample)⟩

/-- Mean and deviation do not exceed the bound. -/
structure Within (bound : ℕ) (e : Estimate) : Prop where
  mean_le : e.mean ≤ bound
  deviation_le : e.deviation ≤ bound

section Update

variable {wmean wdev bound sample : ℕ} {e : Estimate}

theorem dist_le {a b : ℕ} (ha : a ≤ bound) (hb : b ≤ bound) : Nat.dist a b ≤ bound := by
  rw [Nat.dist]
  omega

theorem Within.update (h : Within bound e) (hsample : sample ≤ bound) :
    Within bound (e.update wmean wdev sample) := by
  rw [Estimate.update]
  by_cases hzero : e.mean = 0
  · rw [if_pos hzero]
    exact ⟨hsample, (Nat.div_le_self sample 2).trans hsample⟩
  · rw [if_neg hzero]
    refine ⟨?_, ?_⟩
    · exact average_le h.mean_le hsample
    · exact average_le h.deviation_le (dist_le h.mean_le hsample)

theorem update_mean_pos (hsample : 0 < sample) : 0 < (e.update wmean wdev sample).mean := by
  rw [Estimate.update]
  by_cases hzero : e.mean = 0
  · rw [if_pos hzero]
    exact hsample
  · rw [if_neg hzero]
    have hmean : 1 ≤ e.mean := Nat.one_le_iff_ne_zero.2 hzero
    exact le_average hmean hsample

end Update

end Estimate

end Smoothing

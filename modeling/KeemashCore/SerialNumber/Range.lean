import KeemashCore.SerialNumber.Basic
import Mathlib.Data.List.Range

/-!
# The numbers of a range

`upTo a b` lists the numbers from `a` up to `b`, which may pass zero.  Two ranges that
follow one another are one range as long as they are together no longer than a round.
-/

namespace SerialNumber

variable {w : ℕ}

/-- `n` numbers from `a` on. -/
def steps (a : BitVec w) (n : ℕ) : List (BitVec w) :=
  (List.range n).map fun i => a + BitVec.ofNat w i

/-- The numbers from `a` up to `b`. -/
def upTo (a b : BitVec w) : List (BitVec w) :=
  steps a ((b - a).toNat + 1)

theorem steps_add (a : BitVec w) (m n : ℕ) :
    steps a (m + n) = steps a m ++ steps (a + BitVec.ofNat w m) n := by
  rw [steps, List.range_add, List.map_append, List.map_map, steps, steps]
  refine congrArg _ (List.map_congr_left ?_)
  intro i _
  rw [Function.comp_apply, BitVec.ofNat_add, BitVec.add_assoc]

theorem steps_one (a : BitVec w) : steps a 1 = [a] := by
  simp [steps]

@[simp] theorem upTo_self (a : BitVec w) : upTo a a = [a] := by
  rw [upTo, BitVec.sub_self]
  exact steps_one a

theorem mem_upTo {a b x : BitVec w} : x ∈ upTo a b ↔ Between a b x := by
  rw [upTo, steps, List.mem_map, Between, BitVec.le_def]
  constructor
  · rintro ⟨i, hi, rfl⟩
    have hle : i ≤ (b - a).toNat := Nat.le_of_lt_succ (List.mem_range.1 hi)
    have hdiff : a + BitVec.ofNat w i - a = BitVec.ofNat w i := by
      rw [BitVec.add_comm, BitVec.add_sub_cancel]
    rw [hdiff, BitVec.toNat_ofNat]
    exact (Nat.mod_le i _).trans hle
  · intro hle
    refine ⟨(x - a).toNat, List.mem_range.2 (Nat.lt_succ_of_le hle), ?_⟩
    rw [BitVec.ofNat_toNat, BitVec.setWidth_eq, BitVec.add_comm, BitVec.sub_add_cancel]

/-- No number comes twice. -/
theorem nodup_upTo (a b : BitVec w) : (upTo a b).Nodup := by
  have hlt := (b - a).isLt
  apply List.Nodup.map_on _ List.nodup_range
  intro i hi j hj heq
  have hi' : i < 2 ^ w := by
    have := List.mem_range.1 hi
    omega
  have hj' : j < 2 ^ w := by
    have := List.mem_range.1 hj
    omega
  have hofNat := congrArg BitVec.toNat (add_left_cancel heq)
  rwa [BitVec.toNat_ofNat, BitVec.toNat_ofNat, Nat.mod_eq_of_lt hi', Nat.mod_eq_of_lt hj']
    at hofNat

/-- Distances add up within a round. -/
theorem toNat_sub_trans {a b c : BitVec w}
    (h : (b - a).toNat + (c - b).toNat < 2 ^ w) :
    (c - a).toNat = (b - a).toNat + (c - b).toNat := by
  have hsum : c - a = b - a + (c - b) := by
    rw [BitVec.add_comm, sub_add_sub_cancel]
  rw [hsum, BitVec.toNat_add, Nat.mod_eq_of_lt h]

/-- A range is followed by the numbers after it. -/
theorem upTo_append {a b c : BitVec w} (hne : b ≠ c)
    (h : (b - a).toNat + (c - b).toNat < 2 ^ w) :
    upTo a b ++ upTo (b + 1) c = upTo a c := by
  have hnext : (c - (b + 1)).toNat + 1 = (c - b).toNat := by
    simpa only [gap] using gap_add_one hne
  have hstart : a + BitVec.ofNat w ((b - a).toNat + 1) = b + 1 := by
    rw [BitVec.ofNat_add, BitVec.ofNat_toNat, BitVec.setWidth_eq, ← BitVec.add_assoc,
      BitVec.add_comm a, BitVec.sub_add_cancel]
    rfl
  calc
    upTo a b ++ upTo (b + 1) c = steps a ((b - a).toNat + 1 + ((c - (b + 1)).toNat + 1)) := by
      rw [steps_add, hstart]
      rfl
    _ = upTo a c := by
      rw [hnext, upTo, toNat_sub_trans h]
      congr 1
      omega

theorem upTo_eq_cons {a b : BitVec w} (hne : a ≠ b) : upTo a b = a :: upTo (a + 1) b := by
  have hlt := (b - a).isLt
  rw [← upTo_append hne, upTo_self, List.singleton_append]
  rw [BitVec.sub_self, BitVec.toNat_zero]
  omega

/-- What comes after the first number of a range continues the range before it. -/
theorem upTo_trans {a b c : BitVec w} (h : (b - a).toNat + (c - b).toNat < 2 ^ w) :
    upTo a c = upTo a b ++ (upTo b c).tail := by
  by_cases hne : b = c
  · rw [hne, upTo_self, List.tail_cons, List.append_nil]
  · rw [← upTo_append hne h, upTo_eq_cons hne, List.tail_cons]

end SerialNumber

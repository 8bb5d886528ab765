import Mathlib.Data.List.GetD
import Mathlib.Logic.Function.Iterate

/-!
# Cyclic redundancy checks

A register takes in a message bit by bit, and is reduced by a generator whose leading term
is left out.  A generator with a constant term makes each step injective in the register,
and bits that fit into the register are all still there once they are in it.  Two messages
that differ in a burst no longer than the register therefore leave different registers.
-/

namespace Crc

variable {w : ℕ} {poly : BitVec w}

/-! ## The register -/

/-- The register moved up by a bit and reduced. -/
def step (poly reg : BitVec w) : BitVec w :=
  if reg.msb then (reg <<< 1) ^^^ poly else reg <<< 1

/-- A bit at the top of a register. -/
def top (w : ℕ) (bit : Bool) : BitVec w :=
  if bit then BitVec.twoPow w (w - 1) else 0

def feed (poly reg : BitVec w) (bit : Bool) : BitVec w :=
  step poly (reg ^^^ top w bit)

/-- The register after a message. -/
def register (poly reg : BitVec w) (bits : List Bool) : BitVec w :=
  bits.foldl (feed poly) reg

theorem register_append (reg : BitVec w) (bits more : List Bool) :
    register poly reg (bits ++ more) = register poly (register poly reg bits) more :=
  List.foldl_append

/-! ## Steps are linear and injective -/

theorem xor_xor_cancel (a b c : BitVec w) : a ^^^ c ^^^ (b ^^^ c) = a ^^^ b := by
  rw [BitVec.xor_assoc, BitVec.xor_comm b c, ← BitVec.xor_assoc c c b, BitVec.xor_self,
    BitVec.zero_xor]

theorem step_xor (a b : BitVec w) : step poly (a ^^^ b) = step poly a ^^^ step poly b := by
  rw [step, step, step, BitVec.msb_xor, BitVec.shiftLeft_xor_distrib]
  cases ha : a.msb with
  | false =>
      cases hb : b.msb with
      | false => rfl
      | true => exact BitVec.xor_assoc _ _ _
  | true =>
      cases hb : b.msb with
      | false =>
          change (a <<< 1 ^^^ b <<< 1) ^^^ poly = (a <<< 1 ^^^ poly) ^^^ b <<< 1
          rw [BitVec.xor_assoc, BitVec.xor_comm (b <<< 1), ← BitVec.xor_assoc]
      | true => exact (xor_xor_cancel _ _ _).symm

theorem iterate_step_xor (n : ℕ) (a b : BitVec w) :
    (step poly)^[n] (a ^^^ b) = (step poly)^[n] a ^^^ (step poly)^[n] b := by
  induction n generalizing a b with
  | zero => rfl
  | succ n ih =>
      rw [Function.iterate_succ_apply, Function.iterate_succ_apply, Function.iterate_succ_apply,
        step_xor, ih]

/-- The constant term of the generator shows which bit has left the register. -/
theorem getLsbD_step (hpoly : poly.getLsbD 0 = true) (reg : BitVec w) :
    (step poly reg).getLsbD 0 = reg.msb := by
  rw [step]
  cases reg.msb with
  | false => simp
  | true => simp [hpoly]

theorem step_injective (hpoly : poly.getLsbD 0 = true) : Function.Injective (step poly) := by
  intro a b h
  have hmsb : a.msb = b.msb := by
    rw [← getLsbD_step hpoly a, h, getLsbD_step hpoly b]
  have hshift : a <<< 1 = b <<< 1 := by
    rw [step, step, hmsb] at h
    split at h
    · exact (BitVec.xor_left_inj _).1 h
    · exact h
  -- The top bits agree, and each other bit stands one place higher after the shift.
  apply BitVec.eq_of_getLsbD_eq
  intro i hi
  by_cases hlast : i + 1 = w
  · rw [BitVec.msb_eq_getLsbD_last, BitVec.msb_eq_getLsbD_last] at hmsb
    have hplace : w - 1 = i := by omega
    rwa [hplace] at hmsb
  · have hbit := congrArg (fun reg => reg.getLsbD (i + 1)) hshift
    have hlt : i + 1 < w := by omega
    rw [BitVec.getLsbD_shiftLeft, BitVec.getLsbD_shiftLeft] at hbit
    simpa only [hlt, decide_true, Bool.true_and, Nat.not_lt.2 (Nat.le_add_left 1 i),
      decide_false, Bool.not_false, Nat.add_sub_cancel] using hbit

theorem iterate_step_injective (hpoly : poly.getLsbD 0 = true) (n : ℕ) :
    Function.Injective (step poly)^[n] :=
  (step_injective hpoly).iterate n

/-- The same bits keep different registers apart. -/
theorem register_injective (hpoly : poly.getLsbD 0 = true) (bits : List Bool) :
    Function.Injective fun reg => register poly reg bits := by
  induction bits with
  | nil => exact fun _ _ h => h
  | cons bit bits ih =>
      intro a b h
      have hfed : feed poly a bit = feed poly b bit := ih h
      exact (BitVec.xor_left_inj _).1 (step_injective hpoly hfed)

/-! ## Bits that fit into the register -/

/-- The bits from the top of a register on. -/
def load (w : ℕ) : List Bool → BitVec w
  | [] => 0
  | bit :: bits => top w bit ^^^ (load w bits >>> 1)

theorem getMsbD_top {bit : Bool} {i : ℕ} (hi : i < w) :
    (top w bit).getMsbD i = (bit && decide (i = 0)) := by
  have hlast : w - (w - 1) - 1 = 0 := by omega
  have hlt : w - 1 < w := by omega
  cases bit with
  | false => simp [top]
  | true =>
      rw [top, if_pos rfl, BitVec.getMsbD_twoPow, hlast]
      simp [hlt]

theorem getMsbD_load {bits : List Bool} {i : ℕ} (hi : i < w) :
    (load w bits).getMsbD i = bits.getD i false := by
  induction bits generalizing i with
  | nil => simp [load]
  | cons bit bits ih =>
      rw [load, BitVec.getMsbD_xor, BitVec.getMsbD_ushiftRight, getMsbD_top hi]
      cases i with
      | zero => simp
      | succ i =>
          rw [Nat.add_sub_cancel, ih (Nat.lt_of_succ_lt hi)]
          simp [hi]

/-- Bits of one number are all in the register. -/
theorem load_injective {xs ys : List Bool} (hlength : xs.length = ys.length)
    (hfits : xs.length ≤ w) (h : load w xs = load w ys) : xs = ys := by
  refine List.ext_getElem hlength fun i hx hy => ?_
  have hbit := congrArg (fun reg => reg.getMsbD i) h
  rw [getMsbD_load (by omega), getMsbD_load (by omega)] at hbit
  rwa [List.getD_eq_getElem _ _ hx, List.getD_eq_getElem _ _ hy] at hbit

/-- Nothing leaves the register when it was moved down by a bit before. -/
theorem step_ushiftRight {reg : BitVec w} (hlow : reg.getLsbD 0 = false) :
    step poly (reg >>> 1) = reg := by
  have hmsb : (reg >>> 1).msb = false := by
    rw [BitVec.msb_ushiftRight]
    rfl
  rw [step, hmsb]
  apply BitVec.eq_of_getLsbD_eq
  intro i hi
  change ((reg >>> 1) <<< 1).getLsbD i = reg.getLsbD i
  rw [BitVec.getLsbD_shiftLeft, BitVec.getLsbD_ushiftRight]
  cases i with
  | zero => simp [hlow]
  | succ i =>
      rw [Nat.add_sub_cancel, Nat.add_comm 1 i]
      simp [hi]

/-- Feeding bits that fit is loading them at once. -/
theorem register_eq_iterate {bits : List Bool} (hfits : bits.length ≤ w) (reg : BitVec w) :
    register poly reg bits = (step poly)^[bits.length] (reg ^^^ load w bits) := by
  induction bits generalizing reg with
  | nil => exact (BitVec.xor_zero).symm
  | cons bit bits ih =>
      rw [List.length_cons] at hfits
      have hlow : (load w bits).getLsbD 0 = false := by
        rw [BitVec.getLsbD_eq_getMsbD, getMsbD_load (by omega),
          List.getD_eq_default _ _ (by omega)]
        exact Bool.and_false _
      calc
        register poly reg (bit :: bits) = register poly (feed poly reg bit) bits := rfl
        _ = (step poly)^[bits.length] (step poly (reg ^^^ top w bit) ^^^ load w bits) :=
          ih (by omega) _
        _ = (step poly)^[bits.length]
            (step poly (reg ^^^ top w bit) ^^^ step poly (load w bits >>> 1)) := by
          rw [step_ushiftRight hlow]
        _ = (step poly)^[bits.length + 1] (reg ^^^ load w (bit :: bits)) := by
          rw [← step_xor, BitVec.xor_assoc]
          rfl

/-! ## Bursts -/

/-- Two messages that differ, but only inside `w` bits in a row. -/
structure Burst (w : ℕ) (xs ys : List Bool) : Prop where
  length_eq : xs.length = ys.length
  ne : xs ≠ ys
  within : ∃ start, ∀ i, xs[i]? ≠ ys[i]? → start ≤ i ∧ i < start + w

/-- Only the places of the messages have to be looked at. -/
theorem burst_of_lt {xs ys : List Bool} (start : ℕ) (hlength : xs.length = ys.length)
    (hne : xs ≠ ys)
    (h : ∀ i < xs.length, xs[i]? ≠ ys[i]? → start ≤ i ∧ i < start + w) : Burst w xs ys where
  length_eq := hlength
  ne := hne
  within := by
    refine ⟨start, fun i hdiffers => ?_⟩
    by_cases hi : i < xs.length
    · exact h i hi hdiffers
    · refine absurd ?_ hdiffers
      rw [List.getElem?_eq_none (Nat.le_of_not_lt hi), List.getElem?_eq_none (by omega)]

/-- The messages agree in front of the burst and behind it. -/
theorem Burst.split {xs ys : List Bool} (h : Burst w xs ys) :
    ∃ front mid mid' back, xs = front ++ mid ++ back ∧ ys = front ++ mid' ++ back ∧
      mid.length = mid'.length ∧ mid.length ≤ w ∧ mid ≠ mid' := by
  obtain ⟨start, hwithin⟩ := h.within
  have hfront : xs.take start = ys.take start := by
    refine List.ext_getElem? fun i => ?_
    rw [List.getElem?_take, List.getElem?_take]
    split
    · next hi =>
        by_contra hne
        exact absurd (hwithin i hne).1 (Nat.not_le_of_gt hi)
    · rfl
  have hback : xs.drop (start + w) = ys.drop (start + w) := by
    refine List.ext_getElem? fun i => ?_
    rw [List.getElem?_drop, List.getElem?_drop]
    by_contra hne
    have hlt := (hwithin _ hne).2
    omega
  have hparts (bits : List Bool) :
      bits = bits.take start ++ (bits.drop start).take w ++ bits.drop (start + w) := by
    rw [← List.drop_drop, List.append_assoc, List.take_append_drop, List.take_append_drop]
  refine ⟨xs.take start, (xs.drop start).take w, (ys.drop start).take w,
    xs.drop (start + w), hparts xs, ?_, ?_, List.length_take_le _ _, fun hmid => h.ne ?_⟩
  · rw [hfront, hback]
    exact hparts ys
  · rw [List.length_take, List.length_take, List.length_drop, List.length_drop, h.length_eq]
  · rw [hparts xs, hparts ys, hfront, hback, hmid]

/-- A burst that is no longer than the register is seen. -/
theorem register_ne_of_burst (hpoly : poly.getLsbD 0 = true) (reg : BitVec w)
    {xs ys : List Bool} (h : Burst w xs ys) : register poly reg xs ≠ register poly reg ys := by
  obtain ⟨front, mid, mid', back, rfl, rfl, hlength, hfits, hne⟩ := h.split
  intro heq
  rw [register_append, register_append, register_append, register_append] at heq
  have hmid := register_injective hpoly back heq
  have hfits' : mid'.length ≤ w := by omega
  rw [register_eq_iterate hfits, register_eq_iterate hfits', ← hlength] at hmid
  have hload := (BitVec.xor_right_inj _).1 (iterate_step_injective hpoly _ hmid)
  exact hne (load_injective hlength hfits hload)

end Crc

import Mathlib.Data.Nat.Bits
import Mathlib.Data.List.Basic
import Mathlib.Tactic.Ring

/-!
# Numbers as bytes

The little-endian bytes of a number and the number of a list of bytes, and the
same for machine words that are put together with shifts.
-/

namespace KeemashCore.LittleEndian

/-! ## Numbers -/

/-- The lowest `n` bytes of a number, the lowest first. -/
def bytesOf : ℕ → ℕ → List UInt8
  | 0, _ => []
  | n + 1, value => UInt8.ofNat value :: bytesOf n (value / 256)

/-- The number that bytes stand for, the lowest first. -/
def valueOf : List UInt8 → ℕ
  | [] => 0
  | byte :: bytes => byte.toNat + 256 * valueOf bytes

@[simp] theorem length_bytesOf (n value : ℕ) : (bytesOf n value).length = n := by
  induction n generalizing value with
  | zero => rfl
  | succ n ih => rw [bytesOf, List.length_cons, ih]

theorem valueOf_lt (bytes : List UInt8) : valueOf bytes < 256 ^ bytes.length := by
  induction bytes with
  | nil => simp [valueOf]
  | cons byte bytes ih =>
      have hbyte := byte.toNat_lt
      rw [valueOf, List.length_cons, Nat.pow_succ]
      omega

theorem valueOf_bytesOf (n value : ℕ) : valueOf (bytesOf n value) = value % 256 ^ n := by
  induction n generalizing value with
  | zero => simp [bytesOf, valueOf, Nat.mod_one]
  | succ n ih =>
      rw [bytesOf, valueOf, ih, Nat.pow_succ', Nat.mod_mul]
      simp

theorem bytesOf_valueOf (bytes : List UInt8) : bytesOf bytes.length (valueOf bytes) = bytes := by
  induction bytes with
  | nil => rfl
  | cons byte bytes ih =>
      have hbyte := byte.toNat_lt
      have hlow : UInt8.ofNat (byte.toNat + 256 * valueOf bytes) = byte := by
        apply UInt8.toNat_inj.mp
        rw [UInt8.toNat_ofNat']
        omega
      have hrest : (byte.toNat + 256 * valueOf bytes) / 256 = valueOf bytes := by omega
      rw [List.length_cons, valueOf, bytesOf, hlow, hrest, ih]

theorem valueOf_append (bytes more : List UInt8) :
    valueOf (bytes ++ more) = valueOf bytes + 256 ^ bytes.length * valueOf more := by
  induction bytes with
  | nil => simp [valueOf]
  | cons byte bytes ih =>
      rw [List.cons_append, valueOf, valueOf, ih, List.length_cons, Nat.pow_succ]
      ring

/-- The bytes of a number one by one. -/
theorem bytesOf_eq_map (n value : ℕ) :
    bytesOf n value = (List.range n).map fun i => UInt8.ofNat (value / 256 ^ i) := by
  induction n generalizing value with
  | zero => rfl
  | succ n ih =>
      rw [bytesOf, ih, List.range_succ_eq_map, List.map_cons, List.map_map]
      refine congrArg₂ List.cons (by simp) (List.map_congr_left fun i _ => ?_)
      simp only [Function.comp_apply, Nat.pow_succ', ← Nat.div_div_eq_div_mul]

/-! ## Words -/

/-- The bytes of a word of `8 * n` bits. -/
def toLeBytes {w : ℕ} (n : ℕ) (word : BitVec w) : List UInt8 :=
  bytesOf n word.toNat

/-- The word of `w` bits that bytes stand for. -/
def fromLeBytes (w : ℕ) (bytes : List UInt8) : BitVec w :=
  BitVec.ofNat w (valueOf bytes)

@[simp] theorem length_toLeBytes {w : ℕ} (n : ℕ) (word : BitVec w) :
    (toLeBytes n word).length = n :=
  length_bytesOf n _

theorem fromLeBytes_toLeBytes {n : ℕ} (word : BitVec (8 * n)) :
    fromLeBytes (8 * n) (toLeBytes n word) = word := by
  have hlt : word.toNat < 256 ^ n := by
    have hword := word.isLt
    rwa [Nat.pow_mul] at hword
  rw [fromLeBytes, toLeBytes, valueOf_bytesOf, Nat.mod_eq_of_lt hlt, BitVec.ofNat_toNat,
    BitVec.setWidth_eq]

theorem toLeBytes_fromLeBytes {n : ℕ} {bytes : List UInt8} (h : bytes.length = n) :
    toLeBytes n (fromLeBytes (8 * n) bytes) = bytes := by
  have hlt : valueOf bytes < 2 ^ (8 * n) := by
    have hvalue := valueOf_lt bytes
    rwa [h, show 256 = 2 ^ 8 from rfl, ← Nat.pow_mul] at hvalue
  rw [toLeBytes, fromLeBytes, BitVec.toNat_ofNat, Nat.mod_eq_of_lt hlt, ← h, bytesOf_valueOf]

/-- The bytes that shifts and truncation give. -/
theorem map_shift_eq {w : ℕ} (n : ℕ) (word : BitVec w) :
    ((List.range n).map fun i => UInt8.ofBitVec ((word >>> (8 * i)).setWidth 8)) =
      toLeBytes n word := by
  rw [toLeBytes, bytesOf_eq_map]
  refine List.map_congr_left fun i _ => ?_
  apply UInt8.toNat_inj.mp
  rw [UInt8.toNat_ofBitVec, BitVec.toNat_setWidth, BitVec.toNat_ushiftRight,
    UInt8.toNat_ofNat', Nat.shiftRight_eq_div_pow, Nat.pow_mul]

/-- The word that shifts and disjunctions put together. -/
theorem foldl_shift_eq {w n : ℕ} {bytes : List UInt8} (hn : n ≤ bytes.length)
    (hw : 8 * n ≤ w) :
    ((List.range n).foldl
        (fun word i => word ||| ((bytes.getD i 0).toBitVec.setWidth w <<< (8 * i)))
        (0 : BitVec w)) = fromLeBytes w (bytes.take n) := by
  induction n with
  | zero => simp [fromLeBytes, valueOf]
  | succ n ih =>
      have hlt : n < bytes.length := hn
      rw [List.range_succ, List.foldl_append, List.foldl_cons, List.foldl_nil,
        ih (by omega) (by omega), List.take_succ_eq_append_getElem hlt]
      have hget : bytes.getD n 0 = bytes[n] := by
        rw [List.getD_eq_getElem?_getD, List.getElem?_eq_getElem hlt, Option.getD_some]
      have hlow := valueOf_lt (bytes.take n)
      rw [List.length_take_of_le (by omega), show 256 = 2 ^ 8 from rfl, ← Nat.pow_mul] at hlow
      have hbyte := bytes[n].toNat_lt
      have hle : 2 ^ (8 * n) * 2 ^ 8 ≤ 2 ^ w := by
        rw [← Nat.pow_add]
        exact Nat.pow_le_pow_right (by decide) (by omega)
      apply BitVec.eq_of_toNat_eq
      rw [hget, fromLeBytes, fromLeBytes, valueOf_append, List.length_take_of_le (by omega)]
      simp only [BitVec.toNat_or, BitVec.toNat_shiftLeft, BitVec.toNat_setWidth,
        BitVec.toNat_ofNat, valueOf, Nat.mul_zero, Nat.add_zero, UInt8.toNat_toBitVec]
      have hpow : 256 ^ n = 2 ^ (8 * n) := by rw [Nat.pow_mul]
      have hhigh : 2 ^ (8 * n) * bytes[n].toNat + valueOf (bytes.take n) < 2 ^ w := by
        have hmul : 2 ^ (8 * n) * (bytes[n].toNat + 1) ≤ 2 ^ (8 * n) * 2 ^ 8 :=
          Nat.mul_le_mul_left _ hbyte
        rw [Nat.mul_add, Nat.mul_one] at hmul
        omega
      have hone : 1 ≤ 2 ^ (8 * n) := Nat.one_le_two_pow
      have hsmall : bytes[n].toNat < 2 ^ w := by
        have hmul : 1 * bytes[n].toNat ≤ 2 ^ (8 * n) * bytes[n].toNat :=
          Nat.mul_le_mul_right _ hone
        omega
      rw [hpow, Nat.mod_eq_of_lt (by omega), Nat.mod_eq_of_lt hsmall, Nat.shiftLeft_eq,
        Nat.mul_comm bytes[n].toNat, Nat.mod_eq_of_lt (by omega),
        Nat.add_comm (valueOf _), Nat.mod_eq_of_lt hhigh, Nat.or_comm,
        Nat.two_pow_add_eq_or_of_lt hlow]

end KeemashCore.LittleEndian

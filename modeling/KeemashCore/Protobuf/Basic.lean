import KeemashCore.LittleEndian.Basic
import Mathlib.Data.Nat.Log

/-!
# The protobuf wire format

An encoded message is the sequence of the fields that are present: a key made of the
number of the field and a wire type, and a value.  This file says how such a sequence is
written and bounds how long it gets.

A field with implicit presence is left out at its default, an optional one when it is not
set.  The member of a `oneof` that is set is written whatever it holds.
-/

namespace KeemashCore.Protobuf

/-! ## Numbers -/

/-- A number in groups of seven bits, lowest first; every byte but the last carries the
continuation bit. -/
def varint (n : ℕ) : List UInt8 :=
  if n < 128 then [UInt8.ofNat n]
  else UInt8.ofNat (n % 128 + 128) :: varint (n / 128)

theorem length_varint (n : ℕ) : (varint n).length = Nat.log 128 n + 1 := by
  induction n using Nat.strong_induction_on with
  | _ n ih =>
      rw [varint]
      by_cases h : n < 128
      · rw [if_pos h, Nat.log_of_lt h]
        rfl
      · rw [if_neg h, List.length_cons, ih (n / 128) (by omega), Nat.log_div_base]
        have hpos : 0 < Nat.log 128 n := Nat.log_pos (by decide) (by omega)
        omega

theorem length_varint_mono {m n : ℕ} (h : m ≤ n) : (varint m).length ≤ (varint n).length := by
  rw [length_varint, length_varint]
  exact Nat.add_le_add_right (Nat.log_mono_right h) 1

theorem length_varint_le {n k : ℕ} (hk : k ≠ 0) (h : n < 128 ^ k) : (varint n).length ≤ k := by
  rw [length_varint]
  exact Nat.log_lt_of_lt_pow' hk h

/-! ## Fields -/

/-- A value as the wire carries it. -/
inductive Value where
  | varint (n : ℕ)
  | fixed64 (n : BitVec 64)
  | delimited (bytes : List UInt8)

def Value.wireType : Value → ℕ
  | .varint _ => 0
  | .fixed64 _ => 1
  | .delimited _ => 2

def Value.encode : Value → List UInt8
  | .varint n => Protobuf.varint n
  | .fixed64 n => LittleEndian.toLeBytes 8 n
  | .delimited bytes => Protobuf.varint bytes.length ++ bytes

/-- A field that is present. -/
structure Field where
  number : ℕ
  value : Value

def Field.encode (field : Field) : List UInt8 :=
  varint (8 * field.number + field.value.wireType) ++ field.value.encode

/-- The encoding of a message, given its fields in order. -/
def encode (fields : List Field) : List UInt8 :=
  fields.flatMap Field.encode

/-- How many bytes the encoding of a message takes. -/
def size (fields : List Field) : ℕ :=
  (encode fields).length

/-! ## Presence -/

/-- A number with implicit presence. -/
def uint (number n : ℕ) : List Field :=
  if n = 0 then [] else [⟨number, .varint n⟩]

def fixed64 (number : ℕ) (n : BitVec 64) : List Field :=
  if n = 0 then [] else [⟨number, .fixed64 n⟩]

/-- A byte string or a text with implicit presence. -/
def bytes (number : ℕ) (value : List UInt8) : List Field :=
  if value = [] then [] else [⟨number, .delimited value⟩]

/-- A message that is set. -/
def message (number : ℕ) (fields : List Field) : List Field :=
  [⟨number, .delimited (encode fields)⟩]

/-- A message that may be absent. -/
def optional (number : ℕ) (value : Option (List Field)) : List Field :=
  value.elim [] (message number)

/-! ## Sizes -/

@[simp] theorem size_nil : size [] = 0 := rfl

theorem size_append (fields fields' : List Field) :
    size (fields ++ fields') = size fields + size fields' := by
  rw [size, encode, List.flatMap_append, List.length_append]
  rfl

theorem size_singleton (field : Field) : size [field] = field.encode.length := by
  rw [size, encode, List.flatMap_singleton]

/-- What a length-delimited field with a one-byte key takes. -/
def delimitedSize (length : ℕ) : ℕ :=
  1 + (varint length).length + length

theorem delimitedSize_mono {m n : ℕ} (h : m ≤ n) : delimitedSize m ≤ delimitedSize n := by
  have hprefix := length_varint_mono h
  rw [delimitedSize, delimitedSize]
  omega

theorem delimitedSize_lt {m n : ℕ} (h : m < n) : delimitedSize m < delimitedSize n := by
  have hprefix := length_varint_mono h.le
  rw [delimitedSize, delimitedSize]
  omega

/-- A length below 128 takes one byte. -/
theorem delimitedSize_short {n : ℕ} (h : n < 128) : delimitedSize n = n + 2 := by
  rw [delimitedSize, length_varint, Nat.log_of_lt h]
  omega

/-- A length from 128 to 16383 takes two. -/
theorem delimitedSize_long {n : ℕ} (h : 128 ≤ n) (hlt : n < 16384) : delimitedSize n = n + 3 := by
  have hlog : Nat.log 128 n = 1 :=
    (Nat.log_eq_iff (.inl one_ne_zero)).mpr ⟨by omega, by omega⟩
  rw [delimitedSize, length_varint, hlog]
  omega

section Sizes

variable {number : ℕ} (hnumber : number < 16)

include hnumber

theorem length_key (value : Value) :
    (varint (8 * number + value.wireType)).length = 1 := by
  have htype : value.wireType ≤ 2 := by
    cases value with
    | varint n => exact Nat.zero_le 2
    | fixed64 n => exact one_le_two
    | delimited bytes => exact le_refl 2
  have hkey : 8 * number + value.wireType < 128 := by omega
  rw [length_varint, Nat.log_of_lt hkey]

theorem size_uint_le {n k : ℕ} (hk : k ≠ 0) (h : n < 128 ^ k) :
    size (uint number n) ≤ 1 + k := by
  rw [uint]
  split
  · exact Nat.zero_le _
  · rw [size_singleton, Field.encode, List.length_append, length_key hnumber]
    exact Nat.add_le_add_left (length_varint_le hk h) 1

theorem size_fixed64_le (n : BitVec 64) : size (fixed64 number n) ≤ 9 := by
  rw [fixed64]
  split
  · exact Nat.zero_le _
  · rw [size_singleton, Field.encode, List.length_append, length_key hnumber, Value.encode,
      LittleEndian.length_toLeBytes]

theorem size_delimited (value : List UInt8) :
    size [⟨number, .delimited value⟩] = delimitedSize value.length := by
  rw [size_singleton, Field.encode, List.length_append, length_key hnumber, Value.encode,
    List.length_append, delimitedSize, Nat.add_assoc]

theorem size_bytes {value : List UInt8} (h : value ≠ []) :
    size (bytes number value) = delimitedSize value.length := by
  rw [bytes, if_neg h]
  exact size_delimited hnumber value

theorem size_bytes_le {value : List UInt8} {n : ℕ} (h : value.length ≤ n) :
    size (bytes number value) ≤ delimitedSize n := by
  by_cases hnil : value = []
  · rw [bytes, if_pos hnil]
    exact Nat.zero_le _
  · rw [size_bytes hnumber hnil]
    exact delimitedSize_mono h

theorem size_message (fields : List Field) :
    size (message number fields) = delimitedSize (size fields) :=
  size_delimited hnumber (encode fields)

theorem size_optional_le {value : Option (List Field)} {n : ℕ}
    (h : ∀ fields ∈ value, size fields ≤ n) :
    size (optional number value) ≤ delimitedSize n := by
  cases value with
  | none => exact Nat.zero_le _
  | some fields =>
      refine (size_message hnumber fields).trans_le ?_
      exact delimitedSize_mono (h fields rfl)

end Sizes

section WideKeys

variable {number c : ℕ} (hc : c ≠ 0) (hkey : 8 * number + 2 < 128 ^ c)

include hc hkey

/-- The key of a field whose number may be larger than 15. -/
theorem length_key_le (value : Value) :
    (varint (8 * number + value.wireType)).length ≤ c := by
  have htype : value.wireType ≤ 2 := by
    cases value with
    | varint n => exact Nat.zero_le 2
    | fixed64 n => exact one_le_two
    | delimited bytes => exact le_refl 2
  exact length_varint_le hc (by omega)

theorem size_uint_le_key {n k : ℕ} (hk : k ≠ 0) (h : n < 128 ^ k) :
    size (uint number n) ≤ c + k := by
  rw [uint]
  split
  · exact Nat.zero_le _
  · rw [size_singleton, Field.encode, List.length_append]
    exact Nat.add_le_add (length_key_le hc hkey _) (length_varint_le hk h)

theorem size_bytes_le_key {value : List UInt8} {n k : ℕ} (hk : k ≠ 0) (hn : n < 128 ^ k)
    (h : value.length ≤ n) : size (bytes number value) ≤ c + (k + n) := by
  by_cases hnil : value = []
  · rw [bytes, if_pos hnil]
    exact Nat.zero_le _
  · rw [bytes, if_neg hnil, size_singleton, Field.encode, List.length_append, Value.encode,
      List.length_append]
    exact Nat.add_le_add (length_key_le hc hkey _)
      (Nat.add_le_add (length_varint_le hk (Nat.lt_of_le_of_lt h hn)) h)

end WideKeys

end KeemashCore.Protobuf

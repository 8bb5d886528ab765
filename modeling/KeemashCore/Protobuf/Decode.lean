import KeemashCore.Protobuf.Basic

/-!
# Reading the protobuf wire format

The fields of an encoded message are read back one after the other, and a field of a
message is looked up among them by its number: the last value that is there counts, and a
field that is not there has its default.
-/

namespace KeemashCore.Protobuf

/-! ## Taking values off the front -/

/-- A number and the bytes behind it. -/
def takeVarint : List UInt8 → Option (ℕ × List UInt8)
  | [] => none
  | byte :: rest =>
      if byte.toNat < 128 then
        some (byte.toNat, rest)
      else
        (takeVarint rest).map fun taken => (byte.toNat - 128 + 128 * taken.1, taken.2)

theorem takeVarint_varint (n : ℕ) (rest : List UInt8) :
    takeVarint (varint n ++ rest) = some (n, rest) := by
  induction n using Nat.strong_induction_on with
  | _ n ih =>
      rw [varint]
      by_cases h : n < 128
      · have hbyte : (UInt8.ofNat n).toNat = n := by
          rw [UInt8.toNat_ofNat']
          omega
        rw [if_pos h, List.singleton_append, takeVarint, hbyte, if_pos h]
      · have hbyte : (UInt8.ofNat (n % 128 + 128)).toNat = n % 128 + 128 := by
          rw [UInt8.toNat_ofNat']
          omega
        rw [if_neg h, List.cons_append, takeVarint, hbyte, if_neg (by omega),
          ih (n / 128) (by omega), Option.map_some]
        congr 2
        dsimp only
        omega

/-- A value of a wire type and the bytes behind it. -/
def takeValue (wireType : ℕ) (bytes : List UInt8) : Option (Value × List UInt8) :=
  match wireType with
  | 0 => (takeVarint bytes).map fun taken => (.varint taken.1, taken.2)
  | 1 =>
      if bytes.length < 8 then none
      else some (.fixed64 (LittleEndian.fromLeBytes 64 (bytes.take 8)), bytes.drop 8)
  | 2 =>
      (takeVarint bytes).bind fun taken =>
        if taken.2.length < taken.1 then none
        else some (.delimited (taken.2.take taken.1), taken.2.drop taken.1)
  | _ => none

theorem takeValue_encode (value : Value) (rest : List UInt8) :
    takeValue value.wireType (value.encode ++ rest) = some (value, rest) := by
  cases value with
  | varint n =>
      have htaken := takeVarint_varint n rest
      rw [Value.wireType, Value.encode, takeValue, htaken]
      rfl
  | fixed64 n =>
      have hlength : (LittleEndian.toLeBytes 8 n).length = 8 := LittleEndian.length_toLeBytes 8 n
      have hvalue : LittleEndian.fromLeBytes 64 (LittleEndian.toLeBytes 8 n) = n :=
        LittleEndian.fromLeBytes_toLeBytes (n := 8) n
      rw [Value.wireType, Value.encode, takeValue, if_neg (by rw [List.length_append]; omega),
        List.take_left' hlength, List.drop_left' hlength, hvalue]
  | delimited bytes =>
      rw [Value.wireType, Value.encode, takeValue, List.append_assoc, takeVarint_varint,
        Option.bind_some, if_neg (by rw [List.length_append]; omega), List.take_left,
        List.drop_left]

/-- A field and the bytes behind it. -/
def takeField (bytes : List UInt8) : Option (Field × List UInt8) :=
  (takeVarint bytes).bind fun key =>
    (takeValue (key.1 % 8) key.2).map fun taken => (⟨key.1 / 8, taken.1⟩, taken.2)

theorem takeField_encode (field : Field) (rest : List UInt8) :
    takeField (field.encode ++ rest) = some (field, rest) := by
  have htype : field.value.wireType < 8 := by
    cases field.value <;> (rw [Value.wireType]; decide)
  have hlow : (8 * field.number + field.value.wireType) % 8 = field.value.wireType := by omega
  have hhigh : (8 * field.number + field.value.wireType) / 8 = field.number := by omega
  rw [takeField, Field.encode, List.append_assoc, takeVarint_varint, Option.bind_some]
  dsimp only
  rw [hlow, hhigh, takeValue_encode]
  rfl

/-! ## Messages -/

/-- The fields in the bytes, of which there are at most `fuel`. -/
def decodeFields : ℕ → List UInt8 → Option (List Field)
  | _, [] => some []
  | 0, _ :: _ => none
  | fuel + 1, byte :: rest =>
      (takeField (byte :: rest)).bind fun taken =>
        (decodeFields fuel taken.2).map (taken.1 :: ·)

/-- The fields of an encoded message. -/
def decode (bytes : List UInt8) : Option (List Field) :=
  decodeFields bytes.length bytes

theorem decodeFields_encode (fields : List Field) (fuel : ℕ) (h : fields.length ≤ fuel) :
    decodeFields fuel (encode fields) = some fields := by
  induction fields generalizing fuel with
  | nil => cases fuel <;> rfl
  | cons field fields ih =>
      obtain ⟨fuel, rfl⟩ : ∃ more, fuel = more + 1 := ⟨fuel - 1, by
        rw [List.length_cons] at h
        omega⟩
      have hencode : encode (field :: fields) = field.encode ++ encode fields := rfl
      have htaken := takeField_encode field (encode fields)
      cases hbytes : field.encode ++ encode fields with
      | nil =>
          rw [hbytes] at htaken
          cases htaken
      | cons byte rest =>
          rw [hencode, hbytes, decodeFields, ← hbytes, htaken, Option.bind_some]
          dsimp only
          rw [ih fuel (Nat.le_of_succ_le_succ h), Option.map_some]

theorem length_encode_ge (fields : List Field) : fields.length ≤ (encode fields).length := by
  induction fields with
  | nil => exact Nat.zero_le _
  | cons field fields ih =>
      have hkey : 1 ≤ (varint (8 * field.number + field.value.wireType)).length := by
        rw [length_varint]
        exact Nat.le_add_left _ _
      have hencode : encode (field :: fields) = field.encode ++ encode fields := rfl
      rw [hencode, List.length_append, Field.encode, List.length_append, List.length_cons]
      omega

/-- An encoded message reads back. -/
theorem decode_encode (fields : List Field) : decode (encode fields) = some fields :=
  decodeFields_encode fields _ (length_encode_ge fields)

/-! ## Looking fields up -/

/-- The values under a number, in order. -/
def valuesAt (number : ℕ) (fields : List Field) : List Value :=
  (fields.filter fun field => field.number = number).map Field.value

@[simp] theorem valuesAt_append (number : ℕ) (fields more : List Field) :
    valuesAt number (fields ++ more) = valuesAt number fields ++ valuesAt number more := by
  rw [valuesAt, List.filter_append, List.map_append]
  rfl

theorem valuesAt_singleton (number : ℕ) (field : Field) :
    valuesAt number [field] = if field.number = number then [field.value] else [] := by
  rw [valuesAt, List.filter_singleton]
  by_cases h : field.number = number <;> simp [h]

@[simp] theorem valuesAt_uint_ne {number other n : ℕ} (h : other ≠ number) :
    valuesAt number (uint other n) = [] := by
  rw [uint]
  split
  · rfl
  · rw [valuesAt_singleton, if_neg h]

@[simp] theorem valuesAt_bytes_ne {number other : ℕ} {value : List UInt8} (h : other ≠ number) :
    valuesAt number (bytes other value) = [] := by
  rw [bytes]
  split
  · rfl
  · rw [valuesAt_singleton, if_neg h]

/-- A number; zero when it is not there. -/
def uintAt (number : ℕ) (fields : List Field) : ℕ :=
  match (valuesAt number fields).getLast? with
  | some (.varint n) => n
  | _ => 0

/-- A byte string; empty when it is not there. -/
def bytesAt (number : ℕ) (fields : List Field) : List UInt8 :=
  match (valuesAt number fields).getLast? with
  | some (.delimited value) => value
  | _ => []

/-- The byte strings of a repeated field. -/
def repeatedAt (number : ℕ) (fields : List Field) : List (List UInt8) :=
  (valuesAt number fields).filterMap fun value =>
    match value with
    | .delimited value => some value
    | _ => none

theorem uintAt_of_valuesAt {number n : ℕ} {fields : List Field}
    (h : valuesAt number fields = valuesAt number (uint number n)) : uintAt number fields = n := by
  rw [uintAt, h, uint]
  by_cases hzero : n = 0
  · rw [if_pos hzero, hzero]
    rfl
  · rw [if_neg hzero, valuesAt_singleton, if_pos rfl]
    rfl

theorem bytesAt_of_valuesAt {number : ℕ} {value : List UInt8} {fields : List Field}
    (h : valuesAt number fields = valuesAt number (bytes number value)) :
    bytesAt number fields = value := by
  rw [bytesAt, h, bytes]
  by_cases hnil : value = []
  · rw [if_pos hnil, hnil]
    rfl
  · rw [if_neg hnil, valuesAt_singleton, if_pos rfl]
    rfl

end KeemashCore.Protobuf

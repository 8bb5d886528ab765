import KeemashCore.LittleEndian.Basic

/-!
# Words inside a byte string

The little-endian word at an offset of a byte string, as a packed record is read, and
what it is when the string was put together from blocks.
-/

namespace KeemashCore.LittleEndian

/-- The `len` bytes at `offset`. -/
def field (bytes : List UInt8) (offset len : ℕ) : List UInt8 :=
  (bytes.drop offset).take len

/-- The word of `n` bytes at `offset`. -/
def wordAt (n : ℕ) (bytes : List UInt8) (offset : ℕ) : BitVec (8 * n) :=
  fromLeBytes (8 * n) (field bytes offset n)

/-- The `len` bytes at `offset`, if they lie inside. -/
def field? (bytes : List UInt8) (offset len : ℕ) : Option (List UInt8) :=
  if offset + len ≤ bytes.length then some (field bytes offset len) else none

/-- The word of `n` bytes at `offset`, if it lies inside. -/
def wordAt? (n : ℕ) (bytes : List UInt8) (offset : ℕ) : Option (BitVec (8 * n)) :=
  (field? bytes offset n).map (fromLeBytes (8 * n))

theorem field?_eq {bytes : List UInt8} {offset len : ℕ} (h : offset + len ≤ bytes.length) :
    field? bytes offset len = some (field bytes offset len) :=
  if_pos h

theorem wordAt?_eq {n : ℕ} {bytes : List UInt8} {offset : ℕ}
    (h : offset + n ≤ bytes.length) : wordAt? n bytes offset = some (wordAt n bytes offset) := by
  rw [wordAt?, field?_eq h, Option.map_some, wordAt]

/-- The word that a string starts with. -/
@[simp] theorem wordAt_toLeBytes_append {n : ℕ} (word : BitVec (8 * n)) (rest : List UInt8) :
    wordAt n (toLeBytes n word ++ rest) 0 = word := by
  have hfield : field (toLeBytes n word ++ rest) 0 n = toLeBytes n word := by
    rw [field, List.drop_zero]
    exact List.take_left' (length_toLeBytes n word)
  rw [wordAt, hfield, fromLeBytes_toLeBytes]

/-- A word behind a block. -/
theorem wordAt_append {n : ℕ} {block : List UInt8} (rest : List UInt8) {offset : ℕ}
    (h : block.length ≤ offset) :
    wordAt n (block ++ rest) offset = wordAt n rest (offset - block.length) := by
  rw [wordAt, wordAt, field, field, List.drop_append, List.drop_eq_nil_of_le h,
    List.nil_append]

/-- A word in the front part of a string. -/
theorem wordAt_take {n : ℕ} {bytes : List UInt8} {offset stop : ℕ} (h : offset + n ≤ stop) :
    wordAt n (bytes.take stop) offset = wordAt n bytes offset := by
  have hmin : min n (stop - offset) = n := by omega
  rw [wordAt, wordAt, field, field, List.drop_take, List.take_take, hmin]

end KeemashCore.LittleEndian

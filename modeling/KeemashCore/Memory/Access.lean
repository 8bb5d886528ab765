import KeemashCore.LittleEndian.Field

/-!
# Reads of a buffer

A computation that reads memory through a pointer, with the spans it reads.  The memory
goes on behind the buffer that the pointer was given for: a read past the end of the buffer
returns whatever stands there, and it shows in the spans.
-/

namespace KeemashCore.Memory

open LittleEndian

universe u

/-- The bytes from the start of a buffer on, those behind its end included. -/
abbrev Mem := ℕ → UInt8

/-- The bytes of one read. -/
structure Span where
  offset : ℕ
  len : ℕ
  deriving DecidableEq, Repr

/-- Every byte of the span lies below `n`. -/
def Span.Inside (n : ℕ) (span : Span) : Prop :=
  ∀ i < span.len, span.offset + i < n

theorem Span.inside_of_le {n : ℕ} {span : Span} (h : span.offset + span.len ≤ n) :
    span.Inside n := by
  intro i hi
  omega

theorem Span.inside_iff {n : ℕ} {span : Span} :
    span.Inside n ↔ span.len = 0 ∨ span.offset + span.len ≤ n := by
  constructor
  · intro h
    by_contra hnot
    rw [not_or] at hnot
    have hlast := h (span.len - 1) (by omega)
    omega
  · rintro (hzero | hle)
    · intro i hi
      omega
    · exact inside_of_le hle

/-- A computation on memory: its result and the spans it reads. -/
structure Access (α : Type u) where
  run : Mem → α × List Span

def Access.result {α : Type u} (x : Access α) (mem : Mem) : α :=
  (x.run mem).1

def Access.spans {α : Type u} (x : Access α) (mem : Mem) : List Span :=
  (x.run mem).2

instance : Monad Access where
  pure a := ⟨fun _ => (a, [])⟩
  bind x f := ⟨fun mem => ((f (x.result mem)).result mem,
    x.spans mem ++ (f (x.result mem)).spans mem)⟩

section Monad

variable {α β : Type u} (mem : Mem)

@[simp] theorem result_pure (a : α) : (pure a : Access α).result mem = a := rfl

@[simp] theorem spans_pure (a : α) : (pure a : Access α).spans mem = [] := rfl

@[simp] theorem result_bind (x : Access α) (f : α → Access β) :
    (x >>= f).result mem = (f (x.result mem)).result mem := rfl

@[simp] theorem spans_bind (x : Access α) (f : α → Access β) :
    (x >>= f).spans mem = x.spans mem ++ (f (x.result mem)).spans mem := rfl

@[simp] theorem result_ite (p : Prop) [Decidable p] (x y : Access α) :
    (if p then x else y).result mem = if p then x.result mem else y.result mem :=
  apply_ite (fun z => z.result mem) p x y

end Monad

/-! ## Reading -/

/-- A copy of `len` bytes from an offset on. -/
def read (offset len : ℕ) : Access (List UInt8) :=
  ⟨fun mem => ((List.range len).map fun i => mem (offset + i), [⟨offset, len⟩])⟩

def readByte (offset : ℕ) : Access UInt8 :=
  ⟨fun mem => (mem offset, [⟨offset, 1⟩])⟩

/-- The little-endian word of `n` bytes at an offset. -/
def readWord (n offset : ℕ) : Access (BitVec (8 * n)) := do
  let bytes ← read offset n
  pure (fromLeBytes (8 * n) bytes)

/-- The C string in a field of `size` bytes: the search for its end stops behind the zero. -/
def readText (offset size : ℕ) : Access (List UInt8) :=
  ⟨fun mem =>
    let text := ((List.range size).map fun i => mem (offset + i)).takeWhile (· ≠ 0)
    (text, [⟨offset, min (text.length + 1) size⟩])⟩

/-- A pointer to `len` bytes that is handed on: whoever gets it may read all of them. -/
def lend (offset len : ℕ) : Access Unit :=
  ⟨fun _ => ((), [⟨offset, len⟩])⟩

/-! ## Staying inside -/

/-- On this memory, the computation reads nothing from `n` on. -/
def Access.Within {α : Type u} (x : Access α) (n : ℕ) (mem : Mem) : Prop :=
  ∀ span ∈ x.spans mem, span.Inside n

section Within

variable {α β : Type u} {mem : Mem} {n : ℕ}

@[simp] theorem within_pure (a : α) : (pure a : Access α).Within n mem :=
  fun _ h => absurd h List.not_mem_nil

theorem within_bind {x : Access α} {f : α → Access β} :
    (x >>= f).Within n mem ↔ x.Within n mem ∧ (f (x.result mem)).Within n mem := by
  simp only [Access.Within, spans_bind, List.forall_mem_append]

theorem within_bind_of {x : Access α} {f : α → Access β} (hx : x.Within n mem)
    (hf : ∀ a, (f a).Within n mem) : (x >>= f).Within n mem :=
  within_bind.mpr ⟨hx, hf _⟩

theorem within_ite {p : Prop} [Decidable p] {x y : Access α} (hx : p → x.Within n mem)
    (hy : ¬p → y.Within n mem) : (if p then x else y).Within n mem := by
  split
  · next h => exact hx h
  · next h => exact hy h

/-- A computation that reads one span. -/
theorem within_single {x : Access α} {span : Span} (hx : x.spans mem = [span]) :
    x.Within n mem ↔ span.Inside n := by
  rw [Access.Within, hx]
  exact List.forall_mem_singleton

theorem within_read_iff {offset len : ℕ} :
    (read offset len).Within n mem ↔ len = 0 ∨ offset + len ≤ n :=
  (within_single rfl).trans Span.inside_iff

theorem within_read {offset len : ℕ} (h : offset + len ≤ n) :
    (read offset len).Within n mem :=
  within_read_iff.mpr (.inr h)

theorem within_readByte {offset : ℕ} (h : offset < n) : (readByte offset).Within n mem :=
  (within_single rfl).mpr (@Span.inside_of_le n ⟨offset, 1⟩ h)

theorem within_readWord {k offset : ℕ} (h : offset + k ≤ n) :
    (readWord k offset).Within n mem :=
  within_bind_of (within_read h) fun _ => within_pure _

theorem within_readText {offset size : ℕ} (h : offset + size ≤ n) :
    (readText offset size).Within n mem := by
  apply (within_single rfl).mpr
  apply Span.inside_of_le
  exact (Nat.add_le_add_left (Nat.min_le_right _ _) offset).trans h

theorem within_lend {offset len : ℕ} (h : offset + len ≤ n) : (lend offset len).Within n mem :=
  (within_single rfl).mpr (Span.inside_of_le h)

end Within

/-! ## The bytes of the buffer -/

/-- The buffer holds these bytes; nothing is said of what lies behind them. -/
def Holds (mem : Mem) (bytes : List UInt8) : Prop :=
  ∀ i < bytes.length, mem i = bytes.getD i 0

section Holds

variable {mem : Mem} {bytes : List UInt8}

theorem Holds.map_range (h : Holds mem bytes) {offset len : ℕ}
    (hle : offset + len ≤ bytes.length) :
    ((List.range len).map fun i => mem (offset + i)) = field bytes offset len := by
  apply List.ext_getElem
  · simp only [field, List.length_map, List.length_range, List.length_take, List.length_drop]
    omega
  · intro i hi _
    rw [List.length_map, List.length_range] at hi
    have hin : offset + i < bytes.length := by omega
    simp only [field, List.getElem_map, List.getElem_range, List.getElem_take,
      List.getElem_drop]
    rw [h _ hin, List.getD_eq_getElem?_getD, List.getElem?_eq_getElem hin, Option.getD_some]

theorem Holds.read (h : Holds mem bytes) {offset len : ℕ}
    (hle : offset + len ≤ bytes.length) :
    (Memory.read offset len).result mem = field bytes offset len :=
  h.map_range hle

theorem Holds.readByte (h : Holds mem bytes) {offset : ℕ} (hlt : offset < bytes.length) :
    (Memory.readByte offset).result mem = bytes.getD offset 0 :=
  h offset hlt

theorem Holds.readWord (h : Holds mem bytes) {n offset : ℕ}
    (hle : offset + n ≤ bytes.length) :
    (Memory.readWord n offset).result mem = wordAt n bytes offset := by
  rw [Memory.readWord, result_bind, h.read hle]
  rfl

theorem Holds.readText (h : Holds mem bytes) {offset size : ℕ}
    (hle : offset + size ≤ bytes.length) :
    (Memory.readText offset size).result mem = (field bytes offset size).takeWhile (· ≠ 0) := by
  have hmap := h.map_range hle
  simp only [Memory.readText, Access.result, hmap]

/-- Some memory holds the bytes. -/
theorem holds_getD (bytes : List UInt8) : Holds (fun i => bytes.getD i 0) bytes :=
  fun _ _ => rfl

end Holds

end KeemashCore.Memory

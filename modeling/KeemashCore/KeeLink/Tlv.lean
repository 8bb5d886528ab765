import KeemashCore.KeeLink.Header

/-!
# KeeLink fields

The writer and the reader of type-length-value fields in `keemash_keelink.c`, and
`put_tlv` and `TlvIter` of the crate.  A buffer is an object in memory, so offsets
and lengths in it do not overflow.
-/

namespace KeemashCore.KeeLink

open LittleEndian

/-! ## Fields -/

/-- `KEEMASH_KEELINK_TLV_HEADER_SIZE`, and `TLV_HEADER_SIZE` of the crate. -/
def tlvHeaderSize : ℕ := 6

/-- `KEEMASH_KEELINK_TLV_U32`. -/
def tlvU32 : UInt8 := 1

/-- `KEEMASH_KEELINK_TLV_UTF8`. -/
def tlvUtf8 : UInt8 := 6

def uint16Max : ℕ := 65535

/-- `keemash_keelink_tlv_t` with the bytes that `data` and `length` give, the
arguments of `keemash_keelink_put`, and `Tlv` of the crate. -/
structure Tlv where
  fieldId : BitVec 16
  type : UInt8
  flags : UInt8
  value : Bytes
  deriving DecidableEq, Repr

/-- The bytes that a field takes up. -/
def Tlv.size (tlv : Tlv) : ℕ :=
  tlvHeaderSize + tlv.value.length

/-! ## The writer in C -/

/-- `keemash_keelink_writer_t` over a buffer of `capacity` bytes. -/
structure Writer where
  buffer : Bytes
  length : ℕ
  fits : length ≤ buffer.length

/-- `keemash_keelink_writer_init`. -/
def Writer.init (buffer : Bytes) : Writer where
  buffer := buffer
  length := 0
  fits := Nat.zero_le _

/-- The bytes written so far. -/
def Writer.written (writer : Writer) : Bytes :=
  writer.buffer.take writer.length

/-- What `keemash_keelink_put` stores for a field. -/
def Tlv.stored (tlv : Tlv) : Bytes :=
  putU16 tlv.fieldId ++ [tlv.type, tlv.flags] ++
    putU16 (BitVec.ofNat 16 tlv.value.length) ++ tlv.value

@[simp] theorem Tlv.length_stored (tlv : Tlv) : tlv.stored.length = tlv.size := by
  simp [Tlv.stored, Tlv.size, putU16, tlvHeaderSize]
  omega

/-- The argument check of `keemash_keelink_put`. -/
def Tlv.putRejects (tlv : Tlv) : Bool :=
  tlv.fieldId = 0 ∨ tlv.type < tlvU32 ∨ tlv.type > tlvUtf8 ∨ tlv.value.length > uint16Max

/-- `keemash_keelink_put`. -/
def Writer.put (writer : Writer) (tlv : Tlv) : EspErr × Writer :=
  if tlv.putRejects then (.invalidArg, writer)
  else if hfull : writer.length + tlvHeaderSize + tlv.value.length > writer.buffer.length then
    (.noMem, writer)
  else
    (.ok,
      { buffer := writer.buffer.take writer.length ++ tlv.stored ++
          writer.buffer.drop (writer.length + tlv.size)
        length := writer.length + tlvHeaderSize + tlv.value.length
        fits := by
          rw [List.length_append, List.length_append, Tlv.length_stored, Tlv.size,
            List.length_take, List.length_drop]
          have hfits := writer.fits
          omega })

/-- The writer after a list of puts. -/
def Writer.puts (writer : Writer) (tlvs : List Tlv) : Writer :=
  tlvs.foldl (fun writer tlv => (writer.put tlv).2) writer

/-- The puts of the list that return `ESP_OK`. -/
def Writer.accepted (writer : Writer) : List Tlv → List Tlv
  | [] => []
  | tlv :: tlvs =>
      let put := writer.put tlv
      if put.1 = .ok then tlv :: put.2.accepted tlvs else put.2.accepted tlvs

/-! ## The reader in C -/

/-- `keemash_keelink_reader_t`. -/
structure Reader where
  buffer : Bytes
  offset : ℕ

/-- `keemash_keelink_reader_init`. -/
def Reader.init (payload : Bytes) : Reader where
  buffer := payload
  offset := 0

/-- `keemash_keelink_reader_next`: a field, or the error, and the reader. -/
def Reader.next (reader : Reader) : Except EspErr Tlv × Reader :=
  if reader.offset = reader.buffer.length then (.error .notFound, reader)
  else if reader.offset + tlvHeaderSize > reader.buffer.length then
    (.error .invalidSize, reader)
  else
    let p := reader.buffer.drop reader.offset
    let length := (getU16 (p.drop 4)).toNat
    if reader.offset + tlvHeaderSize + length > reader.buffer.length then
      (.error .invalidSize, reader)
    else
      (.ok
        { fieldId := getU16 p
          type := p.getD 2 0
          flags := p.getD 3 0
          value := (p.drop tlvHeaderSize).take length },
        { reader with offset := reader.offset + (tlvHeaderSize + length) })

/-- Repeated calls of `keemash_keelink_reader_next` return the fields, and then the
error. -/
inductive Reader.Reads : Reader → List Tlv → EspErr → Prop where
  | stop {reader reader' : Reader} {err : EspErr} (h : reader.next = (.error err, reader')) :
      Reads reader [] err
  | more {reader reader' : Reader} {tlv : Tlv} {tlvs : List Tlv} {err : EspErr}
      (h : reader.next = (.ok tlv, reader')) (rest : Reads reader' tlvs err) :
      Reads reader (tlv :: tlvs) err

/-! ## The writer and the iterator in Rust -/

/-- `put_tlv`: `*out` after the call, if it succeeds. -/
def putTlv (out : Bytes) (tlv : Tlv) : Except CodecError Bytes :=
  if tlv.fieldId = 0 ∨ tlv.value.length > uint16Max ∨
      out.length + tlvHeaderSize + tlv.value.length > maxPayload then
    .error .tooLarge
  else
    .ok (out ++ toLeBytes 2 tlv.fieldId ++ [tlv.type] ++ [tlv.flags] ++
      toLeBytes 2 (BitVec.ofNat 16 tlv.value.length) ++ tlv.value)

/-- The vector after a list of calls of `put_tlv`; one that fails leaves it. -/
def putTlvs (out : Bytes) (tlvs : List Tlv) : Bytes :=
  tlvs.foldl
    (fun out tlv =>
      match putTlv out tlv with
      | .ok out => out
      | .error _ => out) out

/-- `TlvIter`. -/
structure TlvIter where
  data : Bytes
  offset : ℕ

/-- `TlvIter::new`. -/
def TlvIter.new (data : Bytes) : TlvIter where
  data := data
  offset := 0

/-- `TlvIter::next`. -/
def TlvIter.next (self : TlvIter) : Option (Except CodecError Tlv) × TlvIter :=
  if self.offset = self.data.length then (none, self)
  else if self.offset + tlvHeaderSize > self.data.length then
    (some (.error .truncatedTlv), { self with offset := self.data.length })
  else
    let p := self.data.drop self.offset
    let fieldId := fromLeBytes 16 [p.getD 0 0, p.getD 1 0]
    let len := (fromLeBytes 16 [p.getD 4 0, p.getD 5 0]).toNat
    if fieldId = 0 ∨ self.offset + tlvHeaderSize + len > self.data.length then
      (some (.error .invalidTlv), { self with offset := self.data.length })
    else
      (some (.ok
        { fieldId := fieldId
          type := p.getD 2 0
          flags := p.getD 3 0
          value := slice p tlvHeaderSize len }),
        { self with offset := self.offset + (tlvHeaderSize + len) })

/-- The iterator yields the items, and then its end. -/
inductive TlvIter.Yields : TlvIter → List (Except CodecError Tlv) → Prop where
  | done {self self' : TlvIter} (h : self.next = (none, self')) : Yields self []
  | item {self self' : TlvIter} {item : Except CodecError Tlv}
      {items : List (Except CodecError Tlv)} (h : self.next = (some item, self'))
      (rest : Yields self' items) : Yields self (item :: items)

end KeemashCore.KeeLink

import KeemashCore.LittleEndian.Basic
import KeemashCore.Mesh.Proto

/-!
# KeeLink headers

The header codec of `keemash_keelink.c` and the one of the crate
`keemash-keelink`.  The two check a frame in different orders and put numbers
together in different ways; they accept the same frames and read the same header.
-/

namespace KeemashCore.KeeLink

open LittleEndian

/-! ## The wire format -/

/-- A string of bytes on the wire. -/
abbrev Bytes := List UInt8

/-- `KEEMASH_KEELINK_VERSION`, and `VERSION` of the crate. -/
def keelinkVersion : UInt8 := 1

/-- `KEEMASH_KEELINK_HEADER_SIZE`, and `HEADER_SIZE` of the crate. -/
def headerSize : ℕ := 32

/-- `KEEMASH_KEELINK_MAX_PAYLOAD`, and `MAX_PAYLOAD` of the crate. -/
def maxPayload : ℕ := 4096

/-- `s_magic`, and `MAGIC` of the crate. -/
def magic : Bytes := [0x4b, 0x4c, 0x4e, 0x4b]

/-! ## The codec in C -/

/-- `KEEMASH_KEELINK_HELLO`. -/
def kindHello : UInt8 := 1

/-- `KEEMASH_KEELINK_ERROR`. -/
def kindError : UInt8 := 9

/-- `keemash_keelink_header_t`. -/
structure KeelinkHeader where
  kind : UInt8
  flags : BitVec 16
  channel : BitVec 16
  payloadLen : U32
  sessionId : BitVec 64
  messageId : U32
  correlationId : U32
  deriving DecidableEq, Repr

/-- `put_u16`. -/
def putU16 (v : BitVec 16) : Bytes :=
  [UInt8.ofBitVec (v.setWidth 8), UInt8.ofBitVec ((v >>> 8).setWidth 8)]

/-- `put_u32`. -/
def putU32 (v : U32) : Bytes :=
  (List.range 4).map fun i => UInt8.ofBitVec ((v >>> (8 * i)).setWidth 8)

/-- `put_u64`. -/
def putU64 (v : BitVec 64) : Bytes :=
  (List.range 8).map fun i => UInt8.ofBitVec ((v >>> (8 * i)).setWidth 8)

/-- `get_u16`. -/
def getU16 (p : Bytes) : BitVec 16 :=
  (p.getD 0 0).toBitVec.setWidth 16 ||| ((p.getD 1 0).toBitVec.setWidth 16 <<< 8)

/-- `get_u32`. -/
def getU32 (p : Bytes) : U32 :=
  (List.range 4).foldl (fun v i => v ||| ((p.getD i 0).toBitVec.setWidth 32 <<< (8 * i))) 0

/-- `get_u64`. -/
def getU64 (p : Bytes) : BitVec 64 :=
  (List.range 8).foldl (fun v i => v ||| ((p.getD i 0).toBitVec.setWidth 64 <<< (8 * i))) 0

/-- `keemash_keelink_encode_header`: the buffer after a successful call. -/
def encodeHeader (header : KeelinkHeader) : Except EspErr Bytes :=
  if header.kind < kindHello ∨ header.kind > kindError ∨
      header.payloadLen.toNat > maxPayload then
    .error .invalidArg
  else
    .ok (magic ++ [keelinkVersion, header.kind] ++ putU16 header.flags ++
      putU16 header.channel ++ putU16 (BitVec.ofNat 16 headerSize) ++
      putU32 header.payloadLen ++ putU64 header.sessionId ++ putU32 header.messageId ++
      putU32 header.correlationId)

/-- `keemash_keelink_decode_header`: the result, and `*header` after the call. -/
def decodeHeader (frame : Bytes) (header : KeelinkHeader) : EspErr × KeelinkHeader :=
  if frame.length < headerSize then (.invalidSize, header)
  else if frame.take 4 ≠ magic ∨ frame.getD 4 0 ≠ keelinkVersion ∨
      (getU16 (frame.drop 10)).toNat ≠ headerSize then
    (.invalidVersion, header)
  else
    let payloadLen := getU32 (frame.drop 12)
    if payloadLen.toNat > maxPayload ∨ frame.length ≠ headerSize + payloadLen.toNat then
      (.invalidSize, header)
    else
      let header : KeelinkHeader :=
        { kind := frame.getD 5 0
          flags := getU16 (frame.drop 6)
          channel := getU16 (frame.drop 8)
          payloadLen := payloadLen
          sessionId := getU64 (frame.drop 16)
          messageId := getU32 (frame.drop 24)
          correlationId := getU32 (frame.drop 28) }
      if header.kind < kindHello ∨ header.kind > kindError then (.notSupported, header)
      else (.ok, header)

/-! ## The codec in Rust -/

/-- `Kind`. -/
inductive Kind where
  | hello
  | welcome
  | request
  | response
  | event
  | snapshot
  | gap
  | heartbeat
  | error
  deriving DecidableEq, Repr

/-- `kind as u8`. -/
def Kind.toByte : Kind → UInt8
  | .hello => 1
  | .welcome => 2
  | .request => 3
  | .response => 4
  | .event => 5
  | .snapshot => 6
  | .gap => 7
  | .heartbeat => 8
  | .error => 9

/-- `CodecError`. -/
inductive CodecError where
  | tooShort
  | tooLarge
  | invalidMagic
  | invalidVersion
  | invalidHeader
  | unsupported
  | truncatedTlv
  | invalidTlv
  deriving DecidableEq, Repr

/-- `Kind::try_from`. -/
def Kind.tryFrom (value : UInt8) : Except CodecError Kind :=
  match value.toNat with
  | 1 => .ok .hello
  | 2 => .ok .welcome
  | 3 => .ok .request
  | 4 => .ok .response
  | 5 => .ok .event
  | 6 => .ok .snapshot
  | 7 => .ok .gap
  | 8 => .ok .heartbeat
  | 9 => .ok .error
  | _ => .error .unsupported

/-- `Header`. -/
structure Header where
  kind : Kind
  flags : BitVec 16
  channel : BitVec 16
  payloadLen : U32
  sessionId : BitVec 64
  messageId : U32
  correlationId : U32
  deriving DecidableEq, Repr

/-- `Header::encode`. -/
def Header.encode (self : Header) : Except CodecError Bytes :=
  if self.payloadLen.toNat > maxPayload then .error .tooLarge
  else
    .ok (magic ++ [keelinkVersion, self.kind.toByte] ++ toLeBytes 2 self.flags ++
      toLeBytes 2 self.channel ++ toLeBytes 2 (BitVec.ofNat 16 headerSize) ++
      toLeBytes 4 self.payloadLen ++ toLeBytes 8 self.sessionId ++
      toLeBytes 4 self.messageId ++ toLeBytes 4 self.correlationId)

/-- The slice `frame[start..start + len]`. -/
def slice (frame : Bytes) (start len : ℕ) : Bytes :=
  (frame.drop start).take len

/-- `Header::decode`. -/
def Header.decode (frame : Bytes) : Except CodecError Header :=
  if frame.length < headerSize then .error .tooShort
  else if slice frame 0 4 ≠ magic then .error .invalidMagic
  else if frame.getD 4 0 ≠ keelinkVersion then .error .invalidVersion
  else if (fromLeBytes 16 (slice frame 10 2)).toNat ≠ headerSize then .error .invalidHeader
  else
    let payloadLen := fromLeBytes 32 (slice frame 12 4)
    if payloadLen.toNat > maxPayload then .error .tooLarge
    else if frame.length ≠ headerSize + payloadLen.toNat then .error .invalidHeader
    else
      match Kind.tryFrom (frame.getD 5 0) with
      | .error err => .error err
      | .ok kind =>
          .ok
            { kind := kind
              flags := fromLeBytes 16 (slice frame 6 2)
              channel := fromLeBytes 16 (slice frame 8 2)
              payloadLen := payloadLen
              sessionId := fromLeBytes 64 (slice frame 16 8)
              messageId := fromLeBytes 32 (slice frame 24 4)
              correlationId := fromLeBytes 32 (slice frame 28 4) }

/-! ## The same bytes -/

theorem putU16_eq (v : BitVec 16) : putU16 v = toLeBytes 2 v :=
  map_shift_eq 2 v

theorem putU32_eq (v : U32) : putU32 v = toLeBytes 4 v :=
  map_shift_eq 4 v

theorem putU64_eq (v : BitVec 64) : putU64 v = toLeBytes 8 v :=
  map_shift_eq 8 v

section Slices

variable {frame : Bytes}

theorem getU16_drop {start : ℕ} (h : start + 2 ≤ frame.length) :
    getU16 (frame.drop start) = fromLeBytes 16 (slice frame start 2) := by
  have hlength : 2 ≤ (frame.drop start).length := by
    rw [List.length_drop]
    omega
  rw [slice, ← foldl_shift_eq hlength (by decide : 8 * 2 ≤ 16)]
  simp [getU16, List.range_succ]

theorem getU32_drop {start : ℕ} (h : start + 4 ≤ frame.length) :
    getU32 (frame.drop start) = fromLeBytes 32 (slice frame start 4) := by
  have hlength : 4 ≤ (frame.drop start).length := by
    rw [List.length_drop]
    omega
  exact foldl_shift_eq hlength (by decide)

theorem getU64_drop {start : ℕ} (h : start + 8 ≤ frame.length) :
    getU64 (frame.drop start) = fromLeBytes 64 (slice frame start 8) := by
  have hlength : 8 ≤ (frame.drop start).length := by
    rw [List.length_drop]
    omega
  exact foldl_shift_eq hlength (by decide)

theorem length_slice {start len : ℕ} (h : start + len ≤ frame.length) :
    (slice frame start len).length = len := by
  rw [slice, List.length_take, List.length_drop]
  omega

/-- Two slices that follow one another. -/
theorem slice_append (start len more : ℕ) :
    slice frame start len ++ slice frame (start + len) more =
      slice frame start (len + more) := by
  rw [slice, slice, slice, List.take_add, List.drop_drop]

theorem slice_one {start : ℕ} (h : start < frame.length) :
    slice frame start 1 = [frame.getD start 0] := by
  rw [slice, List.getD_eq_getElem?_getD, List.getElem?_eq_getElem h, Option.getD_some,
    List.drop_eq_getElem_cons h]
  rfl

end Slices

/-- The header in C that a header in Rust is. -/
def Header.toC (self : Header) : KeelinkHeader where
  kind := self.kind.toByte
  flags := self.flags
  channel := self.channel
  payloadLen := self.payloadLen
  sessionId := self.sessionId
  messageId := self.messageId
  correlationId := self.correlationId

theorem tryFrom_toByte (kind : Kind) : Kind.tryFrom kind.toByte = .ok kind := by
  cases kind <;> rfl

/-- `try_from` inverts the cast. -/
theorem tryFrom_eq_ok {value : UInt8} {kind : Kind} :
    Kind.tryFrom value = .ok kind ↔ value = kind.toByte := by
  constructor
  · intro h
    rw [Kind.tryFrom] at h
    split at h
    all_goals first
      | cases h; apply UInt8.toNat_inj.mp; assumption
      | cases h
  · rintro rfl
    exact tryFrom_toByte kind

/-- The kinds that C lets through are the ones that Rust knows. -/
theorem kind_range {value : UInt8} :
    ¬(value < kindHello ∨ value > kindError) ↔ ∃ kind : Kind, value = kind.toByte := by
  constructor
  · intro h
    have hrange : 1 ≤ value.toNat ∧ value.toNat ≤ 9 := by
      simp only [kindHello, kindError, UInt8.lt_iff_toNat_lt, gt_iff_lt, not_or,
        Nat.not_lt] at h
      exact h
    cases hkind : Kind.tryFrom value with
    | ok kind => exact ⟨kind, tryFrom_eq_ok.mp hkind⟩
    | error err =>
        exfalso
        rw [Kind.tryFrom] at hkind
        split at hkind
        all_goals cases hkind
        simp only [imp_false] at *
        omega
  · rintro ⟨kind, rfl⟩
    cases kind <;> decide

/-- The two encoders produce the same bytes. -/
theorem encodeHeader_toC (h : Header) (hlen : h.payloadLen.toNat ≤ maxPayload) :
    ∃ bytes, encodeHeader h.toC = .ok bytes ∧ h.encode = .ok bytes ∧
      bytes.length = headerSize := by
  have hkind : ¬(h.kind.toByte < kindHello ∨ h.kind.toByte > kindError) :=
    kind_range.mpr ⟨h.kind, rfl⟩
  have hguard : ¬(h.toC.kind < kindHello ∨ h.toC.kind > kindError ∨
      h.toC.payloadLen.toNat > maxPayload) := by
    rintro (hlow | hhigh | hlong)
    · exact hkind (.inl hlow)
    · exact hkind (.inr hhigh)
    · exact absurd hlen (Nat.not_le.mpr hlong)
  rw [encodeHeader, if_neg hguard, Header.encode, if_neg (Nat.not_lt.mpr hlen)]
  simp only [putU16_eq, putU32_eq, putU64_eq]
  refine ⟨_, rfl, rfl, ?_⟩
  simp only [List.length_append, length_toLeBytes]
  rfl

/-! ## The same headers -/

/-- Rust reads a header back from what it wrote. -/
theorem decode_encode {h : Header} {bytes payload : Bytes} (hencode : h.encode = .ok bytes)
    (hpayload : payload.length = h.payloadLen.toNat) :
    Header.decode (bytes ++ payload) = .ok h := by
  rw [Header.encode] at hencode
  split at hencode
  · cases hencode
  · next hfits =>
      cases hencode
      generalize hframe : magic ++ [keelinkVersion, h.kind.toByte] ++ toLeBytes 2 h.flags ++
        toLeBytes 2 h.channel ++ toLeBytes 2 (BitVec.ofNat 16 headerSize) ++
        toLeBytes 4 h.payloadLen ++ toLeBytes 8 h.sessionId ++ toLeBytes 4 h.messageId ++
        toLeBytes 4 h.correlationId ++ payload = frame
      have hlength : frame.length = headerSize + h.payloadLen.toNat := by
        rw [← hframe, ← hpayload]
        simp only [List.length_append, length_toLeBytes]
        rfl
      have hmagic : slice frame 0 4 = magic := hframe ▸ rfl
      have hversion : frame.getD 4 0 = keelinkVersion := hframe ▸ rfl
      have hkind : frame.getD 5 0 = h.kind.toByte := hframe ▸ rfl
      have hflags : slice frame 6 2 = toLeBytes 2 h.flags := hframe ▸ rfl
      have hchannel : slice frame 8 2 = toLeBytes 2 h.channel := hframe ▸ rfl
      have hsize : slice frame 10 2 = toLeBytes 2 (BitVec.ofNat 16 headerSize) := hframe ▸ rfl
      have hpayloadLen : slice frame 12 4 = toLeBytes 4 h.payloadLen := hframe ▸ rfl
      have hsession : slice frame 16 8 = toLeBytes 8 h.sessionId := hframe ▸ rfl
      have hmessage : slice frame 24 4 = toLeBytes 4 h.messageId := hframe ▸ rfl
      have hcorrelation : slice frame 28 4 = toLeBytes 4 h.correlationId := hframe ▸ rfl
      have hword16 (v : BitVec 16) : fromLeBytes 16 (toLeBytes 2 v) = v :=
        @fromLeBytes_toLeBytes 2 v
      have hword32 (v : U32) : fromLeBytes 32 (toLeBytes 4 v) = v :=
        @fromLeBytes_toLeBytes 4 v
      have hword64 (v : BitVec 64) : fromLeBytes 64 (toLeBytes 8 v) = v :=
        @fromLeBytes_toLeBytes 8 v
      rw [Header.decode, if_neg (by omega), hmagic, if_neg (by simp), hversion,
        if_neg (by simp), hsize, hword16, if_neg (by decide), hpayloadLen, hword32]
      simp only
      rw [if_neg hfits, hlength, if_neg (by simp), hkind, tryFrom_toByte, hflags, hchannel,
        hsession, hmessage, hcorrelation]
      simp only [hword16, hword32, hword64]

/-- What Rust reads of a frame that it accepts. -/
theorem decode_ok {frame : Bytes} {h : Header} (hdecode : Header.decode frame = .ok h) :
    headerSize ≤ frame.length ∧ slice frame 0 4 = magic ∧ frame.getD 4 0 = keelinkVersion ∧
      (fromLeBytes 16 (slice frame 10 2)).toNat = headerSize ∧
      h.payloadLen.toNat ≤ maxPayload ∧ frame.length = headerSize + h.payloadLen.toNat ∧
      frame.getD 5 0 = h.kind.toByte ∧ h.flags = fromLeBytes 16 (slice frame 6 2) ∧
      h.channel = fromLeBytes 16 (slice frame 8 2) ∧
      h.payloadLen = fromLeBytes 32 (slice frame 12 4) ∧
      h.sessionId = fromLeBytes 64 (slice frame 16 8) ∧
      h.messageId = fromLeBytes 32 (slice frame 24 4) ∧
      h.correlationId = fromLeBytes 32 (slice frame 28 4) := by
  simp only [Header.decode] at hdecode
  split at hdecode
  · cases hdecode
  split at hdecode
  · cases hdecode
  split at hdecode
  · cases hdecode
  split at hdecode
  · cases hdecode
  split at hdecode
  · cases hdecode
  split at hdecode
  · cases hdecode
  next hlength hmagic hversion hsize hfits htotal =>
    cases hkind : Kind.tryFrom (frame.getD 5 0) with
    | error err =>
        rw [hkind] at hdecode
        cases hdecode
    | ok kind =>
        rw [hkind] at hdecode
        cases hdecode
        exact ⟨Nat.not_lt.mp hlength, not_not.mp hmagic, not_not.mp hversion, not_not.mp hsize,
          Nat.not_lt.mp hfits, not_not.mp htotal, tryFrom_eq_ok.mp hkind, rfl, rfl, rfl, rfl,
          rfl, rfl⟩

/-- What Rust accepts starts with the encoding of the header it reads. -/
theorem encode_decode {frame : Bytes} {h : Header} (hdecode : Header.decode frame = .ok h) :
    h.encode = .ok (frame.take headerSize) := by
  obtain ⟨hlength, hmagic, hversion, hsize, hfits, -, hkind, hflags, hchannel, hpayloadLen,
    hsession, hmessage, hcorrelation⟩ := decode_ok hdecode
  have hbound : 32 ≤ frame.length := hlength
  have hword16 {start : ℕ} (h : start + 2 ≤ 32) :
      toLeBytes 2 (fromLeBytes 16 (slice frame start 2)) = slice frame start 2 :=
    @toLeBytes_fromLeBytes 2 _ (length_slice (by omega))
  have hword32 {start : ℕ} (h : start + 4 ≤ 32) :
      toLeBytes 4 (fromLeBytes 32 (slice frame start 4)) = slice frame start 4 :=
    @toLeBytes_fromLeBytes 4 _ (length_slice (by omega))
  have hword64 {start : ℕ} (h : start + 8 ≤ 32) :
      toLeBytes 8 (fromLeBytes 64 (slice frame start 8)) = slice frame start 8 :=
    @toLeBytes_fromLeBytes 8 _ (length_slice (by omega))
  have hheaderSize : toLeBytes 2 (BitVec.ofNat 16 headerSize) = slice frame 10 2 := by
    rw [← hword16 (by decide), ← hsize, BitVec.ofNat_toNat, BitVec.setWidth_eq]
  have htwo : [keelinkVersion, h.kind.toByte] = slice frame 4 2 := by
    rw [← hversion, ← hkind, ← slice_append 4 1 1, slice_one (by omega), slice_one (by omega)]
    rfl
  rw [Header.encode, if_neg (Nat.not_lt.mpr hfits), hheaderSize, htwo, ← hmagic, hflags,
    hchannel, hpayloadLen, hsession, hmessage, hcorrelation, hword16 (by decide),
    hword16 (by decide), hword32 (by decide), hword64 (by decide), hword32 (by decide),
    hword32 (by decide)]
  have hjoin {len more : ℕ} : slice frame 0 len ++ slice frame len more =
      slice frame 0 (len + more) := by
    have happend := @slice_append frame 0 len more
    rwa [Nat.zero_add] at happend
  rw [hjoin, hjoin, hjoin, hjoin, hjoin, hjoin, hjoin, hjoin]
  rfl

/-- C reads what Rust reads. -/
theorem decodeHeader_of_decode {frame : Bytes} {h : Header}
    (hdecode : Header.decode frame = .ok h) (initial : KeelinkHeader) :
    decodeHeader frame initial = (.ok, h.toC) := by
  obtain ⟨hlength, hmagic, hversion, hsize, hfits, htotal, hkind, hflags, hchannel,
    hpayloadLen, hsession, hmessage, hcorrelation⟩ := decode_ok hdecode
  have hbound : 32 ≤ frame.length := hlength
  have hguard : ¬(frame.take 4 ≠ magic ∨ frame.getD 4 0 ≠ keelinkVersion ∨
      (getU16 (frame.drop 10)).toNat ≠ headerSize) := by
    rintro (hother | hother | hother)
    · exact hother hmagic
    · exact hother hversion
    · rw [@getU16_drop _ 10 (by omega)] at hother
      exact hother hsize
  have hlen : getU32 (frame.drop 12) = h.payloadLen := by
    rw [hpayloadLen, @getU32_drop frame 12 (by omega)]
  have hsizes : ¬(h.payloadLen.toNat > maxPayload ∨
      frame.length ≠ headerSize + h.payloadLen.toNat) := by
    rintro (hother | hother)
    · exact absurd hfits (Nat.not_le.mpr hother)
    · exact hother htotal
  rw [decodeHeader, if_neg (Nat.not_lt.mpr hlength), if_neg hguard]
  simp only
  rw [hlen, if_neg hsizes, hkind, if_neg (kind_range.mpr ⟨h.kind, rfl⟩),
    @getU16_drop frame 6 (by omega), @getU16_drop frame 8 (by omega),
    @getU64_drop frame 16 (by omega), @getU32_drop frame 24 (by omega),
    @getU32_drop frame 28 (by omega), ← hflags, ← hchannel, ← hsession, ← hmessage,
    ← hcorrelation]
  rfl

/-- Rust accepts what C accepts. -/
theorem decode_of_decodeHeader {frame : Bytes} {initial : KeelinkHeader}
    (h : (decodeHeader frame initial).1 = .ok) : ∃ header, Header.decode frame = .ok header := by
  simp only [decodeHeader] at h
  split at h
  · cases h
  split at h
  · cases h
  split at h
  · cases h
  split at h
  · cases h
  next hlength hguard hsizes hkind =>
    obtain ⟨kind, hkind⟩ := kind_range.mp hkind
    push Not at hguard hsizes
    obtain ⟨hmagic, hversion, hsize⟩ := hguard
    have hbound : 32 ≤ frame.length := Nat.not_lt.mp hlength
    have hslice : slice frame 0 4 = magic := hmagic
    rw [@getU16_drop frame 10 (by omega)] at hsize
    rw [@getU32_drop frame 12 (by omega)] at hsizes
    cases hdecode : Header.decode frame with
    | ok header => exact ⟨header, rfl⟩
    | error err =>
        rw [Header.decode, if_neg hlength, if_neg (not_not_intro hslice),
          if_neg (not_not_intro hversion), if_neg (not_not_intro hsize)] at hdecode
        simp only at hdecode
        rw [if_neg (Nat.not_lt.mpr hsizes.1), if_neg (not_not_intro hsizes.2), hkind,
          tryFrom_toByte] at hdecode
        cases hdecode

/-- A header that C lets through is one of Rust's. -/
theorem exists_toC {header : KeelinkHeader} (hlow : kindHello ≤ header.kind)
    (hhigh : header.kind ≤ kindError) : ∃ h : Header, h.toC = header := by
  have hrange : ¬(header.kind < kindHello ∨ header.kind > kindError) := by
    rintro (hother | hother)
    · exact UInt8.not_lt.mpr hlow hother
    · exact UInt8.not_lt.mpr hhigh hother
  obtain ⟨kind, hkind⟩ := kind_range.mp hrange
  refine ⟨⟨kind, header.flags, header.channel, header.payloadLen, header.sessionId,
    header.messageId, header.correlationId⟩, ?_⟩
  rw [Header.toC, ← hkind]

/-- The two codecs agree: each reads back what either writes, both accept the same
frames and read the same header, and what they accept is the encoding of what they
read. -/
theorem headerCodec_agree :
    (∀ (h : Header) (payload : Bytes) (initial : KeelinkHeader),
      h.payloadLen.toNat ≤ maxPayload → payload.length = h.payloadLen.toNat →
      ∃ bytes, encodeHeader h.toC = .ok bytes ∧ h.encode = .ok bytes ∧
        bytes.length = headerSize ∧ Header.decode (bytes ++ payload) = .ok h ∧
        decodeHeader (bytes ++ payload) initial = (.ok, h.toC)) ∧
      (∀ (header : KeelinkHeader) (payload : Bytes) (initial : KeelinkHeader),
        kindHello ≤ header.kind → header.kind ≤ kindError →
        header.payloadLen.toNat ≤ maxPayload → payload.length = header.payloadLen.toNat →
        ∃ bytes, encodeHeader header = .ok bytes ∧ bytes.length = headerSize ∧
          decodeHeader (bytes ++ payload) initial = (.ok, header)) ∧
      ∀ (frame : Bytes) (initial : KeelinkHeader),
        ((decodeHeader frame initial).1 = .ok ↔ ∃ h, Header.decode frame = .ok h) ∧
          (∀ h, Header.decode frame = .ok h →
            (decodeHeader frame initial).2 = h.toC ∧ h.encode = .ok (frame.take headerSize)) ∧
          ((decodeHeader frame initial).1 = .ok →
            encodeHeader (decodeHeader frame initial).2 = .ok (frame.take headerSize)) := by
  have hround (h : Header) (payload : Bytes) (initial : KeelinkHeader)
      (hfits : h.payloadLen.toNat ≤ maxPayload)
      (hpayload : payload.length = h.payloadLen.toNat) :
      ∃ bytes, encodeHeader h.toC = .ok bytes ∧ h.encode = .ok bytes ∧
        bytes.length = headerSize ∧ Header.decode (bytes ++ payload) = .ok h ∧
        decodeHeader (bytes ++ payload) initial = (.ok, h.toC) := by
    obtain ⟨bytes, hc, hrust, hlength⟩ := encodeHeader_toC h hfits
    have hdecode := decode_encode hrust hpayload
    exact ⟨bytes, hc, hrust, hlength, hdecode, decodeHeader_of_decode hdecode initial⟩
  refine ⟨hround, ?_, ?_⟩
  · intro header payload initial hlow hhigh hfits hpayload
    obtain ⟨h, rfl⟩ := exists_toC hlow hhigh
    obtain ⟨bytes, hc, -, hlength, -, hdecode⟩ := hround h payload initial hfits hpayload
    exact ⟨bytes, hc, hlength, hdecode⟩
  · intro frame initial
    refine ⟨⟨decode_of_decodeHeader, ?_⟩, ?_, ?_⟩
    · rintro ⟨h, hdecode⟩
      rw [decodeHeader_of_decode hdecode]
    · intro h hdecode
      exact ⟨by rw [decodeHeader_of_decode hdecode], encode_decode hdecode⟩
    · intro hok
      obtain ⟨h, hdecode⟩ := decode_of_decodeHeader hok
      obtain ⟨bytes, hc, hrust, -⟩ := encodeHeader_toC h (decode_ok hdecode).2.2.2.2.1
      have hsame : bytes = frame.take headerSize :=
        Except.ok.inj (hrust.symm.trans (encode_decode hdecode))
      rw [decodeHeader_of_decode hdecode, hc, hsame]

/-- The header of `keemash_keelink_selftest` and of `golden_header_and_tlv`. -/
def goldenHeader : Header where
  kind := .hello
  flags := 0
  channel := 1
  payloadLen := 21
  sessionId := 0x0102030405060708
  messageId := 9
  correlationId := 0

theorem headerCodec_agree_golden (payload : Fin 21 → UInt8) :
    ∃ bytes, goldenHeader.encode = .ok bytes ∧
      decodeHeader (bytes ++ List.ofFn payload) goldenHeader.toC =
        (.ok, goldenHeader.toC) := by
  obtain ⟨bytes, -, hrust, -, -, hdecode⟩ := headerCodec_agree.1 goldenHeader
    (List.ofFn payload) goldenHeader.toC (by decide) (by simp [goldenHeader])
  exact ⟨bytes, hrust, hdecode⟩

example : goldenHeader.encode = .ok
    [0x4b, 0x4c, 0x4e, 0x4b, 0x01, 0x01, 0x00, 0x00, 0x01, 0x00, 0x20, 0x00, 0x15, 0x00, 0x00,
      0x00, 0x08, 0x07, 0x06, 0x05, 0x04, 0x03, 0x02, 0x01, 0x09, 0x00, 0x00, 0x00, 0x00, 0x00,
      0x00, 0x00] := by
  decide

end KeemashCore.KeeLink

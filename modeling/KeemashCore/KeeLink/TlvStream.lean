import KeemashCore.KeeLink.Tlv
import Mathlib.Data.List.TakeWhile

/-!
# Reading fields back

A field is read where its bytes stand whole, whoever wrote them.  From this come
the round trip of the writers and the readers of both languages, and where the two
readers part: only the one in Rust refuses a field with the id zero.
-/

namespace KeemashCore.KeeLink

open LittleEndian

/-! ## Fields that stand whole -/

/-- The length of the value fits its two bytes. -/
def Tlv.Whole (tlv : Tlv) : Prop :=
  tlv.value.length ≤ uint16Max

theorem Tlv.stored_eq (tlv : Tlv) :
    tlv.stored = toLeBytes 2 tlv.fieldId ++ [tlv.type, tlv.flags] ++
      toLeBytes 2 (BitVec.ofNat 16 tlv.value.length) ++ tlv.value := by
  rw [Tlv.stored, putU16_eq, putU16_eq]

theorem Tlv.size_pos (tlv : Tlv) : 0 < tlv.size :=
  Nat.add_pos_left (by decide) _

/-- The first six bytes of a field, taken apart. -/
theorem header_split {p : Bytes} (h : tlvHeaderSize ≤ p.length) :
    p = toLeBytes 2 (fromLeBytes 16 (slice p 0 2)) ++ [p.getD 2 0, p.getD 3 0] ++
      toLeBytes 2 (fromLeBytes 16 (slice p 4 2)) ++ p.drop tlvHeaderSize := by
  have hsix : 6 ≤ p.length := h
  have hfield : toLeBytes 2 (fromLeBytes 16 (slice p 0 2)) = slice p 0 2 :=
    @toLeBytes_fromLeBytes 2 _ (length_slice (by omega))
  have hlength : toLeBytes 2 (fromLeBytes 16 (slice p 4 2)) = slice p 4 2 :=
    @toLeBytes_fromLeBytes 2 _ (length_slice (by omega))
  have htwo : [p.getD 2 0, p.getD 3 0] = slice p 2 2 := by
    rw [← slice_append 2 1 1, slice_one (by omega), slice_one (by omega)]
    rfl
  have hjoin {len more : ℕ} : slice p 0 len ++ slice p len more = slice p 0 (len + more) := by
    have happend := @slice_append p 0 len more
    rwa [Nat.zero_add] at happend
  rw [hfield, hlength, htwo, hjoin, hjoin]
  exact (List.take_append_drop 6 p).symm

/-- The fields of the header of a field that stands whole. -/
theorem header_stored {tlv : Tlv} (hwhole : tlv.Whole) (rest : Bytes) :
    fromLeBytes 16 (slice (tlv.stored ++ rest) 0 2) = tlv.fieldId ∧
      (tlv.stored ++ rest).getD 2 0 = tlv.type ∧ (tlv.stored ++ rest).getD 3 0 = tlv.flags ∧
      (fromLeBytes 16 (slice (tlv.stored ++ rest) 4 2)).toNat = tlv.value.length ∧
      (tlv.stored ++ rest).drop tlvHeaderSize = tlv.value ++ rest := by
  have hword (v : BitVec 16) : fromLeBytes 16 (toLeBytes 2 v) = v :=
    @fromLeBytes_toLeBytes 2 v
  rw [Tlv.stored_eq]
  have hfield : slice (toLeBytes 2 tlv.fieldId ++ [tlv.type, tlv.flags] ++
      toLeBytes 2 (BitVec.ofNat 16 tlv.value.length) ++ tlv.value ++ rest) 0 2 =
        toLeBytes 2 tlv.fieldId := rfl
  have hlength : slice (toLeBytes 2 tlv.fieldId ++ [tlv.type, tlv.flags] ++
      toLeBytes 2 (BitVec.ofNat 16 tlv.value.length) ++ tlv.value ++ rest) 4 2 =
        toLeBytes 2 (BitVec.ofNat 16 tlv.value.length) := rfl
  refine ⟨by rw [hfield, hword], rfl, rfl, ?_, rfl⟩
  rw [hlength, hword, BitVec.toNat_ofNat, Nat.mod_eq_of_lt]
  exact Nat.lt_succ_of_le hwhole

/-- The field that the first six bytes announce. -/
def fieldAt (p : Bytes) : Tlv where
  fieldId := fromLeBytes 16 (slice p 0 2)
  type := p.getD 2 0
  flags := p.getD 3 0
  value := slice p tlvHeaderSize (fromLeBytes 16 (slice p 4 2)).toNat

/-- A field that is announced and fits stands whole. -/
theorem fieldAt_whole {p : Bytes}
    (hfits : tlvHeaderSize + (fromLeBytes 16 (slice p 4 2)).toNat ≤ p.length) :
    (fieldAt p).Whole ∧ ∃ rest, p = (fieldAt p).stored ++ rest := by
  have hvalue : (fieldAt p).value.length = (fromLeBytes 16 (slice p 4 2)).toNat :=
    length_slice hfits
  have hjoin : (fieldAt p).value ++ (p.drop tlvHeaderSize).drop
      (fromLeBytes 16 (slice p 4 2)).toNat = p.drop tlvHeaderSize :=
    List.take_append_drop _ _
  refine ⟨?_, (p.drop tlvHeaderSize).drop (fromLeBytes 16 (slice p 4 2)).toNat, ?_⟩
  · rw [Tlv.Whole, hvalue]
    exact Nat.le_of_lt_succ (fromLeBytes 16 (slice p 4 2)).isLt
  · rw [Tlv.stored_eq, hvalue, BitVec.ofNat_toNat, BitVec.setWidth_eq, List.append_assoc, hjoin]
    exact header_split (Nat.le_trans (Nat.le_add_right _ _) hfits)

/-! ## The reader in C -/

/-- The bytes that are still to be read. -/
def Reader.rest (reader : Reader) : Bytes :=
  reader.buffer.drop reader.offset

/-- The reader stands inside its buffer. -/
def Reader.Inside (reader : Reader) : Prop :=
  reader.offset ≤ reader.buffer.length

/-- The reader behind a field. -/
def Reader.skip (reader : Reader) (tlv : Tlv) : Reader :=
  { reader with offset := reader.offset + tlv.size }

theorem Reader.length_rest {reader : Reader} (h : reader.Inside) :
    reader.offset + reader.rest.length = reader.buffer.length := by
  rw [Reader.rest, List.length_drop]
  exact Nat.add_sub_cancel' h

/-- A field that stands whole is read. -/
theorem Reader.next_stored {reader : Reader} (hinside : reader.Inside) {tlv : Tlv}
    (hwhole : tlv.Whole) {rest : Bytes} (hrest : reader.rest = tlv.stored ++ rest) :
    reader.next = (.ok tlv, reader.skip tlv) ∧ (reader.skip tlv).Inside ∧
      (reader.skip tlv).rest = rest := by
  have hlength := Reader.length_rest hinside
  rw [hrest, List.length_append, Tlv.length_stored] at hlength
  have hpos := tlv.size_pos
  have hsize : tlv.size = tlvHeaderSize + tlv.value.length := rfl
  obtain ⟨hfield, htype, hflags, hvalue, hdrop⟩ := header_stored hwhole rest
  have hsix : 6 ≤ (tlv.stored ++ rest).length := by
    rw [List.length_append, Tlv.length_stored, hsize]
    exact Nat.le_trans (Nat.le_add_right 6 _) (Nat.le_add_right _ _)
  have hget : (getU16 ((tlv.stored ++ rest).drop 4)).toNat = tlv.value.length := by
    rw [getU16_drop (by omega), hvalue]
  have hgetField : getU16 (tlv.stored ++ rest) = tlv.fieldId := by
    rw [← hfield]
    exact @getU16_drop _ 0 (by omega)
  refine ⟨?_, ?_, ?_⟩
  · rw [Reader.next, if_neg (by omega), if_neg (by omega)]
    simp only
    rw [← Reader.rest, hrest, hget, if_neg (by omega), hgetField, htype, hflags, hdrop,
      List.take_left]
    rfl
  · rw [Reader.Inside, Reader.skip]
    dsimp only
    omega
  · rw [Reader.rest, Reader.skip, ← List.drop_drop, ← Reader.rest, hrest, ← Tlv.length_stored,
      List.drop_left]

/-- What is read stood whole. -/
theorem Reader.stored_of_next {reader reader' : Reader} (hinside : reader.Inside) {tlv : Tlv}
    (hnext : reader.next = (.ok tlv, reader')) :
    tlv.Whole ∧ ∃ rest, reader.rest = tlv.stored ++ rest := by
  simp only [Reader.next] at hnext
  split at hnext
  · cases hnext
  split at hnext
  · cases hnext
  split at hnext
  · cases hnext
  next hend hheader hfits =>
    have hlength := Reader.length_rest hinside
    have hsix : 6 ≤ reader.rest.length := by
      rw [tlvHeaderSize] at hheader
      omega
    rw [← Reader.rest, getU16_drop (hsix : 4 + 2 ≤ reader.rest.length)] at hnext hfits
    have hword : getU16 reader.rest = fromLeBytes 16 (slice reader.rest 0 2) :=
      @getU16_drop reader.rest 0 (by omega)
    rw [hword] at hnext
    obtain ⟨htlv, -⟩ := Prod.mk.inj hnext
    obtain rfl := Except.ok.inj htlv
    exact fieldAt_whole (by omega)

/-- No whole field stands at the start of the bytes. -/
def Stuck (bytes : Bytes) : Prop :=
  ∀ tlv : Tlv, tlv.Whole → ∀ rest, bytes ≠ tlv.stored ++ rest

/-- What the reader in C returns when it stops in front of these bytes. -/
def stopsWith (rest : Bytes) : EspErr :=
  if rest = [] then .notFound else .invalidSize

theorem Reader.rest_eq_nil {reader : Reader} (hinside : reader.Inside) :
    reader.rest = [] ↔ reader.offset = reader.buffer.length := by
  rw [Reader.rest, List.drop_eq_nil_iff]
  exact ⟨Nat.le_antisymm hinside, Nat.le_of_eq ∘ Eq.symm⟩

theorem Reader.next_stuck {reader : Reader} (hinside : reader.Inside)
    (hstuck : Stuck reader.rest) : reader.next = (.error (stopsWith reader.rest), reader) := by
  by_cases hend : reader.offset = reader.buffer.length
  · rw [Reader.next, if_pos hend, stopsWith, if_pos ((Reader.rest_eq_nil hinside).2 hend)]
  · have hne : reader.rest ≠ [] := mt (Reader.rest_eq_nil hinside).1 hend
    rw [stopsWith, if_neg hne]
    rcases hnext : reader.next with ⟨err | tlv, reader'⟩
    case ok =>
        obtain ⟨hwhole, rest, hrest⟩ := Reader.stored_of_next hinside hnext
        exact absurd hrest (hstuck tlv hwhole rest)
    case error =>
        simp only [Reader.next, if_neg hend] at hnext
        split at hnext
        · exact hnext.symm
        split at hnext
        · exact hnext.symm
        · cases hnext

/-- The reader in C returns the fields that stand whole and then stops. -/
theorem Reader.reads_stored {tlvs : List Tlv} :
    ∀ {reader : Reader} {rest : Bytes}, reader.Inside → (∀ tlv ∈ tlvs, tlv.Whole) →
      reader.rest = tlvs.flatMap Tlv.stored ++ rest → Stuck rest →
        reader.Reads tlvs (stopsWith rest) := by
  induction tlvs with
  | nil =>
      intro reader rest hinside _ hrest hstuck
      have hrest : reader.rest = rest := hrest
      subst hrest
      exact .stop (Reader.next_stuck hinside hstuck)
  | cons tlv tlvs ih =>
      intro reader rest hinside hwhole hrest hstuck
      rw [List.flatMap_cons, List.append_assoc] at hrest
      obtain ⟨hnext, hinside', hrest'⟩ :=
        Reader.next_stored hinside (hwhole tlv List.mem_cons_self) hrest
      refine .more hnext (ih hinside' ?_ hrest' hstuck)
      intro other hother
      exact hwhole other (List.mem_cons_of_mem tlv hother)

theorem Reader.Reads.unique {reader : Reader} {tlvs tlvs' : List Tlv} {err err' : EspErr}
    (h : reader.Reads tlvs err) (h' : reader.Reads tlvs' err') : tlvs = tlvs' ∧ err = err' := by
  induction h generalizing tlvs' with
  | stop hnext =>
      cases h' with
      | stop hnext' =>
          rw [hnext] at hnext'
          cases hnext'
          exact ⟨rfl, rfl⟩
      | more hnext' _ =>
          rw [hnext] at hnext'
          cases hnext'
  | more hnext _ ih =>
      cases h' with
      | stop hnext' =>
          rw [hnext] at hnext'
          cases hnext'
      | more hnext' hrest' =>
          rw [hnext] at hnext'
          cases hnext'
          obtain ⟨rfl, rfl⟩ := ih hrest'
          exact ⟨rfl, rfl⟩

/-! ## Every byte string -/

/-- Every byte string is a list of whole fields and a rest that starts with none. -/
theorem exists_fields (bytes : Bytes) :
    ∃ (tlvs : List Tlv) (rest : Bytes), (∀ tlv ∈ tlvs, tlv.Whole) ∧
      bytes = tlvs.flatMap Tlv.stored ++ rest ∧ Stuck rest := by
  induction hlength : bytes.length using Nat.strong_induction_on generalizing bytes with
  | _ length ih =>
    by_cases hstuck : Stuck bytes
    · exact ⟨[], bytes, by simp, rfl, hstuck⟩
    · unfold Stuck at hstuck
      push Not at hstuck
      obtain ⟨tlv, hwhole, rest, rfl⟩ := hstuck
      have hpos := tlv.size_pos
      rw [List.length_append, Tlv.length_stored] at hlength
      obtain ⟨tlvs, last, hwholes, rfl, hlast⟩ := ih rest.length (by omega) rest rfl
      refine ⟨tlv :: tlvs, last, ?_, ?_, hlast⟩
      · intro other hother
        rcases List.mem_cons.1 hother with rfl | hother
        · exact hwhole
        · exact hwholes other hother
      · rw [List.flatMap_cons, List.append_assoc]

/-! ## The iterator in Rust -/

/-- The bytes that are still to be read. -/
def TlvIter.rest (self : TlvIter) : Bytes :=
  self.data.drop self.offset

/-- The iterator stands inside its data. -/
def TlvIter.Inside (self : TlvIter) : Prop :=
  self.offset ≤ self.data.length

/-- The iterator behind a field. -/
def TlvIter.skip (self : TlvIter) (tlv : Tlv) : TlvIter :=
  { self with offset := self.offset + tlv.size }

/-- The iterator at its end. -/
def TlvIter.finish (self : TlvIter) : TlvIter :=
  { self with offset := self.data.length }

theorem TlvIter.length_rest {self : TlvIter} (h : self.Inside) :
    self.offset + self.rest.length = self.data.length := by
  rw [TlvIter.rest, List.length_drop]
  exact Nat.add_sub_cancel' h

/-- Two bytes of the slice, as the iterator takes them. -/
theorem pair_eq_slice {p : Bytes} {start : ℕ} (h : start + 2 ≤ p.length) :
    [p.getD start 0, p.getD (start + 1) 0] = slice p start 2 := by
  rw [← slice_append start 1 1, slice_one (by omega), slice_one (by omega)]
  rfl

/-- A field that stands whole is yielded, unless its id is zero. -/
theorem TlvIter.next_stored {self : TlvIter} (hinside : self.Inside) {tlv : Tlv}
    (hwhole : tlv.Whole) {rest : Bytes} (hrest : self.rest = tlv.stored ++ rest) :
    self.next = (if tlv.fieldId = 0 then (some (.error .invalidTlv), self.finish)
        else (some (.ok tlv), self.skip tlv)) ∧
      (self.skip tlv).Inside ∧ (self.skip tlv).rest = rest := by
  have hlength := TlvIter.length_rest hinside
  rw [hrest, List.length_append, Tlv.length_stored] at hlength
  have hpos := tlv.size_pos
  have hsize : tlv.size = tlvHeaderSize + tlv.value.length := rfl
  obtain ⟨hfield, htype, hflags, hvalue, hdrop⟩ := header_stored hwhole rest
  have hsix : 6 ≤ (tlv.stored ++ rest).length := by
    rw [List.length_append, Tlv.length_stored, hsize]
    exact Nat.le_trans (Nat.le_add_right 6 _) (Nat.le_add_right _ _)
  refine ⟨?_, ?_, ?_⟩
  · rw [TlvIter.next, if_neg (by omega), if_neg (by omega)]
    simp only
    rw [← TlvIter.rest, hrest, pair_eq_slice (by omega), pair_eq_slice (by omega), hfield, hvalue]
    by_cases hzero : tlv.fieldId = 0
    · rw [if_pos (.inl hzero), if_pos hzero]
      rfl
    · have hfits : ¬self.offset + tlvHeaderSize + tlv.value.length > self.data.length := by omega
      rw [if_neg (not_or_intro hzero hfits), if_neg hzero, htype, hflags, slice, hdrop,
        List.take_left]
      rfl
  · rw [TlvIter.Inside, TlvIter.skip]
    dsimp only
    omega
  · rw [TlvIter.rest, TlvIter.skip, ← List.drop_drop, ← TlvIter.rest, hrest,
      ← Tlv.length_stored, List.drop_left]

theorem TlvIter.next_finish (self : TlvIter) : self.finish.next = (none, self.finish) := by
  have hend : self.finish.offset = self.finish.data.length := rfl
  rw [TlvIter.next, if_pos hend]

theorem TlvIter.yields_finish (self : TlvIter) : self.finish.Yields [] :=
  .done self.next_finish

/-- What the iterator yields in front of bytes that start with no whole field. -/
theorem TlvIter.yields_stuck {self : TlvIter} (hinside : self.Inside)
    (hstuck : Stuck self.rest) :
    ∃ items, self.Yields items ∧
      (self.rest = [] ∧ items = [] ∨ self.rest ≠ [] ∧ ∃ err, items = [.error err]) := by
  have hlength := TlvIter.length_rest hinside
  have hnil : self.rest = [] ↔ self.rest.length = 0 := List.length_eq_zero_iff.symm
  by_cases hend : self.offset = self.data.length
  · have hnext : self.next = (none, self) := by rw [TlvIter.next, if_pos hend]
    exact ⟨[], .done hnext, .inl ⟨hnil.2 (by omega), rfl⟩⟩
  · have hne : self.rest ≠ [] := by
      rw [Ne, hnil]
      omega
    suffices h : ∃ err, self.next = (some (.error err), self.finish) by
      obtain ⟨err, hnext⟩ := h
      exact ⟨[.error err], .item hnext self.yields_finish, .inr ⟨hne, err, rfl⟩⟩
    rw [TlvIter.next, if_neg hend]
    split
    · exact ⟨.truncatedTlv, rfl⟩
    next hheader =>
      have hsix : 6 ≤ self.rest.length := by
        rw [tlvHeaderSize] at hheader
        omega
      simp only
      rw [← TlvIter.rest, pair_eq_slice (by omega), pair_eq_slice (by omega)]
      split
      · exact ⟨.invalidTlv, rfl⟩
      next hvalid =>
        obtain ⟨-, hfits⟩ := not_or.1 hvalid
        obtain ⟨hwhole, rest, hrest⟩ := @fieldAt_whole self.rest (by omega)
        exact absurd hrest (hstuck _ hwhole rest)

theorem TlvIter.Yields.unique {self : TlvIter} {items items' : List (Except CodecError Tlv)}
    (h : self.Yields items) (h' : self.Yields items') : items = items' := by
  induction h generalizing items' with
  | done hnext =>
      cases h' with
      | done _ => rfl
      | item hnext' _ =>
          rw [hnext] at hnext'
          cases hnext'
  | item hnext _ ih =>
      cases h' with
      | done hnext' =>
          rw [hnext] at hnext'
          cases hnext'
      | item hnext' hrest' =>
          rw [hnext] at hnext'
          cases hnext'
          rw [ih hrest']

/-- The fields that are yielded before the first error or the end. -/
def fieldsYielded : List (Except CodecError Tlv) → List Tlv
  | .ok tlv :: items => tlv :: fieldsYielded items
  | _ => []

/-- The items end without an error. -/
def EndsWithoutErr (items : List (Except CodecError Tlv)) : Prop :=
  ∀ err, .error err ∉ items

theorem fieldsYielded_ok (tlvs : List Tlv) (items : List (Except CodecError Tlv)) :
    fieldsYielded (tlvs.map .ok ++ items) = tlvs ++ fieldsYielded items := by
  induction tlvs with
  | nil => rfl
  | cons tlv tlvs ih => rw [List.map_cons, List.cons_append, fieldsYielded, ih, List.cons_append]

theorem endsWithoutErr_ok (tlvs : List Tlv) (items : List (Except CodecError Tlv)) :
    EndsWithoutErr (tlvs.map .ok ++ items) ↔ EndsWithoutErr items := by
  simp [EndsWithoutErr]

/-- The iterator yields the fields that stand whole, up to an id that is zero, and
behind the last of them an error unless the data ends there. -/
theorem TlvIter.yields_stored {tlvs : List Tlv} :
    ∀ {self : TlvIter} {rest : Bytes}, self.Inside → (∀ tlv ∈ tlvs, tlv.Whole) →
      self.rest = tlvs.flatMap Tlv.stored ++ rest → Stuck rest →
        ∃ items, self.Yields ((tlvs.takeWhile (·.fieldId ≠ 0)).map .ok ++ items) ∧
          ((∀ tlv ∈ tlvs, tlv.fieldId ≠ 0) ∧ rest = [] ∧ items = [] ∨
            ¬((∀ tlv ∈ tlvs, tlv.fieldId ≠ 0) ∧ rest = []) ∧
              ∃ err, items = [.error err]) := by
  induction tlvs with
  | nil =>
      intro self rest hinside _ hrest hstuck
      have hrest : self.rest = rest := hrest
      subst hrest
      obtain ⟨items, hyields, hitems⟩ := TlvIter.yields_stuck hinside hstuck
      refine ⟨items, hyields, hitems.imp ?_ ?_⟩
      · rintro ⟨hnil, hitems⟩
        exact ⟨by simp, hnil, hitems⟩
      · rintro ⟨hne, hitems⟩
        exact ⟨fun h => hne h.2, hitems⟩
  | cons tlv tlvs ih =>
      intro self rest hinside hwhole hrest hstuck
      rw [List.flatMap_cons, List.append_assoc] at hrest
      obtain ⟨hnext, hinside', hrest'⟩ :=
        TlvIter.next_stored hinside (hwhole tlv List.mem_cons_self) hrest
      by_cases hzero : tlv.fieldId = 0
      · rw [if_pos hzero] at hnext
        refine ⟨[.error .invalidTlv], ?_, .inr ⟨?_, .invalidTlv, rfl⟩⟩
        · rw [List.takeWhile_cons_of_neg (by simpa using hzero)]
          exact .item hnext self.yields_finish
        · rintro ⟨hall, -⟩
          exact hall tlv List.mem_cons_self hzero
      · rw [if_neg hzero] at hnext
        obtain ⟨items, hyields, hitems⟩ :=
          ih hinside' (fun other hother => hwhole other (List.mem_cons_of_mem tlv hother))
            hrest' hstuck
        have hall : (∀ other ∈ tlv :: tlvs, other.fieldId ≠ 0) ↔
            ∀ other ∈ tlvs, other.fieldId ≠ 0 := by
          rw [List.forall_mem_cons]
          exact and_iff_right hzero
        refine ⟨items, ?_, by rwa [hall]⟩
        rw [List.takeWhile_cons_of_pos (by simpa using hzero)]
        exact .item hnext hyields

/-! ## Where the readers agree -/

/-- Both readers return the same fields before they stop, and the one in C is at
the end of the bytes exactly when the one in Rust stops without an error. -/
def ReadersAgree (bytes : Bytes) : Prop :=
  ∀ tlvs err items, (Reader.init bytes).Reads tlvs err → (TlvIter.new bytes).Yields items →
    tlvs = fieldsYielded items ∧ (err = .notFound ↔ EndsWithoutErr items)

theorem Reader.init_inside (bytes : Bytes) : (Reader.init bytes).Inside :=
  Nat.zero_le _

theorem TlvIter.new_inside (data : Bytes) : (TlvIter.new data).Inside :=
  Nat.zero_le _

/-- Both readers stop. -/
theorem readers_stop (bytes : Bytes) :
    (∃ tlvs err, (Reader.init bytes).Reads tlvs err) ∧ ∃ items, (TlvIter.new bytes).Yields items := by
  obtain ⟨tlvs, rest, hwhole, hbytes, hstuck⟩ := exists_fields bytes
  constructor
  · exact ⟨tlvs, _, Reader.reads_stored (Reader.init_inside bytes) hwhole hbytes hstuck⟩
  · obtain ⟨items, hyields, -⟩ :=
      TlvIter.yields_stored (TlvIter.new_inside bytes) hwhole hbytes hstuck
    exact ⟨_, hyields⟩

theorem stopsWith_eq_notFound {rest : Bytes} : stopsWith rest = .notFound ↔ rest = [] := by
  rw [stopsWith]
  split
  · exact iff_of_true rfl ‹_›
  · exact iff_of_false (nomatch ·) ‹_›

/-- What both readers make of a list of whole fields and a rest that starts with none. -/
theorem readersAgree_stored {tlvs : List Tlv} {rest : Bytes} (hwhole : ∀ tlv ∈ tlvs, tlv.Whole)
    (hstuck : Stuck rest) :
    ReadersAgree (tlvs.flatMap Tlv.stored ++ rest) ↔ ∀ tlv ∈ tlvs, tlv.fieldId ≠ 0 := by
  have hreads := Reader.reads_stored (Reader.init_inside _) hwhole rfl hstuck
  obtain ⟨items, hyields, hitems⟩ :=
    TlvIter.yields_stored (TlvIter.new_inside _) hwhole rfl hstuck
  have hlast : fieldsYielded items = [] := by
    rcases hitems with ⟨-, -, rfl⟩ | ⟨-, err, rfl⟩ <;> rfl
  have hend : EndsWithoutErr items ↔ (∀ tlv ∈ tlvs, tlv.fieldId ≠ 0) ∧ rest = [] := by
    rcases hitems with ⟨hall, hrest, rfl⟩ | ⟨hnot, err, rfl⟩
    · exact iff_of_true (fun err => List.not_mem_nil) ⟨hall, hrest⟩
    · exact iff_of_false (fun h => h err List.mem_cons_self) hnot
  have hagree : ReadersAgree (tlvs.flatMap Tlv.stored ++ rest) ↔
      tlvs = tlvs.takeWhile (·.fieldId ≠ 0) ∧
        (rest = [] ↔ (∀ tlv ∈ tlvs, tlv.fieldId ≠ 0) ∧ rest = []) := by
    constructor
    · intro hagree
      have h := hagree _ _ _ hreads hyields
      rwa [fieldsYielded_ok, hlast, List.append_nil, stopsWith_eq_notFound, endsWithoutErr_ok,
        hend] at h
    · intro h tlvs' err items' hreads' hyields'
      obtain ⟨rfl, rfl⟩ := hreads'.unique hreads
      rw [hyields'.unique hyields, fieldsYielded_ok, hlast, List.append_nil,
        stopsWith_eq_notFound, endsWithoutErr_ok, hend]
      exact h
  have htake : tlvs = tlvs.takeWhile (·.fieldId ≠ 0) ↔ ∀ tlv ∈ tlvs, tlv.fieldId ≠ 0 := by
    rw [eq_comm, List.takeWhile_eq_self_iff]
    simp
  rw [hagree, htake]
  exact ⟨And.left, fun hall => ⟨hall, (and_iff_right hall).symm⟩⟩

/-- The fields at the start of the bytes that stand whole have ids other than zero. -/
def NoZeroField (bytes : Bytes) : Prop :=
  ∀ (tlvs : List Tlv) (rest : Bytes), (∀ tlv ∈ tlvs, tlv.Whole) →
    bytes = tlvs.flatMap Tlv.stored ++ rest → ∀ tlv ∈ tlvs, tlv.fieldId ≠ 0

/-- What is read of a list of whole fields and a rest begins with the fields. -/
theorem Reader.reads_append {tlvs tlvs' : List Tlv} {rest : Bytes} {err : EspErr}
    (hwhole : ∀ tlv ∈ tlvs, tlv.Whole)
    (h : (Reader.init (tlvs.flatMap Tlv.stored ++ rest)).Reads tlvs' err) : tlvs <+: tlvs' := by
  obtain ⟨more, last, hmore, rfl, hstuck⟩ := exists_fields rest
  rw [← List.append_assoc, ← List.flatMap_append] at h
  have hreads := @Reader.reads_stored (tlvs ++ more) _ _ (Reader.init_inside _)
    (List.forall_mem_append.2 ⟨hwhole, hmore⟩) rfl hstuck
  obtain ⟨rfl, -⟩ := h.unique hreads
  exact List.prefix_append tlvs more

/-- The two readers agree on a byte string unless a field with the id zero stands
whole in it: the reader in C returns that field, and the one in Rust an error. -/
theorem readersAgree_iff (bytes : Bytes) : ReadersAgree bytes ↔ NoZeroField bytes := by
  obtain ⟨tlvs, rest, hwhole, rfl, hstuck⟩ := exists_fields bytes
  rw [readersAgree_stored hwhole hstuck]
  constructor
  · intro hall tlvs' rest' hwhole' hbytes tlv htlv
    have hreads := Reader.reads_stored (Reader.init_inside _) hwhole rfl hstuck
    rw [hbytes] at hreads
    exact hall tlv ((Reader.reads_append hwhole' hreads).subset htlv)
  · intro hno
    exact hno tlvs rest hwhole rfl

/-- One field with the id zero, which stands whole. -/
def zeroFieldBytes : Bytes :=
  [0, 0, 1, 0, 0, 0]

/-- On one field with the id zero the readers disagree. -/
theorem readersAgree_zeroField : ¬ReadersAgree zeroFieldBytes := by
  intro hagree
  have hreads : (Reader.init zeroFieldBytes).Reads [⟨0, 1, 0, []⟩] .notFound :=
    .more rfl (.stop rfl)
  have hyields : (TlvIter.new zeroFieldBytes).Yields [.error .invalidTlv] :=
    .item rfl (.done rfl)
  exact absurd (hagree _ _ _ hreads hyields).1 (by decide)

end KeemashCore.KeeLink

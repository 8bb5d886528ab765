import KeemashCore.KeeLink.TlvStream
import Mathlib.Algebra.Order.BigOperators.Group.List

/-!
# Writing fields

What the puts of a list leave in the writer's buffer, and the round trip from the
writers of both languages to the readers of both.
-/

namespace KeemashCore.KeeLink

open LittleEndian

/-! ## The writer in C -/

section Puts

variable {writer : Writer} {tlv : Tlv}

/-- A put that fails leaves the writer and its buffer. -/
theorem Writer.put_error (h : (writer.put tlv).1 ≠ .ok) : (writer.put tlv).2 = writer := by
  unfold Writer.put at h ⊢
  split
  · rfl
  split
  · rfl
  next hrejects hfull =>
    rw [if_neg hrejects, dif_neg hfull] at h
    exact absurd rfl h

theorem Writer.put_ok_iff : (writer.put tlv).1 = .ok ↔
    tlv.putRejects = false ∧ writer.length + tlv.size ≤ writer.buffer.length := by
  rw [Tlv.size, ← Nat.add_assoc, Writer.put]
  split
  next hrejects => exact iff_of_false (nomatch ·) (by simp [hrejects])
  next hrejects =>
    split
    next hfull => exact iff_of_false (nomatch ·) fun h => Nat.not_le_of_gt hfull h.2
    next hfull => exact iff_of_true rfl ⟨Bool.eq_false_iff.2 hrejects, Nat.le_of_not_gt hfull⟩

/-- A put that succeeds appends the field. -/
theorem Writer.put_ok (h : (writer.put tlv).1 = .ok) :
    (writer.put tlv).2.written = writer.written ++ tlv.stored ∧
      (writer.put tlv).2.length = writer.length + tlv.size ∧
      (writer.put tlv).2.buffer.length = writer.buffer.length := by
  obtain ⟨hrejects, hfits⟩ := Writer.put_ok_iff.1 h
  have hroom : ¬writer.length + tlvHeaderSize + tlv.value.length > writer.buffer.length := by
    rw [Nat.add_assoc]
    exact Nat.not_lt.2 hfits
  have htake : (writer.buffer.take writer.length).length = writer.length := by
    rw [List.length_take, Nat.min_eq_left writer.fits]
  rw [Writer.put, if_neg (Bool.eq_false_iff.1 hrejects), dif_neg hroom]
  refine ⟨?_, ?_, ?_⟩
  · rw [Writer.written, Writer.written]
    dsimp only
    rw [List.take_left']
    rw [List.length_append, htake, Tlv.length_stored, Tlv.size, Nat.add_assoc]
  · exact Nat.add_assoc _ _ _
  · dsimp only
    rw [List.length_append, List.length_append, htake, Tlv.length_stored, List.length_drop]
    exact Nat.add_sub_cancel' hfits

/-- What the argument check lets through. -/
theorem Tlv.putRejects_eq_false : tlv.putRejects = false ↔
    tlv.fieldId ≠ 0 ∧ tlvU32 ≤ tlv.type ∧ tlv.type ≤ tlvUtf8 ∧ tlv.Whole := by
  simp [Tlv.putRejects, Tlv.Whole]

end Puts

/-- What a list of puts leaves in the buffer are the fields of those that succeed. -/
theorem Writer.written_puts (tlvs : List Tlv) (writer : Writer) :
    (writer.puts tlvs).written =
      writer.written ++ (writer.accepted tlvs).flatMap Tlv.stored := by
  induction tlvs generalizing writer with
  | nil => exact (List.append_nil _).symm
  | cons tlv tlvs ih =>
      rw [Writer.puts, List.foldl_cons, ← Writer.puts, ih, Writer.accepted]
      by_cases h : (writer.put tlv).1 = .ok
      · rw [if_pos h, (Writer.put_ok h).1, List.flatMap_cons, List.append_assoc]
      · rw [if_neg h, Writer.put_error h]

theorem Writer.mem_accepted {tlvs : List Tlv} {writer : Writer} {tlv : Tlv}
    (h : tlv ∈ writer.accepted tlvs) : tlv.putRejects = false := by
  induction tlvs generalizing writer with
  | nil => cases h
  | cons head tlvs ih =>
      rw [Writer.accepted] at h
      split at h
      next hok =>
        rcases List.mem_cons.1 h with rfl | h
        · exact (Writer.put_ok_iff.1 hok).1
        · exact ih h
      next => exact ih h

/-! ## The writer in Rust -/

/-- The bytes that a list of fields takes up. -/
def sizeOfAll (tlvs : List Tlv) : ℕ :=
  (tlvs.map Tlv.size).sum

theorem sizeOfAll_cons (tlv : Tlv) (tlvs : List Tlv) :
    sizeOfAll (tlv :: tlvs) = tlv.size + sizeOfAll tlvs := by
  rw [sizeOfAll, List.map_cons, List.sum_cons, ← sizeOfAll]

/-- `put_tlv` appends a field with an id where the payload has room for it. -/
theorem putTlv_eq_ok {out : Bytes} {tlv : Tlv} (hid : tlv.fieldId ≠ 0)
    (hfits : out.length + tlv.size ≤ maxPayload) : putTlv out tlv = .ok (out ++ tlv.stored) := by
  rw [Tlv.size, ← Nat.add_assoc] at hfits
  have hlength : ¬tlv.value.length > uint16Max := by
    have hmax : maxPayload ≤ uint16Max := by decide
    omega
  rw [putTlv, if_neg (not_or.2 ⟨hid, not_or.2 ⟨hlength, Nat.not_lt.2 hfits⟩⟩), Tlv.stored_eq]
  simp only [List.append_assoc, List.cons_append, List.nil_append]

/-- `put_tlv` refuses a field without an id. -/
theorem putTlv_zero {out : Bytes} {tlv : Tlv} (hid : tlv.fieldId = 0) :
    putTlv out tlv = .error .tooLarge :=
  if_pos (.inl hid)

theorem putTlvs_cons (out : Bytes) (tlv : Tlv) (tlvs : List Tlv) :
    putTlvs out (tlv :: tlvs) =
      putTlvs (match putTlv out tlv with | .ok out => out | .error _ => out) tlvs :=
  rfl

/-- Where the payload has room for all of them, `put_tlv` appends the fields with an
id. -/
theorem putTlvs_eq {tlvs : List Tlv} {out : Bytes}
    (hfits : out.length + sizeOfAll tlvs ≤ maxPayload) :
    putTlvs out tlvs = out ++ (tlvs.filter (·.fieldId ≠ 0)).flatMap Tlv.stored := by
  induction tlvs generalizing out with
  | nil => exact (List.append_nil out).symm
  | cons tlv tlvs ih =>
      rw [sizeOfAll_cons, ← Nat.add_assoc] at hfits
      rw [putTlvs_cons]
      by_cases hid : tlv.fieldId = 0
      · rw [putTlv_zero hid, List.filter_cons_of_neg (by simpa using hid)]
        exact @ih out (by omega)
      · rw [putTlv_eq_ok hid (by omega), List.filter_cons_of_pos (by simpa using hid),
          List.flatMap_cons, ← List.append_assoc]
        refine ih ?_
        rw [List.length_append, Tlv.length_stored]
        exact hfits

/-- Where the buffer has room for all of them, the writer in C takes the fields with an
id, of those whose types it knows. -/
theorem Writer.accepted_eq {tlvs : List Tlv} {writer : Writer}
    (htype : ∀ tlv ∈ tlvs, tlvU32 ≤ tlv.type ∧ tlv.type ≤ tlvUtf8)
    (hwhole : ∀ tlv ∈ tlvs, tlv.Whole)
    (hfits : writer.length + sizeOfAll tlvs ≤ writer.buffer.length) :
    writer.accepted tlvs = tlvs.filter (·.fieldId ≠ 0) := by
  induction tlvs generalizing writer with
  | nil => rfl
  | cons tlv tlvs ih =>
      rw [sizeOfAll_cons, ← Nat.add_assoc] at hfits
      have htype' : ∀ other ∈ tlvs, tlvU32 ≤ other.type ∧ other.type ≤ tlvUtf8 :=
        fun other hother => htype other (List.mem_cons_of_mem tlv hother)
      have hwhole' : ∀ other ∈ tlvs, other.Whole :=
        fun other hother => hwhole other (List.mem_cons_of_mem tlv hother)
      rw [Writer.accepted]
      by_cases hid : tlv.fieldId = 0
      · have herr : (writer.put tlv).1 ≠ .ok := by
          rw [Ne, Writer.put_ok_iff, Tlv.putRejects_eq_false]
          exact fun h => h.1.1 hid
        rw [if_neg herr, Writer.put_error herr, List.filter_cons_of_neg (by simpa using hid)]
        exact ih htype' hwhole' (by omega)
      · have hok : (writer.put tlv).1 = .ok := by
          rw [Writer.put_ok_iff, Tlv.putRejects_eq_false]
          obtain ⟨hlow, hhigh⟩ := htype tlv List.mem_cons_self
          exact ⟨⟨hid, hlow, hhigh, hwhole tlv List.mem_cons_self⟩, by omega⟩
        obtain ⟨-, hlength, hbuffer⟩ := Writer.put_ok hok
        rw [if_pos hok, List.filter_cons_of_pos (by simpa using hid)]
        rw [ih htype' hwhole' (by omega)]

/-! ## The round trip -/

/-- A byte string ends a list of fields. -/
theorem stuck_nil : Stuck [] := by
  intro tlv _ rest h
  have hlength := congrArg List.length h
  rw [List.length_append, Tlv.length_stored, List.length_nil] at hlength
  have hpos := tlv.size_pos
  omega

theorem size_le_sizeOfAll {tlvs : List Tlv} {tlv : Tlv} (h : tlv ∈ tlvs) :
    tlv.size ≤ sizeOfAll tlvs :=
  List.single_le_sum (fun _ _ => Nat.zero_le _) _ (List.mem_map_of_mem h)

/-- Fields that a payload has room for stand whole. -/
theorem whole_of_sizeOfAll {tlvs : List Tlv} (h : sizeOfAll tlvs ≤ maxPayload) :
    ∀ tlv ∈ tlvs, tlv.Whole := by
  intro tlv htlv
  have hsize := Nat.le_trans (size_le_sizeOfAll htlv) h
  have hmax : maxPayload ≤ uint16Max := by decide
  rw [Tlv.size] at hsize
  rw [Tlv.Whole]
  omega

theorem Writer.written_init (buffer : Bytes) : (Writer.init buffer).written = [] :=
  rfl

/-- The puts that succeed are read back by both readers, and are what `put_tlv` writes
where the payload has room; a put that fails leaves the writer; both readers stop on
every byte string. -/
theorem tlvSequence_roundTrip (buffer : Bytes) (tlvs : List Tlv) :
    (Reader.init ((Writer.init buffer).puts tlvs).written).Reads
        ((Writer.init buffer).accepted tlvs) .notFound ∧
      (TlvIter.new ((Writer.init buffer).puts tlvs).written).Yields
        (((Writer.init buffer).accepted tlvs).map .ok) ∧
      (∀ (writer : Writer) (tlv : Tlv), (writer.put tlv).1 ≠ .ok → (writer.put tlv).2 = writer) ∧
      ((∀ tlv ∈ tlvs, tlvU32 ≤ tlv.type ∧ tlv.type ≤ tlvUtf8) → sizeOfAll tlvs ≤ maxPayload →
        sizeOfAll tlvs ≤ buffer.length →
          putTlvs [] tlvs = ((Writer.init buffer).puts tlvs).written) ∧
      (sizeOfAll ((Writer.init buffer).accepted tlvs) ≤ maxPayload →
        putTlvs [] ((Writer.init buffer).accepted tlvs) =
          ((Writer.init buffer).puts tlvs).written) ∧
      ∀ bytes, (∃ read err, (Reader.init bytes).Reads read err) ∧
        ∃ items, (TlvIter.new bytes).Yields items := by
  have haccepted : ∀ tlv ∈ (Writer.init buffer).accepted tlvs, tlv.fieldId ≠ 0 ∧ tlv.Whole := by
    intro tlv htlv
    obtain ⟨hid, -, -, hwhole⟩ := Tlv.putRejects_eq_false.1 (Writer.mem_accepted htlv)
    exact ⟨hid, hwhole⟩
  have hwhole : ∀ tlv ∈ (Writer.init buffer).accepted tlvs, tlv.Whole :=
    fun tlv htlv => (haccepted tlv htlv).2
  have hwritten : ((Writer.init buffer).puts tlvs).written =
      ((Writer.init buffer).accepted tlvs).flatMap Tlv.stored := by
    rw [Writer.written_puts, Writer.written_init, List.nil_append]
  have hrest : ((Writer.init buffer).puts tlvs).written =
      ((Writer.init buffer).accepted tlvs).flatMap Tlv.stored ++ [] := by
    rw [hwritten, List.append_nil]
  have hfilter : ((Writer.init buffer).accepted tlvs).filter (·.fieldId ≠ 0) =
      (Writer.init buffer).accepted tlvs := by
    rw [List.filter_eq_self]
    intro tlv htlv
    simpa using (haccepted tlv htlv).1
  refine ⟨?_, ?_, fun writer tlv => Writer.put_error, ?_, ?_, readers_stop⟩
  · exact Reader.reads_stored (Reader.init_inside _) hwhole hrest stuck_nil
  · obtain ⟨items, hyields, hitems⟩ :=
      TlvIter.yields_stored (TlvIter.new_inside _) hwhole hrest stuck_nil
    have hall : ∀ tlv ∈ (Writer.init buffer).accepted tlvs, tlv.fieldId ≠ 0 :=
      fun tlv htlv => (haccepted tlv htlv).1
    rcases hitems with ⟨-, -, rfl⟩ | ⟨hnot, -⟩
    · rwa [List.append_nil, List.takeWhile_eq_self_iff.2 (by simpa using hall)] at hyields
    · exact absurd ⟨hall, rfl⟩ hnot
  · intro htype hpayload hcapacity
    rw [putTlvs_eq (by simpa using hpayload), hwritten, List.nil_append,
      Writer.accepted_eq htype (whole_of_sizeOfAll hpayload)]
    exact (Nat.zero_add _).le.trans hcapacity
  · intro hpayload
    rw [putTlvs_eq (by simpa using hpayload), hfilter, hwritten, List.nil_append]

/-- A text of one letter. -/
def letterField : Tlv where
  fieldId := 1
  type := tlvUtf8
  flags := 0
  value := [75]

/-- A writer that has room for a header only takes nothing of a field that `put_tlv`
writes. -/
theorem putTlvs_ne_written :
    (∀ tlv ∈ [letterField], tlvU32 ≤ tlv.type ∧ tlv.type ≤ tlvUtf8) ∧
      sizeOfAll [letterField] ≤ maxPayload ∧
      putTlvs [] [letterField] ≠
        ((Writer.init (List.replicate 6 0)).puts [letterField]).written := by
  decide

end KeemashCore.KeeLink

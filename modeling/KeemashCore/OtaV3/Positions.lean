import KeemashCore.OtaV3.Chunking
import KeemashCore.OtaV3.Journal

/-!
# Where a stream stands

A stream that takes chunks of an artifact stands between two of its blocks or inside the
next one.  Its offsets change where a block ends and nowhere else, so that a checkpoint
which becomes due does so between two blocks, and there the offsets are those that a
resume accepts.
-/

namespace KeemashCore.OtaV3

variable {env : OtaEnv}

/-! ## The place of a stream -/

/-- The offsets and the index of the next block are the same. -/
structure Stream.SamePlace (s s' : Stream env) : Prop where
  index : s'.nextBlockIndex = s.nextBlockIndex
  rawOffset : s'.rawOffset = s.rawOffset
  encodedOffset : s'.encodedOffset = s.encodedOffset

/-- The open block has ended. -/
structure Stream.Passes (s s' : Stream env) : Prop where
  idle : s'.blockActive = false
  index : s'.nextBlockIndex = s.nextBlockIndex + 1
  rawOffset : s'.rawOffset = s.rawOffset + s.block.rawSize
  encodedOffset : s'.encodedOffset = s.encodedOffset + s.block.encodedSize

/-- A block that opens is the next one, and it does not move the stream. -/
structure Stream.Opens (s s' : Stream env) (d : BlockDescriptor) : Prop where
  place : s.SamePlace s'
  block : s'.block = d
  same : s.blockActive = true → s.block = d
  next : s.blockActive = false → d.index = s.nextBlockIndex

theorem startBlock_opens {s : Stream env} {d : BlockDescriptor} (hidle : s.blockActive = false)
    (hok : (startBlock s d).1 = .ok) : s.Opens (startBlock s d).2 d := by
  have hactive {p : Prop} (hopen : s.blockActive = true) : p := by
    rw [hidle] at hopen
    exact Bool.noConfusion hopen
  rw [startBlock] at hok ⊢
  split at hok
  · next err hcheck =>
      exact absurd hok (checkBlockDescriptor_error hcheck)
  · next next hcheck =>
      have hchecked := checkBlockDescriptor_ok hcheck
      split at hok
      · exact EspErr.noConfusion hok
      · next hkind =>
          rw [if_neg hkind]
          exact ⟨⟨rfl, rfl, rfl⟩, rfl, hactive, fun _ => hchecked.index_eq⟩

theorem openBlock_opens {s : Stream env} {d : BlockDescriptor} {offset : ℕ}
    (hok : (openBlock s d offset).1 = .ok) : s.Opens (openBlock s d offset).2 d := by
  rw [openBlock] at hok ⊢
  by_cases hidle : s.blockActive = false
  · rw [if_pos hidle] at hok ⊢
    split at hok
    · exact EspErr.noConfusion hok
    · next hoffset =>
        rw [if_neg hoffset]
        exact startBlock_opens hidle hok
  · rw [if_neg hidle] at hok ⊢
    split at hok
    · next hsame =>
        rw [if_pos hsame]
        have hblock := sameDescriptor_eq hsame
        exact ⟨⟨rfl, rfl, rfl⟩, hblock, fun _ => hblock, fun hno => absurd hno hidle⟩
    · exact EspErr.noConfusion hok

theorem finishBlock_passes {s : Stream env} (hok : (finishBlock s).1 = .ok) :
    s.Passes (finishBlock s).2 := by
  rw [finishBlock] at hok ⊢
  split at hok
  · exact EspErr.noConfusion hok
  · next hhash =>
      rw [if_neg hhash]
      exact ⟨rfl, rfl, rfl, rfl⟩

/-- The bytes of an open block leave the stream where it is, or end the block. -/
theorem inflateChunk_moves {outputFn : OutputFn} {s : Stream env} {n : ℕ} {bytes : Bytes}
    {final : Bool} (hok : (inflateChunk outputFn s n bytes final).1 = .ok) :
    (s.SamePlace (inflateChunk outputFn s n bytes final).2 ∧
        (inflateChunk outputFn s n bytes final).2.block = s.block) ∨
      s.Passes (inflateChunk outputFn s n bytes final).2 := by
  obtain ⟨pieces, hinflates⟩ := inflaterFeed_inflates outputFn final
    (s.hashChunk bytes).inflater bytes (s.hashChunk bytes)
  have hemitted := hinflates.emitted
  have hindex := congrArg Stream.nextBlockIndex hemitted
  have hraw := congrArg Stream.rawOffset hemitted
  have hencoded := congrArg Stream.encodedOffset hemitted
  have hblock := congrArg Stream.block hemitted
  rw [inflateChunk] at hok ⊢
  split at hok
  · exact EspErr.noConfusion hok
  next hplace =>
    rw [if_neg hplace]
    rw [takeChunk] at hok ⊢
    dsimp only at hok ⊢
    split at hok
    · next herr =>
        exact absurd hok herr
    next herr =>
      rw [if_neg herr]
      split at hok
      · next hfinal =>
          right
          rw [if_pos hfinal]
          obtain ⟨hidle, hindex', hraw', hencoded'⟩ := finishBlock_passes hok
          constructor
          · exact hidle
          · exact hindex'.trans (congrArg (· + 1) hindex)
          · exact hraw'.trans (congrArg₂ (fun raw d => raw + BlockDescriptor.rawSize d)
              hraw hblock)
          · exact hencoded'.trans (congrArg₂
              (fun encoded d => encoded + BlockDescriptor.encodedSize d) hencoded hblock)
      · next hfinal =>
          left
          rw [if_neg hfinal]
          exact ⟨⟨hindex, hraw, hencoded⟩, hblock⟩

/-! ## The artifact behind a stream -/

/-- The stream has passed the first blocks of the artifact, and the block that is open is
the next one. -/
structure Stream.Along (artifact : List Block) (s : Stream env) : Prop where
  index : s.nextBlockIndex ≤ artifact.length
  rawOffset : s.rawOffset = (rawOf (artifact.take s.nextBlockIndex)).length
  encodedOffset : s.encodedOffset = (encodedOf (artifact.take s.nextBlockIndex)).length
  block : s.blockActive = true →
    ∃ b, artifact[s.nextBlockIndex]? = some b ∧ s.block = b.descriptor

section Along

variable {artifact : List Block} {s s' : Stream env}

theorem along_fresh (fields : SignedFields) : (Stream.fresh env fields).Along artifact where
  index := Nat.zero_le _
  rawOffset := rfl
  encodedOffset := rfl
  block := fun h => Bool.noConfusion h

/-- The stream stands where it stood, in the same block if any. -/
theorem Stream.Along.of_samePlace (h : s.Along artifact) (hplace : s.SamePlace s')
    (hblock : s'.blockActive = true →
      ∃ b, artifact[s.nextBlockIndex]? = some b ∧ s'.block = b.descriptor) :
    s'.Along artifact := by
  obtain ⟨hindex, hraw, hencoded⟩ := hplace
  constructor
  · rw [hindex]
    exact h.index
  · rw [hraw, hindex]
    exact h.rawOffset
  · rw [hencoded, hindex]
    exact h.encodedOffset
  · rw [hindex]
    exact hblock

/-- A block of the artifact that has opened is the next one. -/
theorem Stream.Along.opened (h : s.Along artifact) (htiled : Tiled env Base.start artifact)
    {c : Chunk} (hcut : c.Cut artifact) (hopens : s.Opens s' c.descriptor) :
    ∃ b, artifact[s.nextBlockIndex]? = some b ∧ s'.block = b.descriptor := by
  rw [hopens.block]
  by_cases hidle : s.blockActive = false
  · obtain ⟨b, hb, hdescriptor, -⟩ := hcut
    obtain ⟨m, hm⟩ := List.getElem?_of_mem hb
    obtain ⟨-, hindex, -⟩ := htiled m b hm
    have hnext := hopens.next hidle
    rw [hdescriptor, hindex] at hnext
    have hzero : Base.start.index + m = m := Nat.zero_add m
    rw [← hnext, hzero]
    exact ⟨b, hm, hdescriptor⟩
  · have hactive := eq_true_of_ne_false hidle
    obtain ⟨b, hb, hblock⟩ := h.block hactive
    exact ⟨b, hb, (hopens.same hactive).symm.trans hblock⟩

/-- The stream has passed the open block. -/
theorem Stream.Along.passes (h : s.Along artifact) (htiled : Tiled env Base.start artifact)
    (hblock : ∃ b, artifact[s.nextBlockIndex]? = some b ∧ s.block = b.descriptor)
    (hpasses : s.Passes s') : s'.Along artifact := by
  obtain ⟨b, hb, hdescriptor⟩ := hblock
  obtain ⟨hlt, hget⟩ := List.getElem?_eq_some_iff.mp hb
  obtain ⟨hsealed, -⟩ := htiled s.nextBlockIndex b hb
  have htake : artifact.take (s.nextBlockIndex + 1) = artifact.take s.nextBlockIndex ++ [b] := by
    rw [List.take_succ_eq_append_getElem hlt, hget]
  constructor
  · rw [hpasses.index]
    exact hlt
  · rw [hpasses.rawOffset, hpasses.index, htake, rawOf_append, rawOf_singleton,
      List.length_append, hsealed.raw_length, hdescriptor, h.rawOffset]
  · rw [hpasses.encodedOffset, hpasses.index, htake, encodedOf_append, encodedOf_singleton,
      List.length_append, hsealed.encoded_length, hdescriptor, h.encodedOffset]
  · intro hactive
    rw [hpasses.idle] at hactive
    exact Bool.noConfusion hactive

/-- A chunk of the artifact that is accepted keeps the stream along it, and the raw offset
changes only where a block ends. -/
theorem Stream.Along.feed (h : s.Along artifact) (htiled : Tiled env Base.start artifact)
    {c : Chunk} (hcut : c.Cut artifact) {outputFn : OutputFn}
    (hok : (streamFeed outputFn s c).1 = .ok) :
    (streamFeed outputFn s c).2.Along artifact ∧
      ((streamFeed outputFn s c).2.rawOffset = s.rawOffset ∨
        (streamFeed outputFn s c).2.blockActive = false) := by
  have hresult := streamFeed_result outputFn s c
  generalize streamFeed outputFn s c = result at hresult hok ⊢
  cases hresult with
  | refused => exact EspErr.noConfusion hok
  | repeated _ => exact ⟨h, .inl rfl⟩
  | failed herr _ => exact absurd hok herr
  | taken _ _ hopen hinflate =>
      have hopens := openBlock_opens hopen
      obtain ⟨b, hb, hblock⟩ := h.opened htiled hcut hopens
      have halong := h.of_samePlace hopens.place fun _ => ⟨b, hb, hblock⟩
      have hnext := hopens.place.index
      rcases inflateChunk_moves hinflate with ⟨hplace, hsame⟩ | hpasses
      · have hkept := halong.of_samePlace hplace fun _ =>
          ⟨b, (congrArg (artifact[·]?) hnext).trans hb, hsame.trans hblock⟩
        constructor
        · exact ⟨hkept.index, hkept.rawOffset, hkept.encodedOffset, hkept.block⟩
        · exact .inl (hplace.rawOffset.trans hopens.place.rawOffset)
      · have hpast := halong.passes htiled
          ⟨b, (congrArg (artifact[·]?) hnext).trans hb, hblock⟩ hpasses
        constructor
        · exact ⟨hpast.index, hpast.rawOffset, hpast.encodedOffset, hpast.block⟩
        · exact .inr hpasses.idle

end Along

/-! ## Signed fields -/

/-- What `keemash_ota_v3_verify_signed_fields` has checked of the sizes. -/
structure FieldSizes (signedFields : Bytes) (fields : SignedFields) : Prop where
  signed_pos : 0 < signedFields.length
  signed_le : signedFields.length ≤ signedFieldsMax
  raw_pos : 0 < fields.rawSize
  raw_le : fields.rawSize ≤ maxImageSize
  encoded_le : fields.encodedSize ≤ maxPackageSize
  count_pos : 0 < fields.blockCount
  count_le : fields.blockCount ≤ maxBlockCount
  encoded_pos : fields.codec = codecFullDeflate → 0 < fields.encodedSize

theorem fieldSizes_of_verified {signedFields signature : Bytes} {fields : SignedFields}
    (h : verifySignedFields env signedFields signature = .ok fields) :
    FieldSizes signedFields fields := by
  rw [verifySignedFields] at h
  split at h
  · exact nomatch h
  next hempty =>
  split at h
  · exact nomatch h
  next hlong =>
  split at h
  · exact nomatch h
  split at h
  · exact nomatch h
  split at h
  · exact nomatch h
  next decoded hdecoded =>
  split at h
  · exact nomatch h
  next hshape =>
  split at h
  · exact nomatch h
  split at h
  · exact nomatch h
  next hcodec =>
  split at h
  · exact nomatch h
  split at h
  · obtain rfl := Except.ok.inj h
    simp only [not_or, not_and, Nat.not_lt, gt_iff_lt] at hshape hcodec
    obtain ⟨-, hraw, -, hrawLe, hencodedLe, hcount, hcountLe, -⟩ := hshape
    exact ⟨Nat.pos_of_ne_zero hempty, Nat.le_of_not_lt hlong, Nat.pos_of_ne_zero hraw, hrawLe,
      hencodedLe, Nat.pos_of_ne_zero hcount, hcountLe,
      fun hfull => Nat.pos_of_ne_zero (hcodec.1 hfull).2.1⟩
  · exact nomatch h

/-! ## Resume points -/

/-- The point is between two blocks of the artifact. -/
structure ResumePoint.Between (artifact : List Block) (point : ResumePoint) : Prop where
  pos : point.nextBlockIndex ≠ 0
  lt : point.nextBlockIndex < artifact.length
  rawOffset : point.rawOffset = (rawOf (artifact.take point.nextBlockIndex)).length
  encodedOffset : point.encodedOffset =
    (encodedOf (artifact.take point.nextBlockIndex)).length

section Between

variable {artifact : List Block} {fields : SignedFields} {point : ResumePoint}

theorem ResumePoint.Between.offsets (h : point.Between artifact)
    (hgenuine : Genuine env fields artifact) :
    point.nextBlockIndex * fullBlockSize = point.rawOffset ∧ point.rawOffset < fields.rawSize ∧
      point.encodedOffset ≠ 0 ∧ point.encodedOffset < fields.encodedSize := by
  obtain ⟨hrawLt, hencodedLt⟩ := hgenuine.lt_of_take h.lt
  have hraw := hgenuine.rawOf_take h.lt
  rw [hgenuine.blockSize] at hraw
  rw [h.rawOffset, h.encodedOffset]
  exact ⟨hraw.symm, hrawLt, hgenuine.encodedOf_take_ne h.pos (Nat.le_of_lt h.lt), hencodedLt⟩

/-- `keemash_ota_v3_stream_resume` accepts the point if the flash holds the bytes before
it. -/
theorem ResumePoint.Between.resumes (h : point.Between artifact)
    (hgenuine : Genuine env fields artifact) {readFn : ReadFn} {bytes : Bytes}
    (hread : ReadsBack readFn bytes) (hlength : bytes.length = point.rawOffset)
    (hhash : env.sha256 bytes = point.imagePrefixSha256) :
    streamResume fields point readFn = .ok (Stream.resumed fields point bytes : Stream env) := by
  obtain ⟨hindex, hraw, hencoded, hencodedLt⟩ := h.offsets hgenuine
  rw [← hgenuine.blockSize] at hindex
  have hlt := h.lt
  rw [hgenuine.count] at hlt
  have hshape : ¬(point.nextBlockIndex = 0 ∨ point.nextBlockIndex ≥ fields.blockCount ∨
      point.nextBlockIndex * fields.blockSize ≠ point.rawOffset ∨
      point.rawOffset ≥ fields.rawSize ∨ point.encodedOffset = 0 ∨
      point.encodedOffset ≥ fields.encodedSize) := by
    rintro (hzero | hcount | hplace | hlate | hzero | hlate)
    · exact h.pos hzero
    · exact Nat.not_le.mpr hlt hcount
    · exact hplace hindex
    · exact Nat.not_le.mpr hraw hlate
    · exact hencoded hzero
    · exact Nat.not_le.mpr hencodedLt hlate
  have hbegin : (streamBegin fields : Except EspErr (Stream env)) =
      .ok (Stream.fresh env fields) := by
    rw [streamBegin, if_neg]
    rintro (hcodec | hsize | hcount)
    · exact hcodec hgenuine.codec
    · exact hsize hgenuine.blockSize
    · rw [hcount] at hlt
      exact Nat.not_lt_zero _ hlt
  have hback : readBack readFn 0 point.rawOffset [] = .ok bytes := by
    rw [readBack_eq hread [] (by omega), List.nil_append, List.drop_zero, ← hlength,
      List.take_length]
  rw [streamResume, if_neg hshape, hbegin]
  simp only [hback, hhash, ne_eq, not_true_eq_false, if_false]
  rfl

theorem ResumePoint.Between.along (h : point.Between artifact) (fields : SignedFields)
    (raw : Bytes) : (Stream.resumed fields point raw : Stream env).Along artifact where
  index := Nat.le_of_lt h.lt
  rawOffset := h.rawOffset
  encodedOffset := h.encodedOffset
  block := fun hactive => Bool.noConfusion hactive

/-- A stream that is neither at the start nor at the end of the artifact can be
checkpointed between two blocks. -/
theorem Stream.Along.checkpoint {s : Stream env} (h : s.Along artifact)
    (hgenuine : Genuine env s.fields artifact) (hfailed : s.failed = false)
    (hfinished : s.finished = false) (hidle : s.blockActive = false) (hpos : s.rawOffset ≠ 0)
    (hlt : s.rawOffset < s.fields.rawSize) (hinterval : s.rawOffset % env.interval = 0) :
    ∃ point, streamCheckpoint s = .ok point ∧ point.Between artifact ∧
      point.rawOffset = s.rawOffset ∧ point.imagePrefixSha256 = env.sha256 s.imageHash := by
  have hzero : s.nextBlockIndex ≠ 0 := by
    intro hzero
    have hraw := h.rawOffset
    rw [hzero] at hraw
    exact hpos hraw
  have hcount : s.nextBlockIndex < artifact.length := by
    apply Nat.lt_of_le_of_ne h.index
    intro hend
    have hraw := h.rawOffset
    rw [hend, List.take_length, hgenuine.raw_length] at hraw
    exact Nat.ne_of_lt hlt hraw
  have hstate : ¬(s.failed = true ∨ s.finished = true ∨ s.blockActive = true ∨
      s.nextBlockIndex = 0 ∨ s.nextBlockIndex ≥ s.fields.blockCount ∨
      s.rawOffset % env.interval ≠ 0) := by
    rw [hfailed, hfinished, hidle, ← hgenuine.count]
    rintro (hno | hno | hno | hno | hno | hno)
    · exact Bool.noConfusion hno
    · exact Bool.noConfusion hno
    · exact Bool.noConfusion hno
    · exact hzero hno
    · exact Nat.not_le.mpr hcount hno
    · exact hno hinterval
  rw [streamCheckpoint, if_neg hstate]
  exact ⟨_, rfl, ⟨hzero, hcount, h.rawOffset, h.encodedOffset⟩, rfl, rfl⟩

end Between

end KeemashCore.OtaV3

import KeemashCore.OtaV3.Abort
import KeemashCore.OtaV3.Positions

/-!
# A healthy transfer and its checkpoints

The receiver, the stream, `checkpoint_save`, `record_valid` and `stream_resume` each check
a checkpoint for themselves.  While the chunks of one genuine artifact come in, in whatever
order, with restarts and failures of the flash between them, they agree: a checkpoint that
is due is taken, and a record that the journal shows can be resumed.
-/

namespace KeemashCore.OtaV3

variable {env : ReceiverEnv}

/-! ## The transfer and its records -/

/-- A transfer of a genuine artifact. -/
structure Transfer (env : ReceiverEnv) where
  operationId : Vector UInt8 16
  artifactId : Digest
  signedFields : Bytes
  signature : Vector UInt8 64
  fields : SignedFields
  artifact : List Block
  verified : verifySignedFields env.toOtaEnv signedFields signature.toList = .ok fields
  genuine : Genuine env.toOtaEnv fields artifact

/-- The flash holds the bytes before the point. -/
structure ResumePoint.HeldBy (env : ReceiverEnv) (point : ResumePoint) (content : Bytes) :
    Prop where
  length : (content.take point.rawOffset).length = point.rawOffset
  hash : env.sha256 (content.take point.rawOffset) = point.imagePrefixSha256

/-- The checkpoint is one of the transfer, into the partition; while the transfer goes on,
the partition holds what comes before the checkpoint. -/
structure Transfer.Records (t : Transfer env) (d : Device) (p : Partition) (cp : Checkpoint) :
    Prop where
  mem : p ∈ env.appPartitions
  of : cp.isOf t.operationId t.artifactId t.signedFields t.signature = true
  label : cp.partitionLabel = labelArray p.label
  point : cp.phase = checkpointTransferring →
    cp.resume.Between t.artifact ∧ cp.resume.HeldBy env (d.flash p)

/-- The receiver is at work on the transfer, or has verified it. -/
structure Transfer.Carried (t : Transfer env) (r : Receiver env) (p : Partition) : Prop where
  operationId : r.operationId = t.operationId
  artifactId : r.artifactId = t.artifactId
  signedFields : r.signedFields = t.signedFields
  signature : r.signature = t.signature
  fields : r.fields = t.fields
  partition : r.partition = some p
  mem : p ∈ env.appPartitions

/-- `keemash_ota_v3_flash_receiver_write` takes a checkpoint of the stream. -/
def Receiver.Due (r : Receiver env) (stream : Stream env.toOtaEnv) : Prop :=
  ¬(stream.rawOffset = r.checkpointRawOffset ∨ stream.rawOffset = 0 ∨
    stream.rawOffset ≥ r.fields.rawSize ∨ stream.rawOffset % env.interval ≠ 0)

/-- The receiver writes the transfer to the partition, where the journal has at most a
checkpoint of what is already written. -/
structure Transfer.Underway (t : Transfer env) (d : Device) (r : Receiver env)
    (stream : Stream env.toOtaEnv) (handle : Handle) (base : Base) : Prop where
  writing : Writing d r stream handle base
  going : stream.failed = false
  along : stream.Along t.artifact
  settled : ¬r.Due stream
  behind : ∀ cp, d.load env = .ok cp → cp.phase = checkpointTransferring ∧
    cp.partitionLabel = labelArray handle.partition.label ∧
      cp.resume.rawOffset ≤ handle.offset

/-- What holds between the calls of the receiver while there is no other transfer. -/
structure Transfer.Healthy (t : Transfer env) (d : Device) (r : Receiver env) : Prop where
  paired : Paired env.toJournalEnv d.nvs
  shown : ∀ cp, d.load env = .ok cp → ∃ p, t.Records d p cp
  idle : r.active = false → r.verified = false → r = Receiver.zero env
  busy : r.active = true ∨ r.verified = true → ∃ p, t.Carried r p
  writing : r.active = true → r.verified = false ∧
    ∃ stream handle base, t.Underway d r stream handle base

/-! ## Journal writes that succeed -/

/-- The device goes down before the write, or the record is stored. -/
def Granted (write : Option (NvsWrite env.toJournalEnv)) : Prop :=
  write = none ∨ write = some .done

theorem storable_some {cp : Checkpoint} (h : saveRejects env.toJournalEnv cp = false) :
    Storable env.toJournalEnv (some cp) := by
  intro cp' hcp
  rw [← Option.some.inj hcp]
  exact h

/-- A checkpoint that is let through is stored and shown. -/
theorem save_granted {d : Device} (h : Paired env.toJournalEnv d.nvs) {cp : Checkpoint}
    (hsave : saveRejects env.toJournalEnv cp = false) :
    ∃ d', d.save cp (some (NvsWrite.done : NvsWrite env.toJournalEnv)) = (some .ok, d') ∧
      d'.flash = d.flash ∧ d'.running = d.running ∧ Paired env.toJournalEnv d'.nvs ∧
      d'.load env = .ok cp := by
  have hstore := storable_some hsave
  have hrun : checkpointSave env.toJournalEnv d.nvs cp .done =
      writeRecord env.toJournalEnv d.nvs (some cp) .done := by
    rw [checkpointSave, hsave]
    rfl
  refine ⟨d.written (writeRecord env.toJournalEnv d.nvs (some cp) .done), ?_, rfl, rfl,
    h.write hstore .done, ?_⟩
  · rw [Device.save, hrun]
    rfl
  · have hlatest := h.latest_write hstore
    rw [Device.load, checkpointLoad, Device.written, hlatest]
    rfl

/-- A tombstone is stored, and the journal shows nothing. -/
theorem clear_granted {d : Device} (h : Paired env.toJournalEnv d.nvs) :
    ∃ d', d.clear (some (NvsWrite.done : NvsWrite env.toJournalEnv)) = (some .ok, d') ∧
      d'.flash = d.flash ∧ Paired env.toJournalEnv d'.nvs ∧
      d'.load env = .error .notFound := by
  have hstore : Storable env.toJournalEnv none := by
    intro cp hcp
    exact nomatch hcp
  exact ⟨d.written (checkpointClear env.toJournalEnv d.nvs .done), rfl, rfl,
    h.write hstore .done, h.load_clear⟩

/-! ## Checkpoints that are let through -/

theorem labelArray_zero {p : Partition} {hpos : 0 < 17} (h : p.label ≠ []) :
    (labelArray p.label)[0] ≠ 0 := by
  have hlist := labelArray_toList p
  obtain ⟨first, rest, hlabel⟩ := List.exists_cons_of_ne_nil h
  have hfirst : (labelArray p.label)[0] = first := by
    rw [labelArray, Vector.getElem_ofFn, hlabel]
    rfl
  rw [hfirst]
  rintro rfl
  exact p.label_text (hlabel ▸ List.mem_cons_self)

theorem zero_mem_labelArray (p : Partition) : 0 ∈ (labelArray p.label).toList := by
  rw [labelArray_toList]
  have hfits := p.label_fits
  apply List.mem_append_right
  rw [List.mem_replicate]
  exact ⟨by omega, rfl⟩

section Transfer

variable {t : Transfer env} {d d' : Device} {r r' : Receiver env} {p : Partition}
variable {cp : Checkpoint}

theorem Transfer.Carried.label (h : t.Carried r p) (phase : BitVec 8) (resume : ResumePoint) :
    (r.fillCheckpoint phase resume).partitionLabel = labelArray p.label := by
  rw [Receiver.fillCheckpoint, h.partition]
  rfl

theorem transferring_le_bootPending : checkpointTransferring ≤ checkpointBootPending := by
  decide

/-- What `keemash_ota_v3_checkpoint_save` asks of every checkpoint. -/
theorem Transfer.shape_let_through (t : Transfer env) (hpos : 0 < 17) (hlabel : p.label ≠ [])
    (cp : Checkpoint)
    (hlow : checkpointTransferring ≤ cp.phase) (hhigh : cp.phase ≤ checkpointBootPending)
    (hsigned : cp.signedFields = t.signedFields)
    (harray : cp.partitionLabel = labelArray p.label) :
    ¬(cp.phase < checkpointTransferring ∨ cp.phase > checkpointBootPending ∨
      cp.signedFields.length = 0 ∨ cp.signedFields.length > signedFieldsMax ∨
      cp.partitionLabel[0] = 0 ∨ 0 ∉ cp.partitionLabel.toList) := by
  have hsizes := fieldSizes_of_verified t.verified
  rw [harray, hsigned]
  rintro (hno | hno | hno | hno | hno | hno)
  · exact BitVec.not_lt.mpr hlow hno
  · exact BitVec.not_lt.mpr hhigh hno
  · exact Nat.ne_of_gt hsizes.signed_pos hno
  · exact Nat.not_lt.mpr hsizes.signed_le hno
  · exact labelArray_zero hlabel hno
  · exact hno (zero_mem_labelArray p)

/-- `keemash_ota_v3_checkpoint_save` lets a checkpoint between two blocks through. -/
theorem Transfer.point_let_through (t : Transfer env) (hcarried : t.Carried r p)
    (hlabel : p.label ≠ []) {point : ResumePoint} (hbetween : point.Between t.artifact)
    (hinterval : point.rawOffset % env.interval = 0) :
    saveRejects env.toJournalEnv (r.fillCheckpoint checkpointTransferring point) = false := by
  have hsizes := fieldSizes_of_verified t.verified
  obtain ⟨hindex, hraw, hencoded, hencodedLt⟩ := hbetween.offsets t.genuine
  have hcount := hbetween.lt
  rw [t.genuine.count] at hcount
  have hpos : point.rawOffset ≠ 0 := by
    rw [← hindex]
    exact Nat.mul_ne_zero hbetween.pos (by decide)
  have hphase : ¬(r.fillCheckpoint checkpointTransferring point).phase ≠
      checkpointTransferring := fun hne => hne rfl
  have hshape := t.shape_let_through (by decide) hlabel (r.fillCheckpoint checkpointTransferring point)
    (BitVec.le_refl _) transferring_le_bootPending hcarried.signedFields
    (hcarried.label _ point)
  rw [saveRejects, if_neg hshape, if_neg hphase, decide_eq_false_iff_not]
  change ¬(point.nextBlockIndex = 0 ∨ point.nextBlockIndex ≥ maxBlockCount ∨
    point.rawOffset = 0 ∨ point.rawOffset % env.interval ≠ 0 ∨
    point.nextBlockIndex * fullBlockSize ≠ point.rawOffset ∨
    point.rawOffset > maxImageSize ∨ point.encodedOffset = 0 ∨
    point.encodedOffset > maxPackageSize)
  rintro (hno | hno | hno | hno | hno | hno | hno | hno)
  · exact hbetween.pos hno
  · exact Nat.not_le.mpr (Nat.lt_of_lt_of_le hcount hsizes.count_le) hno
  · exact hpos hno
  · exact hno hinterval
  · exact hno hindex
  · exact Nat.not_lt.mpr (Nat.le_trans (Nat.le_of_lt hraw) hsizes.raw_le) hno
  · exact hencoded hno
  · exact Nat.not_lt.mpr (Nat.le_trans (Nat.le_of_lt hencodedLt) hsizes.encoded_le) hno

/-- `keemash_ota_v3_checkpoint_save` lets a terminal checkpoint through. -/
theorem Transfer.terminal_let_through (t : Transfer env) (hcarried : t.Carried r p)
    (hlabel : p.label ≠ []) {phase : BitVec 8} (hlow : checkpointTransferring < phase)
    (hhigh : phase ≤ checkpointBootPending) :
    saveRejects env.toJournalEnv (r.terminalCheckpoint phase) = false := by
  have hsizes := fieldSizes_of_verified t.verified
  have hphase : (r.terminalCheckpoint phase).phase ≠ checkpointTransferring := by
    rintro (rfl : phase = checkpointTransferring)
    exact BitVec.lt_irrefl _ hlow
  have hshape := t.shape_let_through (by decide) hlabel (r.terminalCheckpoint phase)
    (BitVec.le_of_lt hlow) hhigh hcarried.signedFields (hcarried.label phase _)
  rw [saveRejects, if_neg hshape, if_pos hphase, decide_eq_false_iff_not]
  change ¬(r.fields.blockCount = 0 ∨ r.fields.blockCount > maxBlockCount ∨
    r.fields.rawSize = 0 ∨ r.fields.rawSize > maxImageSize ∨
    r.fields.encodedSize = 0 ∨ r.fields.encodedSize > maxPackageSize)
  rw [hcarried.fields]
  rintro (hno | hno | hno | hno | hno | hno)
  · exact Nat.ne_of_gt hsizes.count_pos hno
  · exact Nat.not_lt.mpr hsizes.count_le hno
  · exact Nat.ne_of_gt hsizes.raw_pos hno
  · exact Nat.not_lt.mpr hsizes.raw_le hno
  · exact Nat.ne_of_gt (hsizes.encoded_pos t.genuine.codec) hno
  · exact Nat.not_lt.mpr hsizes.encoded_le hno

/-! ## Records and the flash -/

theorem Transfer.Carried.isOf (h : t.Carried r p) (phase : BitVec 8) (resume : ResumePoint) :
    (r.fillCheckpoint phase resume).isOf t.operationId t.artifactId t.signedFields
      t.signature = true := by
  rw [Checkpoint.isOf, decide_eq_true_iff]
  exact ⟨h.operationId, h.artifactId, h.signedFields, h.signature⟩

/-- A terminal checkpoint is a record of the transfer, whatever the flash holds. -/
theorem Transfer.Carried.terminal (h : t.Carried r p) (d : Device) {phase : BitVec 8}
    (hphase : phase ≠ checkpointTransferring) : t.Records d p (r.terminalCheckpoint phase) where
  mem := h.mem
  of := h.isOf phase _
  label := h.label phase _
  point := fun hno => absurd hno hphase

theorem Transfer.Records.of_flash (h : t.Records d p cp) (hflash : d'.flash = d.flash) :
    t.Records d' p cp :=
  ⟨h.mem, h.of, h.label, fun hphase => hflash ▸ h.point hphase⟩

/-- What is written behind a point leaves it alone. -/
theorem ResumePoint.HeldBy.program {point : ResumePoint} {content : Bytes}
    (h : point.HeldBy env content) {offset : ℕ} (hle : point.rawOffset ≤ offset)
    (bytes leftover : Bytes) :
    point.HeldBy env (content.take offset ++ bytes ++ leftover) := by
  have htake : (content.take offset ++ bytes ++ leftover).take point.rawOffset =
      content.take point.rawOffset := by
    have hlength := h.length
    rw [List.length_take] at hlength
    rw [List.append_assoc, List.take_append_of_le_length, List.take_take, Nat.min_eq_left hle]
    rw [List.length_take]
    omega
  constructor
  · rw [htake]
    exact h.length
  · rw [htake]
    exact h.hash

/-- A record stands while the flash is written behind it. -/
theorem Transfer.Records.program (h : t.Records d p cp) {q : Partition} {offset : ℕ}
    (hbehind : cp.phase = checkpointTransferring → p = q → cp.resume.rawOffset ≤ offset)
    (bytes leftover : Bytes) : t.Records (d.program q offset bytes leftover) p cp := by
  refine ⟨h.mem, h.of, h.label, ?_⟩
  intro hphase
  obtain ⟨hbetween, hheld⟩ := h.point hphase
  refine ⟨hbetween, ?_⟩
  by_cases hsame : p = q
  · subst hsame
    have hflash : (d.program p offset bytes leftover).flash p =
        (d.flash p).take offset ++ bytes ++ leftover := Function.update_self ..
    rw [hflash]
    exact hheld.program (hbehind hphase rfl) bytes leftover
  · have hflash : (d.program q offset bytes leftover).flash p = d.flash p :=
      Function.update_of_ne hsame ..
    rw [hflash]
    exact hheld

/-- A partition of the table is known by the label in a record. -/
theorem Transfer.Records.partition_eq (h : t.Records d p cp) {q : Partition}
    (hmem : q ∈ env.appPartitions) (hlabel : cString cp.partitionLabel = q.label) : p = q := by
  rw [h.label, cString_labelArray] at hlabel
  have hfind := findPartition_label h.mem
  rw [hlabel, findPartition_label hmem] at hfind
  exact (Option.some.inj hfind).symm

/-! ## Resetting and failing -/

theorem Transfer.healthy_zero (hpaired : Paired env.toJournalEnv d.nvs)
    (hshown : ∀ cp, d.load env = .ok cp → ∃ p, t.Records d p cp) :
    t.Healthy d (Receiver.zero env) where
  paired := hpaired
  shown := hshown
  idle := fun _ _ => rfl
  busy := by
    rintro (hno | hno)
    · exact Bool.noConfusion hno
    · exact Bool.noConfusion hno
  writing := fun hno => Bool.noConfusion hno

/-- An empty journal is enough for an empty receiver. -/
theorem Transfer.healthy_notFound (hpaired : Paired env.toJournalEnv d.nvs)
    (hload : d.load env = .error .notFound) : t.Healthy d (Receiver.zero env) := by
  apply Transfer.healthy_zero hpaired
  intro cp hcp
  rw [hload] at hcp
  exact nomatch hcp

theorem Transfer.Healthy.reset (h : t.Healthy d r) : t.Healthy d (Receiver.zero env) :=
  Transfer.healthy_zero h.paired h.shown

/-- The journal and the flash are what the receiver goes by. -/
theorem Transfer.Healthy.of_same (h : t.Healthy d r) (hnvs : d'.nvs = d.nvs)
    (hflash : d'.flash = d.flash) : t.Healthy d' r := by
  have hload : d'.load env = d.load env := congrArg (checkpointLoad env.toJournalEnv) hnvs
  refine ⟨hnvs ▸ h.paired, ?_, h.idle, h.busy, ?_⟩
  · intro cp hcp
    obtain ⟨p, hrecords⟩ := h.shown cp (hload ▸ hcp)
    exact ⟨p, hrecords.of_flash hflash⟩
  · intro hactive
    obtain ⟨hnot, stream, handle, base, hunder⟩ := h.writing hactive
    refine ⟨hnot, stream, handle, base, ?_, hunder.going, hunder.along, hunder.settled, ?_⟩
    · have hwriting := hunder.writing
      exact { hwriting with content := hflash ▸ hwriting.content }
    · rw [hload]
      exact hunder.behind

theorem failReceiver_healthy (h : t.Healthy d (Receiver.zero env)) (error : EspErr)
    {clear : Option (NvsWrite env.toJournalEnv)} (hclear : Granted clear) :
    t.Healthy (failReceiver d error clear).2 (failReceiver d error clear).receiver := by
  rcases hclear with rfl | rfl
  · exact h
  · obtain ⟨d', hcleared, -, hpaired, hload⟩ := clear_granted h.paired
    rw [failReceiver, hcleared]
    exact Transfer.healthy_notFound hpaired hload

/-! ## Preparing -/

/-- An idle receiver may write behind the records. -/
theorem Transfer.Healthy.program (h : t.Healthy d r) {q : Partition} {offset : ℕ}
    (hbehind : ∀ cp, d.load env = .ok cp → cp.phase = checkpointTransferring ∧
      cp.partitionLabel = labelArray q.label ∧ cp.resume.rawOffset ≤ offset)
    (bytes leftover : Bytes) :
    t.Healthy (d.program q offset bytes leftover) (Receiver.zero env) := by
  have hpaired : Paired env.toJournalEnv (d.program q offset bytes leftover).nvs := h.paired
  apply Transfer.healthy_zero hpaired
  intro cp hcp
  obtain ⟨p, hrecords⟩ := h.shown cp hcp
  obtain ⟨-, -, hle⟩ := hbehind cp hcp
  exact ⟨p, hrecords.program (fun _ _ => hle) bytes leftover⟩

/-- A transfer that opens at the start, or at the point that the journal shows. -/
theorem openTransfer_healthy (h : t.Healthy d (Receiver.zero env))
    (hmem : p ∈ env.appPartitions) {resume : Option ResumePoint}
    (hresume : ∀ point, resume = some point → point.Between t.artifact)
    (hbehind : ∀ cp, d.load env = .ok cp → cp.phase = checkpointTransferring ∧
      cp.partitionLabel = labelArray p.label ∧ resume = some cp.resume)
    (answers : Answers env) :
    t.Healthy
      (openTransfer d p t.fields t.operationId t.artifactId t.signedFields t.signature resume
        answers).2
      (openTransfer d p t.fields t.operationId t.artifactId t.signedFields t.signature resume
        answers).receiver := by
  have hwithin : ∀ cp, d.load env = .ok cp → cp.phase = checkpointTransferring ∧
      cp.partitionLabel = labelArray p.label ∧
        cp.resume.rawOffset ≤ (resume.map ResumePoint.rawOffset).getD 0 := by
    intro cp hcp
    obtain ⟨hphase, hlabel, rfl⟩ := hbehind cp hcp
    exact ⟨hphase, hlabel, Nat.le_refl _⟩
  have hdown := h.program hwithin [] answers.leftover
  -- Where the stream starts, and that the flash holds the bytes before it.
  have hstart (s : Stream env.toOtaEnv) (base : Base) (htrail : Trail base t.fields [] [] s)
      (hlast : s.lastChunkValid = false) (hsent : s.sent = []) (hgoing : s.failed = false)
      (halong : s.Along t.artifact)
      (hplace : s.rawOffset = (resume.map ResumePoint.rawOffset).getD 0)
      (hraw : (d.flash p).take ((resume.map ResumePoint.rawOffset).getD 0) = base.raw)
      (hlength : base.raw.length = (resume.map ResumePoint.rawOffset).getD 0) :
      t.Healthy
        (d.program p ((resume.map ResumePoint.rawOffset).getD 0) [] answers.leftover)
        { stream := some s
          partition := some p
          handle := some ⟨p, (resume.map ResumePoint.rawOffset).getD 0⟩
          fields := t.fields
          operationId := t.operationId
          artifactId := t.artifactId
          signature := t.signature
          signedFields := t.signedFields
          checkpointRawOffset := (resume.map ResumePoint.rawOffset).getD 0
          active := true
          verified := false
          resumed := resume.isSome } := by
    refine ⟨hdown.paired, hdown.shown, fun hno => Bool.noConfusion hno,
      fun _ => ⟨p, rfl, rfl, rfl, rfl, rfl, rfl, hmem⟩, fun _ =>
        ⟨rfl, s, ⟨p, (resume.map ResumePoint.rawOffset).getD 0⟩, base, ?_⟩⟩
    refine ⟨?_, hgoing, halong, fun hdue => hdue (.inl hplace), hwithin⟩
    exact writing_opened rfl rfl rfl hmem t.verified htrail hlast hsent hraw hlength
  cases hcase : resume with
  | none =>
      rw [hcase] at hdown hstart
      simp only [openTransfer]
      cases hbegin : (streamBegin t.fields : Except EspErr (Stream env.toOtaEnv)) with
      | error err => exact h
      | ok s =>
          obtain ⟨rfl, -⟩ := streamBegin_ok hbegin
          dsimp only
          split
          · exact hdown
          · split
            · exact hdown
            · exact hstart _ Base.start (trail_fresh t.fields) rfl rfl rfl (along_fresh t.fields)
                rfl rfl rfl
  | some point =>
      rw [hcase] at hdown hstart
      simp only [openTransfer]
      cases hread : streamResume t.fields point (d.flashRead p answers.partitionRead) with
      | error err => exact h
      | ok s =>
          obtain ⟨raw, hraw, rfl, hindex, -⟩ := streamResume_ok hread
          have hlength : raw.length = point.rawOffset := by
            have hback := readBack_length hraw
            rw [List.length_nil, Nat.zero_add] at hback
            exact hback
          have hcontent : raw = (d.flash p).take point.rawOffset := by
            have hback := readBack_flashRead hraw
            rw [List.nil_append, List.drop_zero] at hback
            exact hback
          dsimp only
          split
          · exact hdown
          · split
            · exact hdown
            · exact hstart _ (point.base raw) (trail_resumed t.fields hindex hlength) rfl rfl rfl
                ((hresume point hcase).along t.fields raw) rfl hcontent.symm hlength

/-- A terminal record stands for the transfer. -/
theorem Transfer.Healthy.adopt (h : t.Healthy d r) (hactive : r.active = false)
    (hload : d.load env = .ok cp) {saved : Partition}
    (hfind : findPartition env (cString cp.partitionLabel) = some saved) :
    t.Healthy d
      { r with
        partition := some saved
        fields := t.fields
        operationId := t.operationId
        artifactId := t.artifactId
        signature := t.signature
        signedFields := t.signedFields
        verified := true
        resumed := true } := by
  obtain ⟨p, hrecords⟩ := h.shown cp hload
  rw [hrecords.label, cString_labelArray, findPartition_label hrecords.mem] at hfind
  obtain rfl := Option.some.inj hfind
  refine ⟨h.paired, h.shown, fun _ hno => Bool.noConfusion hno,
    fun _ => ⟨p, rfl, rfl, rfl, rfl, rfl, rfl, hrecords.mem⟩, ?_⟩
  intro hno
  rw [hactive] at hno
  exact Bool.noConfusion hno

theorem prepare_healthy (h : t.Healthy d r) (target : Target) (answers : Answers env) :
    t.Healthy
      (prepare d r target t.operationId t.artifactId t.signedFields t.signature answers).2
      (prepare d r target t.operationId t.artifactId t.signedFields t.signature
        answers).receiver := by
  have hsame (err : EspErr) : t.Healthy ((some ⟨err, none, r⟩, d) : Outcome env).2
      (Outcome.receiver (some ⟨err, none, r⟩, d)) := h
  rw [prepare, t.verified]
  dsimp only
  split
  · exact hsame _
  split
  · split
    · exact hsame _
    · exact hsame _
  next hidle =>
  rw [not_or, Bool.not_eq_true, Bool.not_eq_true] at hidle
  split
  · exact hsame _
  split
  · exact hsame _
  next p hnext =>
  have hmem := env.next_mem _ p hnext
  split
  · exact hsame _
  split
  · next cp hload =>
      split
      · exact hsame _
      split
      · split
        · exact hsame _
        · next saved hfind =>
            exact h.adopt hidle.1 hload hfind
      next hphase =>
      split
      · exact hsame _
      next hlabel =>
      obtain ⟨q, hrecords⟩ := h.shown cp hload
      obtain rfl := hrecords.partition_eq hmem (not_not.mp hlabel)
      apply openTransfer_healthy h.reset hmem
      · intro point hpoint
        rw [← Option.some.inj hpoint]
        exact (hrecords.point (not_not.mp hphase)).1
      · intro cp' hcp
        obtain rfl := Except.ok.inj (hload.symm.trans hcp)
        exact ⟨not_not.mp hphase, hrecords.label, rfl⟩
  · next hload =>
      apply openTransfer_healthy h.reset hmem
      · intro point hpoint
        cases hpoint
      · intro cp hcp
        cases hload.symm.trans hcp
  · exact hsame _

/-! ## Writing -/

/-- A checkpoint that is due is due between two blocks, behind what is written, and the
stream reports it. -/
theorem due_point {stream : Stream env.toOtaEnv} {handle : Handle} {base : Base}
    (hwriting : Writing d r stream handle base) (hcarried : t.Carried r p)
    (hgoing : stream.failed = false) (hfinished : stream.finished = false)
    (halong : stream.Along t.artifact) (hidle : stream.blockActive = false)
    (hdue : r.Due stream) :
    ∃ point, streamCheckpoint stream = .ok point ∧ point.Between t.artifact ∧
      point.HeldBy env (d.flash handle.partition) ∧ point.rawOffset = stream.rawOffset ∧
      point.rawOffset = handle.offset ∧ point.rawOffset % env.interval = 0 := by
  rw [Receiver.Due, hcarried.fields, not_or, not_or, not_or, not_not] at hdue
  obtain ⟨-, hpos, hlt, hinterval⟩ := hdue
  rcases hwriting.trail with hno | ⟨chunks, blocks, htrail, -⟩
  · rw [hgoing] at hno
    exact Bool.noConfusion hno
  have hfields : stream.fields = t.fields := htrail.fields_eq.trans hcarried.fields
  have hgenuine : Genuine env.toOtaEnv stream.fields t.artifact := hfields ▸ t.genuine
  obtain ⟨point, hpoint, hbetween, hraw, hhash⟩ := halong.checkpoint hgenuine hgoing hfinished
    hidle hpos (by rw [hfields]; exact Nat.not_le.mp hlt) hinterval
  -- Between two blocks all that the stream has put out is written.
  have hwritten : stream.rawOffset = handle.offset := by
    have houtput := htrail.output
    rw [Stream.parts_idle hidle] at houtput
    rw [hwriting.offset, List.length_append, houtput, htrail.rawOffset]
  have hcontent : (d.flash handle.partition).take point.rawOffset = stream.imageHash := by
    rw [hraw, hwritten, hwriting.content, htrail.imageHash]
  refine ⟨point, hpoint, hbetween, ⟨?_, ?_⟩, hraw, hraw.trans hwritten, ?_⟩
  · rw [hcontent, htrail.imageHash, ← hwriting.offset, hraw, hwritten]
  · rw [hcontent, hhash]
  · rw [hraw]
    exact hinterval

/-- A record of the transfer is stored and shown, or the device goes down before. -/
theorem Transfer.Healthy.save (h : t.Healthy d (Receiver.zero env))
    (hsave : saveRejects env.toJournalEnv cp = false)
    {write : Option (NvsWrite env.toJournalEnv)} (hwrite : Granted write) :
    d.save cp write = (none, d) ∨
      ∃ d', d.save cp write = (some .ok, d') ∧ d'.flash = d.flash ∧
        Paired env.toJournalEnv d'.nvs ∧ d'.load env = .ok cp := by
  rcases hwrite with rfl | rfl
  · exact .inl rfl
  · obtain ⟨d', hsaved, hflash, -, hpaired, hload⟩ := save_granted h.paired hsave
    exact .inr ⟨d', hsaved, hflash, hpaired, hload⟩

theorem Transfer.Records.shown (h : t.Records d p cp) (hflash : d'.flash = d.flash)
    (hload : d'.load env = .ok cp) : ∀ cp', d'.load env = .ok cp' → ∃ p, t.Records d' p cp' := by
  intro cp' hcp
  obtain rfl := Except.ok.inj (hload.symm.trans hcp)
  exact ⟨p, h.of_flash hflash⟩

/-- The end of `keemash_ota_v3_flash_receiver_write`. -/
theorem checkpointDue_healthy {stream : Stream env.toOtaEnv} {handle : Handle} {base : Base}
    (hlabels : ∀ p ∈ env.appPartitions, p.label ≠ []) (h : t.Healthy d (Receiver.zero env))
    (hactive : r.active = true) (hnot : r.verified = false)
    (hwriting : Writing d r stream handle base) (hcarried : t.Carried r handle.partition)
    (hgoing : stream.failed = false) (hfinished : stream.finished = false)
    (halong : stream.Along t.artifact) (hidle : r.Due stream → stream.blockActive = false)
    (hbehind : ∀ cp, d.load env = .ok cp → cp.phase = checkpointTransferring ∧
      cp.partitionLabel = labelArray handle.partition.label ∧
        cp.resume.rawOffset ≤ handle.offset)
    {answers : Answers env} (hsave : Granted answers.save) :
    t.Healthy (checkpointDue d r stream answers).2
      (checkpointDue d r stream answers).receiver := by
  have hbusy {r' : Receiver env} (hcarried' : t.Carried r' handle.partition) :
      r'.active = true ∨ r'.verified = true → ∃ p, t.Carried r' p := fun _ => ⟨_, hcarried'⟩
  have hworks {p : Prop} (hno : r.active = false) : p :=
    Bool.noConfusion (hactive.symm.trans hno)
  by_cases hdue : r.Due stream
  · obtain ⟨point, hpoint, hbetween, hheld, hraw, hoffset, hinterval⟩ :=
      due_point hwriting hcarried hgoing hfinished halong (hidle hdue) hdue
    have hlet := t.point_let_through hcarried (hlabels _ hcarried.mem) hbetween hinterval
    have hrecords : t.Records d handle.partition
        (r.fillCheckpoint checkpointTransferring point) :=
      ⟨hcarried.mem, hcarried.isOf _ point, hcarried.label _ point,
        fun _ => ⟨hbetween, hheld⟩⟩
    rw [checkpointDue, if_neg hdue, hpoint]
    dsimp only
    rcases h.save hlet hsave with hsaved | ⟨d', hsaved, hflash, hpaired, hload⟩
    · rw [hsaved]
      exact h
    · rw [hsaved]
      dsimp only
      rw [if_neg (not_not.mpr rfl)]
      refine ⟨hpaired, hrecords.shown hflash hload, fun hno => hworks hno,
        hbusy { hcarried with }, fun _ => ⟨hnot, stream, handle, base, ?_, hgoing, halong,
          fun hagain => hagain (.inl rfl), ?_⟩⟩
      · exact { hwriting with content := hflash ▸ hwriting.content }
      · intro cp hcp
        obtain rfl := Except.ok.inj (hload.symm.trans hcp)
        exact ⟨rfl, hcarried.label _ point, Nat.le_of_eq hoffset⟩
  · rw [checkpointDue, if_pos (not_not.mp hdue)]
    exact ⟨h.paired, h.shown, fun hno => hworks hno, hbusy hcarried,
      fun _ => ⟨hnot, stream, handle, base, hwriting, hgoing, halong, hdue, hbehind⟩⟩

/-- What holds of a receiver at work after a feed. -/
theorem Transfer.Underway.fed {stream : Stream env.toOtaEnv} {handle : Handle} {base : Base}
    (h : t.Underway d r stream handle base) {chunk : Chunk} (hcut : chunk.Cut t.artifact)
    {outputFn : OutputFn} (hfed : (streamFeed outputFn stream chunk).1 = .ok) :
    (streamFeed outputFn stream chunk).2.failed = false ∧
      (streamFeed outputFn stream chunk).2.finished = false ∧
      (streamFeed outputFn stream chunk).2.Along t.artifact ∧
      (r.Due (streamFeed outputFn stream chunk).2 →
        (streamFeed outputFn stream chunk).2.blockActive = false) := by
  obtain ⟨halong, hmoved⟩ := h.along.feed t.genuine.tiled hcut hfed
  have hrecalls : Recalls (streamFeed outputFn stream chunk).2 chunk :=
    recalls_of_accepted (Prod.ext hfed rfl)
  refine ⟨hrecalls.failed, hrecalls.finished, halong, ?_⟩
  intro hdue
  rcases hmoved with hstill | hidle
  · rw [Receiver.Due, hstill] at hdue
    exact absurd hdue h.settled
  · exact hidle

theorem Transfer.Underway.carried {stream : Stream env.toOtaEnv} {handle : Handle} {base : Base}
    (h : t.Underway d r stream handle base) (hcarried : t.Carried r p) :
    t.Carried r handle.partition := by
  have hsame : p = handle.partition :=
    Option.some.inj (hcarried.partition.symm.trans h.writing.partition_eq)
  exact hsame ▸ hcarried

theorem write_healthy (hlabels : ∀ p ∈ env.appPartitions, p.label ≠ []) (h : t.Healthy d r)
    {chunk : Chunk} (hcut : chunk.Cut t.artifact) {answers : Answers env}
    (hsave : Granted answers.save) (hclear : Granted answers.clear) :
    t.Healthy (write d r chunk answers).2 (write d r chunk answers).receiver := by
  by_cases hactive : r.active = true
  · obtain ⟨hnot, stream, handle, base, hunder⟩ := h.writing hactive
    obtain ⟨p, hcarried⟩ := h.busy (.inl hactive)
    have hcarried := hunder.carried hcarried
    have hwriting := hunder.writing
    have hdown (bytes : Bytes) := h.program hunder.behind bytes answers.leftover
    by_cases hflash : answers.flashDown = true
    · rw [write, hactive, hwriting.stream_eq, hwriting.handle_eq]
      dsimp only
      rw [if_pos hflash]
      exact hdown _
    by_cases hfed : (streamFeed answers.otaWrite stream chunk).1 = .ok
    · obtain ⟨d', r', hnext, rfl, hr, heq⟩ :=
        write_fed hactive hwriting chunk hfed (eq_false_of_ne_true hflash)
      obtain ⟨hgoing, hfinished, halong, hidle⟩ := hunder.fed hcut hfed
      have hactive' : r'.active = true := hr ▸ hactive
      have hnot' : r'.verified = false := hr ▸ hnot
      have hcarried' : t.Carried r' handle.partition := hr ▸ { hcarried with }
      have hidle' : r'.Due (streamFeed answers.otaWrite stream chunk).2 →
          (streamFeed answers.otaWrite stream chunk).2.blockActive = false := hr ▸ hidle
      rw [heq]
      apply checkpointDue_healthy hlabels (hdown _) hactive' hnot' hnext hcarried' hgoing
        hfinished halong hidle' ?_ hsave
      intro cp hcp
      obtain ⟨hphase, hlabel, hle⟩ := hunder.behind cp hcp
      exact ⟨hphase, hlabel, Nat.le_add_right_of_le hle⟩
    · rw [write, hactive, hwriting.stream_eq, hwriting.handle_eq]
      dsimp only
      rw [if_neg hflash, if_pos hfed, if_neg hfed]
      exact failReceiver_healthy (hdown []) _ hclear
  · rw [write, eq_false_of_ne_true hactive]
    exact h

/-! ## Verifying, activating and aborting -/

/-- A receiver that holds the verified image, with its record in the journal. -/
theorem Transfer.healthy_holding (hpaired : Paired env.toJournalEnv d.nvs)
    (hshown : ∀ cp, d.load env = .ok cp → ∃ p, t.Records d p cp) (hcarried : t.Carried r p)
    (hidle : r.active = false) (hverified : r.verified = true) : t.Healthy d r where
  paired := hpaired
  shown := hshown
  idle := fun _ hno => Bool.noConfusion (hverified.symm.trans hno)
  busy := fun _ => ⟨p, hcarried⟩
  writing := fun hno => Bool.noConfusion (hidle.symm.trans hno)

/-- A terminal checkpoint is stored and shown, or the device goes down before. -/
theorem Transfer.Healthy.save_terminal (h : t.Healthy d (Receiver.zero env))
    (hcarried : t.Carried r p) (hlabel : p.label ≠ []) {phase : BitVec 8}
    (hlow : checkpointTransferring < phase) (hhigh : phase ≤ checkpointBootPending)
    {write : Option (NvsWrite env.toJournalEnv)} (hwrite : Granted write) :
    d.save (r.terminalCheckpoint phase) write = (none, d) ∨
      ∃ d', d.save (r.terminalCheckpoint phase) write = (some .ok, d') ∧
        d'.load env = .ok (r.terminalCheckpoint phase) ∧ t.Healthy d' (Receiver.zero env) := by
  have hphase : phase ≠ checkpointTransferring := by
    rintro rfl
    exact BitVec.lt_irrefl _ hlow
  have hlet := t.terminal_let_through hcarried hlabel hlow hhigh
  rcases h.save hlet hwrite with hsaved | ⟨d', hsaved, hflash, hpaired, hload⟩
  · exact .inl hsaved
  · exact .inr ⟨d', hsaved, hload, Transfer.healthy_zero hpaired
      ((hcarried.terminal d hphase).shown hflash hload)⟩

theorem transferring_lt_verified : checkpointTransferring < checkpointVerified := by
  decide

theorem verified_le_bootPending : checkpointVerified ≤ checkpointBootPending := by
  decide

theorem sealVerified_healthy (h : t.Healthy d (Receiver.zero env)) (hcarried : t.Carried r p)
    (hlabel : p.label ≠ []) (hidle : r.active = false) (hverified : r.verified = true)
    {answers : Answers env} (hsave : Granted answers.save) :
    t.Healthy (sealVerified d r answers).2 (sealVerified d r answers).receiver := by
  rw [sealVerified]
  rcases h.save_terminal hcarried hlabel transferring_lt_verified verified_le_bootPending hsave
    with hsaved | ⟨d', hsaved, -, hnext⟩
  · rw [hsaved]
    exact h
  · rw [hsaved]
    dsimp only
    rw [if_neg (not_not.mpr rfl)]
    exact Transfer.healthy_holding hnext.paired hnext.shown hcarried hidle hverified

theorem verify_healthy (hlabels : ∀ p ∈ env.appPartitions, p.label ≠ []) (h : t.Healthy d r)
    {answers : Answers env} (hsave : Granted answers.save) (hclear : Granted answers.clear) :
    t.Healthy (verify d r answers).2 (verify d r answers).receiver := by
  by_cases hactive : r.active = true
  · obtain ⟨-, stream, handle, base, hunder⟩ := h.writing hactive
    obtain ⟨p, hcarried⟩ := h.busy (.inl hactive)
    rw [verify, hactive, hunder.writing.stream_eq]
    dsimp only
    split
    · exact failReceiver_healthy h.reset _ hclear
    split
    · exact failReceiver_healthy h.reset _ hclear
    · have hcarried' : t.Carried
          { r with
            stream := some (streamFinish stream).2
            handle := none
            active := false
            verified := true } p := { hcarried with }
      exact sealVerified_healthy h.reset hcarried' (hlabels p hcarried.mem) rfl rfl hsave
  · rw [verify, eq_false_of_ne_true hactive]
    exact h

theorem setBoot_healthy (h : t.Healthy d (Receiver.zero env)) (hcarried : t.Carried r p)
    (hlabel : p.label ≠ []) (hidle : r.active = false) (hverified : r.verified = true)
    {answers : Answers env} (hrestore : Granted answers.restore) :
    t.Healthy (setBoot d r answers).2 (setBoot d r answers).receiver := by
  rw [setBoot]
  split
  · exact h
  split
  · exact Transfer.healthy_holding h.paired h.shown hcarried hidle hverified
  · rcases h.save_terminal hcarried hlabel transferring_lt_verified verified_le_bootPending
      hrestore with hsaved | ⟨d', hsaved, -, hnext⟩
    · rw [hsaved]
      exact h
    · rw [hsaved]
      exact Transfer.healthy_holding hnext.paired hnext.shown hcarried hidle hverified

theorem transferring_lt_bootPending : checkpointTransferring < checkpointBootPending := by
  decide

theorem activate_healthy (hlabels : ∀ p ∈ env.appPartitions, p.label ≠ []) (h : t.Healthy d r)
    {answers : Answers env} (hsave : Granted answers.save)
    (hrestore : Granted answers.restore) :
    t.Healthy (activate d r answers).2 (activate d r answers).receiver := by
  rw [activate]
  split
  · next q hidle hverified hpartition =>
      obtain ⟨p, hcarried⟩ := h.busy (.inr hverified)
      have hlabel := hlabels p hcarried.mem
      split
      · exact h
      · rcases h.reset.save_terminal hcarried hlabel transferring_lt_bootPending
          (BitVec.le_refl _) hsave with hsaved | ⟨d', hsaved, -, hnext⟩
        · rw [hsaved]
          exact h.reset
        · rw [hsaved]
          dsimp only
          rw [if_neg (not_not.mpr rfl)]
          have hselected : t.Healthy (d'.select r q) (Receiver.zero env) := hnext.of_same rfl rfl
          exact setBoot_healthy hselected hcarried hlabel hidle hverified hrestore
  · exact h

theorem abortCurrent_healthy (h : t.Healthy d r) {answers : Answers env}
    (hclear : Granted answers.clear) :
    t.Healthy (abortCurrent d r answers).2 (abortCurrent d r answers).receiver := by
  rw [abortCurrent]
  split
  · exact h
  · rcases hclear with hclear | hclear
    · rw [hclear]
      exact h.reset
    · obtain ⟨d', hcleared, -, hpaired, hload⟩ := clear_granted h.paired
      rw [hclear, hcleared]
      exact Transfer.healthy_notFound hpaired hload

theorem abort_healthy (h : t.Healthy d r) (operationId : Vector UInt8 16) (artifactId : Digest)
    {answers : Answers env} (hclear : Granted answers.clear) :
    t.Healthy (abort d r operationId artifactId answers).2
      (abort d r operationId artifactId answers).receiver := by
  rw [abort]
  split
  · split
    · exact abortCurrent_healthy h hclear
    · exact h
  · split
    · exact h
    · split
      · exact h
      · exact abortCurrent_healthy h hclear

/-! ## Runs -/

/-- A message that does not start another transfer, and whose chunk, if it has one for the
transfer, is cut from the artifact. -/
def OtaTransfer.Of (t : Transfer env) : OtaTransfer → Prop
  | .prepare operationId artifactId signedFields signature _ _ =>
      ∀ id artifact sig, operationId = some id → asVector? 32 artifactId = some artifact →
        asVector? 64 signature = some sig → operationBytes id = t.operationId ∧
          artifact = t.artifactId ∧ signedFields = t.signedFields ∧ sig = t.signature
  | .data operationId artifactId block blockEncodedOffset bytes finalChunk =>
      ∀ id descriptor, operationId = some id → operationBytes id = t.operationId →
        artifactId = t.artifactId.toList → block = some descriptor →
          Chunk.Cut t.artifact ⟨descriptor, blockEncodedOffset, bytes, finalChunk⟩
  | _ => True

/-- Every write to the journal succeeds, unless the device goes down before it. -/
structure Answers.StoresAll (answers : Answers env) : Prop where
  save : Granted answers.save
  clear : Granted answers.clear
  restore : Granted answers.restore

def ReceiverEvent.Of (t : Transfer env) : ReceiverEvent env → Prop
  | .transfer _ message answers => message.Of t ∧ answers.StoresAll
  | .activate answers => answers.StoresAll
  | .idleAbort answers => answers.StoresAll
  | .restart _ => True

/-- No transfer is under way or recorded; the journal is what some calls left there. -/
structure ReceiverState.Clear (s : ReceiverState env) : Prop where
  journal : ∃ calls : List (JournalCall env.toJournalEnv), s.device.nvs = runCalls Nvs.empty calls
  load : s.device.load env = .error .notFound
  receiver : s.receiver = Receiver.zero env

/-- A message that matches the receiver is for its transfer. -/
theorem Transfer.Carried.matching (h : t.Carried r p) {id : Id128} {artifactId : Bytes}
    (hmatch : r.matchingTransfer id artifactId = true) :
    operationBytes id = t.operationId ∧ artifactId = t.artifactId.toList := by
  rw [Receiver.matchingTransfer] at hmatch
  split at hmatch
  · exact Bool.noConfusion hmatch
  next artifact hartifact =>
  split at hmatch
  · exact Bool.noConfusion hmatch
  · rw [Receiver.sameOperation, decide_eq_true_iff, h.operationId, h.artifactId] at hmatch
    rw [hmatch.2]
    exact ⟨hmatch.1.symm, (asVector?_toList hartifact).symm⟩

theorem handleTransfer_healthy (hlabels : ∀ p ∈ env.appPartitions, p.label ≠ [])
    (h : t.Healthy d r) (target : Target) {message : OtaTransfer} (hof : message.Of t)
    {answers : Answers env} (hstores : answers.StoresAll) :
    t.Healthy (handleTransfer d r target message answers).2
      (handleTransfer d r target message answers).receiver := by
  cases message with
  | prepare operationId artifactId signedFields signature requestedChunkSize requestedWindow =>
      simp only [handleTransfer]
      split
      · next id artifact sig hartifact hsig =>
          obtain ⟨hid, rfl, rfl, rfl⟩ := hof id artifact sig rfl hartifact hsig
          split
          · exact h
          · rw [hid]
            exact prepare_healthy h target answers
      · exact h
  | data operationId artifactId block blockEncodedOffset data finalChunk =>
      simp only [handleTransfer]
      split
      · next id descriptor =>
          split
          · exact h
          next hshape =>
          rw [not_or, Bool.not_eq_false] at hshape
          have hbusy : r.active = true ∨ r.verified = true := by
            by_contra hidle
            rw [not_or, Bool.not_eq_true, Bool.not_eq_true] at hidle
            have hmatch := hshape.2
            rw [Receiver.matchingTransfer] at hmatch
            split at hmatch
            · exact Bool.noConfusion hmatch
            · rw [if_pos hidle] at hmatch
              exact Bool.noConfusion hmatch
          obtain ⟨p, hcarried⟩ := h.busy hbusy
          obtain ⟨hid, hartifact⟩ := hcarried.matching hshape.2
          exact write_healthy hlabels h (hof id descriptor rfl hid hartifact rfl) hstores.save
            hstores.clear
      · exact h
  | commit operationId artifactId blockTableSha256 imageSha256 =>
      simp only [handleTransfer]
      split
      · exact h
      split
      · exact h
      split
      · exact h
      · exact verify_healthy hlabels h hstores.save hstores.clear
  | abort operationId artifactId =>
      simp only [handleTransfer]
      split
      · exact abort_healthy h _ _ hstores.clear
      · exact h
  | query operationId artifactId =>
      simp only [handleTransfer]
      split
      · exact h
      split
      · exact h
      · exact h
  | other => exact h

theorem step_healthy (hlabels : ∀ p ∈ env.appPartitions, p.label ≠ []) {s : ReceiverState env}
    (h : t.Healthy s.device s.receiver) {event : ReceiverEvent env} (hof : event.Of t) :
    t.Healthy (event.step s).device (event.step s).receiver := by
  cases event with
  | transfer target message answers =>
      exact handleTransfer_healthy hlabels h target hof.1 hof.2
  | activate answers => exact activate_healthy hlabels h hof.save hof.restore
  | idleAbort answers => exact abortCurrent_healthy h hof.clear
  | restart running => exact h.reset.of_same rfl rfl

theorem runReceiver_healthy (hlabels : ∀ p ∈ env.appPartitions, p.label ≠ [])
    {start : ReceiverState env} (hstart : start.Clear) {events : List (ReceiverEvent env)}
    (hevents : ∀ event ∈ events, event.Of t) :
    t.Healthy (runReceiver start events).device (runReceiver start events).receiver := by
  induction events using List.reverseRecOn with
  | nil =>
      obtain ⟨⟨calls, hcalls⟩, hload, hzero⟩ := hstart
      have hpaired : Paired env.toJournalEnv start.device.nvs := by
        rw [hcalls]
        exact paired_runCalls calls
      rw [runReceiver, List.foldl_nil, hzero]
      exact Transfer.healthy_notFound hpaired hload
  | append_singleton events event ih =>
      rw [runReceiver, List.foldl_append, List.foldl_cons, List.foldl_nil, ← runReceiver]
      apply step_healthy hlabels
      · apply ih
        intro earlier hearlier
        exact hevents earlier (List.mem_append_left _ hearlier)
      · exact hevents event (List.mem_append_right _ List.mem_cons_self)

/-! ## Nothing fails for its checkpoints -/

/-- While reads succeed, what the flash holds reads back. -/
theorem readsBack_flash {answer : ℕ → EspErr} (hreads : ∀ offset, answer offset = .ok) {n : ℕ}
    (hlength : ((d.flash p).take n).length = n) :
    ReadsBack (d.flashRead p answer) ((d.flash p).take n) := by
  intro offset length hle
  rw [hlength] at hle
  rw [List.length_take] at hlength
  have htake : (((d.flash p).drop offset).take length).toArray.size = length := by
    rw [List.size_toArray, List.length_take, List.length_drop]
    omega
  refine ⟨⟨_, htake⟩, ?_, ?_⟩
  · rw [Device.flashRead, hreads]
    dsimp only
    rw [asVector?, dif_pos htake]
  · change ((d.flash p).drop offset).take length = _
    rw [List.drop_take, List.take_take, Nat.min_eq_left (by omega)]

/-- A point whose bytes the flash holds is one that `keemash_ota_v3_stream_resume` accepts. -/
theorem Transfer.resumes (t : Transfer env) {point : ResumePoint}
    (hbetween : point.Between t.artifact) (hheld : point.HeldBy env (d.flash p))
    {answer : ℕ → EspErr} (hreads : ∀ offset, answer offset = .ok) :
    ∃ s : Stream env.toOtaEnv, streamResume t.fields point (d.flashRead p answer) = .ok s :=
  ⟨_, hbetween.resumes t.genuine (readsBack_flash hreads hheld.length) hheld.length hheld.hash⟩

/-- What becomes of a checkpoint that is due once the stream is `fed`. -/
structure Transfer.Taken (t : Transfer env) (d : Device) (r : Receiver env) (p : Partition)
    (chunk : Chunk) (answers : Answers env) (fed : Stream env.toOtaEnv) (point : ResumePoint) :
    Prop where
  /-- The stream is at a block boundary, and `keemash_ota_v3_stream_checkpoint` accepts. -/
  boundary : fed.blockActive = false
  reported : streamCheckpoint fed = .ok point
  /-- `keemash_ota_v3_checkpoint_save` accepts. -/
  saved : saveRejects env.toJournalEnv (r.fillCheckpoint checkpointTransferring point) = false
  /-- `record_valid` accepts. -/
  valid : recordValid env.toJournalEnv (freshRecord env.toJournalEnv d.nvs
    (some (r.fillCheckpoint checkpointTransferring point))) = true
  /-- The next load returns the checkpoint, and `keemash_ota_v3_stream_resume` accepts. -/
  resumed : answers.flashDown = false → answers.save = some .done →
    (write d r chunk answers).2.load env =
        .ok (r.fillCheckpoint checkpointTransferring point) ∧
      ∃ s : Stream env.toOtaEnv, streamResume t.fields point
        ((write d r chunk answers).2.flashRead p fun _ => .ok) = .ok s

/-- A chunk that the stream accepts is accepted by the receiver, and a checkpoint that is
then due is taken. -/
theorem Transfer.Healthy.write_ok (hlabels : ∀ p ∈ env.appPartitions, p.label ≠ [])
    (h : t.Healthy d r) (hactive : r.active = true) {stream : Stream env.toOtaEnv}
    (hstream : r.stream = some stream) {chunk : Chunk} (hcut : chunk.Cut t.artifact)
    {answers : Answers env} (hfed : (streamFeed answers.otaWrite stream chunk).1 = .ok) :
    (answers.flashDown = false → answers.save = some .done →
      ∃ r' d', write d r chunk answers = (some ⟨.ok, none, r'⟩, d')) ∧
    (r.Due (streamFeed answers.otaWrite stream chunk).2 →
      ∃ p point, r.partition = some p ∧ t.Taken d r p chunk answers
        (streamFeed answers.otaWrite stream chunk).2 point) := by
  obtain ⟨-, stream', handle, base, hunder⟩ := h.writing hactive
  obtain rfl : stream = stream' :=
    Option.some.inj (hstream.symm.trans hunder.writing.stream_eq)
  obtain ⟨p, hcarried⟩ := h.busy (.inl hactive)
  have hcarried := hunder.carried hcarried
  obtain ⟨hgoing, hfinished, halong, hidle⟩ := hunder.fed hcut hfed
  -- The feed does not depend on how the flash fares after it.
  have hwriting := hunder.writing.feed answers.otaWrite chunk answers.leftover
  have hdown := h.program hunder.behind
    ((streamFeed answers.otaWrite stream chunk).2.sent.drop stream.sent.length).flatten
    answers.leftover
  have hpoint := fun hdue => due_point hwriting { hcarried with } hgoing hfinished halong
    (hidle hdue) hdue
  have hlet {point : ResumePoint} (hbetween : point.Between t.artifact)
      (hinterval : point.rawOffset % env.interval = 0) :=
    t.point_let_through hcarried (hlabels _ hcarried.mem) hbetween hinterval
  -- A write whose checkpoint is due stores it.
  have hstore (hflash : answers.flashDown = false) (hsave : answers.save = some .done)
      (hdue : r.Due (streamFeed answers.otaWrite stream chunk).2) {point : ResumePoint}
      (hreport : streamCheckpoint (streamFeed answers.otaWrite stream chunk).2 = .ok point)
      (haccept : saveRejects env.toJournalEnv
        (r.fillCheckpoint checkpointTransferring point) = false) :
      ∃ r' d', write d r chunk answers = (some ⟨.ok, none, r'⟩, d') ∧
        d'.load env = .ok (r.fillCheckpoint checkpointTransferring point) ∧
        d'.flash = (d.program handle.partition handle.offset
          ((streamFeed answers.otaWrite stream chunk).2.sent.drop
            stream.sent.length).flatten answers.leftover).flash := by
    obtain ⟨d', r', -, rfl, hr, heq⟩ := write_fed hactive hunder.writing chunk hfed hflash
    have hdue' : r'.Due (streamFeed answers.otaWrite stream chunk).2 := hr ▸ hdue
    have hfill : r'.fillCheckpoint checkpointTransferring point =
        r.fillCheckpoint checkpointTransferring point := by
      rw [hr]
      rfl
    obtain ⟨d'', hsaved, hflash', -, -, hload⟩ := save_granted hdown.paired haccept
    rw [heq, checkpointDue, if_neg hdue', hreport]
    dsimp only
    rw [hfill, hsave, hsaved]
    exact ⟨_, d'', rfl, hload, hflash'⟩
  constructor
  · intro hflash hsave
    by_cases hdue : r.Due (streamFeed answers.otaWrite stream chunk).2
    · obtain ⟨point, hreport, hbetween, -, -, -, hinterval⟩ := hpoint hdue
      obtain ⟨r', d', hwrite, -⟩ := hstore hflash hsave hdue hreport (hlet hbetween hinterval)
      exact ⟨r', d', hwrite⟩
    · obtain ⟨d', r', -, -, hr, heq⟩ := write_fed hactive hunder.writing chunk hfed hflash
      have hdue' : ¬r'.Due (streamFeed answers.otaWrite stream chunk).2 := hr ▸ hdue
      rw [heq, checkpointDue, if_pos (not_not.mp hdue')]
      exact ⟨r', d', rfl⟩
  · intro hdue
    obtain ⟨point, hreport, hbetween, hheld, -, -, hinterval⟩ := hpoint hdue
    have haccept := hlet hbetween hinterval
    refine ⟨handle.partition, point, hcarried.partition, hidle hdue, hreport, haccept,
      recordValid_freshRecord d.nvs (storable_some haccept), ?_⟩
    intro hflash hsave
    obtain ⟨r', d', hwrite, hload, hflash'⟩ := hstore hflash hsave hdue hreport haccept
    rw [hwrite]
    exact ⟨hload, t.resumes hbetween (hflash' ▸ hheld) fun _ => rfl⟩

/-- The checks of a terminal checkpoint. -/
structure TerminalAccepted (d : Device) (cp : Checkpoint) (env : ReceiverEnv) : Prop where
  saved : saveRejects env.toJournalEnv cp = false
  valid : recordValid env.toJournalEnv
    (freshRecord env.toJournalEnv d.nvs (some cp)) = true

theorem Transfer.terminal_accepted (t : Transfer env) (d : Device) (hcarried : t.Carried r p)
    (hlabel : p.label ≠ []) {phase : BitVec 8} (hlow : checkpointTransferring < phase)
    (hhigh : phase ≤ checkpointBootPending) :
    TerminalAccepted d (r.terminalCheckpoint phase) env := by
  have hlet := t.terminal_let_through hcarried hlabel hlow hhigh
  exact ⟨hlet, recordValid_freshRecord d.nvs (storable_some hlet)⟩

/-- A stream that finishes is verified, and the journal shows it. -/
theorem Transfer.Healthy.verify_ok (hlabels : ∀ p ∈ env.appPartitions, p.label ≠ [])
    (h : t.Healthy d r) (hactive : r.active = true) {stream : Stream env.toOtaEnv}
    (hstream : r.stream = some stream) (hfinish : (streamFinish stream).1 = .ok)
    {answers : Answers env} (hend : answers.otaEnd = .ok) (hsave : answers.save = some .done) :
    ∃ reply d', verify d r answers = (some reply, d') ∧ reply.err = .ok ∧
      d'.load env = .ok (r.terminalCheckpoint checkpointVerified) := by
  obtain ⟨p, hcarried⟩ := h.busy (.inl hactive)
  have hlet := t.terminal_let_through hcarried (hlabels p hcarried.mem)
    transferring_lt_verified verified_le_bootPending
  obtain ⟨d', hsaved, -, -, -, hload⟩ := save_granted h.paired hlet
  have hterminal : ({ r with
      stream := some (streamFinish stream).2
      handle := none
      active := false
      verified := true } : Receiver env).terminalCheckpoint checkpointVerified =
      r.terminalCheckpoint checkpointVerified := rfl
  rw [verify, hactive, hstream]
  dsimp only
  rw [if_neg (not_not.mpr hfinish), if_neg (not_not.mpr hend), sealVerified, hterminal, hsave,
    hsaved]
  exact ⟨_, d', rfl, rfl, hload⟩

/-- Activating returns what `esp_ota_set_boot_partition` answers, and the journal shows how
far it came. -/
theorem Transfer.Healthy.activate_ok (hlabels : ∀ p ∈ env.appPartitions, p.label ≠ [])
    (h : t.Healthy d r) (hactive : r.active = false) (hverified : r.verified = true)
    {answers : Answers env} (hpreflight : answers.preflight = .ok)
    (hsave : answers.save = some .done) {err : EspErr}
    (hboot : answers.setBootPartition = some err) (hrestore : answers.restore = some .done) :
    ∃ reply d', activate d r answers = (some reply, d') ∧ reply.err = err ∧
      d'.load env = .ok (r.terminalCheckpoint
        (if err = .ok then checkpointBootPending else checkpointVerified)) := by
  obtain ⟨p, hcarried⟩ := h.busy (.inr hverified)
  have hlabel := hlabels p hcarried.mem
  have hlet := t.terminal_let_through hcarried hlabel transferring_lt_bootPending
    (BitVec.le_refl _)
  obtain ⟨d', hsaved, -, -, hpaired, hload⟩ := save_granted h.paired hlet
  rw [activate, hactive, hverified, hcarried.partition]
  dsimp only
  rw [if_neg (not_not.mpr hpreflight), hsave, hsaved]
  dsimp only
  rw [if_neg (not_not.mpr rfl), setBoot, hboot]
  dsimp only
  by_cases hok : err = .ok
  · rw [if_pos hok, if_pos hok]
    exact ⟨_, d'.select r p, rfl, hok.symm, hload⟩
  · have hpaired' : Paired env.toJournalEnv (d'.select r p).nvs := hpaired
    have hlet' := t.terminal_let_through hcarried hlabel transferring_lt_verified
      verified_le_bootPending
    obtain ⟨d'', hsaved', -, -, -, hload'⟩ := save_granted hpaired' hlet'
    rw [if_neg hok, if_neg hok, hrestore, hsaved']
    exact ⟨_, d'', rfl, rfl, hload'⟩

/-- What the platform answers to a prepare that can succeed. -/
structure Answers.Ready (answers : Answers env) (t : Transfer env) (target : Target)
    (p : Partition) : Prop where
  preflight : answers.preflight = .ok
  reads : ∀ offset, answers.partitionRead offset = .ok
  otaBegin : answers.otaBegin = .ok
  flash : answers.flashDown = false
  target : checkTarget t.fields target.projectName target.chipTarget p.size target.coreVersion
    target.fabricSchema = .ok

theorem openTransfer_ready {resume : Option ResumePoint} {target : Target} {answers : Answers env}
    (hready : answers.Ready t target p)
    (hresume : ∀ point, resume = some point →
      point.Between t.artifact ∧ point.HeldBy env (d.flash p)) :
    ∃ reply d', openTransfer d p t.fields t.operationId t.artifactId t.signedFields t.signature
      resume answers = (some reply, d') ∧ reply.err = .ok := by
  have hdown : ¬answers.flashDown = true := by
    rw [hready.flash]
    exact Bool.noConfusion
  have hbegin : ¬answers.otaBegin ≠ .ok := not_not.mpr hready.otaBegin
  cases resume with
  | none =>
      have hshape : ¬(t.fields.codec ≠ codecFullDeflate ∨ t.fields.blockSize ≠ fullBlockSize ∨
          t.fields.blockCount = 0) := by
        rintro (hcodec | hsize | hcount)
        · exact hcodec t.genuine.codec
        · exact hsize t.genuine.blockSize
        · exact Nat.ne_of_gt (fieldSizes_of_verified t.verified).count_pos hcount
      simp only [openTransfer, streamBegin]
      rw [if_neg hshape]
      dsimp only
      rw [if_neg hdown, if_neg hbegin]
      exact ⟨_, _, rfl, rfl⟩
  | some point =>
      obtain ⟨hbetween, hheld⟩ := hresume point rfl
      obtain ⟨s, hs⟩ := t.resumes hbetween hheld hready.reads
      simp only [openTransfer]
      rw [hs]
      dsimp only
      rw [if_neg hdown, if_neg hbegin]
      exact ⟨_, _, rfl, rfl⟩

/-- The transfer can be prepared in every state, while the device still updates the
partition of its checkpoint. -/
theorem Transfer.Healthy.prepare_ok (h : t.Healthy d r) {target : Target}
    {answers : Answers env} (hnext : env.nextUpdatePartition d.running = some p)
    (hready : answers.Ready t target p)
    (hlabel : ∀ cp, d.load env = .ok cp → cp.phase = checkpointTransferring →
      cString cp.partitionLabel = p.label) :
    ∃ reply d', prepare d r target t.operationId t.artifactId t.signedFields t.signature
      answers = (some reply, d') ∧ reply.err = .ok := by
  have hsizes := fieldSizes_of_verified t.verified
  have hshape : ¬(t.signedFields.length = 0 ∨ t.signedFields.length > signedFieldsMax) := by
    rintro (hzero | hlong)
    · exact Nat.ne_of_gt hsizes.signed_pos hzero
    · exact Nat.not_lt.mpr hsizes.signed_le hlong
  rw [prepare, if_neg hshape]
  by_cases hbusy : r.active = true ∨ r.verified = true
  · obtain ⟨q, hcarried⟩ := h.busy hbusy
    have hsame : r.sameOperation t.operationId t.artifactId = true ∧
        r.signedFields = t.signedFields ∧ r.signature = t.signature := by
      rw [Receiver.sameOperation, decide_eq_true_iff]
      exact ⟨⟨hcarried.operationId, hcarried.artifactId⟩, hcarried.signedFields,
        hcarried.signature⟩
    rw [if_pos hbusy, if_pos hsame]
    exact ⟨_, d, rfl, rfl⟩
  · rw [if_neg hbusy, t.verified]
    dsimp only
    rw [if_neg (not_not.mpr hready.preflight), hnext]
    dsimp only
    rw [if_neg (not_not.mpr hready.target)]
    cases hload : checkpointLoad env.toJournalEnv d.nvs with
    | error err =>
        have hnone : err = .notFound := by
          rw [checkpointLoad] at hload
          split at hload
          · split at hload
            · exact (Except.error.inj hload).symm
            · cases hload
          · exact (Except.error.inj hload).symm
        rw [hnone]
        apply openTransfer_ready hready
        intro point hpoint
        cases hpoint
    | ok cp =>
        obtain ⟨q, hrecords⟩ := h.shown cp hload
        dsimp only
        rw [hrecords.of, if_neg (by decide)]
        by_cases hphase : cp.phase = checkpointTransferring
        · have hhere := hlabel cp hload hphase
          obtain rfl := hrecords.partition_eq (env.next_mem _ _ hnext) hhere
          rw [if_neg (not_not.mpr hphase), if_neg (not_not.mpr hhere)]
          apply openTransfer_ready hready
          intro point hpoint
          rw [← Option.some.inj hpoint]
          exact hrecords.point hphase
        · rw [if_pos hphase, hrecords.label, cString_labelArray,
            findPartition_label hrecords.mem]
          exact ⟨_, d, rfl, rfl⟩

end Transfer

/-- In every state that a healthy transfer reaches: a chunk that the stream accepts is
accepted; a checkpoint that is due is due at a block boundary, and every check of it accepts;
so does every check of the terminal checkpoints; and the transfer can be prepared, from its
checkpoint if there is one. -/
theorem checkpoints_agree (hlabels : ∀ p ∈ env.appPartitions, p.label ≠ []) (t : Transfer env)
    {start : ReceiverState env} (hstart : start.Clear) {events : List (ReceiverEvent env)}
    (hevents : ∀ event ∈ events, event.Of t) :
    let d := (runReceiver start events).device
    let r := (runReceiver start events).receiver
    (r.active = true → ∀ stream, r.stream = some stream → ∀ chunk, chunk.Cut t.artifact →
      ∀ answers : Answers env, (streamFeed answers.otaWrite stream chunk).1 = .ok →
        (answers.flashDown = false → answers.save = some .done →
          ∃ r' d', write d r chunk answers = (some ⟨.ok, none, r'⟩, d')) ∧
        (r.Due (streamFeed answers.otaWrite stream chunk).2 →
          ∃ p point, r.partition = some p ∧ t.Taken d r p chunk answers
            (streamFeed answers.otaWrite stream chunk).2 point)) ∧
    (r.active = true ∨ r.verified = true → ∀ phase : BitVec 8, checkpointTransferring < phase →
      phase ≤ checkpointBootPending → TerminalAccepted d (r.terminalCheckpoint phase) env) ∧
    (r.active = true → ∀ stream, r.stream = some stream → (streamFinish stream).1 = .ok →
      ∀ answers : Answers env, answers.otaEnd = .ok → answers.save = some .done →
        ∃ reply d', verify d r answers = (some reply, d') ∧ reply.err = .ok ∧
          d'.load env = .ok (r.terminalCheckpoint checkpointVerified)) ∧
    (r.active = false → r.verified = true → ∀ answers : Answers env, answers.preflight = .ok →
      answers.save = some .done → answers.restore = some .done → ∀ err,
        answers.setBootPartition = some err →
        ∃ reply d', activate d r answers = (some reply, d') ∧ reply.err = err ∧
          d'.load env = .ok (r.terminalCheckpoint
            (if err = .ok then checkpointBootPending else checkpointVerified))) ∧
    ∀ (target : Target) (answers : Answers env) (p : Partition),
      env.nextUpdatePartition d.running = some p → answers.Ready t target p →
      (∀ cp, d.load env = .ok cp → cp.phase = checkpointTransferring →
        cString cp.partitionLabel = p.label) →
      ∃ reply d', prepare d r target t.operationId t.artifactId t.signedFields t.signature
        answers = (some reply, d') ∧ reply.err = .ok := by
  intro d r
  have h : t.Healthy d r := runReceiver_healthy hlabels hstart hevents
  refine ⟨?_, ?_, ?_, ?_, ?_⟩
  · intro hactive stream hstream chunk hcut answers hfed
    exact h.write_ok hlabels hactive hstream hcut hfed
  · intro hbusy phase hlow hhigh
    obtain ⟨p, hcarried⟩ := h.busy hbusy
    exact t.terminal_accepted d hcarried (hlabels p hcarried.mem) hlow hhigh
  · intro hactive stream hstream hfinish answers hend hsave
    exact h.verify_ok hlabels hactive hstream hfinish hend hsave
  · intro hactive hverified answers hpreflight hsave hrestore err hboot
    exact h.activate_ok hlabels hactive hverified hpreflight hsave hboot hrestore
  · intro target answers p hnext hready hlabel
    exact h.prepare_ok hnext hready hlabel

/-! ## The transfer of the letter -/

theorem genuine_letter : Genuine twoSlots.toOtaEnv letterFields
    [⟨letterBlock, letterRaw, letterEncoded⟩] where
  codec := rfl
  blockSize := rfl
  count := rfl
  tiled := by
    intro n b hb
    match n, hb with
    | 0, hb =>
        obtain rfl := Option.some.inj hb
        exact ⟨⟨rfl, rfl, by decide +kernel, by decide +kernel⟩, rfl, rfl, rfl⟩
  full := by
    intro n b _ hlast
    exact absurd hlast (Nat.not_lt.mpr (Nat.le_add_left 1 n))
  deflate := by decide
  raw_pos := by decide
  encoded_pos := by decide
  raw_length := rfl
  raw_hash := by decide +kernel
  encoded_length := rfl
  encoded_hash := by decide +kernel
  chain := by decide +kernel

def letterTransfer : Transfer twoSlots where
  operationId := operationBytes ⟨1, 2⟩
  artifactId := letterSignedSha256
  signedFields := letterSigned
  signature := letterSignature
  fields := letterFields
  artifact := [⟨letterBlock, letterRaw, letterEncoded⟩]
  verified := by decide +kernel
  genuine := genuine_letter

/-- The device restarts once the image is verified and is asked for it again: activating
succeeds, and the journal shows it. -/
theorem checkpoints_agree_letter :
    let s := runReceiver (.factory twoSlots (fun _ => []) otaZero)
      [.transfer letterTarget letterPrepare smooth, .transfer letterTarget letterData smooth,
        .transfer letterTarget letterCommit smooth, .restart otaZero,
        .transfer letterTarget letterPrepare smooth]
    ∃ reply d', activate s.device s.receiver smooth = (some reply, d') ∧ reply.err = .ok ∧
      d'.load twoSlots = .ok (s.receiver.terminalCheckpoint checkpointBootPending) := by
  have hlabels : ∀ p ∈ twoSlots.appPartitions, p.label ≠ [] := by decide +kernel
  have hstores : smooth.StoresAll := ⟨.inr rfl, .inr rfl, .inr rfl⟩
  have hprepare : letterPrepare.Of letterTransfer := by
    intro id artifact sig hid hartifact hsig
    obtain rfl := Option.some.inj hid
    have hartifact' : asVector? 32 letterSignedSha256.toList = some letterSignedSha256 := by
      decide +kernel
    have hsig' : asVector? 64 letterSignature.toList = some letterSignature := by
      decide +kernel
    exact ⟨rfl, Option.some.inj (hartifact.symm.trans hartifact'), rfl,
      Option.some.inj (hsig.symm.trans hsig')⟩
  have hdata : letterData.Of letterTransfer := by
    intro id descriptor _ _ _ hblock
    obtain rfl := Option.some.inj hblock
    exact ⟨_, List.mem_cons_self, rfl, List.prefix_rfl⟩
  have hstart : (ReceiverState.factory twoSlots (fun _ => []) otaZero).Clear :=
    ⟨⟨[], rfl⟩, rfl, rfl⟩
  have hevents : ∀ event ∈ ([.transfer letterTarget letterPrepare smooth,
      .transfer letterTarget letterData smooth, .transfer letterTarget letterCommit smooth,
      .restart otaZero, .transfer letterTarget letterPrepare smooth] :
        List (ReceiverEvent twoSlots)), event.Of letterTransfer := by
    intro event hevent
    simp only [List.mem_cons, List.not_mem_nil, or_false] at hevent
    rcases hevent with rfl | rfl | rfl | rfl | rfl
    · exact ⟨hprepare, hstores⟩
    · exact ⟨hdata, hstores⟩
    · exact ⟨trivial, hstores⟩
    · exact trivial
    · exact ⟨hprepare, hstores⟩
  obtain ⟨-, -, -, hactivate, -⟩ :=
    checkpoints_agree hlabels letterTransfer hstart hevents
  exact hactivate (by decide +kernel) (by decide +kernel) smooth rfl rfl rfl .ok rfl

end KeemashCore.OtaV3

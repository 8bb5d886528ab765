import KeemashCore.OtaV3.FlashReceiver
import KeemashCore.OtaV3.Journal
import KeemashCore.OtaV3.Resume
import Mathlib.Data.List.Nodup

/-!
# Only verified images are selected

Whatever messages, aborts and restarts come in whatever order, a record of the
journal that says a partition is verified is true of the flash, and so is the
state of a receiver that says so.  Hence every partition handed to
`esp_ota_set_boot_partition` holds the signed image.
-/

namespace KeemashCore.OtaV3

variable {env : ReceiverEnv}

/-! ## What a feed puts out -/

theorem startBlock_sent {env : OtaEnv} (s : Stream env) (d : BlockDescriptor) :
    (startBlock s d).2.sent = s.sent := by
  simp only [startBlock]
  split
  · rfl
  · split <;> rfl

theorem openBlock_sent {env : OtaEnv} (s : Stream env) (d : BlockDescriptor) (offset : ℕ) :
    (openBlock s d offset).2.sent = s.sent := by
  simp only [openBlock]
  split
  · split
    · rfl
    · exact startBlock_sent s d
  · split <;> rfl

theorem finishBlock_sent {env : OtaEnv} (s : Stream env) :
    (finishBlock s).2.sent = s.sent := by
  simp only [finishBlock]
  split <;> rfl

theorem takeChunk_sent {env : OtaEnv} (outputFn : OutputFn) (s : Stream env) (chunk : Bytes)
    (final : Bool) : s.sent <+: (takeChunk outputFn s chunk final).2.sent := by
  obtain ⟨pieces, hfeed⟩ := inflaterFeed_inflates outputFn final s.inflater chunk s
  have hemitted := hfeed.emitted
  simp only [takeChunk]
  generalize inflaterFeed env (streamOutput outputFn) s.inflater chunk final s = fed at hemitted
  have hsent : s.sent <+: fed.2.2.sent := by
    rw [hemitted]
    exact List.prefix_append _ _
  split
  · exact hsent
  · split
    · rw [finishBlock_sent]
      exact hsent
    · exact hsent

/-- A feed only adds to what was put out. -/
theorem streamFeed_sent {env : OtaEnv} (outputFn : OutputFn) (s : Stream env) (c : Chunk) :
    s.sent <+: (streamFeed outputFn s c).2.sent := by
  have hopen := openBlock_sent s c.descriptor c.offset
  have hinflate : (openBlock s c.descriptor c.offset).2.sent <+:
      (inflateChunk outputFn (openBlock s c.descriptor c.offset).2 c.offset c.bytes
        c.final).2.sent := by
    simp only [inflateChunk]
    split
    · exact List.prefix_rfl
    · exact takeChunk_sent outputFn ((openBlock s c.descriptor c.offset).2.hashChunk c.bytes)
        c.bytes c.final
  rw [hopen] at hinflate
  simp only [streamFeed]
  split
  · exact List.prefix_rfl
  · split
    · split <;> exact List.prefix_rfl
    · split
      · exact hopen ▸ List.prefix_rfl
      · split
        · exact hinflate
        · exact hinflate

/-- A stream that finishes has put out the image, after what it started with. -/
theorem Trail.image {env : OtaEnv} {base : Base} {fields : SignedFields}
    {chunks : List Chunk} {blocks : List Block} {s : Stream env}
    (h : Trail base fields chunks blocks s) (hok : (streamFinish s).1 = .ok) :
    (base.raw ++ s.sent.flatten).length = fields.rawSize ∧
      env.sha256 (base.raw ++ s.sent.flatten) = fields.imageSha256 := by
  obtain ⟨-, hidle, -, hrawOffset, -, himage, -⟩ := streamFinish_ok hok
  rw [h.fields_eq] at hrawOffset himage
  constructor
  · rw [h.output, Stream.parts_idle hidle, List.length_append, ← hrawOffset]
    exact h.rawOffset.symm
  · rw [← h.imageHash]
    exact himage

/-! ## Labels -/

theorem labelArray_toList (p : Partition) :
    (labelArray p.label).toList = p.label ++ List.replicate (17 - p.label.length) 0 := by
  have hfits := p.label_fits
  refine List.ext_getElem (by simp; omega) fun i hi hi' => ?_
  have hlt : i < 17 := by simpa using hi
  simp only [labelArray, Vector.toList_ofFn, List.getElem_ofFn, List.getD_eq_getElem?_getD]
  by_cases hin : i < p.label.length
  · rw [if_pos (by omega), List.getElem_append_left hin, List.getElem?_eq_getElem hin]
    rfl
  · rw [List.getElem_append_right (by omega), List.getElem_replicate,
      List.getElem?_eq_none (by omega)]
    simp

/-- The label of a checkpoint reads back. -/
theorem cString_labelArray (p : Partition) : cString (labelArray p.label) = p.label := by
  rw [cString, labelArray_toList]
  have hpad : (List.replicate (17 - p.label.length) (0 : UInt8)).takeWhile (· ≠ 0) = [] := by
    rw [List.takeWhile_replicate]
    rfl
  rw [List.takeWhile_append_of_pos]
  · rw [hpad, List.append_nil]
  · intro b hb
    have hne : b ≠ 0 := fun hzero => p.label_text (hzero ▸ hb)
    simpa using hne

/-- A partition of the table is found under its label. -/
theorem findPartition_label {p : Partition} (hmem : p ∈ env.appPartitions) :
    findPartition env p.label = some p := by
  have hinj := List.inj_on_of_nodup_map env.labels_distinct
  cases hfind : env.appPartitions.find? fun q => q.label = p.label with
  | none =>
      rw [List.find?_eq_none] at hfind
      exact absurd (decide_eq_true rfl) (hfind p hmem)
  | some q =>
      have hlabel : q.label = p.label := by simpa using List.find?_some hfind
      rw [findPartition, hfind, hinj (List.mem_of_find?_eq_some hfind) hmem hlabel]

/-! ## Journal writes -/

/-- The journal of the device is what some history of writes left there. -/
def Device.Sound (env : ReceiverEnv) (d : Device) : Prop :=
  ∃ history, Journal env.toJournalEnv d.nvs history ∧
    (DoubleBuffer.committed history).length ≤ d.journalWrites

/-- The checkpoint that the journal shows. -/
def Device.load (env : ReceiverEnv) (d : Device) : Except EspErr Checkpoint :=
  checkpointLoad env.toJournalEnv d.nvs

/-- What the journal shows of a record. -/
def shown : Option Checkpoint → Except EspErr Checkpoint
  | some cp => .ok cp
  | none => .error .notFound

/-- The device `d'` differs from `d` in the journal at most, which shows `l`. -/
structure Device.After (env : ReceiverEnv) (d d' : Device) (l : Except EspErr Checkpoint) :
    Prop where
  sound : d'.Sound env
  flash : d'.flash = d.flash
  running : d'.running = d.running
  selections : d'.selections = d.selections
  load : d'.load env = l

theorem Device.After.trans {d d' d'' : Device} {l l' : Except EspErr Checkpoint}
    (h : d.After env d' l) (h' : d'.After env d'' l') : d.After env d'' l' :=
  ⟨h'.sound, h'.flash.trans h.flash, h'.running.trans h.running,
    h'.selections.trans h.selections, h'.load⟩

/-- A call that writes the journal shows its record if it returns `ESP_OK`, and
changes nothing otherwise. -/
theorem written_spec {d : Device} (h : d.Sound env) (call : JournalCall env.toJournalEnv)
    (record : Option Checkpoint)
    (hcompleted : call.completed.toList =
      if (call.run d.nvs).1 = some .ok then [record] else [])
    (hroom : (d.written (call.run d.nvs)).journalWrites < generationLimit) :
    (d.written (call.run d.nvs)).Sound env ∧
      (d.written (call.run d.nvs)).load env =
        if (call.run d.nvs).1 = some .ok then shown record else d.load env := by
  obtain ⟨history, hjournal, hlength⟩ := h
  simp only [Device.written] at hroom
  have hcount : (call.completed.toList).length =
      if (call.run d.nvs).1 = some .ok then 1 else 0 := by
    rw [hcompleted]
    split <;> rfl
  obtain ⟨more, hmore, hcommitted⟩ := hjournal.run call (by omega)
  have hall : DoubleBuffer.committed (history ++ more) =
      DoubleBuffer.committed history ++ call.completed.toList := by
    rw [DoubleBuffer.committed, List.filterMap_append]
    exact congrArg _ hcommitted
  refine ⟨⟨history ++ more, hmore, ?_⟩, ?_⟩
  · rw [hall, List.length_append]
    simp only [Device.written]
    omega
  · have hload := hmore.load
    have hbefore := hjournal.load
    rw [hall, hcompleted] at hload
    simp only [Device.load, Device.written]
    by_cases hok : (call.run d.nvs).1 = some .ok
    · rw [if_pos hok, List.getLast?_concat] at hload
      rw [if_pos hok, hload]
      cases record <;> rfl
    · rw [if_neg hok, List.append_nil] at hload
      rw [if_neg hok, hload, hbefore]

/-- What `keemash_ota_v3_checkpoint_save` does to a device. -/
theorem Device.save_after {d : Device} (h : d.Sound env) (cp : Checkpoint)
    (write : Option (NvsWrite env.toJournalEnv))
    (hroom : (d.save cp write).2.journalWrites < generationLimit) :
    d.After env (d.save cp write).2
      (if (d.save cp write).1 = some .ok then .ok cp else d.load env) := by
  cases write with
  | none => exact ⟨h, rfl, rfl, rfl, rfl⟩
  | some write =>
      have hcompleted : (JournalCall.save cp write).completed.toList =
          if ((JournalCall.save cp write).run d.nvs).1 = some .ok then [some cp] else [] := by
        by_cases hreject : saveRejects env.toJournalEnv cp = true
        · cases write <;> simp [JournalCall.completed, JournalCall.run, checkpointSave, hreject]
        · cases write <;>
            simp_all [JournalCall.completed, JournalCall.run, checkpointSave, writeRecord]
      obtain ⟨hsound, hload⟩ := written_spec h (.save cp write) (some cp) hcompleted hroom
      exact ⟨hsound, rfl, rfl, rfl, hload⟩

/-- What `keemash_ota_v3_checkpoint_clear` does to a device. -/
theorem Device.clear_after {d : Device} (h : d.Sound env)
    (write : Option (NvsWrite env.toJournalEnv))
    (hroom : (d.clear write).2.journalWrites < generationLimit) :
    d.After env (d.clear write).2
      (if (d.clear write).1 = some .ok then .error .notFound else d.load env) := by
  cases write with
  | none => exact ⟨h, rfl, rfl, rfl, rfl⟩
  | some write =>
      have hcompleted : (JournalCall.clear write).completed.toList =
          if ((JournalCall.clear write).run d.nvs).1 = some .ok then [none] else [] := by
        cases write <;>
          simp_all [JournalCall.completed, JournalCall.run, checkpointClear, writeRecord]
      obtain ⟨hsound, hload⟩ := written_spec h (.clear write) none hcompleted hroom
      exact ⟨hsound, rfl, rfl, rfl, hload⟩

/-- A relation between devices that holds across every write to the journal and
across whatever leaves the journal alone. -/
structure JournalRel (env : ReceiverEnv) (R : Device → Device → Prop) : Prop where
  trans : ∀ {d d' d'' : Device}, R d d' → R d' d'' → R d d''
  same : ∀ {d d' : Device}, d'.nvs = d.nvs → d'.journalWrites = d.journalWrites → R d d'
  save : ∀ (d : Device) (cp : Checkpoint) (write : Option (NvsWrite env.toJournalEnv)),
    R d (d.save cp write).2
  clear : ∀ (d : Device) (write : Option (NvsWrite env.toJournalEnv)), R d (d.clear write).2

theorem JournalRel.refl {R : Device → Device → Prop} (hR : JournalRel env R) (d : Device) :
    R d d :=
  hR.same rfl rfl

/-- No write to the journal is taken back. -/
theorem journalWrites_rel :
    JournalRel env fun d d' => d.journalWrites ≤ d'.journalWrites where
  trans := Nat.le_trans
  same _ hwrites := Nat.le_of_eq hwrites.symm
  save d _ write := by
    cases write with
    | none => exact Nat.le_refl _
    | some write => exact Nat.le_add_right _ _
  clear d write := by
    cases write with
    | none => exact Nat.le_refl _
    | some write => exact Nat.le_add_right _ _

/-! ## The invariant -/

/-- The partition holds the image of the signed fields. -/
structure Holds (env : ReceiverEnv) (content : Bytes) (fields : SignedFields)
    (signedFields : Bytes) (signature : Vector UInt8 64) : Prop where
  verified : verifySignedFields env.toOtaEnv signedFields signature.toList = .ok fields
  length : (content.take fields.rawSize).length = fields.rawSize
  hash : env.sha256 (content.take fields.rawSize) = fields.imageSha256

/-- The record is true of the flash. -/
def Vouched (env : ReceiverEnv) (d : Device) (cp : Checkpoint) : Prop :=
  ∃ p fields, p ∈ env.appPartitions ∧ cString cp.partitionLabel = p.label ∧
    Holds env (d.flash p) fields cp.signedFields cp.signature

/-- The receiver writes `stream` to flash, from `base` on. -/
structure Writing (d : Device) (r : Receiver env) (stream : Stream env.toOtaEnv)
    (handle : Handle) (base : Base) : Prop where
  stream_eq : r.stream = some stream
  handle_eq : r.handle = some handle
  partition_eq : r.partition = some handle.partition
  mem : handle.partition ∈ env.appPartitions
  fields : verifySignedFields env.toOtaEnv r.signedFields r.signature.toList = .ok r.fields
  trail : stream.failed = true ∨ ∃ chunks blocks,
    Trail base r.fields chunks blocks stream ∧ Remembers chunks stream
  content : (d.flash handle.partition).take handle.offset = base.raw ++ stream.sent.flatten
  offset : handle.offset = (base.raw ++ stream.sent.flatten).length

/-- The journal has no record of a verified image. -/
def Device.Unsealed (env : ReceiverEnv) (d : Device) : Prop :=
  ∀ cp, d.load env = .ok cp → cp.phase = checkpointTransferring

/-- What holds between the calls of the receiver. -/
structure Safe (d : Device) (r : Receiver env) : Prop where
  sound : d.Sound env
  vouched : ∀ cp, d.load env = .ok cp → cp.phase ≠ checkpointTransferring → Vouched env d cp
  writing : r.active = true → r.verified = false ∧ d.Unsealed env ∧
    ∃ stream handle base, Writing d r stream handle base
  verified : r.verified = true → ∃ p, r.partition = some p ∧ p ∈ env.appPartitions ∧
    Holds env (d.flash p) r.fields r.signedFields r.signature
  selections : ∀ call ∈ d.selections,
    Holds env call.content call.fields call.signedFields call.signature

/-- Where a call leaves the device: a device that went down starts with an empty
receiver. -/
def Outcome.receiver (outcome : Outcome env) : Receiver env :=
  (outcome.1.map Reply.receiver).getD (Receiver.zero env)

theorem safe_zero {d : Device} (hsound : d.Sound env)
    (hvouched : ∀ cp, d.load env = .ok cp → cp.phase ≠ checkpointTransferring →
      Vouched env d cp)
    (hselections : ∀ call ∈ d.selections,
      Holds env call.content call.fields call.signedFields call.signature) :
    Safe d (Receiver.zero env) :=
  ⟨hsound, hvouched, fun hactive => (nomatch hactive), fun hverified => (nomatch hverified),
    hselections⟩

/-- The receiver is reset; the journal keeps its record or loses it. -/
theorem Safe.reset {d d' : Device} {r : Receiver env} {l : Except EspErr Checkpoint}
    (h : Safe d r) (hafter : d.After env d' l) (hl : l = d.load env ∨ l = .error .notFound) :
    Safe d' (Receiver.zero env) := by
  refine safe_zero hafter.sound ?_ (hafter.selections ▸ h.selections)
  intro cp hload hphase
  rcases hl with hsame | hnone
  · rw [hafter.load, hsame] at hload
    rw [Vouched, hafter.flash]
    exact h.vouched cp hload hphase
  · rw [hafter.load, hnone] at hload
    cases hload

/-- The journal keeps its record, and the receiver its state. -/
theorem Safe.after_same {d d' : Device} {r : Receiver env} (h : Safe d r)
    (hafter : d.After env d' (d.load env)) : Safe d' r := by
  refine ⟨hafter.sound, ?_, fun hactive => ?_, fun hverified => ?_,
    hafter.selections ▸ h.selections⟩
  · rw [hafter.load]
    simp only [Vouched, hafter.flash]
    exact h.vouched
  · obtain ⟨hnot, hunsealed, stream, handle, base, hwriting⟩ := h.writing hactive
    refine ⟨hnot, fun cp hload => hunsealed cp (hafter.load ▸ hload), stream, handle, base,
      { hwriting with content := hafter.flash ▸ hwriting.content }⟩
  · rw [hafter.flash]
    exact h.verified hverified

/-- While there is no record to be true of it, the flash may change. -/
theorem safe_zero_program {d : Device} (hsound : d.Sound env) (hunsealed : d.Unsealed env)
    (hselections : ∀ call ∈ d.selections,
      Holds env call.content call.fields call.signedFields call.signature)
    (p : Partition) (offset : ℕ) (bytes leftover : Bytes) :
    Safe (d.program p offset bytes leftover) (Receiver.zero env) :=
  safe_zero hsound (fun cp hload hphase => absurd (hunsealed cp hload) hphase) hselections

theorem failReceiver_safe {d : Device} (h : Safe d (Receiver.zero env)) (error : EspErr)
    (clear : Option (NvsWrite env.toJournalEnv))
    (hroom : (failReceiver d error clear).2.journalWrites < generationLimit) :
    Safe (failReceiver d error clear).2 (failReceiver d error clear).receiver := by
  have hafter := fun hroom => Device.clear_after h.sound clear hroom
  simp only [failReceiver] at hroom ⊢
  generalize d.clear clear = cleared at hafter hroom ⊢
  obtain ⟨res, d'⟩ := cleared
  have hl (res : Option EspErr) : (if res = some .ok then .error .notFound else d.load env) =
      d.load env ∨ (if res = some .ok then .error .notFound else d.load env) =
        .error .notFound := by
    by_cases hok : res = some .ok
    · exact Or.inr (if_pos hok)
    · exact Or.inl (if_neg hok)
  cases res with
  | none => exact h.reset (hafter hroom) (hl _)
  | some err => exact h.reset (hafter hroom) (hl _)

/-! ## Preparing -/

theorem asVector?_toList {n : ℕ} {bytes : Bytes} {v : Vector UInt8 n}
    (h : asVector? n bytes = some v) : v.toList = bytes := by
  simp only [asVector?] at h
  split at h
  · cases h
    rfl
  · cases h

/-- What is read back is what the flash holds. -/
theorem readBack_flashRead {d : Device} {p : Partition} {answer : ℕ → EspErr}
    {offset left : ℕ} {hashed out : Bytes}
    (h : readBack (d.flashRead p answer) offset left hashed = .ok out) :
    out = hashed ++ ((d.flash p).drop offset).take left := by
  fun_induction readBack (d.flashRead p answer) offset left hashed with
  | case1 offset hashed =>
      cases h
      simp
  | case2 offset left hashed hleft length err herr => cases h
  | case3 offset left hashed hleft length buffer hbuffer ih =>
      have hbytes : buffer.toList = ((d.flash p).drop offset).take length := by
        simp only [Device.flashRead] at hbuffer
        split at hbuffer
        · split at hbuffer
          · next hvector =>
              cases hbuffer
              exact asVector?_toList hvector
          · cases hbuffer
        · cases hbuffer
      have hlength : length ≤ left := Nat.min_le_left _ _
      have hsplit : ((d.flash p).drop offset).take left =
          ((d.flash p).drop offset).take length ++
            ((d.flash p).drop (offset + length)).take (left - length) := by
        rw [← List.drop_drop, ← List.take_add]
        congr 1
        omega
      rw [ih h, hbytes, hsplit, List.append_assoc]

/-- A prefix of the flash before the programmed bytes stays. -/
theorem program_take {d : Device} {p : Partition} {offset : ℕ} {bytes leftover content : Bytes}
    (hcontent : (d.flash p).take offset = content) (hlength : content.length = offset) :
    ((d.program p offset bytes leftover).flash p).take (offset + bytes.length) =
      content ++ bytes := by
  simp only [Device.program, Function.update_self, hcontent]
  refine List.take_left' ?_
  rw [List.length_append, hlength]

/-- A transfer that opens writes from where the flash holds the bytes of its base. -/
theorem writing_opened {d : Device} {r : Receiver env} {p : Partition}
    {s : Stream env.toOtaEnv} {offset : ℕ} {base : Base} {leftover : Bytes}
    (hstream : r.stream = some s) (hhandle : r.handle = some ⟨p, offset⟩)
    (hpartition : r.partition = some p) (hmem : p ∈ env.appPartitions)
    (hverified : verifySignedFields env.toOtaEnv r.signedFields r.signature.toList = .ok r.fields)
    (htrail : Trail base r.fields [] [] s) (hlast : s.lastChunkValid = false)
    (hsent : s.sent = []) (hraw : (d.flash p).take offset = base.raw)
    (hlength : base.raw.length = offset) :
    Writing (d.program p offset [] leftover) r s ⟨p, offset⟩ base := by
  refine ⟨hstream, hhandle, hpartition, hmem, hverified,
    Or.inr ⟨[], [], htrail, ?_, fun _ => rfl⟩, ?_, ?_⟩
  · intro hvalid
    rw [hlast] at hvalid
    cases hvalid
  · have htake : ((d.program p offset [] leftover).flash p).take
        (offset + ([] : Bytes).length) = base.raw ++ [] := program_take hraw hlength
    simpa [hsent] using htake
  · simp [hsent, hlength]

theorem openTransfer_safe {d : Device} (h : Safe d (Receiver.zero env))
    (hunsealed : d.Unsealed env) {p : Partition} (hmem : p ∈ env.appPartitions)
    {fields : SignedFields} (operationId : Vector UInt8 16) (artifactId : Digest)
    {signedFields : Bytes} {signature : Vector UInt8 64}
    (hverified : verifySignedFields env.toOtaEnv signedFields signature.toList = .ok fields)
    (resume : Option ResumePoint) (answers : Answers env) :
    Safe (openTransfer d p fields operationId artifactId signedFields signature resume
        answers).2
      (openTransfer d p fields operationId artifactId signedFields signature resume
        answers).receiver := by
  have hdown (offset : ℕ) :=
    safe_zero_program h.sound hunsealed h.selections p offset [] answers.leftover
  -- Where the stream starts, and that the flash holds the bytes before it.
  have hstart (s : Stream env.toOtaEnv) (offset : ℕ) (base : Base)
      (htrail : Trail base fields [] [] s) (hlast : s.lastChunkValid = false)
      (hsent : s.sent = []) (hraw : (d.flash p).take offset = base.raw)
      (hlength : base.raw.length = offset) :
      Safe (d.program p offset [] answers.leftover)
        { stream := some s
          partition := some p
          handle := some ⟨p, offset⟩
          fields := fields
          operationId := operationId
          artifactId := artifactId
          signature := signature
          signedFields := signedFields
          checkpointRawOffset := offset
          active := true
          verified := false
          resumed := resume.isSome } := by
    refine ⟨h.sound, (hdown offset).vouched, fun _ => ⟨rfl, hunsealed, s, ⟨p, offset⟩, base, ?_⟩,
      fun hno => (nomatch hno), h.selections⟩
    exact writing_opened rfl rfl rfl hmem hverified htrail hlast hsent hraw hlength
  have hidle : Safe d (Receiver.zero env) := h
  cases resume with
  | none =>
      simp only [openTransfer]
      cases hbegin : (streamBegin fields : Except EspErr (Stream env.toOtaEnv)) with
      | error err => exact hidle
      | ok s =>
          obtain ⟨rfl, -⟩ := streamBegin_ok hbegin
          dsimp only
          split
          · exact hdown 0
          · split
            · exact hdown 0
            · exact hstart _ 0 Base.start (trail_fresh fields) rfl rfl rfl rfl
  | some point =>
      simp only [openTransfer]
      cases hresume : streamResume fields point (d.flashRead p answers.partitionRead) with
      | error err => exact hidle
      | ok s =>
          obtain ⟨raw, hraw, rfl, hindex, -⟩ := streamResume_ok hresume
          have hlength : raw.length = point.rawOffset := by simpa using readBack_length hraw
          have hcontent : raw = (d.flash p).take point.rawOffset := by
            simpa using readBack_flashRead hraw
          dsimp only
          split
          · exact hdown point.rawOffset
          · split
            · exact hdown point.rawOffset
            · exact hstart _ point.rawOffset (point.base raw) (trail_resumed fields hindex hlength)
                rfl rfl hcontent.symm hlength

/-- A record of a verified image stands for the transfer it is of. -/
theorem Safe.adopt {d : Device} {r : Receiver env} (h : Safe d r) (hidle : r.active = false)
    {cp : Checkpoint} (hload : d.load env = .ok cp) (hphase : cp.phase ≠ checkpointTransferring)
    {operationId : Vector UInt8 16} {artifactId : Digest} {signedFields : Bytes}
    {signature : Vector UInt8 64}
    (hof : cp.isOf operationId artifactId signedFields signature = true) {fields : SignedFields}
    (hverified : verifySignedFields env.toOtaEnv signedFields signature.toList = .ok fields)
    {saved : Partition} (hfind : findPartition env (cString cp.partitionLabel) = some saved) :
    Safe d
      { r with
        partition := some saved
        fields := fields
        operationId := operationId
        artifactId := artifactId
        signature := signature
        signedFields := signedFields
        verified := true
        resumed := true } := by
  obtain ⟨p, fields', hmem, hlabel, hholds⟩ := h.vouched cp hload hphase
  simp only [Checkpoint.isOf, decide_eq_true_eq] at hof
  obtain ⟨-, -, hsigned, hsignature⟩ := hof
  rw [hsigned, hsignature] at hholds
  have hfields : fields' = fields := Except.ok.inj (hholds.verified.symm.trans hverified)
  have hsaved : p = saved := by
    rw [hlabel, findPartition_label hmem] at hfind
    exact Option.some.inj hfind
  subst hfields hsaved
  refine ⟨h.sound, h.vouched, fun hactive => ?_, fun _ => ⟨p, rfl, hmem, hholds⟩, h.selections⟩
  rw [hidle] at hactive
  cases hactive

theorem prepare_safe {d : Device} {r : Receiver env} (h : Safe d r) (target : Target)
    (operationId : Vector UInt8 16) (artifactId : Digest) (signedFields : Bytes)
    (signature : Vector UInt8 64) (answers : Answers env) :
    Safe (prepare d r target operationId artifactId signedFields signature answers).2
      (prepare d r target operationId artifactId signedFields signature answers).receiver := by
  have hsame (err : EspErr) : Safe ((some ⟨err, none, r⟩, d) : Outcome env).2
      (Outcome.receiver (some ⟨err, none, r⟩, d)) := h
  have hzero : Safe d (Receiver.zero env) := safe_zero h.sound h.vouched h.selections
  simp only [prepare]
  split
  · exact hsame _
  · split
    · split <;> exact hsame _
    · next hidle =>
      simp only [not_or, Bool.not_eq_true] at hidle
      split
      · exact hsame _
      · next fields hverified =>
          split
          · exact hsame _
          · split
            · exact hsame _
            · next p hnext =>
                have hmem := env.next_mem _ p hnext
                split
                · exact hsame _
                · split
                  · next cp hload =>
                      split
                      · exact hsame _
                      · next hof =>
                          have hof := Bool.not_eq_false _ ▸ hof
                          split
                          · next hphase =>
                              split
                              · exact hsame _
                              · next saved hfind =>
                                  exact h.adopt hidle.1 hload hphase hof hverified hfind
                          · next hphase =>
                              split
                              · exact hsame _
                              · refine openTransfer_safe hzero ?_ hmem operationId artifactId
                                  hverified (some cp.resume) answers
                                intro cp' hcp'
                                rw [Device.load, hload] at hcp'
                                cases hcp'
                                exact Decidable.not_not.mp hphase
                  · next hload =>
                      refine openTransfer_safe hzero ?_ hmem operationId artifactId hverified none
                        answers
                      intro cp hcp
                      rw [Device.load, hload] at hcp
                      cases hcp
                  · exact hsame _

/-! ## Writing and verifying -/

theorem failReceiver_rel {R : Device → Device → Prop} (hR : JournalRel env R) (d : Device)
    (error : EspErr) (clear : Option (NvsWrite env.toJournalEnv)) :
    R d (@failReceiver env d error clear).2 := by
  have hle := hR.clear d clear
  simp only [failReceiver]
  generalize d.clear clear = cleared at hle ⊢
  obtain ⟨res, d'⟩ := cleared
  cases res <;> exact hle

/-- A journal without a verified image is enough for a receiver at work. -/
theorem Safe.after_unsealed {d d' : Device} {r : Receiver env} {l : Except EspErr Checkpoint}
    (h : Safe d r) (hafter : d.After env d' l)
    (hl : ∀ cp, l = .ok cp → cp.phase = checkpointTransferring) : Safe d' r := by
  have hunsealed : d'.Unsealed env := fun cp hload => hl cp (hafter.load.symm.trans hload)
  refine ⟨hafter.sound, fun cp hload hphase => absurd (hunsealed cp hload) hphase,
    fun hactive => ?_, fun hverified => ?_, hafter.selections ▸ h.selections⟩
  · obtain ⟨hnot, -, stream, handle, base, hwriting⟩ := h.writing hactive
    exact ⟨hnot, hunsealed, stream, handle, base, { hwriting with
      content := hafter.flash ▸ hwriting.content }⟩
  · rw [hafter.flash]
    exact h.verified hverified

theorem checkpointDue_safe {d : Device} {r : Receiver env} (h : Safe d r)
    (hactive : r.active = true) (stream : Stream env.toOtaEnv) (answers : Answers env)
    (hroom : (checkpointDue d r stream answers).2.journalWrites < generationLimit) :
    Safe (checkpointDue d r stream answers).2 (checkpointDue d r stream answers).receiver := by
  obtain ⟨-, hunsealed, -⟩ := h.writing hactive
  have hzero : Safe d (Receiver.zero env) := safe_zero h.sound h.vouched h.selections
  simp only [checkpointDue] at hroom ⊢
  split at hroom
  · next hdue =>
      rw [if_pos hdue]
      exact h
  · next hdue =>
      rw [if_neg hdue]
      cases hpoint : streamCheckpoint stream with
      | error err =>
          simp only [hpoint] at hroom ⊢
          exact failReceiver_safe hzero err answers.clear hroom
      | ok point =>
          simp only [hpoint] at hroom ⊢
          have hafter := Device.save_after h.sound
            (r.fillCheckpoint checkpointTransferring point) answers.save
          generalize d.save (r.fillCheckpoint checkpointTransferring point) answers.save = saved
            at hafter hroom ⊢
          obtain ⟨res, d'⟩ := saved
          -- Whatever came of the write, the record is not of a verified image.
          have hl : ∀ cp, (if res = some .ok then
              .ok (r.fillCheckpoint checkpointTransferring point) else d.load env) = .ok cp →
              cp.phase = checkpointTransferring := by
            intro cp hcp
            split at hcp
            · cases hcp
              rfl
            · exact hunsealed cp hcp
          cases res with
          | none => exact hzero.after_unsealed (hafter hroom) hl
          | some err =>
              simp only at hroom ⊢
              by_cases herr : err ≠ .ok
              · rw [if_pos herr] at hroom ⊢
                have hle := failReceiver_rel journalWrites_rel d' err answers.clear
                exact failReceiver_safe (hzero.after_unsealed (hafter (Nat.lt_of_le_of_lt hle hroom)) hl) err
                  answers.clear hroom
              · rw [if_neg herr] at hroom ⊢
                have hsafe := h.after_unsealed (hafter hroom) hl
                refine ⟨hsafe.sound, hsafe.vouched, fun hactive => ?_, hsafe.verified,
                  hsafe.selections⟩
                obtain ⟨hnot, hunsealed', stream', handle, base, hwriting⟩ :=
                  hsafe.writing hactive
                exact ⟨hnot, hunsealed', stream', handle, base, { hwriting with }⟩

/-- One more feed on the flash. -/
theorem Writing.feed {d : Device} {r : Receiver env} {stream : Stream env.toOtaEnv}
    {handle : Handle} {base : Base} (h : Writing d r stream handle base) (outputFn : OutputFn)
    (chunk : Chunk) (leftover : Bytes) :
    Writing
      (d.program handle.partition handle.offset
        ((streamFeed outputFn stream chunk).2.sent.drop stream.sent.length).flatten leftover)
      { r with
        stream := some (streamFeed outputFn stream chunk).2
        handle := some { handle with
          offset := handle.offset +
            ((streamFeed outputFn stream chunk).2.sent.drop stream.sent.length).flatten.length } }
      (streamFeed outputFn stream chunk).2
      { handle with
        offset := handle.offset +
          ((streamFeed outputFn stream chunk).2.sent.drop stream.sent.length).flatten.length }
      base := by
  obtain ⟨pieces, hpieces⟩ := streamFeed_sent outputFn stream chunk
  have htrail : (streamFeed outputFn stream chunk).2.failed = true ∨ ∃ chunks blocks,
      Trail base r.fields chunks blocks (streamFeed outputFn stream chunk).2 ∧
        Remembers chunks (streamFeed outputFn stream chunk).2 := by
    rcases h.trail with hfailed | ⟨chunks, blocks, htrail, hlast⟩
    · have hstuck := (run_failed outputFn hfailed (.feed chunk)).2
      simp only [StreamCall.run] at hstuck
      rw [hstuck]
      exact Or.inl hfailed
    · rcases streamFeed_trail htrail hlast outputFn chunk with hfailed | ⟨blocks', hnext⟩
      · exact Or.inl hfailed
      · exact Or.inr ⟨_, blocks', hnext⟩
  rw [← hpieces, List.drop_left]
  refine ⟨rfl, rfl, h.partition_eq, h.mem, h.fields, htrail, ?_, ?_⟩
  · rw [← hpieces, List.flatten_append, ← List.append_assoc]
    exact program_take h.content h.offset.symm
  · rw [← hpieces, List.flatten_append, ← List.append_assoc, List.length_append, ← h.offset]

/-- A write that has been fed, with the flash and the receiver after it. -/
theorem write_fed {d : Device} {r : Receiver env} {stream : Stream env.toOtaEnv}
    {handle : Handle} {base : Base} (hactive : r.active = true)
    (h : Writing d r stream handle base) (chunk : Chunk) {answers : Answers env}
    (hfed : (streamFeed answers.otaWrite stream chunk).1 = .ok)
    (hflash : answers.flashDown = false) :
    ∃ d' r', Writing d' r' (streamFeed answers.otaWrite stream chunk).2
        { handle with
          offset := handle.offset + ((streamFeed answers.otaWrite stream chunk).2.sent.drop
            stream.sent.length).flatten.length } base ∧
      d' = d.program handle.partition handle.offset
        ((streamFeed answers.otaWrite stream chunk).2.sent.drop stream.sent.length).flatten
        answers.leftover ∧
      r' = { r with
        stream := some (streamFeed answers.otaWrite stream chunk).2
        handle := some { handle with
          offset := handle.offset + ((streamFeed answers.otaWrite stream chunk).2.sent.drop
            stream.sent.length).flatten.length } } ∧
      write d r chunk answers =
        checkpointDue d' r' (streamFeed answers.otaWrite stream chunk).2 answers := by
  refine ⟨_, _, h.feed answers.otaWrite chunk answers.leftover, rfl, rfl, ?_⟩
  simp only [write, hactive, h.stream_eq, h.handle_eq, hfed, hflash, ne_eq, not_true_eq_false,
    if_true, if_false, Bool.false_eq_true]

theorem write_safe {d : Device} {r : Receiver env} (h : Safe d r) (chunk : Chunk)
    (answers : Answers env)
    (hroom : (write d r chunk answers).2.journalWrites < generationLimit) :
    Safe (write d r chunk answers).2 (write d r chunk answers).receiver := by
  by_cases hactive : r.active = true
  · obtain ⟨hnot, hunsealed, stream, handle, base, hwriting⟩ := h.writing hactive
    have hdown (bytes : Bytes) := safe_zero_program h.sound hunsealed h.selections
      handle.partition handle.offset bytes answers.leftover
    by_cases hflash : answers.flashDown = true
    · simp only [write, hactive, hwriting.stream_eq, hwriting.handle_eq, hflash, if_true]
      exact hdown _
    · by_cases hfed : (streamFeed answers.otaWrite stream chunk).1 = .ok
      · obtain ⟨d', r', hnext, rfl, hr, heq⟩ :=
          write_fed hactive hwriting chunk hfed (by simpa using hflash)
        have hactive' : r'.active = true := hr ▸ hactive
        have hnot' : r'.verified = false := hr ▸ hnot
        rw [heq] at hroom ⊢
        refine checkpointDue_safe ?_ hactive' _ answers hroom
        refine ⟨h.sound, (hdown _).vouched, fun _ => ⟨hnot', hunsealed, _, _, base, hnext⟩,
          fun hverified => ?_, h.selections⟩
        rw [hnot'] at hverified
        cases hverified
      · simp only [write, hactive, hwriting.stream_eq, hwriting.handle_eq, hflash, ne_eq, hfed,
          not_false_eq_true, if_true, if_false] at hroom ⊢
        exact failReceiver_safe (hdown []) _ answers.clear hroom
  · have hidle : r.active = false := by simpa using hactive
    simp only [write, hidle]
    exact h

/-- When the stream finishes, the flash holds the image. -/
theorem Writing.holds {d : Device} {r : Receiver env} {stream : Stream env.toOtaEnv}
    {handle : Handle} {base : Base} (h : Writing d r stream handle base)
    (hok : (streamFinish stream).1 = .ok) :
    Holds env (d.flash handle.partition) r.fields r.signedFields r.signature := by
  rcases h.trail with hfailed | ⟨chunks, blocks, htrail, -⟩
  · rw [(streamFinish_ok hok).1] at hfailed
    cases hfailed
  · obtain ⟨hlength, hhash⟩ := htrail.image hok
    have hsize : handle.offset = r.fields.rawSize := h.offset.trans hlength
    have hcontent := h.content
    rw [hsize] at hcontent
    exact ⟨h.fields, by rw [hcontent, hlength], by rw [hcontent, hhash]⟩

/-- The checkpoint of a receiver whose partition holds the image is true. -/
theorem Holds.vouched {d : Device} {r : Receiver env} {p : Partition}
    (hpartition : r.partition = some p) (hmem : p ∈ env.appPartitions)
    (hholds : Holds env (d.flash p) r.fields r.signedFields r.signature) (phase : BitVec 8) :
    Vouched env d (r.terminalCheckpoint phase) := by
  refine ⟨p, r.fields, hmem, ?_, hholds⟩
  simp only [Receiver.terminalCheckpoint, Receiver.fillCheckpoint, hpartition]
  exact cString_labelArray p

theorem safe_holding {d : Device} {r : Receiver env} (h : Safe d (Receiver.zero env))
    (hidle : r.active = false) {p : Partition} (hpartition : r.partition = some p)
    (hmem : p ∈ env.appPartitions)
    (hholds : Holds env (d.flash p) r.fields r.signedFields r.signature) : Safe d r := by
  refine ⟨h.sound, h.vouched, fun hactive => ?_, fun _ => ⟨p, hpartition, hmem, hholds⟩,
    h.selections⟩
  rw [hidle] at hactive
  cases hactive

/-- Saving the checkpoint of a receiver whose partition holds the image. -/
theorem save_vouched {d : Device} {r : Receiver env} (h : Safe d (Receiver.zero env))
    {p : Partition} (hpartition : r.partition = some p) (hmem : p ∈ env.appPartitions)
    (hholds : Holds env (d.flash p) r.fields r.signedFields r.signature) (phase : BitVec 8)
    (write : Option (NvsWrite env.toJournalEnv))
    (hroom : (d.save (r.terminalCheckpoint phase) write).2.journalWrites < generationLimit) :
    Safe (d.save (r.terminalCheckpoint phase) write).2 (Receiver.zero env) ∧
      Holds env ((d.save (r.terminalCheckpoint phase) write).2.flash p) r.fields r.signedFields
        r.signature := by
  have hafter := Device.save_after h.sound (r.terminalCheckpoint phase) write hroom
  refine ⟨safe_zero hafter.sound ?_ (hafter.selections ▸ h.selections),
    hafter.flash ▸ hholds⟩
  intro cp hload hphase
  rw [hafter.load] at hload
  rw [Vouched, hafter.flash]
  split at hload
  · cases hload
    exact hholds.vouched hpartition hmem phase
  · exact h.vouched cp hload hphase

theorem seal_safe {d : Device} {r : Receiver env} (h : Safe d (Receiver.zero env))
    (hidle : r.active = false) {p : Partition} (hpartition : r.partition = some p)
    (hmem : p ∈ env.appPartitions)
    (hholds : Holds env (d.flash p) r.fields r.signedFields r.signature)
    (answers : Answers env)
    (hroom : (sealVerified d r answers).2.journalWrites < generationLimit) :
    Safe (sealVerified d r answers).2 (sealVerified d r answers).receiver := by
  have hsave := fun hroom => save_vouched h hpartition hmem hholds checkpointVerified answers.save
    hroom
  simp only [sealVerified] at hroom ⊢
  generalize d.save (r.terminalCheckpoint checkpointVerified) answers.save = saved
    at hsave hroom ⊢
  obtain ⟨res, d'⟩ := saved
  cases res with
  | none => exact (hsave hroom).1
  | some err =>
      simp only at hroom ⊢
      by_cases herr : err ≠ .ok
      · rw [if_pos herr] at hroom ⊢
        have hle := failReceiver_rel journalWrites_rel d' err answers.clear
        exact failReceiver_safe (hsave (Nat.lt_of_le_of_lt hle hroom)).1 err answers.clear hroom
      · rw [if_neg herr] at hroom ⊢
        obtain ⟨hzero, hholds'⟩ := hsave hroom
        exact safe_holding hzero hidle hpartition hmem hholds'

theorem verify_safe {d : Device} {r : Receiver env} (h : Safe d r) (answers : Answers env)
    (hroom : (verify d r answers).2.journalWrites < generationLimit) :
    Safe (verify d r answers).2 (verify d r answers).receiver := by
  have hzero : Safe d (Receiver.zero env) := safe_zero h.sound h.vouched h.selections
  by_cases hactive : r.active = true
  · obtain ⟨hnot, hunsealed, stream, handle, base, hwriting⟩ := h.writing hactive
    simp only [verify, hactive, hwriting.stream_eq] at hroom ⊢
    by_cases hfinish : (streamFinish stream).1 = .ok
    · simp only [hfinish, ne_eq, not_true_eq_false, if_false] at hroom ⊢
      by_cases hend : answers.otaEnd = .ok
      · simp only [hend, not_true_eq_false, if_false] at hroom ⊢
        have hholds := hwriting.holds hfinish
        exact seal_safe (r := { r with
          stream := some (streamFinish stream).2
          handle := none
          active := false
          verified := true }) hzero rfl hwriting.partition_eq hwriting.mem hholds answers hroom
      · simp only [hend, not_false_eq_true, if_true] at hroom ⊢
        exact failReceiver_safe hzero _ answers.clear hroom
    · simp only [ne_eq, hfinish, not_false_eq_true, if_true] at hroom ⊢
      exact failReceiver_safe hzero _ answers.clear hroom
  · have hidle : r.active = false := by simpa using hactive
    simp only [verify, hidle]
    exact h

/-! ## Activating and aborting -/

theorem select_safe {d : Device} {r : Receiver env} (h : Safe d (Receiver.zero env))
    {p : Partition} (hholds : Holds env (d.flash p) r.fields r.signedFields r.signature) :
    Safe (d.select r p) (Receiver.zero env) := by
  refine safe_zero h.sound h.vouched ?_
  intro call hcall
  rcases List.mem_append.mp hcall with hold | hnew
  · exact h.selections call hold
  · rw [List.mem_singleton.mp hnew]
    exact hholds

theorem setBoot_safe {d : Device} {r : Receiver env} (h : Safe d (Receiver.zero env))
    (hidle : r.active = false) {p : Partition} (hpartition : r.partition = some p)
    (hmem : p ∈ env.appPartitions)
    (hholds : Holds env (d.flash p) r.fields r.signedFields r.signature)
    (answers : Answers env)
    (hroom : (setBoot d r answers).2.journalWrites < generationLimit) :
    Safe (setBoot d r answers).2 (setBoot d r answers).receiver := by
  have hsave := fun hroom => save_vouched h hpartition hmem hholds checkpointVerified
    answers.restore hroom
  simp only [setBoot] at hroom ⊢
  split at hroom
  · exact h
  · next err _ =>
      by_cases hok : err = .ok
      · rw [if_pos hok]
        exact safe_holding h hidle hpartition hmem hholds
      · rw [if_neg hok] at hroom ⊢
        generalize d.save (r.terminalCheckpoint checkpointVerified) answers.restore = saved
          at hsave hroom ⊢
        obtain ⟨res, d'⟩ := saved
        cases res with
        | none => exact (hsave hroom).1
        | some restoreErr =>
            obtain ⟨hzero, hholds'⟩ := hsave hroom
            exact safe_holding hzero hidle hpartition hmem hholds'

theorem setBoot_rel {R : Device → Device → Prop} (hR : JournalRel env R) (d : Device)
    (r : Receiver env) (answers : Answers env) : R d (setBoot d r answers).2 := by
  have hle := hR.save d (r.terminalCheckpoint checkpointVerified) answers.restore
  simp only [setBoot]
  split
  · exact hR.refl d
  · split
    · exact hR.refl d
    · generalize d.save (r.terminalCheckpoint checkpointVerified) answers.restore = saved
        at hle ⊢
      obtain ⟨res, d'⟩ := saved
      cases res <;> exact hle

theorem activate_safe {d : Device} {r : Receiver env} (h : Safe d r) (answers : Answers env)
    (hroom : (activate d r answers).2.journalWrites < generationLimit) :
    Safe (activate d r answers).2 (activate d r answers).receiver := by
  simp only [activate] at hroom ⊢
  split at hroom
  · next p hidle hverified hpartition =>
      obtain ⟨q, hq, hmem, hholds⟩ := h.verified hverified
      obtain rfl : p = q := Option.some.inj (hpartition.symm.trans hq)
      have hzero : Safe d (Receiver.zero env) := safe_zero h.sound h.vouched h.selections
      by_cases hpreflight : answers.preflight ≠ .ok
      · rw [if_pos hpreflight]
        exact h
      · rw [if_neg hpreflight] at hroom ⊢
        have hsave := fun hroom => save_vouched hzero hpartition hmem hholds checkpointBootPending
          answers.save hroom
        generalize d.save (r.terminalCheckpoint checkpointBootPending) answers.save = saved
          at hsave hroom ⊢
        obtain ⟨res, d'⟩ := saved
        cases res with
        | none => exact (hsave hroom).1
        | some err =>
            simp only at hroom ⊢
            by_cases herr : err ≠ .ok
            · rw [if_pos herr] at hroom ⊢
              obtain ⟨hzero', hholds'⟩ := hsave hroom
              exact safe_holding hzero' hidle hpartition hmem hholds'
            · rw [if_neg herr] at hroom ⊢
              have hle := setBoot_rel journalWrites_rel (d'.select r p) r answers
              obtain ⟨hzero', hholds'⟩ := hsave (Nat.lt_of_le_of_lt hle hroom)
              exact setBoot_safe (select_safe hzero' hholds') hidle hpartition hmem hholds'
                answers hroom
  · exact h

theorem abortCurrent_safe {d : Device} {r : Receiver env} (h : Safe d r) (answers : Answers env)
    (hroom : (abortCurrent d r answers).2.journalWrites < generationLimit) :
    Safe (abortCurrent d r answers).2 (abortCurrent d r answers).receiver := by
  have hafter := fun hroom => Device.clear_after h.sound answers.clear hroom
  simp only [abortCurrent] at hroom ⊢
  split at hroom
  · next hidle =>
      rw [if_pos hidle]
      exact h
  · next hidle =>
      rw [if_neg hidle]
      generalize d.clear answers.clear = cleared at hafter hroom ⊢
      obtain ⟨res, d'⟩ := cleared
      cases res with
      | none => exact h.reset (hafter hroom) (Or.inl rfl)
      | some err =>
          simp only at hroom ⊢
          by_cases herr : err ≠ .ok
          · rw [if_pos herr] at hroom ⊢
            have hsame := hafter hroom
            rw [if_neg (by simpa using herr)] at hsame
            exact h.after_same hsame
          · rw [if_neg herr] at hroom ⊢
            have hcleared := hafter hroom
            rw [if_pos (by simpa using herr)] at hcleared
            exact h.reset hcleared (Or.inr rfl)

theorem abort_safe {d : Device} {r : Receiver env} (h : Safe d r)
    (operationId : Vector UInt8 16) (artifactId : Digest) (answers : Answers env)
    (hroom : (abort d r operationId artifactId answers).2.journalWrites < generationLimit) :
    Safe (abort d r operationId artifactId answers).2
      (abort d r operationId artifactId answers).receiver := by
  simp only [abort] at hroom ⊢
  split
  · next hbusy =>
      rw [if_pos hbusy] at hroom
      split
      · next hsame =>
          rw [if_pos hsame] at hroom
          exact abortCurrent_safe h answers hroom
      · exact h
  · next hidle =>
      rw [if_neg hidle] at hroom
      cases hload : checkpointLoad env.toJournalEnv d.nvs with
      | error err => exact h
      | ok cp =>
          simp only [hload] at hroom ⊢
          split
          · exact h
          · next hof =>
              rw [if_neg hof] at hroom
              exact abortCurrent_safe h answers hroom

/-! ## Runs -/

theorem handleTransfer_safe {d : Device} {r : Receiver env} (h : Safe d r) (target : Target)
    (transfer : OtaTransfer) (answers : Answers env)
    (hroom : (handleTransfer d r target transfer answers).2.journalWrites < generationLimit) :
    Safe (handleTransfer d r target transfer answers).2
      (handleTransfer d r target transfer answers).receiver := by
  have hsame (err : EspErr) (p : Option Partition) :
      Safe ((some ⟨err, p, r⟩, d) : Outcome env).2
        (Outcome.receiver (some ⟨err, p, r⟩, d)) := h
  cases transfer with
  | prepare operationId artifactId signedFields signature requestedChunkSize requestedWindow =>
      simp only [handleTransfer]
      split
      · split
        · exact hsame _ _
        · exact prepare_safe h target _ _ signedFields _ answers
      · exact hsame _ _
  | data operationId artifactId block blockEncodedOffset data finalChunk =>
      simp only [handleTransfer] at hroom ⊢
      split
      · next id descriptor =>
          split
          · exact hsame _ _
          · next hshape =>
              simp only [if_neg hshape] at hroom
              exact write_safe h _ answers hroom
      · exact hsame _ _
  | commit operationId artifactId blockTableSha256 imageSha256 =>
      simp only [handleTransfer] at hroom ⊢
      split
      · exact hsame _ _
      · next id =>
          split
          · exact hsame _ _
          · next hshape =>
              simp only [if_neg hshape] at hroom
              split
              · exact hsame _ _
              · next hverified =>
                  rw [if_neg hverified] at hroom
                  exact verify_safe h answers hroom
  | abort operationId artifactId =>
      simp only [handleTransfer] at hroom ⊢
      split
      · next id artifact hartifact =>
          simp only [hartifact] at hroom
          exact abort_safe h _ artifact answers hroom
      · exact hsame _ _
  | query operationId artifactId =>
      simp only [handleTransfer]
      split
      · exact hsame _ _
      · split <;> exact hsame _ _
  | other => exact hsame _ _

/-! ## What the calls do to the journal -/

section JournalRel

variable {R : Device → Device → Prop}

theorem prepare_rel (hR : JournalRel env R) (d : Device) (r : Receiver env) (target : Target)
    (operationId : Vector UInt8 16) (artifactId : Digest) (signedFields : Bytes)
    (signature : Vector UInt8 64) (answers : Answers env) :
    R d (prepare d r target operationId artifactId signedFields signature answers).2 := by
  have hopen (p : Partition) (fields : SignedFields) (resume : Option ResumePoint) :
      R d (openTransfer d p fields operationId artifactId signedFields signature
        resume answers).2 := by
    have hprogram (offset : ℕ) : R d (d.program p offset [] answers.leftover) :=
      hR.same rfl rfl
    simp only [openTransfer]
    split
    · exact hR.refl d
    · split
      · exact hprogram _
      · split <;> exact hprogram _
  simp only [prepare]
  repeat' split
  all_goals first | exact hR.refl d | exact hopen _ _ _

theorem checkpointDue_rel (hR : JournalRel env R) (d : Device) (r : Receiver env)
    (stream : Stream env.toOtaEnv) (answers : Answers env) :
    R d (checkpointDue d r stream answers).2 := by
  simp only [checkpointDue]
  split
  · exact hR.refl d
  · cases streamCheckpoint stream with
    | error err => exact failReceiver_rel hR d err answers.clear
    | ok point =>
        have hle := hR.save d (r.fillCheckpoint checkpointTransferring point) answers.save
        simp only
        generalize d.save (r.fillCheckpoint checkpointTransferring point) answers.save = saved
          at hle ⊢
        obtain ⟨res, d'⟩ := saved
        cases res with
        | none => exact hle
        | some err =>
            simp only
            split
            · exact hR.trans hle (failReceiver_rel hR d' err answers.clear)
            · exact hle

theorem write_rel (hR : JournalRel env R) (d : Device) (r : Receiver env) (chunk : Chunk)
    (answers : Answers env) : R d (write d r chunk answers).2 := by
  have hprogram (p : Partition) (offset : ℕ) (bytes : Bytes) :
      R d (d.program p offset bytes answers.leftover) :=
    hR.same rfl rfl
  simp only [write]
  split
  · split
    · exact hprogram _ _ _
    · split
      · exact hR.trans (hprogram _ _ _) (failReceiver_rel hR _ _ answers.clear)
      · exact hR.trans (hprogram _ _ _) (checkpointDue_rel hR _ _ _ answers)
  · exact hR.refl d

theorem verify_rel (hR : JournalRel env R) (d : Device) (r : Receiver env)
    (answers : Answers env) : R d (verify d r answers).2 := by
  have hseal (r : Receiver env) : R d (sealVerified d r answers).2 := by
    have hle := hR.save d (r.terminalCheckpoint checkpointVerified) answers.save
    simp only [sealVerified]
    generalize d.save (r.terminalCheckpoint checkpointVerified) answers.save = saved at hle ⊢
    obtain ⟨res, d'⟩ := saved
    cases res with
    | none => exact hle
    | some err =>
        simp only
        split
        · exact hR.trans hle (failReceiver_rel hR d' err answers.clear)
        · exact hle
  simp only [verify]
  split
  · split
    · exact failReceiver_rel hR d _ answers.clear
    · split
      · exact failReceiver_rel hR d _ answers.clear
      · exact hseal _
  · exact hR.refl d

theorem activate_rel (hR : JournalRel env R) (d : Device) (r : Receiver env)
    (answers : Answers env) : R d (activate d r answers).2 := by
  have hle := hR.save d (r.terminalCheckpoint checkpointBootPending) answers.save
  simp only [activate]
  split
  · split
    · exact hR.refl d
    · generalize d.save (r.terminalCheckpoint checkpointBootPending) answers.save = saved
        at hle ⊢
      obtain ⟨res, d'⟩ := saved
      cases res with
      | none => exact hle
      | some err =>
          simp only
          split
          · exact hle
          · have hselect (p : Partition) : R d' (d'.select r p) := hR.same rfl rfl
            exact hR.trans hle (hR.trans (hselect _) (setBoot_rel hR _ r answers))
  · exact hR.refl d

theorem abortCurrent_rel (hR : JournalRel env R) (d : Device) (r : Receiver env)
    (answers : Answers env) : R d (abortCurrent d r answers).2 := by
  have hle := hR.clear d answers.clear
  simp only [abortCurrent]
  split
  · exact hR.refl d
  · generalize d.clear answers.clear = cleared at hle ⊢
    obtain ⟨res, d'⟩ := cleared
    cases res with
    | none => exact hle
    | some err =>
        simp only
        split <;> exact hle

theorem handleTransfer_rel (hR : JournalRel env R) (d : Device) (r : Receiver env)
    (target : Target) (transfer : OtaTransfer) (answers : Answers env) :
    R d (handleTransfer d r target transfer answers).2 := by
  have habort (operationId : Vector UInt8 16) (artifactId : Digest) :
      R d (abort d r operationId artifactId answers).2 := by
    simp only [abort]
    repeat' split
    all_goals first | exact hR.refl d | exact abortCurrent_rel hR d r answers
  simp only [handleTransfer]
  repeat' split
  all_goals first
    | exact hR.refl d
    | exact prepare_rel hR d r target _ _ _ _ answers
    | exact write_rel hR d r _ answers
    | exact verify_rel hR d r answers
    | exact habort _ _

end JournalRel

/-! ## Runs of the receiver -/

/-- What the receiver is called for, with the answers of the platform; a restart
may change the running partition. -/
inductive ReceiverEvent (env : ReceiverEnv) where
  | transfer (target : Target) (message : OtaTransfer) (answers : Answers env)
  | activate (answers : Answers env)
  | idleAbort (answers : Answers env)
  | restart (running : Partition)

/-- The device and the receiver in its RAM. -/
structure ReceiverState (env : ReceiverEnv) where
  device : Device
  receiver : Receiver env

/-- A device on which nothing has been written. -/
def ReceiverState.factory (env : ReceiverEnv) (flash : Partition → Bytes) (running : Partition) :
    ReceiverState env :=
  ⟨⟨Nvs.empty, flash, running, 0, []⟩, Receiver.zero env⟩

/-- The state after a call. -/
def ReceiverState.after (outcome : Outcome env) : ReceiverState env :=
  ⟨outcome.2, outcome.receiver⟩

def ReceiverEvent.step (s : ReceiverState env) : ReceiverEvent env → ReceiverState env
  | .transfer target message answers =>
      .after (handleTransfer s.device s.receiver target message answers)
  | .activate answers => .after (OtaV3.activate s.device s.receiver answers)
  | .idleAbort answers => .after (abortCurrent s.device s.receiver answers)
  | .restart running => ⟨{ s.device with running := running }, Receiver.zero env⟩

def runReceiver (s : ReceiverState env) (events : List (ReceiverEvent env)) :
    ReceiverState env :=
  events.foldl ReceiverEvent.step s

theorem step_rel {R : Device → Device → Prop} (hR : JournalRel env R) (s : ReceiverState env)
    (event : ReceiverEvent env) : R s.device (event.step s).device := by
  cases event with
  | transfer target message answers => exact handleTransfer_rel hR _ _ target message answers
  | activate answers => exact activate_rel hR _ _ answers
  | idleAbort answers => exact abortCurrent_rel hR _ _ answers
  | restart running => exact hR.same rfl rfl

/-- Every event keeps the journal and the receiver true of the flash. -/
theorem step_safe {s : ReceiverState env} (h : Safe s.device s.receiver)
    (event : ReceiverEvent env)
    (hroom : (event.step s).device.journalWrites < generationLimit) :
    Safe (event.step s).device (event.step s).receiver := by
  cases event with
  | transfer target message answers => exact handleTransfer_safe h target message answers hroom
  | activate answers => exact activate_safe h answers hroom
  | idleAbort answers => exact abortCurrent_safe h answers hroom
  | restart running => exact safe_zero h.sound h.vouched h.selections

theorem factory_safe (flash : Partition → Bytes) (running : Partition) :
    Safe (ReceiverState.factory env flash running).device
      (ReceiverState.factory env flash running).receiver := by
  have hjournal : Journal env.toJournalEnv Nvs.empty [] := journal_empty
  refine safe_zero ⟨[], hjournal, Nat.le_refl 0⟩ ?_ fun call hcall => (nomatch hcall)
  intro cp hload
  rw [Device.load, ReceiverState.factory, hjournal.load] at hload
  cases hload

theorem runReceiver_safe (flash : Partition → Bytes) (running : Partition)
    (events : List (ReceiverEvent env))
    (hroom : (runReceiver (.factory env flash running) events).device.journalWrites <
      generationLimit) :
    Safe (runReceiver (.factory env flash running) events).device
      (runReceiver (.factory env flash running) events).receiver := by
  induction events using List.reverseRecOn with
  | nil => exact factory_safe flash running
  | append_singleton events event ih =>
      simp only [runReceiver, List.foldl_append, List.foldl_cons, List.foldl_nil] at hroom ⊢
      have hle := step_rel journalWrites_rel
        (events.foldl ReceiverEvent.step (ReceiverState.factory env flash running)) event
      exact step_safe (ih (Nat.lt_of_le_of_lt hle hroom)) event hroom

/-! ## A device with two slots -/

/-- The signed fields of the one-byte image. -/
def letterSigned : Bytes :=
  varintField 1 1 ++ bytesField 2 [0x70] ++ bytesField 3 [0x63] ++ varintField 8 1 ++
    varintField 9 6 ++ varintField 10 1 ++ varintField 11 codecFullDeflate ++
    bytesField 12 letterRawSha256.toList ++ bytesField 13 letterEncodedSha256.toList ++
    bytesField 14 letterChainSha256.toList ++ varintField 16 fullBlockSize ++
    varintField 17 1 ++ varintField 18 deflateWindowBits ++ bytesField 19 [0x6b]

def letterSignedSha256 : Digest :=
  #v[152, 114, 139, 150, 113, 76, 85, 184, 48, 7, 131, 12, 233, 99, 87, 127,
    185, 254, 105, 15, 55, 154, 107, 90, 137, 88, 83, 36, 154, 183, 233, 108]

/-- A P-256 key, as an uncompressed point. -/
def letterKey : Bytes :=
  [4, 160, 36, 124, 70, 225, 100, 195, 180, 160, 104, 104, 77, 126, 156, 233, 147, 170, 24,
    169, 1, 95, 49, 100, 12, 156, 27, 176, 199, 156, 28, 67, 46, 12, 88, 212, 165, 29, 205, 49,
    97, 88, 75, 101, 224, 23, 2, 77, 85, 217, 135, 159, 239, 26, 103, 99, 196, 75, 129, 56, 88,
    161, 15, 214, 249]

/-- The signature of the signed fields under the key. -/
def letterSignature : Vector UInt8 64 :=
  #v[37, 254, 41, 230, 16, 21, 145, 182, 25, 21, 176, 172, 165, 107, 181, 98, 148, 202, 44, 23,
    2, 0, 123, 120, 127, 119, 88, 246, 70, 10, 186, 64, 251, 122, 49, 179, 125, 113, 184, 39,
    194, 170, 92, 168, 250, 163, 87, 212, 193, 200, 166, 30, 148, 115, 67, 215, 150, 98, 26,
    139, 48, 252, 141, 202]

/-- The signed fields as the protobuf library decodes them. -/
def letterDecoded : PbSignedFields where
  schemaVersion := 1
  projectName := [0x70]
  chipTarget := [0x63]
  firmwareVersion := []
  buildCommit := []
  minimumCoreVersion := 0
  minimumFabricSchema := 0
  rawSize := 1
  encodedSize := 6
  requiredAppSlotSize := 1
  codec := codecFullDeflate
  imageSha256 := letterRawSha256.toList
  encodedSha256 := letterEncodedSha256.toList
  blockTableSha256 := letterChainSha256.toList
  baseImageSha256 := []
  blockSize := fullBlockSize
  blockCount := 1
  deflateWindowBits := deflateWindowBits
  signingKeyId := [0x6b]

/-- The partition `ota_0`. -/
def otaZero : Partition where
  label := [111, 116, 97, 95, 48]
  size := 1048576
  label_fits := by decide
  label_text := by decide

/-- The partition `ota_1`. -/
def otaOne : Partition where
  label := [111, 116, 97, 95, 49]
  size := 1048576
  label_fits := by decide
  label_text := by decide

/-- `esp_rom_crc32_le`, with the checksums of the records of the verified image, of
its boot and of the tombstone after them written out. -/
def letterCrc32 (body : StoredBody) : U32 :=
  match body.generation.toNat, body.checkpoint.phase.toNat with
  | 1, 2 => 1100560721
  | 2, 3 => 1327110822
  | 3, 0 => 445612032
  | _, _ => espRomCrc32Le 0 body.bytes

def twoSlots : ReceiverEnv :=
  { letterEnv with
    sha256 := fun bytes => if bytes = letterSigned then letterSignedSha256 else letterSha256 bytes
    decodeSignedFields := fun bytes => if bytes = letterSigned then some letterDecoded else none
    publicKey := .ok letterKey
    importKey := fun key => key = letterKey
    verifyHash := fun key digest signature =>
      key = letterKey ∧ digest = letterSignedSha256 ∧ signature = letterSignature.toList
    crc32 := letterCrc32
    appPartitions := [otaZero, otaOne]
    labels_distinct := by decide
    nextUpdatePartition := fun running => some (if running = otaZero then otaOne else otaZero)
    next_mem := fun running p h => by
      cases h
      split <;> simp }

def letterTarget : Target := ⟨[0x70], [0x63], 1, 1⟩

/-- Everything succeeds. -/
def smooth : Answers twoSlots where
  preflight := .ok
  partitionRead := fun _ => .ok
  otaBegin := .ok
  otaWrite := fun _ _ => .ok
  otaEnd := .ok
  setBootPartition := some .ok
  save := some .done
  clear := some .done
  restore := some .done
  leftover := []
  flashDown := false

/-- The artifact is known under the hash of its signed fields. -/
def letterPrepare : OtaTransfer :=
  .prepare (some ⟨1, 2⟩) letterSignedSha256.toList letterSigned letterSignature.toList 2048 4

def letterData : OtaTransfer :=
  .data (some ⟨1, 2⟩) letterSignedSha256.toList (some letterBlock) 0 letterEncoded true

def letterCommit : OtaTransfer :=
  .commit (some ⟨1, 2⟩) letterSignedSha256.toList letterChainSha256.toList
    letterRawSha256.toList

/-- Whenever a partition is handed to `esp_ota_set_boot_partition`, it holds the
image of the signed fields of the receiver, and their signature was verified. -/
theorem selections_verified (flash : Partition → Bytes) (running : Partition)
    (events : List (ReceiverEvent env))
    (hroom : (runReceiver (.factory env flash running) events).device.journalWrites <
      generationLimit) :
    ∀ call ∈ (runReceiver (.factory env flash running) events).device.selections,
      verifySignedFields env.toOtaEnv call.signedFields call.signature.toList =
          .ok call.fields ∧
        (call.content.take call.fields.rawSize).length = call.fields.rawSize ∧
        env.sha256 (call.content.take call.fields.rawSize) = call.fields.imageSha256 := by
  intro call hcall
  have hholds := (runReceiver_safe flash running events hroom).selections call hcall
  exact ⟨hholds.verified, hholds.length, hholds.hash⟩

/-- The device restarts after it has verified the image, is asked for it once more,
and selects it. -/
theorem selections_verified_letter :
    (runReceiver (.factory twoSlots (fun _ => []) otaZero)
        [.transfer letterTarget letterPrepare smooth, .transfer letterTarget letterData smooth,
          .transfer letterTarget letterCommit smooth, .restart otaZero,
          .transfer letterTarget letterPrepare smooth, .activate smooth]).device.selections.map
        Selection.partition = [otaOne] ∧
      ∀ call ∈ (runReceiver (.factory twoSlots (fun _ => []) otaZero)
        [.transfer letterTarget letterPrepare smooth, .transfer letterTarget letterData smooth,
          .transfer letterTarget letterCommit smooth, .restart otaZero,
          .transfer letterTarget letterPrepare smooth, .activate smooth]).device.selections,
        twoSlots.sha256 (call.content.take call.fields.rawSize) = call.fields.imageSha256 :=
  ⟨by decide +kernel, fun call hcall =>
    (selections_verified (fun _ => []) otaZero _ (by decide +kernel) call hcall).2.2⟩

end KeemashCore.OtaV3

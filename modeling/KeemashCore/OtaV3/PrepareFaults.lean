import KeemashCore.OtaV3.Selection

/-!
# Failures of a prepare

`keemash_ota_v3_flash_receiver_prepare` once more, step by step: what it has
allocated and opened at each point, and what it does when an allocation, the
journal, a hash context, the stream or the OTA handle fails.  Where nothing of this
fails it is `prepare`.
-/

namespace KeemashCore.OtaV3

variable {env : ReceiverEnv}

/-! ## Memory -/

/-- The device, the receiver, and how many checkpoints and streams are allocated and
OTA handles open. -/
structure Memory (env : ReceiverEnv) where
  device : Device
  receiver : Receiver env
  checkpoints : ℕ
  streams : ℕ
  handles : ℕ

/-- A stream as `calloc` leaves it. -/
def Stream.blank (env : OtaEnv) : Stream env :=
  { Stream.fresh env SignedFields.zero with payloadHashComplete := false }

def Memory.mallocCheckpoint (m : Memory env) : Memory env :=
  { m with checkpoints := m.checkpoints + 1 }

def Memory.freeCheckpoint (m : Memory env) : Memory env :=
  { m with checkpoints := m.checkpoints - 1 }

/-- `close_active_handle`. -/
def Memory.closeActiveHandle (m : Memory env) : Memory env :=
  { m with
    receiver := { m.receiver with active := false }
    handles := if m.receiver.active then m.handles - 1 else m.handles }

/-- `reset_receiver`. -/
def Memory.resetReceiver (m : Memory env) : Memory env :=
  { m.closeActiveHandle with
    receiver := Receiver.zero env
    streams := if m.receiver.stream.isSome then m.streams - 1 else m.streams }

/-! ## The stream -/

/-- What fails in one call besides what `Answers` says. -/
structure PrepareFaults where
  /-- `keemash_ota_v3_verify_signed_fields`, for a reason of the libraries. -/
  verification : Option { err : EspErr // err ≠ .ok }
  /-- `malloc` of the checkpoint. -/
  checkpointMalloc : Bool
  /-- `keemash_ota_v3_checkpoint_load` before it looks for a record.  That there is no
  namespace yet is not a failure: then there are no records. -/
  journal : Option { err : EspErr // err ≠ .ok ∧ err ≠ .notFound }
  /-- `nvs_get_blob` of a key, which then counts as empty. -/
  unreadable : NvsKey → Bool
  /-- `calloc` of the stream. -/
  streamCalloc : Bool
  /-- The hash contexts of `keemash_ota_v3_stream_begin`. -/
  mdSetup : Bool
  /-- `mbedtls_md_update` of the bytes read back at an offset. -/
  mdUpdate : ℕ → Bool
  /-- The hash context over what was read back. -/
  mdPrefix : Bool

/-- Nothing fails. -/
def PrepareFaults.none : PrepareFaults :=
  ⟨Option.none, false, Option.none, fun _ => false, false, false, fun _ => false, false⟩

/-- A read of which the bytes are hashed. -/
def PrepareFaults.hashing (faults : PrepareFaults) (readFn : ReadFn) : ReadFn :=
  fun offset length =>
    match readFn offset length with
    | .error err => .error err
    | .ok buffer => if faults.mdUpdate offset then .error .fail else .ok buffer

/-- `keemash_ota_v3_verify_signed_fields`. -/
def PrepareFaults.verify (faults : PrepareFaults) (env : OtaEnv) (signedFields : Bytes)
    (signature : Vector UInt8 64) : Except EspErr SignedFields :=
  match faults.verification with
  | some err => .error err
  | Option.none => verifySignedFields env signedFields signature.toList

/-- `keemash_ota_v3_checkpoint_load`. -/
def PrepareFaults.load (faults : PrepareFaults) (env : JournalEnv) (nvs : Nvs) :
    Except EspErr Checkpoint :=
  match faults.journal with
  | some err => .error err
  | Option.none =>
      checkpointLoad env fun key => if faults.unreadable key then Option.none else nvs key

/-- `keemash_ota_v3_stream_begin`. -/
def beginStream {env : OtaEnv} (stream : Stream env) (fields : SignedFields)
    (faults : PrepareFaults) : EspErr × Stream env :=
  match (streamBegin fields : Except EspErr (Stream env)) with
  | .error err => (err, stream)
  | .ok fresh =>
      if faults.mdSetup then (.fail, { fresh with payloadHashComplete := false }.fail)
      else (.ok, fresh)

/-- `keemash_ota_v3_stream_resume`. -/
def resumeStream {env : OtaEnv} (stream : Stream env) (fields : SignedFields)
    (point : ResumePoint) (readFn : ReadFn) (faults : PrepareFaults) : EspErr × Stream env :=
  if point.nextBlockIndex = 0 ∨ point.nextBlockIndex ≥ fields.blockCount ∨
      point.nextBlockIndex * fields.blockSize ≠ point.rawOffset ∨
      point.rawOffset ≥ fields.rawSize ∨ point.encodedOffset = 0 ∨
      point.encodedOffset ≥ fields.encodedSize then
    (.invalidArg, stream)
  else
    let begun := beginStream stream fields faults
    if begun.1 ≠ .ok then
      begun
    else
      match readBack (faults.hashing readFn) 0 point.rawOffset [] with
      | .error err => (err, begun.2.fail)
      | .ok hashed =>
          let s := { begun.2 with imageHash := hashed }
          if faults.mdPrefix then
            (.fail, s.fail)
          else if env.sha256 hashed ≠ point.imagePrefixSha256 then
            (.invalidCrc, s.fail)
          else
            (.ok,
              { s with
                nextBlockIndex := point.nextBlockIndex
                rawOffset := point.rawOffset
                encodedOffset := point.encodedOffset
                blockChain := point.blockChain
                payloadHashComplete := false })

/-! ## The call -/

/-- The arguments of `keemash_ota_v3_flash_receiver_prepare`. -/
structure PrepareArgs where
  target : Target
  operationId : Vector UInt8 16
  artifactId : Digest
  signedFields : Bytes
  signature : Vector UInt8 64

/-- The stream that `keemash_ota_v3_flash_receiver_prepare` sets up in the zeroed one. -/
def openedStream (d : Device) (p : Partition) (fields : SignedFields)
    (resume : Option ResumePoint) (answers : Answers env) (faults : PrepareFaults) :
    EspErr × Stream env.toOtaEnv :=
  match resume with
  | some point =>
      resumeStream (Stream.blank env.toOtaEnv) fields point
        (d.flashRead p answers.partitionRead) faults
  | none => beginStream (Stream.blank env.toOtaEnv) fields faults

/-- `keemash_ota_v3_flash_receiver_prepare` from where it asks for an OTA handle. -/
def openHandle (m : Memory env) (args : PrepareArgs) (p : Partition)
    (resume : Option ResumePoint) (answers : Answers env) : Option EspErr × Memory env :=
  let offset := (resume.map ResumePoint.rawOffset).getD 0
  let m := { m with device := m.device.program p offset [] answers.leftover }
  if answers.flashDown then
    (none, m)
  else if answers.otaBegin ≠ .ok then
    (some answers.otaBegin, m.freeCheckpoint.resetReceiver)
  else
    (some .ok,
      { m.freeCheckpoint with
        receiver :=
          { m.receiver with
            handle := some ⟨p, offset⟩
            checkpointRawOffset :=
              (resume.map ResumePoint.rawOffset).getD m.receiver.checkpointRawOffset
            resumed := m.receiver.resumed || resume.isSome
            operationId := args.operationId
            artifactId := args.artifactId
            signature := args.signature
            signedFields := args.signedFields
            active := true }
        handles := m.handles + 1 })

/-- `keemash_ota_v3_flash_receiver_prepare` from where it allocates the stream. -/
def startTransfer (m : Memory env) (args : PrepareArgs) (p : Partition) (fields : SignedFields)
    (resume : Option ResumePoint) (answers : Answers env) (faults : PrepareFaults) :
    Option EspErr × Memory env :=
  if faults.streamCalloc then
    (some .noMem,
      { m.freeCheckpoint with receiver := { m.receiver with stream := none } })
  else
    let opened := openedStream m.device p fields resume answers faults
    let m :=
      { m with
        receiver :=
          { m.receiver with stream := some opened.2, partition := some p, fields := fields }
        streams := m.streams + 1 }
    if opened.1 ≠ .ok then (some opened.1, m.freeCheckpoint.resetReceiver)
    else openHandle m args p resume answers

/-- `keemash_ota_v3_flash_receiver_prepare`, with what it allocates and opens. -/
def prepareCall (m : Memory env) (args : PrepareArgs) (answers : Answers env)
    (faults : PrepareFaults) : Option EspErr × Memory env :=
  if args.signedFields.length = 0 ∨ args.signedFields.length > signedFieldsMax then
    (some .invalidArg, m)
  else if m.receiver.active ∨ m.receiver.verified then
    if m.receiver.sameOperation args.operationId args.artifactId ∧
        m.receiver.signedFields = args.signedFields ∧ m.receiver.signature = args.signature then
      (some .ok, m)
    else
      (some .invalidState, m)
  else
    match faults.verify env.toOtaEnv args.signedFields args.signature with
    | .error err => (some err, m)
    | .ok fields =>
        if answers.preflight ≠ .ok then
          (some answers.preflight, m)
        else
          match env.nextUpdatePartition m.device.running with
          | none => (some .notFound, m)
          | some p =>
              let err := checkTarget fields args.target.projectName args.target.chipTarget
                p.size args.target.coreVersion args.target.fabricSchema
              if err ≠ .ok then
                (some err, m)
              else if faults.checkpointMalloc then
                (some .noMem, m)
              else
                let m := m.mallocCheckpoint
                match faults.load env.toJournalEnv m.device.nvs with
                | .ok cp =>
                    if cp.isOf args.operationId args.artifactId args.signedFields
                        args.signature = false then
                      (some .invalidState, m.freeCheckpoint)
                    else if cp.phase ≠ checkpointTransferring then
                      match findPartition env (cString cp.partitionLabel) with
                      | none => (some .notFound, m.freeCheckpoint)
                      | some saved =>
                          (some .ok,
                            { m with
                              receiver :=
                                { m.receiver with
                                  partition := some saved
                                  fields := fields
                                  operationId := args.operationId
                                  artifactId := args.artifactId
                                  signature := args.signature
                                  signedFields := args.signedFields
                                  verified := true
                                  resumed := true } }.freeCheckpoint)
                    else if cString cp.partitionLabel ≠ p.label then
                      (some .invalidState, m.freeCheckpoint)
                    else
                      startTransfer m args p fields (some cp.resume) answers faults
                | .error .notFound => startTransfer m args p fields none answers faults
                | .error err => (some err, m.freeCheckpoint)

/-! ## Without failures -/

/-- The receiver is active or verified. -/
def Receiver.busy (r : Receiver env) : Bool :=
  r.active || r.verified

theorem Receiver.busy_iff (r : Receiver env) :
    r.busy = true ↔ r.active = true ∨ r.verified = true := by
  rw [Receiver.busy, Bool.or_eq_true]

@[simp] theorem Memory.freeCheckpoint_mallocCheckpoint (m : Memory env) :
    m.mallocCheckpoint.freeCheckpoint = m := rfl

theorem load_none (env : JournalEnv) (nvs : Nvs) :
    PrepareFaults.none.load env nvs = checkpointLoad env nvs := rfl

theorem hashing_none (readFn : ReadFn) : PrepareFaults.none.hashing readFn = readFn := by
  funext offset length
  simp only [PrepareFaults.hashing, PrepareFaults.none]
  split
  · next err herr => exact herr.symm
  · next buffer hbuffer => exact hbuffer.symm

/-- A stream is set up, or an error comes back. -/
def Opens {env : OtaEnv} (opened : EspErr × Stream env) : Except EspErr (Stream env) → Prop
  | .error err => opened.1 = err ∧ err ≠ .ok
  | .ok s => opened = (.ok, s)

theorem beginStream_none {env : OtaEnv} (stream : Stream env) (fields : SignedFields) :
    Opens (beginStream stream fields .none) (streamBegin fields) := by
  rw [beginStream]
  cases hbegin : (streamBegin fields : Except EspErr (Stream env)) with
  | error err =>
      simp only [streamBegin] at hbegin
      split at hbegin
      · cases hbegin
        exact ⟨rfl, by decide⟩
      · cases hbegin
  | ok fresh => exact rfl

theorem readBack_error {readFn : ReadFn} (h : ∀ offset length, readFn offset length ≠ .error .ok)
    {offset left : ℕ} {hashed : Bytes} {err : EspErr}
    (hback : readBack readFn offset left hashed = .error err) : err ≠ .ok := by
  fun_induction readBack readFn offset left hashed with
  | case1 offset hashed => cases hback
  | case2 offset left hashed hleft length err' herr =>
      cases hback
      rintro rfl
      exact h _ _ herr
  | case3 offset left hashed hleft length buffer hbuffer ih => exact ih hback

theorem resumeStream_none {env : OtaEnv} (stream : Stream env) (fields : SignedFields)
    (point : ResumePoint) {readFn : ReadFn}
    (h : ∀ offset length, readFn offset length ≠ .error .ok) :
    Opens (resumeStream stream fields point readFn .none) (streamResume fields point readFn) := by
  have hbegin := beginStream_none stream fields
  simp only [resumeStream, streamResume]
  split
  · exact ⟨rfl, nofun⟩
  · cases hfresh : (streamBegin fields : Except EspErr (Stream env)) with
    | error err =>
        rw [hfresh] at hbegin
        rw [if_pos (hbegin.1 ▸ hbegin.2)]
        exact hbegin
    | ok fresh =>
        rw [hfresh] at hbegin
        rw [show beginStream stream fields .none = (.ok, fresh) from hbegin, hashing_none]
        simp only [ne_eq, not_true_eq_false, if_false]
        cases hback : readBack readFn 0 point.rawOffset [] with
        | error err => exact ⟨rfl, readBack_error h hback⟩
        | ok hashed =>
            simp only [PrepareFaults.none, Bool.false_eq_true, if_false]
            split
            · exact ⟨rfl, nofun⟩
            · exact rfl

theorem flashRead_error (d : Device) (p : Partition) (answer : ℕ → EspErr) (offset length : ℕ) :
    d.flashRead p answer offset length ≠ .error .ok := by
  rw [Device.flashRead]
  split
  · split
    · exact fun h => by cases h
    · exact fun h => by cases h
  · next hanswer =>
      intro h
      exact hanswer (Except.error.inj h)

theorem hashing_error (faults : PrepareFaults) {readFn : ReadFn}
    (h : ∀ offset length, readFn offset length ≠ .error .ok) (offset length : ℕ) :
    faults.hashing readFn offset length ≠ .error .ok := by
  simp only [PrepareFaults.hashing]
  split
  · next err herr => exact herr ▸ h offset length
  · split
    · exact fun h => by cases h
    · exact fun h => by cases h

/-- What a call with its memory comes to. -/
def Memory.outcome (called : Option EspErr × Memory env) : Outcome env :=
  (called.1.map fun err => ⟨err, none, called.2.receiver⟩, called.2.device)

/-- The stream that `openTransfer` sets up. -/
def plainStream (d : Device) (p : Partition) (fields : SignedFields)
    (resume : Option ResumePoint) (answers : Answers env) :
    Except EspErr (Stream env.toOtaEnv) :=
  match resume with
  | some point => streamResume fields point (d.flashRead p answers.partitionRead)
  | none => streamBegin fields

theorem openedStream_none (d : Device) (p : Partition) (fields : SignedFields)
    (resume : Option ResumePoint) (answers : Answers env) :
    Opens (openedStream d p fields resume answers .none)
      (plainStream d p fields resume answers) := by
  cases resume with
  | none => exact beginStream_none _ fields
  | some point => exact resumeStream_none _ fields point (flashRead_error _ p _)

theorem openTransfer_error {d : Device} {p : Partition} {fields : SignedFields}
    {resume : Option ResumePoint} {answers : Answers env} {err : EspErr}
    (h : plainStream d p fields resume answers = .error err) (operationId : Vector UInt8 16)
    (artifactId : Digest) (signedFields : Bytes) (signature : Vector UInt8 64) :
    openTransfer d p fields operationId artifactId signedFields signature resume answers =
      (some ⟨err, none, Receiver.zero env⟩, d) := by
  cases resume with
  | none =>
      simp only [plainStream] at h
      simp only [openTransfer, h]
  | some point =>
      simp only [plainStream] at h
      simp only [openTransfer, h]

theorem openTransfer_ok {m : Memory env} (args : PrepareArgs) {p : Partition}
    {fields : SignedFields} {resume : Option ResumePoint} {answers : Answers env}
    {stream : Stream env.toOtaEnv}
    (h : plainStream m.device p fields resume answers = .ok stream)
    (hzero : m.receiver = Receiver.zero env) :
    openTransfer m.device p fields args.operationId args.artifactId args.signedFields
        args.signature resume answers =
      Memory.outcome (openHandle
        { m with
          receiver :=
            { m.receiver with stream := some stream, partition := some p, fields := fields }
          streams := m.streams + 1 } args p resume answers) := by
  cases resume with
  | none =>
      simp only [plainStream] at h
      simp only [openTransfer, h, openHandle, hzero]
      split
      · rfl
      · split <;> rfl
  | some point =>
      simp only [plainStream] at h
      simp only [openTransfer, h, openHandle, hzero]
      split
      · rfl
      · split <;> rfl

theorem startTransfer_none {m : Memory env} (hzero : m.receiver = Receiver.zero env)
    (args : PrepareArgs) (p : Partition) (fields : SignedFields) (resume : Option ResumePoint)
    (answers : Answers env) :
    Memory.outcome (startTransfer m args p fields resume answers .none) =
      openTransfer m.device p fields args.operationId args.artifactId args.signedFields
        args.signature resume answers := by
  have hopened := openedStream_none m.device p fields resume answers
  rw [startTransfer, if_neg (by simp [PrepareFaults.none])]
  cases hbegun : plainStream m.device p fields resume answers with
  | error err =>
      rw [hbegun] at hopened
      have herr : (openedStream m.device p fields resume answers .none).1 ≠ .ok :=
        hopened.1 ▸ hopened.2
      simp only [if_pos herr]
      rw [openTransfer_error hbegun, hopened.1]
      rfl
  | ok stream =>
      rw [hbegun] at hopened
      have hok : openedStream m.device p fields resume answers .none = (.ok, stream) := hopened
      rw [openTransfer_ok args hbegun hzero]
      simp only [hok, ne_eq, not_true_eq_false, if_false]

/-- Without failures of memory, journal or hash contexts the call is `prepare`. -/
theorem prepareCall_none {m : Memory env}
    (h : m.receiver.busy = true ∨ m.receiver = Receiver.zero env) (args : PrepareArgs)
    (answers : Answers env) :
    Memory.outcome (prepareCall m args answers .none) =
      prepare m.device m.receiver args.target args.operationId args.artifactId args.signedFields
        args.signature answers := by
  have hverify : PrepareFaults.none.verify env.toOtaEnv args.signedFields args.signature =
      verifySignedFields env.toOtaEnv args.signedFields args.signature.toList := rfl
  have hmalloc : ¬(PrepareFaults.none.checkpointMalloc = true) := nofun
  have hdevice : m.mallocCheckpoint.device = m.device := rfl
  simp only [prepareCall, prepare, hverify, load_none, if_neg hmalloc, hdevice]
  by_cases hlength : args.signedFields.length = 0 ∨ args.signedFields.length > signedFieldsMax
  · rw [if_pos hlength, if_pos hlength]
    rfl
  rw [if_neg hlength, if_neg hlength]
  by_cases hbusy : m.receiver.active = true ∨ m.receiver.verified = true
  · rw [if_pos hbusy, if_pos hbusy]
    split <;> rfl
  rw [if_neg hbusy, if_neg hbusy]
  have hzero : m.receiver = Receiver.zero env := by
    apply h.resolve_left
    rw [Receiver.busy_iff]
    exact hbusy
  have hstart := @startTransfer_none env m.mallocCheckpoint hzero args
  cases verifySignedFields env.toOtaEnv args.signedFields args.signature.toList with
  | error err => rfl
  | ok fields =>
      by_cases hpreflight : answers.preflight ≠ .ok
      · simp only [if_pos hpreflight]
        rfl
      simp only [if_neg hpreflight]
      cases env.nextUpdatePartition m.device.running with
      | none => rfl
      | some p =>
          by_cases htarget : checkTarget fields args.target.projectName args.target.chipTarget
              p.size args.target.coreVersion args.target.fabricSchema ≠ .ok
          · simp only [if_pos htarget]
            rfl
          simp only [if_neg htarget]
          cases checkpointLoad env.toJournalEnv m.device.nvs with
          | error err =>
              cases err with
              | notFound => exact hstart p fields none answers
              | _ => rfl
          | ok cp =>
              by_cases hof : cp.isOf args.operationId args.artifactId args.signedFields
                  args.signature = false
              · simp only [if_pos hof]
                rfl
              simp only [if_neg hof]
              by_cases hphase : cp.phase ≠ checkpointTransferring
              · simp only [if_pos hphase]
                cases findPartition env (cString cp.partitionLabel) <;> rfl
              simp only [if_neg hphase]
              by_cases hlabel : cString cp.partitionLabel ≠ p.label
              · simp only [if_pos hlabel]
                rfl
              simp only [if_neg hlabel]
              exact hstart p fields (some cp.resume) answers

/-! ## What a call does -/

theorem prepareCall_busy {m : Memory env} (h : m.receiver.busy = true) (args : PrepareArgs)
    (answers : Answers env) (faults : PrepareFaults) :
    (prepareCall m args answers faults).2 = m := by
  rw [Receiver.busy_iff] at h
  rw [prepareCall, if_pos h]
  split
  · rfl
  · split <;> rfl

/-- A transfer to the partition starts from where the journal says. -/
structure Starts (d : Device) (faults : PrepareFaults) (p : Partition)
    (resume : Option ResumePoint) : Prop where
  next : env.nextUpdatePartition d.running = some p
  resumes : ∀ point, resume = some point →
    ∃ cp, faults.load env.toJournalEnv d.nvs = .ok cp ∧ point = cp.resume
  fresh : resume = none → faults.load env.toJournalEnv d.nvs = .error .notFound

/-- An idle receiver comes back as it was, adopts a finished transfer, or starts one. -/
theorem prepareCall_cases (m : Memory env) (args : PrepareArgs) (answers : Answers env)
    (faults : PrepareFaults) :
    (∃ err, prepareCall m args answers faults = (some err, m)) ∨
      ((prepareCall m args answers faults).1 = some .ok ∧
        (prepareCall m args answers faults).2.receiver.busy = true) ∨
      ∃ p fields resume, @Starts env m.device faults p resume ∧
        prepareCall m args answers faults =
          startTransfer m.mallocCheckpoint args p fields resume answers faults := by
  generalize hcall : prepareCall m args answers faults = called
  rw [prepareCall] at hcall
  split at hcall
  · exact .inl ⟨_, hcall.symm⟩
  split at hcall
  · split at hcall
    · exact .inl ⟨_, hcall.symm⟩
    · exact .inl ⟨_, hcall.symm⟩
  split at hcall
  · exact .inl ⟨_, hcall.symm⟩
  · next fields hverified =>
      split at hcall
      · exact .inl ⟨_, hcall.symm⟩
      split at hcall
      · exact .inl ⟨_, hcall.symm⟩
      · next p hnext =>
          simp only at hcall
          split at hcall
          · exact .inl ⟨_, hcall.symm⟩
          split at hcall
          · exact .inl ⟨_, hcall.symm⟩
          split at hcall
          · next cp hload =>
              split at hcall
              · exact .inl ⟨_, hcall.symm⟩
              split at hcall
              · split at hcall
                · exact .inl ⟨_, hcall.symm⟩
                · refine .inr (.inl ?_)
                  rw [← hcall]
                  simp [Memory.freeCheckpoint, Receiver.busy]
              split at hcall
              · exact .inl ⟨_, hcall.symm⟩
              · refine .inr (.inr ⟨p, fields, some cp.resume, ⟨hnext, ?_, nofun⟩, hcall.symm⟩)
                intro point hpoint
                cases hpoint
                exact ⟨cp, hload, rfl⟩
          · next hload =>
              exact .inr (.inr ⟨p, fields, none, ⟨hnext, nofun, fun _ => hload⟩, hcall.symm⟩)
          · exact .inl ⟨_, hcall.symm⟩

/-- The start of a transfer fails before or after the flash is touched, and then
everything that it has taken is given back, or it succeeds. -/
theorem startTransfer_cases {m : Memory env} (hzero : m.receiver = Receiver.zero env)
    (args : PrepareArgs) (p : Partition) (fields : SignedFields) (resume : Option ResumePoint)
    (answers : Answers env) (faults : PrepareFaults) :
    (∃ err, startTransfer m args p fields resume answers faults =
        (some err, m.freeCheckpoint)) ∨
      ((openedStream m.device p fields resume answers faults).1 = .ok ∧
        ∃ err, startTransfer m args p fields resume answers faults =
          (some err, { m.freeCheckpoint with
            device := m.device.program p ((resume.map ResumePoint.rawOffset).getD 0) []
              answers.leftover })) ∨
      ((startTransfer m args p fields resume answers faults).1 = none) ∨
      ((startTransfer m args p fields resume answers faults).1 = some .ok ∧
        (startTransfer m args p fields resume answers faults).2.receiver.busy = true) := by
  obtain ⟨device, receiver, checkpoints, streams, handles⟩ := m
  simp only at hzero
  subst hzero
  rw [startTransfer]
  split
  · exact .inl ⟨_, rfl⟩
  · simp only
    split
    · exact .inl ⟨_, rfl⟩
    · next hopened =>
        simp only [openHandle]
        split
        · exact .inr (.inr (.inl rfl))
        · split
          · exact .inr (.inl ⟨Decidable.not_not.mp hopened, _, rfl⟩)
          · exact .inr (.inr (.inr ⟨rfl, rfl⟩))

/-! ## A second call -/

theorem readBack_hashing {faults : PrepareFaults} {readFn : ReadFn} {offset left : ℕ}
    {hashed out : Bytes}
    (h : readBack (faults.hashing readFn) offset left hashed = .ok out) :
    readBack readFn offset left hashed = .ok out := by
  fun_induction readBack (faults.hashing readFn) offset left hashed with
  | case1 offset hashed =>
      rw [readBack, if_pos rfl]
      exact h
  | case2 offset left hashed hleft length err herr => cases h
  | case3 offset left hashed hleft length buffer hbuffer ih =>
      have hread : readFn offset length = .ok buffer := by
        simp only [PrepareFaults.hashing] at hbuffer
        split at hbuffer
        · cases hbuffer
        · next read hread =>
            split at hbuffer
            · cases hbuffer
            · rw [hread, Except.ok.inj hbuffer]
      rw [readBack, if_neg hleft]
      simp only [length] at hread
      simp only [hread]
      exact ih h

/-- A loop only asks for what it is to read. -/
theorem readBack_congr {f g : ReadFn} {n : ℕ}
    (hfg : ∀ offset length, offset + length ≤ n → f offset length = g offset length)
    {offset left : ℕ} (hashed : Bytes) (hle : offset + left ≤ n) :
    readBack f offset left hashed = readBack g offset left hashed := by
  fun_induction readBack f offset left hashed with
  | case1 offset hashed => rw [readBack, if_pos rfl]
  | case2 offset left hashed hleft length err herr =>
      have hlength : length ≤ left := Nat.min_le_left _ _
      rw [hfg offset length (by omega)] at herr
      rw [readBack, if_neg hleft]
      simp only [length] at herr
      simp only [herr]
  | case3 offset left hashed hleft length buffer hbuffer ih =>
      have hlength : length ≤ left := Nat.min_le_left _ _
      rw [hfg offset length (by omega)] at hbuffer
      rw [ih (by omega), readBack.eq_def g offset left, if_neg hleft]
      simp only [length] at hbuffer
      simp only [hbuffer]
      rfl

/-- Two devices of which a prepare that finds the partition sees the same: the
journal, and the flash below the point where the transfer goes on. -/
structure Device.Alike (d d' : Device) (p : Partition) (offset : ℕ) : Prop where
  nvs : d'.nvs = d.nvs
  running : d'.running = d.running
  below : (d'.flash p).take offset = (d.flash p).take offset

theorem Device.Alike.flashRead {d d' : Device} {p : Partition} {n : ℕ} (h : d.Alike d' p n)
    (answer : ℕ → EspErr) {offset length : ℕ} (hle : offset + length ≤ n) :
    d'.flashRead p answer offset length = d.flashRead p answer offset length := by
  have hpart (bytes : Bytes) :
      (bytes.drop offset).take length = ((bytes.take n).drop offset).take length := by
    rw [List.drop_take, List.take_take, Nat.min_eq_left (by omega)]
  simp only [Device.flashRead, hpart (d'.flash p), h.below, hpart (d.flash p)]

theorem Device.Alike.openedStream {d d' : Device} {p : Partition} {resume : Option ResumePoint}
    (h : d.Alike d' p ((resume.map ResumePoint.rawOffset).getD 0)) (fields : SignedFields)
    (answers : Answers env) (faults : PrepareFaults) :
    openedStream d' p fields resume answers faults =
      openedStream d p fields resume answers faults := by
  cases resume with
  | none => rfl
  | some point =>
      have hread : readBack (faults.hashing (d'.flashRead p answers.partitionRead)) 0
            point.rawOffset [] =
          readBack (faults.hashing (d.flashRead p answers.partitionRead)) 0
            point.rawOffset [] := by
        apply readBack_congr (n := point.rawOffset)
        · intro offset length hle
          simp only [PrepareFaults.hashing, h.flashRead answers.partitionRead hle]
        · exact Nat.le_of_eq (Nat.zero_add _)
      simp only [OtaV3.openedStream, resumeStream, hread]

/-- What was read back is still there once the flash behind it is touched. -/
theorem openedStream_program {d : Device} {p : Partition} {fields : SignedFields}
    {resume : Option ResumePoint} {answers : Answers env} {faults : PrepareFaults}
    (h : (openedStream d p fields resume answers faults).1 = .ok) (leftover : Bytes) :
    d.Alike (d.program p ((resume.map ResumePoint.rawOffset).getD 0) [] leftover) p
      ((resume.map ResumePoint.rawOffset).getD 0) := by
  refine ⟨rfl, rfl, ?_⟩
  cases resume with
  | none => rfl
  | some point =>
      have hlength : point.rawOffset ≤ (d.flash p).length := by
        simp only [openedStream, resumeStream] at h
        split at h
        · cases h
        split at h
        · next hbegun => exact absurd h hbegun
        split at h
        · next err hback =>
            exact absurd h (readBack_error (hashing_error faults (flashRead_error d p _)) hback)
        · next hashed hback =>
            have hlength := readBack_length (readBack_hashing hback)
            have hbytes := readBack_flashRead (readBack_hashing hback)
            rw [hbytes] at hlength
            simp only [List.nil_append, List.drop_zero, List.length_take, List.length_nil]
              at hlength
            omega
      simp only [Device.program, Function.update_self, Option.map_some, Option.getD_some,
        List.append_nil]
      rw [List.take_append_of_le_length (by rw [List.length_take]; omega), List.take_take,
        Nat.min_self]

/-- The journal could be read. -/
def PrepareFaults.readable (faults : PrepareFaults) : Prop :=
  ∀ key, faults.unreadable key = false

theorem load_ok {faults : PrepareFaults} (hread : faults.readable) {journal : JournalEnv}
    {nvs : Nvs} {cp : Checkpoint} (h : faults.load journal nvs = .ok cp) :
    checkpointLoad journal nvs = .ok cp := by
  have hkeys : (fun key => if faults.unreadable key then Option.none else nvs key) = nvs := by
    funext key
    rw [hread key]
    rfl
  simp only [PrepareFaults.load, hkeys] at h
  split at h
  · cases h
  · exact h

theorem load_notFound {faults : PrepareFaults} (hread : faults.readable) {journal : JournalEnv}
    {nvs : Nvs} (h : faults.load journal nvs = .error .notFound) :
    checkpointLoad journal nvs = .error .notFound := by
  have hkeys : (fun key => if faults.unreadable key then Option.none else nvs key) = nvs := by
    funext key
    rw [hread key]
    rfl
  simp only [PrepareFaults.load, hkeys] at h
  split at h
  · next err hjournal => exact absurd (Except.error.inj h) err.property.2
  · exact h

/-- What the caller sees of a call, and the receiver it leaves. -/
def Memory.reply (called : Option EspErr × Memory env) : Option EspErr × Receiver env :=
  (called.1, called.2.receiver)

theorem startTransfer_alike {m : Memory env} {d' : Device} {p : Partition}
    {resume : Option ResumePoint}
    (h : m.device.Alike d' p ((resume.map ResumePoint.rawOffset).getD 0)) (args : PrepareArgs)
    (fields : SignedFields) (answers : Answers env) (faults : PrepareFaults) :
    Memory.reply (startTransfer { m with device := d' } args p fields resume answers faults) =
      Memory.reply (startTransfer m args p fields resume answers faults) := by
  simp only [startTransfer, h.openedStream fields answers faults, openHandle]
  split
  · rfl
  · split
    · rfl
    · split
      · rfl
      · split <;> rfl

/-- Calls on two devices between which a prepare cannot tell come to the same. -/
theorem prepareCall_alike {m : Memory env} {d' : Device}
    (hnvs : d'.nvs = m.device.nvs) (hrunning : d'.running = m.device.running)
    (hbelow : ∀ p cp, env.nextUpdatePartition m.device.running = some p →
      checkpointLoad env.toJournalEnv m.device.nvs = .ok cp →
      (d'.flash p).take cp.resume.rawOffset = (m.device.flash p).take cp.resume.rawOffset)
    (args : PrepareArgs) (answers : Answers env) {faults : PrepareFaults}
    (hread : faults.readable) :
    Memory.reply (prepareCall { m with device := d' } args answers faults) =
      Memory.reply (prepareCall m args answers faults) := by
  have hstart (p : Partition) (fields : SignedFields) (resume : Option ResumePoint)
      (hstarts : @Starts env m.device faults p resume) :
      Memory.reply (startTransfer ({ m with device := d' } : Memory env).mallocCheckpoint args p
          fields resume answers faults) =
        Memory.reply (startTransfer m.mallocCheckpoint args p fields resume answers
          faults) := by
    apply startTransfer_alike (m := m.mallocCheckpoint)
    refine ⟨hnvs, hrunning, ?_⟩
    cases resume with
    | none => rfl
    | some point =>
        obtain ⟨cp, hload, rfl⟩ := hstarts.resumes point rfl
        exact hbelow p cp hstarts.next (load_ok hread hload)
  have hdevice : ({ m with device := d' } : Memory env).mallocCheckpoint.device = d' := rfl
  have hmalloc : m.mallocCheckpoint.device = m.device := rfl
  simp only [prepareCall, hdevice, hmalloc, hnvs, hrunning]
  split
  · rfl
  split
  · split <;> rfl
  cases faults.verify env.toOtaEnv args.signedFields args.signature with
  | error err => rfl
  | ok fields =>
      simp only
      split
      · rfl
      cases hnext : env.nextUpdatePartition m.device.running with
      | none => rfl
      | some p =>
          simp only
          split
          · rfl
          split
          · rfl
          cases hload : faults.load env.toJournalEnv m.device.nvs with
          | error err =>
              cases err with
              | notFound => exact hstart p fields none ⟨hnext, nofun, fun _ => hload⟩
              | _ => rfl
          | ok cp =>
              simp only
              split
              · rfl
              split
              · cases findPartition env (cString cp.partitionLabel) <;> rfl
              split
              · rfl
              · refine hstart p fields (some cp.resume) ⟨hnext, ?_, nofun⟩
                intro point hpoint
                cases hpoint
                exact ⟨cp, hload, rfl⟩

/-- After an error an idle receiver is zero again and everything taken is given back;
of the device only the flash behind the point of resumption may have changed. -/
theorem prepareCall_error {m : Memory env} (hzero : m.receiver = Receiver.zero env)
    {args : PrepareArgs} {answers : Answers env} {faults : PrepareFaults} {err : EspErr}
    (h : (prepareCall m args answers faults).1 = some err) (herr : err ≠ .ok) :
    ∃ d', (prepareCall m args answers faults).2 = { m with device := d' } ∧
      d' = { m.device with flash := d'.flash } ∧
      (faults.readable → ∀ p cp, env.nextUpdatePartition m.device.running = some p →
        checkpointLoad env.toJournalEnv m.device.nvs = .ok cp →
        (d'.flash p).take cp.resume.rawOffset =
          (m.device.flash p).take cp.resume.rawOffset) := by
  rcases prepareCall_cases m args answers faults with
    ⟨err', hsame⟩ | ⟨hok, -⟩ | ⟨p, fields, resume, hstarts, hstart⟩
  · exact ⟨m.device, by rw [hsame], rfl, fun _ _ _ _ _ => rfl⟩
  · rw [hok] at h
    exact absurd (Option.some.inj h).symm herr
  · rcases @startTransfer_cases env m.mallocCheckpoint hzero args p fields resume answers faults
      with ⟨err', hsame⟩ | ⟨hopened, err', hflash⟩ | hdown | ⟨hok, -⟩
    · exact ⟨m.device, by rw [hstart, hsame]; rfl, rfl, fun _ _ _ _ _ => rfl⟩
    · refine ⟨m.device.program p ((resume.map ResumePoint.rawOffset).getD 0) []
        answers.leftover, by rw [hstart, hflash]; rfl, rfl, ?_⟩
      intro hread p' cp hnext hload
      have hpartition : p = p' := Option.some.inj (hstarts.next.symm.trans hnext)
      subst hpartition
      cases resume with
      | none =>
          have hfresh := load_notFound hread (hstarts.fresh rfl)
          rw [hload] at hfresh
          cases hfresh
      | some point =>
          obtain ⟨cp', hload', hpoint⟩ := hstarts.resumes point rfl
          have hcp : cp' = cp := Except.ok.inj ((load_ok hread hload').symm.trans hload)
          subst hcp hpoint
          exact (openedStream_program hopened answers.leftover).below
    · rw [hstart, hdown] at h
      cases h
    · rw [hstart, hok] at h
      exact absurd (Option.some.inj h).symm herr

/-! ## Idle receivers -/

/-- The receiver is active, verified or zero. -/
def Settled (r : Receiver env) : Prop :=
  r.busy = true ∨ r = Receiver.zero env

theorem settled_zero : Settled (Receiver.zero env) := .inr rfl

theorem prepareCall_settled {m : Memory env} (h : Settled m.receiver) (args : PrepareArgs)
    (answers : Answers env) (faults : PrepareFaults) :
    Settled (Memory.outcome (prepareCall m args answers faults)).receiver := by
  cases hresult : (prepareCall m args answers faults).1 with
  | none =>
      simp only [Memory.outcome, hresult, Outcome.receiver]
      exact settled_zero
  | some err =>
      simp only [Memory.outcome, hresult, Outcome.receiver]
      rcases h with hbusy | hzero
      · have hsame := prepareCall_busy hbusy args answers faults
        rw [hsame]
        exact .inl hbusy
      · rcases prepareCall_cases m args answers faults with
          ⟨err', hsame⟩ | ⟨-, hbusy⟩ | ⟨p, fields, resume, -, hstart⟩
        · rw [hsame]
          exact .inr hzero
        · exact .inl hbusy
        · rw [hstart] at hresult ⊢
          rcases @startTransfer_cases env m.mallocCheckpoint hzero args p fields resume answers
              faults with ⟨err', hsame⟩ | ⟨-, err', hflash⟩ | hdown | ⟨-, hbusy⟩
          · rw [hsame]
            exact .inr hzero
          · rw [hflash]
            exact .inr hzero
          · rw [hdown] at hresult
            cases hresult
          · exact .inl hbusy

theorem prepare_settled {r : Receiver env} (h : Settled r) (d : Device) (target : Target)
    (operationId : Vector UInt8 16) (artifactId : Digest) (signedFields : Bytes)
    (signature : Vector UInt8 64) (answers : Answers env) :
    Settled (prepare d r target operationId artifactId signedFields signature
      answers).receiver := by
  rw [← @prepareCall_none env ⟨d, r, 0, 0, 0⟩ h
    ⟨target, operationId, artifactId, signedFields, signature⟩ answers]
  exact prepareCall_settled h _ _ _

theorem failReceiver_settled (d : Device) (error : EspErr)
    (clear : Option (NvsWrite env.toJournalEnv)) :
    Settled (failReceiver d error clear).receiver := by
  rw [failReceiver]
  split <;> exact settled_zero

theorem checkpointDue_settled {r : Receiver env} (h : r.active = true) (d : Device)
    (stream : Stream env.toOtaEnv) (answers : Answers env) :
    Settled (checkpointDue d r stream answers).receiver := by
  have hactive : Settled r := .inl ((Receiver.busy_iff r).mpr (.inl h))
  rw [checkpointDue]
  split
  · exact hactive
  split
  · exact failReceiver_settled _ _ _
  split
  · exact settled_zero
  split
  · exact failReceiver_settled _ _ _
  · exact .inl ((Receiver.busy_iff _).mpr (.inl h))

theorem write_settled {r : Receiver env} (h : Settled r) (d : Device) (chunk : Chunk)
    (answers : Answers env) : Settled (write d r chunk answers).receiver := by
  rw [write]
  split
  · next stream handle hactive _ _ =>
      simp only
      split
      · exact settled_zero
      split
      · exact failReceiver_settled _ _ _
      · refine checkpointDue_settled ?_ _ _ _
        exact hactive
  · exact h

theorem verify_settled {r : Receiver env} (h : Settled r) (d : Device) (answers : Answers env) :
    Settled (verify d r answers).receiver := by
  rw [verify]
  split
  · simp only
    split
    · exact failReceiver_settled _ _ _
    split
    · exact failReceiver_settled _ _ _
    rw [sealVerified]
    split
    · exact settled_zero
    split
    · exact failReceiver_settled _ _ _
    · exact .inl rfl
  · exact h

theorem activate_settled {r : Receiver env} (h : Settled r) (d : Device)
    (answers : Answers env) : Settled (activate d r answers).receiver := by
  rw [activate]
  split
  · split
    · exact h
    split
    · exact settled_zero
    split
    · exact h
    rw [setBoot]
    split
    · exact settled_zero
    split
    · exact h
    split
    · exact settled_zero
    · exact h
  · exact h

theorem abortCurrent_settled {r : Receiver env} (h : Settled r) (d : Device)
    (answers : Answers env) : Settled (abortCurrent d r answers).receiver := by
  rw [abortCurrent]
  split
  · exact h
  split
  · exact settled_zero
  split
  · exact h
  · exact settled_zero

theorem abort_settled {r : Receiver env} (h : Settled r) (d : Device)
    (operationId : Vector UInt8 16) (artifactId : Digest) (answers : Answers env) :
    Settled (abort d r operationId artifactId answers).receiver := by
  rw [abort]
  split
  · split
    · exact abortCurrent_settled h d answers
    · exact h
  split
  · exact h
  split
  · exact h
  · exact abortCurrent_settled h d answers

theorem handleTransfer_settled {r : Receiver env} (h : Settled r) (d : Device) (target : Target)
    (message : OtaTransfer) (answers : Answers env) :
    Settled (handleTransfer d r target message answers).receiver := by
  cases message with
  | prepare operation artifact signedFields signature requestedChunkSize requestedWindow =>
      simp only [handleTransfer]
      split
      · split
        · exact h
        · exact prepare_settled h _ _ _ _ _ _ _
      · exact h
  | data operation artifact block blockEncodedOffset data finalChunk =>
      simp only [handleTransfer]
      split
      · split
        · exact h
        · exact write_settled h _ _ _
      · exact h
  | commit operation artifact blockTableSha256 imageSha256 =>
      simp only [handleTransfer]
      split
      · exact h
      split
      · exact h
      split
      · exact h
      · exact verify_settled h _ _
  | abort operation artifact =>
      simp only [handleTransfer]
      split
      · exact abort_settled h _ _ _ _
      · exact h
  | query operation artifact =>
      simp only [handleTransfer]
      split
      · exact h
      · split <;> exact h
  | other => exact h

/-- A prepare in which more may fail, or any other event. -/
inductive PrepareEvent (env : ReceiverEnv) where
  | prepare (args : PrepareArgs) (answers : Answers env) (faults : PrepareFaults)
  | other (event : ReceiverEvent env)

def PrepareEvent.step (s : ReceiverState env) : PrepareEvent env → ReceiverState env
  | .prepare args answers faults =>
      .after (Memory.outcome (prepareCall ⟨s.device, s.receiver, 0, 0, 0⟩ args answers faults))
  | .other event => event.step s

theorem PrepareEvent.step_settled {s : ReceiverState env} (h : Settled s.receiver)
    (event : PrepareEvent env) : Settled (event.step s).receiver := by
  cases event with
  | prepare args answers faults =>
      exact @prepareCall_settled env ⟨s.device, s.receiver, 0, 0, 0⟩ h args answers faults
  | other event =>
      cases event with
      | transfer target message answers => exact handleTransfer_settled h _ _ _ _
      | activate answers => exact activate_settled h _ _
      | idleAbort answers => exact abortCurrent_settled h _ _
      | restart running => exact settled_zero

theorem foldl_settled (events : List (PrepareEvent env)) :
    ∀ s : ReceiverState env, Settled s.receiver →
      Settled (events.foldl PrepareEvent.step s).receiver := by
  induction events with
  | nil =>
      intro s h
      exact h
  | cons event events ih =>
      intro s h
      exact ih _ (PrepareEvent.step_settled h event)

/-- Whatever fails in a call of `keemash_ota_v3_flash_receiver_prepare`, a receiver that
is active or verified is left as it is, whether or not an error comes back.  After an
error an idle one is zero, the stream, the checkpoint and the OTA handle are given
back and the journal is as before; provided it can be read, a later call comes to what
it would have come to.  In every run a receiver that is not active or verified is
zero. -/
theorem prepare_atomic (env : ReceiverEnv) :
    (∀ (m : Memory env) (args : PrepareArgs) (answers : Answers env) (faults : PrepareFaults),
      let called := prepareCall m args answers faults
      (m.receiver.busy = true → called.2 = m) ∧
        (m.receiver = Receiver.zero env → ∀ err, called.1 = some err → err ≠ .ok →
          (∃ flash, called.2 = { m with device := { m.device with flash := flash } }) ∧
            (faults.readable → ∀ (later : PrepareArgs) (answers' : Answers env)
              (faults' : PrepareFaults), faults'.readable →
              Memory.reply (prepareCall called.2 later answers' faults') =
                Memory.reply (prepareCall m later answers' faults')))) ∧
    ∀ (flash : Partition → Bytes) (running : Partition) (events : List (PrepareEvent env)),
      let s := events.foldl PrepareEvent.step (.factory env flash running)
      s.receiver.busy = true ∨ s.receiver = Receiver.zero env := by
  constructor
  · intro m args answers faults
    constructor
    · intro hbusy
      exact prepareCall_busy hbusy args answers faults
    · intro hzero err herr hne
      obtain ⟨d', hsame, hflash, hbelow⟩ := prepareCall_error hzero herr hne
      constructor
      · exact ⟨d'.flash, by rw [hsame, ← hflash]⟩
      · intro hread later answers' faults' hread'
        rw [hsame]
        have hnvs : d'.nvs = m.device.nvs := by rw [hflash]
        have hrunning : d'.running = m.device.running := by rw [hflash]
        exact prepareCall_alike hnvs hrunning (hbelow hread) later answers' hread'
  · intro flash running events
    exact foldl_settled events _ settled_zero

/-- A device with two slots before anything was sent to it. -/
def twoSlotsMemory : Memory twoSlots :=
  ⟨(ReceiverState.factory twoSlots (fun _ => []) otaZero).device, Receiver.zero twoSlots, 0, 0, 0⟩

def letterArgs : PrepareArgs where
  target := letterTarget
  operationId := operationBytes ⟨1, 2⟩
  artifactId := letterSignedSha256
  signedFields := letterSigned
  signature := letterSignature

/-- `esp_ota_begin` fails, and the prepare is sent again. -/
theorem prepare_atomic_letter :
    (prepareCall twoSlotsMemory letterArgs { smooth with otaBegin := .fail } .none).1 =
        some .fail ∧
      Memory.reply (prepareCall
          (prepareCall twoSlotsMemory letterArgs { smooth with otaBegin := .fail } .none).2
          letterArgs smooth .none) =
        Memory.reply (prepareCall twoSlotsMemory letterArgs smooth .none) := by
  have hfails : (prepareCall twoSlotsMemory letterArgs { smooth with otaBegin := .fail } .none).1 =
      some .fail := by decide +kernel
  exact ⟨hfails, (((prepare_atomic twoSlots).1 twoSlotsMemory letterArgs
    { smooth with otaBegin := .fail } .none).2 rfl .fail hfails nofun).2 (fun _ => rfl) letterArgs
    smooth .none (fun _ => rfl)⟩

end KeemashCore.OtaV3

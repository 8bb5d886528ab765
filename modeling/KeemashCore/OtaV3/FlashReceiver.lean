import KeemashCore.OtaV3.Checkpoint
import KeemashCore.OtaV3.Stream

/-!
# The flash receiver

`keemash_ota_v3_flash_receiver.c`.  A `Device` is what survives a restart: the
journal and the flash.  A `Receiver` is the state in RAM.  Each function takes
the device and what the platform answers during the call, and returns the device
with the reply, or without one when the device went down on the way.
-/

namespace KeemashCore.OtaV3

/-! ## Operations and partitions -/

/-- `keemash_fabric_v2_Id128`. -/
structure Id128 where
  high : UInt64
  low : UInt64
  deriving DecidableEq

/-- `operation_bytes`. -/
def operationBytes (id : Id128) : Vector UInt8 16 :=
  Vector.ofFn fun i : Fin 16 =>
    if i.val < 8 then
      (id.high >>> UInt64.ofNat (56 - 8 * i.val)).toUInt8
    else
      (id.low >>> UInt64.ofNat (56 - 8 * (i.val - 8))).toUInt8

/-- The bytes as an array of `n`. -/
def asVector? (n : ℕ) (bytes : Bytes) : Option (Vector UInt8 n) :=
  if h : bytes.toArray.size = n then some ⟨bytes.toArray, h⟩ else none

/-- `esp_partition_t` of an app slot. -/
structure Partition where
  label : Bytes
  size : ℕ
  label_fits : label.length ≤ 16
  label_text : 0 ∉ label
  deriving DecidableEq

/-- `strncpy` of a label into a zeroed array of 17 bytes. -/
def labelArray (label : Bytes) : Vector UInt8 17 :=
  Vector.ofFn fun i : Fin 17 => if i.val < 16 then label.getD i.val 0 else 0

/-- The C string in an array. -/
def cString {n : ℕ} (bytes : Vector UInt8 n) : Bytes :=
  bytes.toList.takeWhile (· ≠ 0)

/-- The program that runs on the device, as `keemash_ota_v3_check_target` sees it. -/
structure Target where
  projectName : Bytes
  chipTarget : Bytes
  coreVersion : ℕ
  fabricSchema : ℕ

/-- The libraries behind the receiver, and the partition table. -/
structure ReceiverEnv extends OtaEnv, JournalEnv where
  appPartitions : List Partition
  labels_distinct : (appPartitions.map Partition.label).Nodup
  /-- `esp_ota_get_next_update_partition(NULL)`, given the running partition. -/
  nextUpdatePartition : Partition → Option Partition
  next_mem : ∀ running p, nextUpdatePartition running = some p → p ∈ appPartitions

variable (env : ReceiverEnv)

/-- `esp_partition_find_first` for an app partition with a label. -/
def findPartition (label : Bytes) : Option Partition :=
  env.appPartitions.find? fun p => p.label = label

/-! ## State -/

/-- A handle of `esp_ota_begin` or `esp_ota_resume`: where the next write goes. -/
structure Handle where
  partition : Partition
  offset : ℕ

/-- `keemash_ota_v3_signed_fields_t` as `memset` leaves it. -/
def SignedFields.zero : SignedFields where
  schemaVersion := 0
  projectName := []
  chipTarget := []
  firmwareVersion := []
  buildCommit := []
  signingKeyId := []
  minimumCoreVersion := 0
  minimumFabricSchema := 0
  rawSize := 0
  encodedSize := 0
  requiredAppSlotSize := 0
  codec := 0
  blockSize := 0
  blockCount := 0
  deflateWindowBits := 0
  imageSha256 := zeroDigest
  encodedSha256 := zeroDigest
  blockTableSha256 := zeroDigest
  baseImageSha256 := zeroDigest
  hasBaseImage := false

/-- `keemash_ota_v3_flash_receiver_t`. -/
structure Receiver where
  stream : Option (Stream env.toOtaEnv)
  partition : Option Partition
  handle : Option Handle
  fields : SignedFields
  operationId : Vector UInt8 16
  artifactId : Digest
  signature : Vector UInt8 64
  signedFields : Bytes
  checkpointRawOffset : ℕ
  active : Bool
  verified : Bool
  resumed : Bool

/-- A receiver as `keemash_ota_v3_flash_receiver_create` or `reset_receiver`
leaves it. -/
def Receiver.zero : Receiver env where
  stream := none
  partition := none
  handle := none
  fields := SignedFields.zero
  operationId := Vector.replicate 16 0
  artifactId := zeroDigest
  signature := Vector.replicate 64 0
  signedFields := []
  checkpointRawOffset := 0
  active := false
  verified := false
  resumed := false

/-- A call of `esp_ota_set_boot_partition`: the partition with its content, and
what the receiver held. -/
structure Selection where
  partition : Partition
  content : Bytes
  fields : SignedFields
  operationId : Vector UInt8 16
  signedFields : Bytes
  signature : Vector UInt8 64

/-- What survives a restart, the number of completed writes to the journal and the
calls of `esp_ota_set_boot_partition` so far. -/
structure Device where
  nvs : Nvs
  flash : Partition → Bytes
  running : Partition
  journalWrites : ℕ
  selections : List Selection

/-- What the platform answers during one call.  The device goes down before a
write to the journal whose answer is `none`, in one that is torn, in the flash
operation if `flashDown` is set, and in `esp_ota_set_boot_partition` if that has
no answer. -/
structure Answers where
  preflight : EspErr
  /-- `esp_partition_read` at an offset. -/
  partitionRead : ℕ → EspErr
  /-- `esp_ota_begin` or `esp_ota_resume`. -/
  otaBegin : EspErr
  otaWrite : OutputFn
  otaEnd : EspErr
  setBootPartition : Option EspErr
  save : Option (NvsWrite env.toJournalEnv)
  clear : Option (NvsWrite env.toJournalEnv)
  /-- The second save of `keemash_ota_v3_flash_receiver_activate`. -/
  restore : Option (NvsWrite env.toJournalEnv)
  /-- What the flash holds behind the bytes that are known to be written. -/
  leftover : Bytes
  flashDown : Bool

/-- What a call returns: the code, `*verified_partition`, and the receiver. -/
structure Reply where
  err : EspErr
  verified : Option Partition
  receiver : Receiver env

/-- A reply, unless the device went down, and the device. -/
abbrev Outcome := Option (Reply env) × Device

variable {env}

/-! ## Journal and flash -/

/-- The device with the result of a write to its journal. -/
def Device.written (d : Device) (result : Option EspErr × Nvs) : Device :=
  { d with
    nvs := result.2
    journalWrites := d.journalWrites + if result.1 = some .ok then 1 else 0 }

/-- `keemash_ota_v3_checkpoint_save`. -/
def Device.save (d : Device) (checkpoint : Checkpoint)
    (write : Option (NvsWrite env.toJournalEnv)) : Option EspErr × Device :=
  match write with
  | none => (none, d)
  | some write =>
      let saved := checkpointSave env.toJournalEnv d.nvs checkpoint write
      (saved.1, d.written saved)

/-- `keemash_ota_v3_checkpoint_clear`. -/
def Device.clear (d : Device) (write : Option (NvsWrite env.toJournalEnv)) :
    Option EspErr × Device :=
  match write with
  | none => (none, d)
  | some write =>
      let cleared := checkpointClear env.toJournalEnv d.nvs write
      (cleared.1, d.written cleared)

/-- The bytes of a partition from `offset` on are replaced: first by the ones
written, then by what erasing and unfinished writes leave. -/
def Device.program (d : Device) (p : Partition) (offset : ℕ) (bytes leftover : Bytes) :
    Device :=
  { d with
    flash := Function.update d.flash p ((d.flash p).take offset ++ bytes ++ leftover) }

/-- `flash_read`. -/
def Device.flashRead (d : Device) (p : Partition) (answer : ℕ → EspErr) : ReadFn :=
  fun offset length =>
    match answer offset with
    | .ok =>
        match asVector? length (((d.flash p).drop offset).take length) with
        | some buffer => .ok buffer
        | none => .error .invalidSize
    | err => .error err

/-! ## The receiver -/

/-- `fill_checkpoint`. -/
def Receiver.fillCheckpoint (r : Receiver env) (phase : BitVec 8) (resume : ResumePoint) :
    Checkpoint where
  phase := phase
  operationId := r.operationId
  artifactId := r.artifactId
  signature := r.signature
  signedFields := r.signedFields
  partitionLabel := labelArray ((r.partition.map Partition.label).getD [])
  resume := resume

/-- The checkpoint of `save_terminal_checkpoint`. -/
def Receiver.terminalCheckpoint (r : Receiver env) (phase : BitVec 8) : Checkpoint :=
  r.fillCheckpoint phase
    { nextBlockIndex := r.fields.blockCount
      rawOffset := r.fields.rawSize
      encodedOffset := r.fields.encodedSize
      blockChain := r.fields.blockTableSha256
      imagePrefixSha256 := r.fields.imageSha256 }

/-- `fail_receiver`. -/
def failReceiver (d : Device) (error : EspErr)
    (clear : Option (NvsWrite env.toJournalEnv)) : Outcome env :=
  match d.clear clear with
  | (none, d') => (none, d')
  | (some _, d') => (some ⟨error, none, Receiver.zero env⟩, d')

/-- `same_operation`. -/
def Receiver.sameOperation (r : Receiver env) (operationId : Vector UInt8 16)
    (artifactId : Digest) : Bool :=
  r.operationId = operationId ∧ r.artifactId = artifactId

/-- The checkpoint belongs to the transfer that is being prepared. -/
def Checkpoint.isOf (cp : Checkpoint) (operationId : Vector UInt8 16) (artifactId : Digest)
    (signedFields : Bytes) (signature : Vector UInt8 64) : Bool :=
  cp.operationId = operationId ∧ cp.artifactId = artifactId ∧ cp.signedFields = signedFields ∧
    cp.signature = signature

/-- The part of `keemash_ota_v3_flash_receiver_prepare` that sets up a stream and
an OTA handle. -/
def openTransfer (d : Device) (p : Partition) (fields : SignedFields)
    (operationId : Vector UInt8 16) (artifactId : Digest) (signedFields : Bytes)
    (signature : Vector UInt8 64) (resume : Option ResumePoint) (answers : Answers env) :
    Outcome env :=
  let begun : Except EspErr (Stream env.toOtaEnv) :=
    match resume with
    | some point => streamResume fields point (d.flashRead p answers.partitionRead)
    | none => streamBegin fields
  match begun with
  | .error err => (some ⟨err, none, Receiver.zero env⟩, d)
  | .ok stream =>
      let offset := (resume.map ResumePoint.rawOffset).getD 0
      let d' := d.program p offset [] answers.leftover
      if answers.flashDown then
        (none, d')
      else if answers.otaBegin ≠ .ok then
        (some ⟨answers.otaBegin, none, Receiver.zero env⟩, d')
      else
        (some ⟨.ok, none,
          { stream := some stream
            partition := some p
            handle := some ⟨p, offset⟩
            fields := fields
            operationId := operationId
            artifactId := artifactId
            signature := signature
            signedFields := signedFields
            checkpointRawOffset := offset
            active := true
            verified := false
            resumed := resume.isSome }⟩, d')

/-- `keemash_ota_v3_flash_receiver_prepare`. -/
def prepare (d : Device) (r : Receiver env) (target : Target)
    (operationId : Vector UInt8 16) (artifactId : Digest) (signedFields : Bytes)
    (signature : Vector UInt8 64) (answers : Answers env) : Outcome env :=
  if signedFields.length = 0 ∨ signedFields.length > signedFieldsMax then
    (some ⟨.invalidArg, none, r⟩, d)
  else if r.active ∨ r.verified then
    if r.sameOperation operationId artifactId ∧ r.signedFields = signedFields ∧
        r.signature = signature then
      (some ⟨.ok, none, r⟩, d)
    else
      (some ⟨.invalidState, none, r⟩, d)
  else
    match verifySignedFields env.toOtaEnv signedFields signature.toList with
    | .error err => (some ⟨err, none, r⟩, d)
    | .ok fields =>
        if answers.preflight ≠ .ok then
          (some ⟨answers.preflight, none, r⟩, d)
        else
          match env.nextUpdatePartition d.running with
          | none => (some ⟨.notFound, none, r⟩, d)
          | some p =>
              let err := checkTarget fields target.projectName target.chipTarget p.size
                target.coreVersion target.fabricSchema
              if err ≠ .ok then
                (some ⟨err, none, r⟩, d)
              else
                match checkpointLoad env.toJournalEnv d.nvs with
                | .ok cp =>
                    if cp.isOf operationId artifactId signedFields signature = false then
                      (some ⟨.invalidState, none, r⟩, d)
                    else if cp.phase ≠ checkpointTransferring then
                      match findPartition env (cString cp.partitionLabel) with
                      | none => (some ⟨.notFound, none, r⟩, d)
                      | some saved =>
                          (some ⟨.ok, none,
                            { r with
                              partition := some saved
                              fields := fields
                              operationId := operationId
                              artifactId := artifactId
                              signature := signature
                              signedFields := signedFields
                              verified := true
                              resumed := true }⟩, d)
                    else if cString cp.partitionLabel ≠ p.label then
                      (some ⟨.invalidState, none, r⟩, d)
                    else
                      openTransfer d p fields operationId artifactId signedFields signature
                        (some cp.resume) answers
                | .error .notFound =>
                    openTransfer d p fields operationId artifactId signedFields signature none
                      answers
                | .error err => (some ⟨err, none, r⟩, d)

/-- The part of `keemash_ota_v3_flash_receiver_write` that saves a checkpoint when
one is due. -/
def checkpointDue (d : Device) (r : Receiver env) (stream : Stream env.toOtaEnv)
    (answers : Answers env) : Outcome env :=
  if stream.rawOffset = r.checkpointRawOffset ∨ stream.rawOffset = 0 ∨
      stream.rawOffset ≥ r.fields.rawSize ∨ stream.rawOffset % env.interval ≠ 0 then
    (some ⟨.ok, none, r⟩, d)
  else
    match streamCheckpoint stream with
    | .error err => failReceiver d err answers.clear
    | .ok point =>
        match d.save (r.fillCheckpoint checkpointTransferring point) answers.save with
        | (none, d') => (none, d')
        | (some err, d') =>
            if err ≠ .ok then
              failReceiver d' err answers.clear
            else
              (some ⟨.ok, none, { r with checkpointRawOffset := stream.rawOffset }⟩, d')

/-- `keemash_ota_v3_flash_receiver_write`. -/
def write (d : Device) (r : Receiver env) (chunk : Chunk) (answers : Answers env) :
    Outcome env :=
  match r.active, r.stream, r.handle with
  | true, some stream, some handle =>
      let fed := streamFeed answers.otaWrite stream chunk
      -- A feed that returns `ESP_OK` has written all its pieces.
      let written :=
        if fed.1 = .ok then (fed.2.sent.drop stream.sent.length).flatten else []
      let d' := d.program handle.partition handle.offset written answers.leftover
      if answers.flashDown then
        (none, d')
      else if fed.1 ≠ .ok then
        failReceiver d' fed.1 answers.clear
      else
        checkpointDue d'
          { r with
            stream := some fed.2
            handle := some { handle with offset := handle.offset + written.length } }
          fed.2 answers
  | _, _, _ => (some ⟨.invalidState, none, r⟩, d)

/-- The end of `keemash_ota_v3_flash_receiver_verify`, which saves the checkpoint
of the verified image. -/
def sealVerified (d : Device) (r : Receiver env) (answers : Answers env) : Outcome env :=
  match d.save (r.terminalCheckpoint checkpointVerified) answers.save with
  | (none, d') => (none, d')
  | (some err, d') =>
      if err ≠ .ok then failReceiver d' err answers.clear
      else (some ⟨.ok, r.partition, r⟩, d')

/-- `keemash_ota_v3_flash_receiver_verify`. -/
def verify (d : Device) (r : Receiver env) (answers : Answers env) : Outcome env :=
  match r.active, r.stream with
  | true, some stream =>
      let finished := streamFinish stream
      if finished.1 ≠ .ok then
        failReceiver d finished.1 answers.clear
      else if answers.otaEnd ≠ .ok then
        failReceiver d answers.otaEnd answers.clear
      else
        sealVerified d
          { r with stream := some finished.2, handle := none, active := false, verified := true }
          answers
  | _, _ => (some ⟨.invalidState, none, r⟩, d)

/-- `esp_ota_set_boot_partition` is called. -/
def Device.select (d : Device) (r : Receiver env) (p : Partition) : Device :=
  { d with
    selections := d.selections ++
      [⟨p, d.flash p, r.fields, r.operationId, r.signedFields, r.signature⟩] }

/-- The end of `keemash_ota_v3_flash_receiver_activate`, once
`esp_ota_set_boot_partition` is called. -/
def setBoot (d : Device) (r : Receiver env) (answers : Answers env) : Outcome env :=
  match answers.setBootPartition with
  | none => (none, d)
  | some err =>
      if err = .ok then
        (some ⟨.ok, none, r⟩, d)
      else
        match d.save (r.terminalCheckpoint checkpointVerified) answers.restore with
        | (none, d') => (none, d')
        | (some restoreErr, d') =>
            (some ⟨if restoreErr = .ok then err else restoreErr, none, r⟩, d')

/-- `keemash_ota_v3_flash_receiver_activate`. -/
def activate (d : Device) (r : Receiver env) (answers : Answers env) : Outcome env :=
  match r.active, r.verified, r.partition with
  | false, true, some p =>
      if answers.preflight ≠ .ok then
        (some ⟨answers.preflight, none, r⟩, d)
      else
        match d.save (r.terminalCheckpoint checkpointBootPending) answers.save with
        | (none, d') => (none, d')
        | (some err, d') =>
            if err ≠ .ok then (some ⟨err, none, r⟩, d')
            else setBoot (d'.select r p) r answers
  | _, _, _ => (some ⟨.invalidState, none, r⟩, d)

/-- `keemash_ota_v3_flash_receiver_abort_current`. -/
def abortCurrent (d : Device) (r : Receiver env) (answers : Answers env) : Outcome env :=
  if r.active = false ∧ r.verified = false then
    (some ⟨.invalidState, none, r⟩, d)
  else
    match d.clear answers.clear with
    | (none, d') => (none, d')
    | (some err, d') =>
        if err ≠ .ok then (some ⟨err, none, r⟩, d')
        else (some ⟨.ok, none, Receiver.zero env⟩, d')

/-- `keemash_ota_v3_flash_receiver_abort`. -/
def abort (d : Device) (r : Receiver env) (operationId : Vector UInt8 16)
    (artifactId : Digest) (answers : Answers env) : Outcome env :=
  if r.active ∨ r.verified then
    if r.sameOperation operationId artifactId then
      abortCurrent d r answers
    else
      (some ⟨.invalidState, none, r⟩, d)
  else
    match checkpointLoad env.toJournalEnv d.nvs with
    | .error err => (some ⟨err, none, r⟩, d)
    | .ok cp =>
        if cp.operationId ≠ operationId ∨ cp.artifactId ≠ artifactId then
          (some ⟨.invalidState, none, r⟩, d)
        else
          abortCurrent d r answers

/-! ## Messages -/

/-- `keemash_fabric_v2_OtaTransfer`. -/
inductive OtaTransfer where
  | prepare (operationId : Option Id128) (artifactId signedFields signature : Bytes)
      (requestedChunkSize requestedWindow : ℕ)
  | data (operationId : Option Id128) (artifactId : Bytes) (block : Option BlockDescriptor)
      (blockEncodedOffset : ℕ) (data : Bytes) (finalChunk : Bool)
  | commit (operationId : Option Id128) (artifactId blockTableSha256 imageSha256 : Bytes)
  | abort (operationId : Option Id128) (artifactId : Bytes)
  | query (operationId : Option Id128) (artifactId : Bytes)
  /-- A status, or no body. -/
  | other

/-- `matching_transfer`. -/
def Receiver.matchingTransfer (r : Receiver env) (id : Id128) (artifactId : Bytes) : Bool :=
  match asVector? 32 artifactId with
  | none => false
  | some artifact =>
      if r.active = false ∧ r.verified = false then false
      else r.sameOperation (operationBytes id) artifact

/-- `match_persisted_transfer`. -/
def matchPersistedTransfer (env : ReceiverEnv) (d : Device) (id : Id128) (artifactId : Bytes) : EspErr :=
  match asVector? 32 artifactId with
  | none => .invalidArg
  | some artifact =>
      match checkpointLoad env.toJournalEnv d.nvs with
      | .error err => err
      | .ok cp =>
          if cp.operationId ≠ operationBytes id ∨ cp.artifactId ≠ artifact then .notFound
          else .ok

/-- `keemash_ota_v3_flash_receiver_handle_transfer`. -/
def handleTransfer (d : Device) (r : Receiver env) (target : Target)
    (transfer : OtaTransfer) (answers : Answers env) : Outcome env :=
  match transfer with
  | .prepare operationId artifactId signedFields signature requestedChunkSize
      requestedWindow =>
      match operationId, asVector? 32 artifactId, asVector? 64 signature with
      | some id, some artifact, some signature =>
          if signedFields.length = 0 ∨
              (requestedChunkSize ≠ 0 ∧ requestedChunkSize ≠ 1024 ∧ requestedChunkSize ≠ 2048) ∨
              requestedWindow > 4 then
            (some ⟨.invalidArg, none, r⟩, d)
          else
            prepare d r target (operationBytes id) artifact signedFields signature answers
      | _, _, _ => (some ⟨.invalidArg, none, r⟩, d)
  | .data operationId artifactId block blockEncodedOffset data finalChunk =>
      match operationId, block with
      | some id, some descriptor =>
          if data.length = 0 ∨ r.matchingTransfer id artifactId = false then
            (some ⟨.invalidArg, none, r⟩, d)
          else
            write d r ⟨descriptor, blockEncodedOffset, data, finalChunk⟩ answers
      | _, _ => (some ⟨.invalidArg, none, r⟩, d)
  | .commit operationId artifactId blockTableSha256 imageSha256 =>
      match operationId with
      | none => (some ⟨.invalidArg, none, r⟩, d)
      | some id =>
          if r.matchingTransfer id artifactId = false ∨
              blockTableSha256 ≠ r.fields.blockTableSha256.toList ∨
              imageSha256 ≠ r.fields.imageSha256.toList then
            (some ⟨.invalidArg, none, r⟩, d)
          else if r.verified then
            (some ⟨.ok, r.partition, r⟩, d)
          else
            verify d r answers
  | .abort operationId artifactId =>
      match operationId, asVector? 32 artifactId with
      | some id, some artifact => abort d r (operationBytes id) artifact answers
      | _, _ => (some ⟨.invalidArg, none, r⟩, d)
  | .query operationId artifactId =>
      match operationId with
      | none => (some ⟨.invalidArg, none, r⟩, d)
      | some id =>
          if r.matchingTransfer id artifactId then
            (some ⟨.ok, none, r⟩, d)
          else
            (some ⟨matchPersistedTransfer env d id artifactId, none, r⟩, d)
  | .other => (some ⟨.notSupported, none, r⟩, d)

/-- `keemash_ota_v3_flash_status_t`. -/
structure FlashStatus where
  rawOffset : ℕ
  encodedOffset : ℕ
  nextBlockIndex : ℕ
  active : Bool
  verified : Bool
  resumed : Bool
  deriving DecidableEq

/-- `keemash_ota_v3_flash_receiver_status`. -/
def Receiver.status (r : Receiver env) : FlashStatus where
  rawOffset := (r.stream.map Stream.rawOffset).getD 0
  encodedOffset := (r.stream.map fun s =>
    s.encodedOffset + if s.blockActive then s.blockEncodedOffset else 0).getD 0
  nextBlockIndex := (r.stream.map Stream.nextBlockIndex).getD 0
  active := r.active
  verified := r.verified
  resumed := r.resumed

end KeemashCore.OtaV3

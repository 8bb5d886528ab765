import KeemashCore.DoubleBuffer.Basic
import KeemashCore.OtaV3.Artifact

/-!
# The checkpoint journal

`keemash_ota_v3_checkpoint.c`.  The journal keeps its last record under one of
two NVS keys, chosen by the parity of the record's generation.  What a key reads
back as is the blob stored there, when there is one of the right length; the
checksum is a parameter.

A write may be cut short by a crash, and then its key holds something that
`record_valid` rejects.  It may also be refused before the key is touched.
-/

namespace KeemashCore.OtaV3

/-! ## Records -/

/-- `KEEMASH_OTA_V3_CHECKPOINT_TRANSFERRING`. -/
def checkpointTransferring : BitVec 8 := 1

/-- `KEEMASH_OTA_V3_CHECKPOINT_VERIFIED`. -/
def checkpointVerified : BitVec 8 := 2

/-- `KEEMASH_OTA_V3_CHECKPOINT_BOOT_PENDING`. -/
def checkpointBootPending : BitVec 8 := 3

/-- `keemash_ota_v3_checkpoint_t`; `signedFields` holds the first
`signed_fields_len` bytes of the array. -/
structure Checkpoint where
  phase : BitVec 8
  operationId : Vector UInt8 16
  artifactId : Digest
  signature : Vector UInt8 64
  signedFields : Bytes
  partitionLabel : Vector UInt8 17
  resume : ResumePoint
  deriving DecidableEq

/-- A checkpoint as `memset` leaves it. -/
def Checkpoint.zero : Checkpoint where
  phase := 0
  operationId := Vector.replicate 16 0
  artifactId := zeroDigest
  signature := Vector.replicate 64 0
  signedFields := []
  partitionLabel := Vector.replicate 17 0
  resume := ResumePoint.zero

def checkpointMagic : U32 := 0x334f544b

def checkpointVersion : BitVec 16 := 2

/-- The fields of `stored_checkpoint_t` that its checksum covers. -/
structure StoredBody where
  magic : U32
  version : BitVec 16
  tombstone : BitVec 8
  generation : U32
  checkpoint : Checkpoint
  deriving DecidableEq

/-- `stored_checkpoint_t`. -/
structure StoredCheckpoint extends StoredBody where
  crc32 : U32
  deriving DecidableEq

/-- What the journal takes from its build and its chip. -/
structure JournalEnv extends Build where
  /-- `esp_rom_crc32_le` over the record. -/
  crc32 : StoredBody → U32

/-- The two keys of the namespace. -/
inductive NvsKey where
  | v3a
  | v3b
  deriving DecidableEq

/-- The blobs of the right length in the namespace. -/
abbrev Nvs := NvsKey → Option StoredCheckpoint

def Nvs.empty : Nvs := fun _ => none

def Nvs.set (nvs : Nvs) (key : NvsKey) (blob : Option StoredCheckpoint) : Nvs :=
  Function.update nvs key blob

def checkpointKey (generation : U32) : NvsKey :=
  if generation &&& 1 ≠ 0 then .v3a else .v3b

variable (env : JournalEnv)

/-- `record_valid`. -/
def recordValid (record : StoredCheckpoint) : Bool :=
  let cp := record.checkpoint
  if record.magic ≠ checkpointMagic ∨ record.version ≠ checkpointVersion ∨
      record.tombstone.toNat > 1 ∨ record.generation = 0 then
    false
  else if env.crc32 record.toStoredBody ≠ record.crc32 then
    false
  else if record.tombstone ≠ 0 then
    true
  else if cp.phase < checkpointTransferring ∨ cp.phase > checkpointBootPending ∨
      cp.signedFields.length = 0 ∨ cp.signedFields.length > signedFieldsMax ∨
      cp.partitionLabel[0] = 0 ∨ 0 ∉ cp.partitionLabel.toList then
    false
  else if cp.phase ≠ checkpointTransferring then
    0 < cp.resume.rawOffset ∧ cp.resume.rawOffset ≤ maxImageSize ∧
      0 < cp.resume.encodedOffset ∧ cp.resume.encodedOffset ≤ maxPackageSize ∧
      0 < cp.resume.nextBlockIndex ∧ cp.resume.nextBlockIndex ≤ maxBlockCount
  else
    0 < cp.resume.nextBlockIndex ∧ cp.resume.nextBlockIndex < maxBlockCount ∧
      0 < cp.resume.rawOffset ∧ cp.resume.rawOffset % env.interval = 0 ∧
      cp.resume.nextBlockIndex * fullBlockSize = cp.resume.rawOffset ∧
      cp.resume.rawOffset ≤ maxImageSize ∧
      0 < cp.resume.encodedOffset ∧ cp.resume.encodedOffset ≤ maxPackageSize

/-- `read_record`. -/
def readRecord (nvs : Nvs) (key : NvsKey) : Option StoredCheckpoint :=
  (nvs key).filter (recordValid env)

/-- `newer`: serial comparison of generations. -/
def newer (a b : U32) : Bool :=
  0 < (a - b).toInt

/-- `latest_record`. -/
def latestRecord (nvs : Nvs) : Option StoredCheckpoint :=
  match readRecord env nvs .v3a, readRecord env nvs .v3b with
  | some first, some other =>
      if newer other.generation first.generation then some other else some first
  | some first, none => some first
  | none, other => other

/-- `keemash_ota_v3_checkpoint_load`. -/
def checkpointLoad (nvs : Nvs) : Except EspErr Checkpoint :=
  match latestRecord env nvs with
  | some latest => if latest.tombstone ≠ 0 then .error .notFound else .ok latest.checkpoint
  | none => .error .notFound

/-! ## Writes -/

/-- What becomes of the blob that `write_record` hands to NVS. -/
inductive NvsWrite where
  /-- It is stored. -/
  | done
  /-- The device goes down; the key reads back as `left`, which is not valid. -/
  | torn (left : Option StoredCheckpoint) (invalid : left.filter (recordValid env) = none)
  /-- An error is returned and the key keeps its content. -/
  | refused (error : EspErr) (isError : error ≠ .ok)

/-- The generation that `write_record` gives the next record. -/
def nextGeneration (nvs : Nvs) : U32 :=
  let next :=
    match latestRecord env nvs with
    | some record => record.generation + 1
    | none => 1
  if next = 0 then 1 else next

/-- The record that `write_record` stores; no checkpoint makes a tombstone. -/
def freshRecord (nvs : Nvs) (checkpoint : Option Checkpoint) : StoredCheckpoint :=
  let body : StoredBody :=
    { magic := checkpointMagic
      version := checkpointVersion
      tombstone := if checkpoint.isNone then 1 else 0
      generation := nextGeneration env nvs
      checkpoint := checkpoint.getD Checkpoint.zero }
  { body with crc32 := env.crc32 body }

/-- `write_record`.  The result is `none` when the device went down. -/
def writeRecord (nvs : Nvs) (checkpoint : Option Checkpoint) (write : NvsWrite env) :
    Option EspErr × Nvs :=
  let record := freshRecord env nvs checkpoint
  match write with
  | .done => (some .ok, nvs.set (checkpointKey record.generation) (some record))
  | .torn left _ => (none, nvs.set (checkpointKey record.generation) left)
  | .refused error _ => (some error, nvs)

/-- The checks of `keemash_ota_v3_checkpoint_save`. -/
def saveRejects (cp : Checkpoint) : Bool :=
  if cp.phase < checkpointTransferring ∨ cp.phase > checkpointBootPending ∨
      cp.signedFields.length = 0 ∨ cp.signedFields.length > signedFieldsMax ∨
      cp.partitionLabel[0] = 0 ∨ 0 ∉ cp.partitionLabel.toList then
    true
  else if cp.phase ≠ checkpointTransferring then
    cp.resume.nextBlockIndex = 0 ∨ cp.resume.nextBlockIndex > maxBlockCount ∨
      cp.resume.rawOffset = 0 ∨ cp.resume.rawOffset > maxImageSize ∨
      cp.resume.encodedOffset = 0 ∨ cp.resume.encodedOffset > maxPackageSize
  else
    cp.resume.nextBlockIndex = 0 ∨ cp.resume.nextBlockIndex ≥ maxBlockCount ∨
      cp.resume.rawOffset = 0 ∨ cp.resume.rawOffset % env.interval ≠ 0 ∨
      cp.resume.nextBlockIndex * fullBlockSize ≠ cp.resume.rawOffset ∨
      cp.resume.rawOffset > maxImageSize ∨
      cp.resume.encodedOffset = 0 ∨ cp.resume.encodedOffset > maxPackageSize

/-- `keemash_ota_v3_checkpoint_save`. -/
def checkpointSave (nvs : Nvs) (checkpoint : Checkpoint) (write : NvsWrite env) :
    Option EspErr × Nvs :=
  if saveRejects env checkpoint then
    (some .invalidArg, nvs)
  else
    writeRecord env nvs (some checkpoint) write

/-- `keemash_ota_v3_checkpoint_clear`. -/
def checkpointClear (nvs : Nvs) (write : NvsWrite env) : Option EspErr × Nvs :=
  writeRecord env nvs none write

end KeemashCore.OtaV3

import KeemashCore.Mesh.Proto

/-!
# Signed firmware artifacts

The data of `keemash_ota_v3.h` and the checks of `keemash_ota_v3.c`: the limits
of the format, the signed fields of an artifact, and its block descriptors with
the hash chain over them.  A protobuf `bytes` field and a byte buffer with its
length are both lists of bytes; a C string is the list of its bytes before the
terminating zero.

The hash, the protobuf library, the inflater and the signature check are
parameters: `OtaEnv` collects them.
-/

namespace KeemashCore.OtaV3

/-- A byte buffer with its length. -/
abbrev Bytes := List UInt8

/-- A SHA-256 digest. -/
abbrev Digest := Vector UInt8 32

/-! ## Limits -/

def schemaVersion : ℕ := 1

def signatureLen : ℕ := 64

/-- `KEEMASH_OTA_V3_FULL_BLOCK_SIZE`. -/
def fullBlockSize : ℕ := 16384

def deltaBlockSize : ℕ := 8192

def deflateWindowBits : ℕ := 11

/-- `KEEMASH_OTA_V3_MAX_IMAGE_SIZE`. -/
def maxImageSize : ℕ := 8 * 1024 * 1024

/-- `KEEMASH_OTA_V3_MAX_PACKAGE_SIZE`. -/
def maxPackageSize : ℕ := 16 * 1024 * 1024

def maxBlockCount : ℕ := 1024

def maxChunkBytes : ℕ := 2048

def inflateOutputBytes : ℕ := 2048

def signedFieldsMax : ℕ := 1024

/-- `ARTIFACT_CODEC_FULL_DEFLATE`. -/
def codecFullDeflate : ℕ := 1

/-- `ARTIFACT_CODEC_DELTA_BLOCK`. -/
def codecDeltaBlock : ℕ := 2

/-- `FIRMWARE_BLOCK_DEFLATE`. -/
def blockDeflate : ℕ := 1

/-- `FIRMWARE_BLOCK_COPY_BASE`. -/
def blockCopyBase : ℕ := 2

/-! ## Records -/

/-- The message `FirmwareArtifactSignedFields` as `pb_decode` leaves it. -/
structure PbSignedFields where
  schemaVersion : ℕ
  projectName : Bytes
  chipTarget : Bytes
  firmwareVersion : Bytes
  buildCommit : Bytes
  minimumCoreVersion : ℕ
  minimumFabricSchema : ℕ
  rawSize : ℕ
  encodedSize : ℕ
  requiredAppSlotSize : ℕ
  codec : ℕ
  imageSha256 : Bytes
  encodedSha256 : Bytes
  blockTableSha256 : Bytes
  baseImageSha256 : Bytes
  blockSize : ℕ
  blockCount : ℕ
  deflateWindowBits : ℕ
  signingKeyId : Bytes
  deriving DecidableEq

/-- `keemash_ota_v3_signed_fields_t`. -/
structure SignedFields where
  schemaVersion : ℕ
  projectName : Bytes
  chipTarget : Bytes
  firmwareVersion : Bytes
  buildCommit : Bytes
  signingKeyId : Bytes
  minimumCoreVersion : ℕ
  minimumFabricSchema : ℕ
  rawSize : ℕ
  encodedSize : ℕ
  requiredAppSlotSize : ℕ
  codec : ℕ
  blockSize : ℕ
  blockCount : ℕ
  deflateWindowBits : ℕ
  imageSha256 : Digest
  encodedSha256 : Digest
  blockTableSha256 : Digest
  baseImageSha256 : Digest
  hasBaseImage : Bool
  deriving DecidableEq

/-- The message `FirmwareBlockDescriptor`. -/
structure BlockDescriptor where
  index : ℕ
  rawOffset : ℕ
  rawSize : ℕ
  encodedOffset : ℕ
  encodedSize : ℕ
  kind : ℕ
  rawSha256 : Bytes
  encodedSha256 : Bytes
  deriving DecidableEq

/-- `keemash_ota_v3_resume_point_t`. -/
structure ResumePoint where
  nextBlockIndex : ℕ
  rawOffset : ℕ
  encodedOffset : ℕ
  blockChain : Digest
  imagePrefixSha256 : Digest
  deriving DecidableEq

/-- Thirty-two zero bytes. -/
def zeroDigest : Digest := Vector.replicate 32 0

/-- A resume point as `memset` leaves it. -/
def ResumePoint.zero : ResumePoint where
  nextBlockIndex := 0
  rawOffset := 0
  encodedOffset := 0
  blockChain := zeroDigest
  imagePrefixSha256 := zeroDigest

/-! ## The environment -/

/-- What the component takes from its build: `CHECKPOINT_INTERVAL` with its
static assertion, and `CONFIG_KEEMASH_OTA_V3_DELTA_EXPERIMENTAL`. -/
structure Build where
  interval : ℕ
  interval_pos : 0 < interval
  interval_aligned : interval % fullBlockSize = 0
  deltaExperimental : Bool

theorem defaultInterval_pos : 0 < 65536 := by decide

theorem defaultInterval_aligned : 65536 % fullBlockSize = 0 := by decide

/-- The result of zlib's `inflate`. -/
inductive ZResult where
  | ok
  | streamEnd
  | bufError
  | failed
  deriving DecidableEq

/-- What one call of `inflate` does: the bytes it consumes and produces. -/
structure ZStep (State : Type) where
  stream : State
  consumed : ℕ
  produced : Bytes
  result : ZResult

/-- The raw inflater of zlib, with the documented bounds of one call. -/
structure Zlib where
  State : Type
  /-- A stream as `inflateInit2` leaves it. -/
  init : State
  /-- `inflate` on the remaining input, with an output buffer of the given size;
  the flag asks for `Z_FINISH`. -/
  inflate : State → Bytes → ℕ → Bool → ZStep State
  consumed_le : ∀ s input room final, (inflate s input room final).consumed ≤ input.length
  produced_le : ∀ s input room final, (inflate s input room final).produced.length ≤ room

/-- The libraries behind the verifier. -/
structure OtaEnv extends Build where
  sha256 : Bytes → Digest
  /-- `pb_encode` of a `FirmwareBlockDescriptor`. -/
  encodeDescriptor : BlockDescriptor → Bytes
  /-- `pb_decode` of a `FirmwareArtifactSignedFields`. -/
  decodeSignedFields : Bytes → Option PbSignedFields
  /-- The result of `decode_public_key`. -/
  publicKey : Except EspErr Bytes
  /-- `psa_import_key` accepts the key. -/
  importKey : Bytes → Bool
  /-- `psa_verify_hash`. -/
  verifyHash : Bytes → Digest → Bytes → Bool
  zlib : Zlib

variable (env : OtaEnv)

/-! ## Signed fields -/

/-- `copy_hash`. -/
def copyHash (source : Bytes) (isOptional : Bool) : Option Digest :=
  if h : source.length = 32 then
    some ⟨source.toArray, h⟩
  else if isOptional ∧ source.length = 0 then
    some zeroDigest
  else
    none

/-- `verify_p256`. -/
def verifyP256 (data signature : Bytes) : EspErr :=
  match env.publicKey with
  | .error err => err
  | .ok key =>
      if env.importKey key = false then
        .invalidArg
      else if env.verifyHash key (env.sha256 data) signature then
        .ok
      else
        .invalidCrc

/-- `keemash_ota_v3_verify_signed_fields`. -/
def verifySignedFields (signedFields signature : Bytes) : Except EspErr SignedFields :=
  if signedFields.length = 0 then
    .error .invalidArg
  else if signedFields.length > signedFieldsMax then
    .error .invalidSize
  else if signature.length ≠ signatureLen then
    .error .invalidSize
  else if verifyP256 env signedFields signature ≠ .ok then
    .error (verifyP256 env signedFields signature)
  else
    match env.decodeSignedFields signedFields with
    | none => .error .invalidResponse
    | some fields =>
        if fields.schemaVersion ≠ schemaVersion ∨ fields.rawSize = 0 ∨
            fields.requiredAppSlotSize < fields.rawSize ∨ fields.rawSize > maxImageSize ∨
            fields.encodedSize > maxPackageSize ∨ fields.blockCount = 0 ∨
            fields.blockCount > maxBlockCount ∨
            fields.deflateWindowBits ≠ deflateWindowBits ∨ fields.projectName = [] ∨
            fields.chipTarget = [] ∨ fields.signingKeyId = [] then
          .error .invalidArg
        else if fields.codec ≠ codecFullDeflate ∧
            ¬(env.deltaExperimental ∧ fields.codec = codecDeltaBlock) then
          .error .notSupported
        else if (fields.codec = codecFullDeflate ∧ (fields.blockSize ≠ fullBlockSize ∨
              fields.encodedSize = 0 ∨ fields.baseImageSha256.length ≠ 0)) ∨
            (fields.codec = codecDeltaBlock ∧ (fields.blockSize ≠ deltaBlockSize ∨
              fields.baseImageSha256.length ≠ 32)) then
          .error .invalidArg
        else if fields.blockCount ≠
            (fields.rawSize + fields.blockSize - 1) / fields.blockSize then
          .error .invalidArg
        else
          match copyHash fields.imageSha256 false, copyHash fields.encodedSha256 false,
            copyHash fields.blockTableSha256 false, copyHash fields.baseImageSha256 true with
          | some image, some encoded, some blockTable, some base =>
              .ok
                { schemaVersion := fields.schemaVersion
                  projectName := fields.projectName
                  chipTarget := fields.chipTarget
                  firmwareVersion := fields.firmwareVersion
                  buildCommit := fields.buildCommit
                  signingKeyId := fields.signingKeyId
                  minimumCoreVersion := fields.minimumCoreVersion
                  minimumFabricSchema := fields.minimumFabricSchema
                  rawSize := fields.rawSize
                  encodedSize := fields.encodedSize
                  requiredAppSlotSize := fields.requiredAppSlotSize
                  codec := fields.codec
                  blockSize := fields.blockSize
                  blockCount := fields.blockCount
                  deflateWindowBits := fields.deflateWindowBits
                  imageSha256 := image
                  encodedSha256 := encoded
                  blockTableSha256 := blockTable
                  baseImageSha256 := base
                  hasBaseImage := fields.baseImageSha256.length = 32 }
          | _, _, _, _ => .error .invalidSize

/-- `keemash_ota_v3_check_target`. -/
def checkTarget (fields : SignedFields) (projectName chipTarget : Bytes)
    (appSlotSize coreVersion fabricSchema : ℕ) : EspErr :=
  if fields.projectName ≠ projectName ∨ fields.chipTarget ≠ chipTarget then
    .invalidArg
  else if fields.rawSize > appSlotSize ∨ fields.requiredAppSlotSize > appSlotSize then
    .invalidSize
  else if fields.minimumCoreVersion > coreVersion ∨
      fields.minimumFabricSchema > fabricSchema then
    .notSupported
  else
    .ok

/-! ## Block descriptors -/

/-- `encode_varint`, whose buffer holds the ten bytes a 64-bit value needs. -/
def encodeVarint (value : ℕ) : Bytes :=
  if value < 128 then
    [UInt8.ofNat value]
  else
    UInt8.ofNat (value % 128 + 128) :: encodeVarint (value / 128)

/-- `keemash_ota_v3_encode_block_descriptor`, length-delimited. -/
def encodeBlockDescriptor (descriptor : BlockDescriptor) : Bytes :=
  let encoded := env.encodeDescriptor descriptor
  encodeVarint encoded.length ++ encoded

/-- The hash chain after one more descriptor. -/
def chainStep (chain : Digest) (descriptor : BlockDescriptor) : Digest :=
  env.sha256 (chain.toList ++ encodeBlockDescriptor env descriptor)

/-- `keemash_ota_v3_check_block_descriptor`; the result is `next_chain`. -/
def checkBlockDescriptor (fields : SignedFields) (descriptor : BlockDescriptor)
    (expectedIndex expectedRawOffset expectedEncodedOffset : ℕ) (previousChain : Digest) :
    Except EspErr Digest :=
  if expectedIndex ≥ fields.blockCount ∨ descriptor.index ≠ expectedIndex ∨
      descriptor.rawOffset ≠ expectedRawOffset ∨
      descriptor.encodedOffset ≠ expectedEncodedOffset ∨ descriptor.rawSize = 0 ∨
      descriptor.rawSize > fields.blockSize ∨
      (expectedIndex + 1 < fields.blockCount ∧ descriptor.rawSize ≠ fields.blockSize) ∨
      expectedRawOffset > fields.rawSize ∨
      descriptor.rawSize > fields.rawSize - expectedRawOffset ∨
      expectedEncodedOffset > fields.encodedSize ∨
      descriptor.encodedSize > fields.encodedSize - expectedEncodedOffset ∨
      descriptor.rawSha256.length ≠ 32 ∨ descriptor.encodedSha256.length ≠ 32 then
    .error .invalidArg
  else if descriptor.kind = blockDeflate ∧ descriptor.encodedSize = 0 then
    .error .invalidSize
  else if descriptor.kind = blockCopyBase ∧ env.deltaExperimental = false then
    .error .notSupported
  else if descriptor.kind = blockCopyBase ∧
      (fields.codec ≠ codecDeltaBlock ∨ descriptor.encodedSize ≠ 0) then
    .error .invalidArg
  else if descriptor.kind ≠ blockDeflate ∧ descriptor.kind ≠ blockCopyBase then
    .error .notSupported
  else
    let nextChain := chainStep env previousChain descriptor
    if expectedIndex + 1 = fields.blockCount ∧
        (expectedRawOffset + descriptor.rawSize ≠ fields.rawSize ∨
          expectedEncodedOffset + descriptor.encodedSize ≠ fields.encodedSize ∨
          nextChain ≠ fields.blockTableSha256) then
      .error .invalidCrc
    else
      .ok nextChain

end KeemashCore.OtaV3

import KeemashCore.KeeLink.Artifact

/-!
# The artifact builder of the crate

`build_full_artifact` and `build_delta_artifact` of `ota.rs`.  The compressor, the
encoders of the messages and the signing key come from other crates and are parameters,
as for the verifier.
-/

namespace KeemashCore.KeeLink.Ota

open LittleEndian Tiling

structure ArtifactBuildSpec where
  projectName : String
  chipTarget : String
  firmwareVersion : String
  buildCommit : String
  minimumCoreVersion : UInt32
  minimumFabricSchema : UInt32
  requiredAppSlotSize : UInt32
  signingKeyId : String
  deriving DecidableEq

/-! ## The environment -/

/-- The result of a call of `Compress::compress` with `Finish`: whether the stream has
ended, and the `total_out` bytes at the front of the buffer. -/
structure Deflation where
  streamEnd : Bool
  written : Bytes
  deriving DecidableEq

/-- The crates behind the builder. -/
structure BuildEnv extends ArtifactEnv where
  /-- The checksum is a `u32`. -/
  crc32_lt : ∀ bytes, crc32 bytes < 2 ^ 32
  encodeManifest : FirmwareArtifactManifest → Bytes
  encodeSignedFields : FirmwareArtifactSignedFields → Bytes
  SigningKey : Type
  sign : SigningKey → Bytes → Signature
  /-- `to_bytes` of a signature. -/
  signatureBytes : Signature → Bytes
  /-- A fresh raw compressor on the input, with an output buffer of the given size. -/
  compress : Bytes → ℕ → Option Deflation

variable (env : BuildEnv)

/-! ## Steps -/

/-- `checked_u32`. -/
def checkedU32 (value : ℕ) : RustM UInt32 :=
  if value < 2 ^ 32 then pure (UInt32.ofNat value) else throw .sizeOverflow

/-- `a * b` on `usize`, which panics when it overflows. -/
def mulUsize (a b : ℕ) : RustM ℕ :=
  if a * b ≤ env.usizeMax then pure (a * b) else panicked

/-- `a.saturating_mul(2).saturating_add(256)`. -/
def deflateRoom (a : ℕ) : ℕ :=
  min (min (a * 2) env.usizeMax + 256) env.usizeMax

/-- `compress_block`. -/
def compressBlock (raw : Bytes) : RustM Bytes := do
  let deflation ← okOr (env.compress raw (deflateRoom env raw.length)) (.deflate 0)
  throwIf (deflation.streamEnd = false) (.deflate 0)
  pure deflation.written

/-- `image.chunks(size)`. -/
def chunks (size : ℕ) (image : Bytes) : List Bytes :=
  (List.range ((image.length + size - 1) / size)).map fun i =>
    Span.slice ⟨i * size, size⟩ image

/-! ## Blocks -/

/-- What the loop over the chunks of the image changes. -/
structure Built where
  blocks : List FirmwareBlockDescriptor
  payload : Bytes

/-- `can_copy`. -/
def canCopy (baseImage : Option Bytes) (raw : Bytes) (rawOffset : ℕ) : RustM Bool :=
  match baseImage with
  | none => pure false
  | some base => do
      let stop ← addUsize env.toArtifactEnv rawOffset raw.length
      pure (stop ≤ base.length ∧ Span.slice ⟨rawOffset, raw.length⟩ base = raw)

/-- The encoded bytes of a chunk. -/
def encodeChunk (copied : Bool) (raw : Bytes) : RustM Bytes :=
  if copied then pure [] else compressBlock env raw

/-- The body of the loop over the chunks. -/
def buildBlock (baseImage : Option Bytes) (blockSize index : ℕ) (raw : Bytes)
    (built : Built) : RustM Built := do
  let rawOffset ← mulUsize env index blockSize
  let copied ← canCopy env baseImage raw rawOffset
  let encoded ← encodeChunk env copied raw
  let index ← checkedU32 index
  let rawOffset ← checkedU32 rawOffset
  let rawSize ← checkedU32 raw.length
  let encodedOffset ← checkedU32 built.payload.length
  let encodedSize ← checkedU32 encoded.length
  let descriptor : FirmwareBlockDescriptor :=
    { index := index
      rawOffset := rawOffset
      rawSize := rawSize
      encodedOffset := encodedOffset
      encodedSize := encodedSize
      kind := if copied then 2 else 1
      rawSha256 := (env.sha256 raw).toList
      encodedSha256 := (env.sha256 encoded).toList }
  pure { blocks := built.blocks ++ [descriptor], payload := built.payload ++ encoded }

/-- The loop over the chunks, from the one with the given index on. -/
def buildBlocks (baseImage : Option Bytes) (blockSize : ℕ) :
    ℕ → List Bytes → Built → RustM Built
  | _, [], built => pure built
  | index, raw :: rest, built => do
      let built ← buildBlock env baseImage blockSize index raw built
      buildBlocks baseImage blockSize (index + 1) rest built

/-! ## Building -/

/-- The signed fields of an artifact of the blocks. -/
def signedFieldsOf (image : Bytes) (baseImage : Option Bytes) (spec : ArtifactBuildSpec)
    (blockSize : ℕ) (built : Built) : RustM FirmwareArtifactSignedFields := do
  let rawSize ← checkedU32 image.length
  let encodedSize ← checkedU32 built.payload.length
  let blockCount ← checkedU32 built.blocks.length
  pure
    { schemaVersion := schemaVersion
      projectName := spec.projectName
      chipTarget := spec.chipTarget
      firmwareVersion := spec.firmwareVersion
      buildCommit := spec.buildCommit
      minimumCoreVersion := spec.minimumCoreVersion
      minimumFabricSchema := spec.minimumFabricSchema
      rawSize := rawSize
      encodedSize := encodedSize
      requiredAppSlotSize := spec.requiredAppSlotSize
      codec := if baseImage.isSome then 2 else 1
      imageSha256 := (env.sha256 image).toList
      encodedSha256 := (env.sha256 built.payload).toList
      blockTableSha256 := (blockTableChain env.toArtifactEnv built.blocks).toList
      baseImageSha256 := (baseImage.map fun base => (env.sha256 base).toList).getD []
      blockSize := UInt32.ofNat blockSize
      blockCount := blockCount
      deflateWindowBits := deflateWindowBits
      signingKeyId := spec.signingKeyId }

/-- Header, manifest and payload of an artifact. -/
def packArtifact (manifestBytes payload : Bytes) : RustM Bytes := do
  throwIf (manifestBytes.length > maxManifestSize) .invalidManifestLength
  let manifestLen ← checkedU32 manifestBytes.length
  let artifact := magic ++ bytesOf 4 manifestLen.toNat ++
    bytesOf 4 (env.crc32 manifestBytes) ++ manifestBytes ++ payload
  throwIf (artifact.length > maxPackageSize) .sizeOverflow
  pure artifact

/-- `build_artifact`. -/
def buildArtifact (image : Bytes) (baseImage : Option Bytes) (spec : ArtifactBuildSpec)
    (signingKey : env.SigningKey) : RustM Bytes := do
  throwIf (image = [] ∨ image.length > maxImageSize) (.invalidField "image")
  throwIf (spec.projectName = "" ∨ spec.chipTarget = "" ∨ spec.firmwareVersion = "" ∨
    spec.signingKeyId = "") (.invalidField "artifact identity")
  throwIf (spec.requiredAppSlotSize < UInt32.ofNat image.length)
    (.invalidField "required_app_slot_size")
  let blockSize := if baseImage.isSome then deltaBlockSize else fullBlockSize
  let built ← buildBlocks env baseImage blockSize 0 (chunks blockSize image)
    { blocks := [], payload := [] }
  let signed ← signedFieldsOf env image baseImage spec blockSize built
  let signedFields := env.encodeSignedFields signed
  let signature := env.sign signingKey signedFields
  let manifest : FirmwareArtifactManifest :=
    { signedFields := signedFields
      blocks := built.blocks
      signature := env.signatureBytes signature }
  packArtifact env (env.encodeManifest manifest) built.payload

/-- `build_full_artifact`. -/
def buildFullArtifact (image : Bytes) (spec : ArtifactBuildSpec)
    (signingKey : env.SigningKey) : RustM Bytes :=
  buildArtifact env image none spec signingKey

/-- `build_delta_artifact`. -/
def buildDeltaArtifact (image baseImage : Bytes) (spec : ArtifactBuildSpec)
    (signingKey : env.SigningKey) : RustM Bytes := do
  throwIf (baseImage = [] ∨ baseImage.length > maxImageSize) .wrongBaseImage
  buildArtifact env image (some baseImage) spec signingKey

end KeemashCore.KeeLink.Ota

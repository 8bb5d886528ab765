import KeemashCore.KeeLink.Header
import KeemashCore.Tiling.Basic

/-!
# The artifact verifier of the crate

`parse_artifact` and `verify_artifact` of `ota.rs`.  A computation returns, fails with
an `ArtifactError`, or panics.  Protobuf, the hash, the checksum, the signature and the
inflater come from other crates and are parameters.
-/

namespace KeemashCore.KeeLink.Ota

open LittleEndian Tiling

/-- A `[u8; 32]`. -/
abbrev Digest := Vector UInt8 32

/-! ## Limits -/

/-- `KOTA3_MAGIC`. -/
def magic : Bytes := [75, 79, 84, 65, 51, 0, 0, 1]

def headerSize : ℕ := 16

def schemaVersion : UInt32 := 1

/-- `KOTA3_FULL_BLOCK_SIZE`. -/
def fullBlockSize : ℕ := 16 * 1024

def deltaBlockSize : ℕ := 8 * 1024

def deflateWindowBits : UInt32 := 11

def signatureLen : ℕ := 64

/-- `KOTA3_MAX_PACKAGE_SIZE`. -/
def maxPackageSize : ℕ := 16 * 1024 * 1024

def maxImageSize : ℕ := 8 * 1024 * 1024

def maxManifestSize : ℕ := 1024 * 1024

def maxBlockCount : ℕ := 1024

/-! ## Messages -/

structure FirmwareBlockDescriptor where
  index : UInt32
  rawOffset : UInt32
  rawSize : UInt32
  encodedOffset : UInt32
  encodedSize : UInt32
  kind : Int32
  rawSha256 : Bytes
  encodedSha256 : Bytes
  deriving DecidableEq

structure FirmwareArtifactSignedFields where
  schemaVersion : UInt32
  projectName : String
  chipTarget : String
  firmwareVersion : String
  buildCommit : String
  minimumCoreVersion : UInt32
  minimumFabricSchema : UInt32
  rawSize : UInt32
  encodedSize : UInt32
  requiredAppSlotSize : UInt32
  codec : Int32
  imageSha256 : Bytes
  encodedSha256 : Bytes
  blockTableSha256 : Bytes
  baseImageSha256 : Bytes
  blockSize : UInt32
  blockCount : UInt32
  deflateWindowBits : UInt32
  signingKeyId : String
  deriving DecidableEq

structure FirmwareArtifactManifest where
  signedFields : Bytes
  blocks : List FirmwareBlockDescriptor
  signature : Bytes
  deriving DecidableEq

inductive FirmwareArtifactCodec where
  | unspecified
  | fullDeflate
  | deltaBlock
  deriving DecidableEq

def FirmwareArtifactCodec.tryFrom (value : Int32) : Option FirmwareArtifactCodec :=
  if value = 0 then some .unspecified
  else if value = 1 then some .fullDeflate
  else if value = 2 then some .deltaBlock
  else none

inductive FirmwareBlockKind where
  | unspecified
  | deflate
  | copyBase
  deriving DecidableEq

def FirmwareBlockKind.tryFrom (value : Int32) : Option FirmwareBlockKind :=
  if value = 0 then some .unspecified
  else if value = 1 then some .deflate
  else if value = 2 then some .copyBase
  else none

/-- The errors of `verify_artifact`. -/
inductive ArtifactError where
  | tooShort
  | invalidMagic
  | invalidManifestLength
  | manifestCrc
  | protobuf (message : String)
  | invalidField (field : String)
  | unsupportedCodec
  | signature
  | blockTableHash
  | encodedHash
  | imageHash
  | blockHash (index : UInt32)
  | blockBounds (index : UInt32)
  | deflate (index : UInt32)
  | missingBaseImage
  | wrongBaseImage
  | sizeOverflow
  deriving DecidableEq

structure VerifiedArtifact where
  artifactId : Digest
  manifest : FirmwareArtifactManifest
  signed : FirmwareArtifactSignedFields
  image : Bytes
  deriving DecidableEq

/-! ## The environment -/

/-- The result of a call of `Decompress::decompress` with `Finish`: whether the stream
has ended, and what is read and written. -/
structure Inflation where
  streamEnd : Bool
  totalIn : ℕ
  written : Bytes
  deriving DecidableEq

/-- The target and the crates behind the verifier. -/
structure ArtifactEnv where
  usizeMax : ℕ
  /-- A `u32` fits into a `usize`. -/
  usizeMax_le : 2 ^ 32 ≤ usizeMax + 1
  sha256 : Bytes → Digest
  crc32 : Bytes → ℕ
  /-- `encode_length_delimited` of a descriptor. -/
  encodeDescriptor : FirmwareBlockDescriptor → Bytes
  decodeManifest : Bytes → Except String FirmwareArtifactManifest
  decodeSignedFields : Bytes → Except String FirmwareArtifactSignedFields
  Signature : Type
  VerifyingKey : Type
  signatureFromSlice : Bytes → Option Signature
  verify : VerifyingKey → Bytes → Signature → Bool
  /-- A fresh raw inflater on the input, with an output buffer of the given size. -/
  decompress : Bytes → ℕ → Option Inflation
  written_le : ∀ input room inflation, decompress input room = some inflation →
    inflation.written.length ≤ room

/-! ## Computations -/

/-- A computation that returns or fails; `none` is a panic. -/
abbrev RustM (α : Type) := ExceptT ArtifactError Option α

def panicked {α : Type} : RustM α :=
  (none : Option (Except ArtifactError α))

/-- An `Err` that is returned at once when the condition holds. -/
def throwIf (condition : Prop) [Decidable condition] (err : ArtifactError) : RustM Unit :=
  if condition then throw err else pure ()

/-- `Option::ok_or` with `?`. -/
def okOr {α : Type} (value : Option α) (err : ArtifactError) : RustM α :=
  match value with
  | none => throw err
  | some a => pure a

/-- `&bytes[start..stop]`. -/
def sliceOf (bytes : Bytes) (start stop : ℕ) : RustM Bytes :=
  if start ≤ stop ∧ stop ≤ bytes.length then
    pure (Span.slice ⟨start, stop - start⟩ bytes)
  else
    panicked

/-- `image[start..stop].copy_from_slice(raw)`. -/
def copyFromSlice (image : Bytes) (start stop : ℕ) (raw : Bytes) : RustM Bytes :=
  if start ≤ stop ∧ stop ≤ image.length ∧ raw.length = stop - start then
    pure (image.take start ++ raw ++ image.drop stop)
  else
    panicked

/-- `bytes32`. -/
def bytes32 (value : Bytes) (field : String) : RustM Digest :=
  if h : value.length = 32 then
    pure ⟨value.toArray, h⟩
  else
    throw (.invalidField field)

/-- `map_err` of a decoding error to `ArtifactError::Protobuf`. -/
def decoded {α : Type} (result : Except String α) : RustM α :=
  match result with
  | .error message => throw (.protobuf message)
  | .ok a => pure a

variable (env : ArtifactEnv)

/-- `a + b` on `usize`, which panics when it overflows. -/
def addUsize (a b : ℕ) : RustM ℕ :=
  if a + b ≤ env.usizeMax then pure (a + b) else panicked

/-- `a.checked_add(b).filter(|end| *end <= limit)`. -/
def endWithin (a b limit : ℕ) : Option ℕ :=
  if a + b ≤ env.usizeMax ∧ a + b ≤ limit then some (a + b) else none

/-! ## Parsing -/

/-- `parse_artifact`. -/
def parseArtifact (artifact : Bytes) :
    RustM (FirmwareArtifactManifest × FirmwareArtifactSignedFields × Bytes) := do
  throwIf (artifact.length < headerSize) .tooShort
  throwIf (artifact.length > maxPackageSize) .sizeOverflow
  let head ← sliceOf artifact 0 magic.length
  throwIf (head ≠ magic) .invalidMagic
  let lenBytes ← sliceOf artifact 8 12
  let manifestLen := valueOf lenBytes
  throwIf (manifestLen = 0 ∨ manifestLen > maxManifestSize) .invalidManifestLength
  let manifestEnd ← okOr (endWithin env headerSize manifestLen artifact.length)
    .invalidManifestLength
  let crcBytes ← sliceOf artifact 12 16
  let manifestBytes ← sliceOf artifact headerSize manifestEnd
  throwIf (env.crc32 manifestBytes ≠ valueOf crcBytes) .manifestCrc
  let manifest ← decoded (env.decodeManifest manifestBytes)
  let signed ← decoded (env.decodeSignedFields manifest.signedFields)
  let payload ← sliceOf artifact manifestEnd artifact.length
  pure (manifest, signed, payload)

/-! ## Blocks -/

/-- `decompress_block`; the buffer is zero where nothing has been written. -/
def decompressBlock (encoded : Bytes) (expectedSize : ℕ) (index : UInt32) : RustM Bytes := do
  let inflation ← okOr (env.decompress encoded expectedSize) (.deflate index)
  throwIf (inflation.streamEnd = false ∨ inflation.written.length ≠ expectedSize ∨
    inflation.totalIn ≠ encoded.length) (.deflate index)
  pure (inflation.written ++ List.replicate (expectedSize - inflation.written.length) 0)

/-- `block_table_chain`. -/
def blockTableChain (blocks : List FirmwareBlockDescriptor) : Digest :=
  blocks.foldl (fun chain block => env.sha256 (chain.toList ++ env.encodeDescriptor block))
    (Vector.replicate 32 0)

/-- What the loop over the blocks changes. -/
structure Cursor where
  image : Bytes
  nextRaw : ℕ
  nextEncoded : ℕ

/-- What the loop over the blocks reads. -/
structure BlockContext where
  codec : FirmwareArtifactCodec
  expectedBlockSize : ℕ
  blockCount : ℕ
  payload : Bytes
  base : Option Bytes

/-- The bytes of a block: inflated, or copied from the base image. -/
def rawBlock (ctx : BlockContext) (block : FirmwareBlockDescriptor) (encoded : Bytes)
    (nextRaw rawEnd : ℕ) : RustM Bytes := do
  let kind ← okOr (FirmwareBlockKind.tryFrom block.kind) .unsupportedCodec
  match kind with
  | .deflate =>
      throwIf (encoded = []) (.blockBounds block.index)
      decompressBlock env encoded block.rawSize.toNat block.index
  | .copyBase =>
      throwIf (ctx.codec ≠ .deltaBlock ∨ encoded ≠ [] ∨
        ctx.base.all fun value => rawEnd > value.length) (.blockBounds block.index)
      let value ← okOr ctx.base .missingBaseImage
      sliceOf value nextRaw rawEnd
  | .unspecified => throw .unsupportedCodec

/-- The body of the loop over the blocks. -/
def verifyBlock (ctx : BlockContext) (expectedIndex : ℕ) (block : FirmwareBlockDescriptor)
    (cursor : Cursor) : RustM Cursor := do
  throwIf (block.index.toNat ≠ expectedIndex ∨ block.rawOffset.toNat ≠ cursor.nextRaw ∨
    block.encodedOffset.toNat ≠ cursor.nextEncoded ∨ block.rawSize = 0 ∨
    block.rawSize.toNat > ctx.expectedBlockSize) (.blockBounds block.index)
  let following ← addUsize env expectedIndex 1
  throwIf (following < ctx.blockCount ∧ block.rawSize.toNat ≠ ctx.expectedBlockSize)
    (.blockBounds block.index)
  let rawEnd ← okOr (endWithin env cursor.nextRaw block.rawSize.toNat cursor.image.length)
    (.blockBounds block.index)
  let encodedEnd ← okOr (endWithin env cursor.nextEncoded block.encodedSize.toNat
    ctx.payload.length) (.blockBounds block.index)
  let encoded ← sliceOf ctx.payload cursor.nextEncoded encodedEnd
  let encodedSha256 ← bytes32 block.encodedSha256 "block encoded sha256"
  throwIf (env.sha256 encoded ≠ encodedSha256) (.blockHash block.index)
  let raw ← rawBlock env ctx block encoded cursor.nextRaw rawEnd
  let rawSha256 ← bytes32 block.rawSha256 "block raw sha256"
  throwIf (env.sha256 raw ≠ rawSha256) (.blockHash block.index)
  let image ← copyFromSlice cursor.image cursor.nextRaw rawEnd raw
  pure { image := image, nextRaw := rawEnd, nextEncoded := encodedEnd }

/-- The loop over the blocks, from the one with the index `expectedIndex` on. -/
def verifyBlocks (ctx : BlockContext) :
    ℕ → List FirmwareBlockDescriptor → Cursor → RustM Cursor
  | _, [], cursor => pure cursor
  | expectedIndex, block :: blocks, cursor => do
      let cursor ← verifyBlock env ctx expectedIndex block cursor
      verifyBlocks ctx (expectedIndex + 1) blocks cursor

/-! ## Verifying -/

/-- The block size that goes with the codec. -/
def expectedBlockSize : FirmwareArtifactCodec → RustM ℕ
  | .fullDeflate => pure fullBlockSize
  | .deltaBlock => pure deltaBlockSize
  | .unspecified => throw .unsupportedCodec

/-- The base image that copied blocks come from. -/
def checkBase (codec : FirmwareArtifactCodec) (signed : FirmwareArtifactSignedFields)
    (baseImage : Option Bytes) : RustM (Option Bytes) :=
  if codec = .deltaBlock then do
    let base ← okOr baseImage .missingBaseImage
    let baseSha256 ← bytes32 signed.baseImageSha256 "base_image_sha256"
    throwIf (env.sha256 base ≠ baseSha256) .wrongBaseImage
    pure (some base)
  else
    pure none

/-- `verify_artifact`. -/
def verifyArtifact (artifact : Bytes) (verifyingKey : env.VerifyingKey)
    (baseImage : Option Bytes) : RustM VerifiedArtifact := do
  let (manifest, signed, payload) ← parseArtifact env artifact
  throwIf (signed.schemaVersion ≠ schemaVersion) (.invalidField "schema_version")
  throwIf (manifest.signature.length ≠ signatureLen) (.invalidField "signature")
  let signature ← okOr (env.signatureFromSlice manifest.signature) .signature
  throwIf (env.verify verifyingKey manifest.signedFields signature = false) .signature
  throwIf (signed.blockCount.toNat ≠ manifest.blocks.length ∨ manifest.blocks = [] ∨
    manifest.blocks.length > maxBlockCount ∨ signed.rawSize = 0 ∨
    signed.rawSize.toNat > maxImageSize ∨ signed.encodedSize.toNat ≠ payload.length ∨
    signed.deflateWindowBits ≠ deflateWindowBits ∨
    signed.requiredAppSlotSize < signed.rawSize ∨ signed.projectName = "" ∨
    signed.chipTarget = "" ∨ signed.signingKeyId = "") (.invalidField "artifact sizes")
  let blockTableSha256 ← bytes32 signed.blockTableSha256 "block_table_sha256"
  throwIf (blockTableChain env manifest.blocks ≠ blockTableSha256) .blockTableHash
  let encodedSha256 ← bytes32 signed.encodedSha256 "encoded_sha256"
  throwIf (env.sha256 payload ≠ encodedSha256) .encodedHash
  let codec ← okOr (FirmwareArtifactCodec.tryFrom signed.codec) .unsupportedCodec
  let blockSize ← expectedBlockSize codec
  throwIf (signed.blockSize.toNat ≠ blockSize) (.invalidField "block_size")
  throwIf (codec = .fullDeflate ∧ signed.baseImageSha256 ≠ [])
    (.invalidField "base_image_sha256")
  let base ← checkBase env codec signed baseImage
  let cursor ← verifyBlocks env
    { codec := codec
      expectedBlockSize := blockSize
      blockCount := manifest.blocks.length
      payload := payload
      base := base } 0 manifest.blocks
    { image := List.replicate signed.rawSize.toNat 0, nextRaw := 0, nextEncoded := 0 }
  throwIf (cursor.nextRaw ≠ cursor.image.length ∨ cursor.nextEncoded ≠ payload.length)
    (.invalidField "block coverage")
  let imageSha256 ← bytes32 signed.imageSha256 "image_sha256"
  throwIf (env.sha256 cursor.image ≠ imageSha256) .imageHash
  pure
    { artifactId := env.sha256 artifact
      manifest := manifest
      signed := signed
      image := cursor.image }

end KeemashCore.KeeLink.Ota

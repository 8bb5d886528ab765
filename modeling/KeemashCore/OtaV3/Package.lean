import KeemashCore.OtaV3.Stream
import KeemashCore.Tiling.Basic

/-!
# Packages

`keemash_ota_v3_package.c`: a package is a header, a manifest and a payload.  The
storage is a `ReadFn`, which answers a read the same way every time.  A run records
the ranges it reads and the blocks it shows to the visitor.

`decode_manifest` hands the descriptors to a callback while `pb_decode` goes through
the bytes of the manifest; `decodeManifest` of the environment is what `pb_decode`
finds in them.  A buffer from `alloc_package_scratch` is there or not as the `heap` of
the run says.
-/

namespace KeemashCore.OtaV3

open Tiling

/-! ## Runs over a storage -/

/-- A call of the visitor. -/
structure Visit where
  descriptor : BlockDescriptor
  payloadOffset : ℕ
  deriving DecidableEq

/-- The payload range that the visitor is shown. -/
def Visit.span (visit : Visit) : Span :=
  ⟨visit.payloadOffset, visit.descriptor.encodedSize⟩

/-- The reads and the visits of a run.  A read starts at the sum of its offsets, before
the sum is reduced to 32 bits. -/
structure Trace where
  reads : List Span
  visits : List Visit
  deriving DecidableEq

def Trace.start : Trace where
  reads := []
  visits := []

/-- A computation over a storage, which may fail. -/
abbrev PackageM := EStateM EspErr Trace

/-- A call of `read_fn`. -/
def readAt (readFn : ReadFn) (span : Span) : PackageM Bytes := do
  modify fun t => { t with reads := t.reads ++ [span] }
  match readFn (span.start % 2 ^ 32) span.size with
  | .error err => throw err
  | .ok buffer => pure buffer.toList

theorem readAt_run (readFn : ReadFn) (span : Span) (t : Trace) :
    readAt readFn span t =
      match readFn (span.start % 2 ^ 32) span.size with
      | .error err => .error err { t with reads := t.reads ++ [span] }
      | .ok buffer => .ok buffer.toList { t with reads := t.reads ++ [span] } := by
  unfold readAt
  cases readFn (span.start % 2 ^ 32) span.size <;> rfl

/-- A call of the visitor, which knows the visits before. -/
def visitAt (visitor : List Visit → Visit → EspErr) (visit : Visit) : PackageM Unit := do
  let before ← get
  set { before with visits := before.visits ++ [visit] }
  if visitor before.visits visit ≠ .ok then
    throw (visitor before.visits visit)

/-! ## Manifests -/

/-- `KOTA3_HEADER_SIZE`. -/
def headerSize : ℕ := 16

/-- `KOTA3_MANIFEST_MAX`. -/
def manifestMax : ℕ := 64 * 1024

/-- `KOTA3_READ_BYTES`. -/
def readBytes : ℕ := 2048

/-- `s_magic`. -/
def magic : Bytes := [75, 79, 84, 65, 51, 0, 0, 1]

/-- `le32`. -/
def le32 : Bytes → ℕ
  | [b₀, b₁, b₂, b₃] =>
      b₀.toNat + b₁.toNat * 2 ^ 8 + b₂.toNat * 2 ^ 16 + b₃.toNat * 2 ^ 24
  | _ => 0

/-- The message `FirmwareArtifactManifest` without its blocks, which the callback gets. -/
structure PbManifest where
  signedFields : Bytes
  signature : Bytes
  deriving DecidableEq

/-- What `pb_decode` finds in the bytes of a manifest: the blocks it hands to the
callback one after the other, with `none` for one that does not decode, and the
manifest if all of it decodes and no byte is left. -/
structure ManifestScan where
  blocks : List (Option BlockDescriptor)
  manifest : Option PbManifest

/-- The libraries behind the package reader. -/
structure PackageEnv extends OtaEnv where
  /-- zlib's `crc32`, from a checksum and the bytes that follow. -/
  crc32 : ℕ → Bytes → ℕ
  /-- `pb_decode` of a `FirmwareArtifactManifest`. -/
  decodeManifest : Bytes → ManifestScan

/-- The buffers of `alloc_package_scratch`: those of the callers and the bytes of the
manifest, which `decode_manifest` allocates once in each mode. -/
inductive Scratch where
  | manifest
  | validator
  | countBytes
  | validateBytes
  | visitBytes
  deriving DecidableEq

/-- The buffers that a run gets. -/
abbrev Heap := Scratch → Bool

/-- `alloc_package_scratch`. -/
def alloc (heap : Heap) (scratch : Scratch) : PackageM Unit :=
  if heap scratch then pure () else throw .noMem

variable (env : PackageEnv)

/-! ## Block callbacks -/

/-- `block_context_t`. -/
structure BlockContext where
  payloadOffset : ℕ
  payloadSize : ℕ
  validator : Stream env.toOtaEnv
  blockCount : ℕ

/-- The descriptor of a callback, after the check that one more block is allowed. -/
def nextDescriptor (blockCount : ℕ) (block : Option BlockDescriptor) :
    PackageM BlockDescriptor :=
  if blockCount ≥ maxBlockCount then
    throw .invalidSize
  else
    match block with
    | none => throw .invalidResponse
    | some descriptor => pure descriptor

/-- `count_block`, on the field `block_count`. -/
def countBlock (blockCount : ℕ) (block : Option BlockDescriptor) : PackageM ℕ := do
  let _ ← nextDescriptor blockCount block
  pure (blockCount + 1)

/-- The check of `validate_block` and `visit_block` that a block lies in the payload. -/
def outsidePayload (payloadSize : ℕ) (descriptor : BlockDescriptor) : Prop :=
  descriptor.encodedOffset > payloadSize ∨ descriptor.encodedSize = 0 ∨
    descriptor.encodedSize > payloadSize - descriptor.encodedOffset

instance (payloadSize : ℕ) (descriptor : BlockDescriptor) :
    Decidable (outsidePayload payloadSize descriptor) :=
  inferInstanceAs (Decidable (_ ∨ _ ∨ _))

variable {env}

/-- `discard_output`. -/
def discardOutput : OutputFn := fun _ _ => .ok

/-- The loop of `validate_block` from `consumed` on. -/
def validateChunks (readFn : ReadFn) (payloadOffset : ℕ) (descriptor : BlockDescriptor)
    (consumed : ℕ) (validator : Stream env.toOtaEnv) : PackageM (Stream env.toOtaEnv) :=
  if consumed < descriptor.encodedSize then do
    let count := min (descriptor.encodedSize - consumed) readBytes
    let chunk ← readAt readFn ⟨payloadOffset + descriptor.encodedOffset + consumed, count⟩
    let fed := streamFeed discardOutput validator
      ⟨descriptor, consumed, chunk, consumed + count = descriptor.encodedSize⟩
    if fed.1 ≠ .ok then
      throw fed.1
    else
      validateChunks readFn payloadOffset descriptor (consumed + count) fed.2
  else
    pure validator
  termination_by descriptor.encodedSize - consumed
  decreasing_by
    have hpos : 0 < readBytes := by decide
    omega

/-- `validate_block`. -/
def validateBlock (readFn : ReadFn) (blocks : BlockContext env)
    (block : Option BlockDescriptor) : PackageM (BlockContext env) := do
  let descriptor ← nextDescriptor blocks.blockCount block
  if outsidePayload blocks.payloadSize descriptor then
    throw .invalidSize
  else
    let validator ← validateChunks readFn blocks.payloadOffset descriptor 0 blocks.validator
    pure { blocks with validator := validator, blockCount := blocks.blockCount + 1 }

/-- `visit_block`; of the context it uses the place of the payload and the number of
blocks. -/
def visitBlock (visitor : List Visit → Visit → EspErr) (payloadOffset payloadSize : ℕ)
    (blockCount : ℕ) (block : Option BlockDescriptor) : PackageM ℕ := do
  let descriptor ← nextDescriptor blockCount block
  if outsidePayload payloadSize descriptor then
    throw .invalidSize
  else
    visitAt visitor ⟨descriptor, (payloadOffset + descriptor.encodedOffset) % 2 ^ 32⟩
    pure (blockCount + 1)

/-! ## Reading a package -/

variable (env)

/-- `decode_manifest`; `callback` is the one for the mode, and `blocks` is what it
changes. -/
def decodeManifest {σ : Type} (readFn : ReadFn) (manifestSize : ℕ)
    (callback : σ → Option BlockDescriptor → PackageM σ) (blocks : σ) :
    PackageM (PbManifest × σ) := do
  let bytes ← readAt readFn ⟨headerSize, manifestSize⟩
  let blocks ← (env.decodeManifest bytes).blocks.foldlM callback blocks
  match (env.decodeManifest bytes).manifest with
  | none => throw .invalidResponse
  | some manifest => pure (manifest, blocks)

/-- The loop of `check_manifest_crc`, which reads the `remaining` bytes from `offset`
on. -/
def crcLoop (readFn : ReadFn) (offset remaining crc : ℕ) : PackageM ℕ :=
  if remaining > 0 then do
    let count := min remaining readBytes
    let buffer ← readAt readFn ⟨offset, count⟩
    crcLoop readFn (offset + count) (remaining - count) (env.crc32 crc buffer)
  else
    pure crc
  termination_by remaining
  decreasing_by
    have hpos : 0 < readBytes := by decide
    omega

/-- `check_manifest_crc`. -/
def checkManifestCrc (readFn : ReadFn) (manifestSize expected : ℕ) : PackageM Unit := do
  let crc ← crcLoop env readFn headerSize manifestSize 0
  if crc % 2 ^ 32 ≠ expected then
    throw .invalidCrc

/-- `read_header`; the result is `*manifest_size`. -/
def readHeader (readFn : ReadFn) (packageSize : ℕ) : PackageM ℕ :=
  if packageSize ≤ headerSize ∨ packageSize > maxPackageSize then
    throw .invalidArg
  else do
    let header ← readAt readFn ⟨0, headerSize⟩
    if header.take 8 ≠ magic then
      throw .invalidResponse
    else
      let manifestSize := le32 ((header.drop 8).take 4)
      if manifestSize = 0 ∨ manifestSize > manifestMax ∨
          manifestSize > packageSize - headerSize then
        throw .invalidSize
      else
        checkManifestCrc env readFn manifestSize (le32 ((header.drop 12).take 4))
        pure manifestSize

/-- The signed fields, checked against what has been counted and measured. -/
def checkFields (manifest : PbManifest) (blockCount payloadSize : ℕ) : PackageM SignedFields :=
  match verifySignedFields env.toOtaEnv manifest.signedFields manifest.signature with
  | .error err => throw err
  | .ok fields =>
      if fields.blockCount ≠ blockCount ∨ fields.encodedSize ≠ payloadSize ∨
          fields.hasBaseImage then
        throw .invalidSize
      else
        pure fields

/-- `keemash_ota_v3_package_info_t`. -/
structure PackageInfo where
  fields : SignedFields
  signedFields : Bytes
  signature : Bytes
  manifestSize : ℕ
  payloadOffset : ℕ
  packageSize : ℕ
  deriving DecidableEq

/-- `keemash_ota_v3_package_inspect`. -/
def packageInspect (heap : Heap) (readFn : ReadFn) (packageSize : ℕ) :
    PackageM PackageInfo := do
  let manifestSize ← readHeader env readFn packageSize
  alloc heap .manifest
  alloc heap .countBytes
  let (manifest, blockCount) ← decodeManifest env readFn manifestSize countBlock 0
  if manifest.signedFields.length > signedFieldsMax ∨
      manifest.signature.length ≠ signatureLen then
    throw .invalidSize
  else
    let payloadOffset := headerSize + manifestSize
    let fields ← checkFields env manifest blockCount (packageSize - payloadOffset)
    pure
      { fields := fields
        signedFields := manifest.signedFields
        signature := manifest.signature
        manifestSize := manifestSize
        payloadOffset := payloadOffset
        packageSize := packageSize }

/-- `keemash_ota_v3_package_for_each_block`. -/
def packageForEachBlock (heap : Heap) (readFn : ReadFn) (package : PackageInfo)
    (visitor : List Visit → Visit → EspErr) : PackageM Unit :=
  if package.manifestSize = 0 ∨
      package.payloadOffset ≠ (headerSize + package.manifestSize) % 2 ^ 32 ∨
      package.packageSize < package.payloadOffset ∨
      package.fields.encodedSize ≠ package.packageSize - package.payloadOffset then
    throw .invalidArg
  else do
    alloc heap .manifest
    alloc heap .visitBytes
    let (_, blockCount) ← decodeManifest env readFn package.manifestSize
      (visitBlock visitor package.payloadOffset package.fields.encodedSize) 0
    if blockCount ≠ package.fields.blockCount then
      throw .invalidResponse

/-- `keemash_ota_v3_verify_package`. -/
def verifyPackage (heap : Heap) (readFn : ReadFn) (packageSize : ℕ) :
    PackageM SignedFields := do
  let manifestSize ← readHeader env readFn packageSize
  alloc heap .manifest
  alloc heap .validator
  alloc heap .countBytes
  let (original, expectedCount) ← decodeManifest env readFn manifestSize countBlock 0
  let payloadOffset := headerSize + manifestSize
  let fields ← checkFields env original expectedCount (packageSize - payloadOffset)
  match (streamBegin fields : Except EspErr (Stream env.toOtaEnv)) with
  | .error err => throw err
  | .ok validator =>
      alloc heap .validateBytes
      let (manifest, blocks) ← decodeManifest env readFn manifestSize
        (validateBlock readFn)
        { payloadOffset := payloadOffset
          payloadSize := fields.encodedSize
          validator := validator
          blockCount := 0 }
      if manifest ≠ original then
        throw .invalidCrc
      else if blocks.blockCount ≠ expectedCount then
        throw .invalidResponse
      else
        let finished := streamFinish blocks.validator
        if finished.1 ≠ .ok then
          throw finished.1
        else
          pure fields

end KeemashCore.OtaV3

import KeemashCore.KeeLink.ArtifactExact

/-!
# The blocks of a full artifact on the device

The messages of an artifact as the device has them, and the loop of `verify_artifact` against
the blocks that the device expects.  `Alike` is what the libraries of the two sides have to
do with each other.
-/

namespace KeemashCore.KeeLink.Ota

open Effects LittleEndian Tiling
open OtaV3 (Block Contents Fronts FullFields NextBlock Walked chainOf descriptorsOf encodedOf rawOf)

/-! ## The messages on the device -/

/-- The bytes of a text before its first zero, which end a C string. -/
def cString (text : String) : Bytes :=
  (stringBytes text).takeWhile fun byte => byte ≠ 0

def FirmwareBlockDescriptor.onDevice (block : FirmwareBlockDescriptor) :
    OtaV3.BlockDescriptor where
  index := block.index.toNat
  rawOffset := block.rawOffset.toNat
  rawSize := block.rawSize.toNat
  encodedOffset := block.encodedOffset.toNat
  encodedSize := block.encodedSize.toNat
  kind := block.kind.toUInt32.toNat
  rawSha256 := block.rawSha256
  encodedSha256 := block.encodedSha256

def FirmwareArtifactSignedFields.onDevice (signed : FirmwareArtifactSignedFields) :
    OtaV3.PbSignedFields where
  schemaVersion := signed.schemaVersion.toNat
  projectName := cString signed.projectName
  chipTarget := cString signed.chipTarget
  firmwareVersion := cString signed.firmwareVersion
  buildCommit := cString signed.buildCommit
  minimumCoreVersion := signed.minimumCoreVersion.toNat
  minimumFabricSchema := signed.minimumFabricSchema.toNat
  rawSize := signed.rawSize.toNat
  encodedSize := signed.encodedSize.toNat
  requiredAppSlotSize := signed.requiredAppSlotSize.toNat
  codec := signed.codec.toUInt32.toNat
  imageSha256 := signed.imageSha256
  encodedSha256 := signed.encodedSha256
  blockTableSha256 := signed.blockTableSha256
  baseImageSha256 := signed.baseImageSha256
  blockSize := signed.blockSize.toNat
  blockCount := signed.blockCount.toNat
  deflateWindowBits := signed.deflateWindowBits.toNat
  signingKeyId := cString signed.signingKeyId

/-- The fields fit the sizes that `keelink-fabric-v2.options` gives them. -/
structure FirmwareArtifactManifest.FitsDevice (manifest : FirmwareArtifactManifest) : Prop where
  signedFields : manifest.signedFields.length ≤ OtaV3.signedFieldsMax
  signature : manifest.signature.length ≤ OtaV3.signatureLen
  hashes : ∀ block ∈ manifest.blocks,
    block.rawSha256.length ≤ 32 ∧ block.encodedSha256.length ≤ 32

structure FirmwareArtifactSignedFields.TextsFit (signed : FirmwareArtifactSignedFields) :
    Prop where
  projectName : (stringBytes signed.projectName).length ≤ 32
  chipTarget : (stringBytes signed.chipTarget).length ≤ 16
  firmwareVersion : (stringBytes signed.firmwareVersion).length ≤ 32
  buildCommit : (stringBytes signed.buildCommit).length ≤ 40
  signingKeyId : (stringBytes signed.signingKeyId).length ≤ 32

structure FirmwareArtifactSignedFields.FitsDevice (signed : FirmwareArtifactSignedFields) :
    Prop extends signed.TextsFit where
  imageSha256 : signed.imageSha256.length ≤ 32
  encodedSha256 : signed.encodedSha256.length ≤ 32
  blockTableSha256 : signed.blockTableSha256.length ≤ 32
  baseImageSha256 : signed.baseImageSha256.length ≤ 32

/-! ## The libraries of both sides -/

/-- The libraries of the device do what the crates do: the same hash, checksum and encoding
of a descriptor, the same raw inflate, and the same verdict on a signature. -/
structure Alike (crate : ArtifactEnv) (key : crate.VerifyingKey) (device : OtaV3.PackageEnv) :
    Prop where
  sha256 : ∀ bytes, device.sha256 bytes = crate.sha256 bytes
  crc32 : ∀ bytes, device.crc32 0 bytes % 2 ^ 32 = crate.crc32 bytes
  crcStreams : device.CrcStreams
  descriptor : ∀ block : FirmwareBlockDescriptor,
    OtaV3.encodeBlockDescriptor device.toOtaEnv block.onDevice = crate.encodeDescriptor block
  signature : ∀ data signature, signature.length = OtaV3.signatureLen →
    (OtaV3.verifyP256 device.toOtaEnv data signature = .ok ↔ ∃ decoded,
      crate.signatureFromSlice signature = some decoded ∧ crate.verify key data decoded = true)
  greedy : device.zlib.Greedy
  /-- What the crate inflates at once, zlib inflates in parts. -/
  streams : ∀ encoded raw, Inflates crate encoded raw →
    ∃ after, device.zlib.Inflates encoded raw after
  /-- What zlib inflates to the end, the crate inflates at once. -/
  ends : ∀ encoded raw, device.zlib.Ends encoded raw → Inflates crate encoded raw
  /-- Without bytes, a message has every field at its default. -/
  absent : ∀ signed, crate.decodeSignedFields [] = .ok signed → signed.schemaVersion = 0

/-- The messages of an artifact decode to the same values on both sides, on the device as far
as its fields have room.  Texts that are no UTF-8, which only the crate refuses, do not occur
in it. -/
structure SameMessages (crate : ArtifactEnv) (device : OtaV3.PackageEnv) (artifact : Bytes) :
    Prop where
  manifest : ∀ ds pb, device.decodeManifest (OtaV3.manifestBytesOf artifact) =
      ⟨ds.map some, some pb⟩ ↔
    ∃ manifest, crate.decodeManifest (OtaV3.manifestBytesOf artifact) = .ok manifest ∧
      manifest.FitsDevice ∧ ds = manifest.blocks.map FirmwareBlockDescriptor.onDevice ∧
      pb = ⟨manifest.signedFields, manifest.signature⟩
  signedFields : ∀ manifest,
    crate.decodeManifest (OtaV3.manifestBytesOf artifact) = .ok manifest → ∀ pb,
    (device.decodeSignedFields manifest.signedFields = some pb ↔
      ∃ signed, crate.decodeSignedFields manifest.signedFields = .ok signed ∧
        signed.FitsDevice ∧ pb = signed.onDevice)

/-! ## The fields -/

theorem code_eq_one {value : Int32} : value.toUInt32.toNat = 1 ↔ value = 1 := by
  constructor
  · intro h
    have hword : value.toUInt32 = (1 : Int32).toUInt32 := UInt32.toNat_inj.mp h
    exact congrArg Int32.ofUInt32 hword
  · rintro rfl
    rfl

theorem kind_iff {block : FirmwareBlockDescriptor} :
    FirmwareBlockKind.tryFrom block.kind = some .deflate ↔
      block.onDevice.kind = OtaV3.blockDeflate := by
  have hone : block.onDevice.kind = OtaV3.blockDeflate ↔ block.kind = 1 := code_eq_one
  rw [hone, FirmwareBlockKind.tryFrom]
  constructor
  · intro h
    split at h
    · cases h
    split at h
    · assumption
    split at h
    · cases h
    · cases h
  · intro h
    rw [h]
    rfl

theorem codec_iff {signed : FirmwareArtifactSignedFields} :
    FirmwareArtifactCodec.tryFrom signed.codec = some .fullDeflate ↔
      signed.onDevice.codec = OtaV3.codecFullDeflate := by
  have hone : signed.onDevice.codec = OtaV3.codecFullDeflate ↔ signed.codec = 1 := code_eq_one
  rw [hone, FirmwareArtifactCodec.tryFrom]
  constructor
  · intro h
    split at h
    · cases h
    split at h
    · assumption
    split at h
    · cases h
    · cases h
  · intro h
    rw [h]
    rfl

/-! ## The blocks -/

/-- The cursor of the crate behind the blocks `done`. -/
def cursorAfter (rawSize : ℕ) (done : List Block) : Cursor where
  image := rawOf done ++ List.replicate (rawSize - (rawOf done).length) 0
  nextRaw := (rawOf done).length
  nextEncoded := (encodedOf done).length

theorem length_cursorAfter {rawSize : ℕ} {done : List Block}
    (hle : (rawOf done).length ≤ rawSize) : (cursorAfter rawSize done).image.length = rawSize := by
  rw [cursorAfter, List.length_append, List.length_replicate]
  omega

/-- Writing a block behind the blocks done. -/
theorem cursorAfter_snoc {rawSize : ℕ} {done : List Block} {b : Block}
    (hraw : b.raw.length = b.descriptor.rawSize)
    (hencoded : b.encoded.length = b.descriptor.encodedSize) :
    cursorAfter rawSize (done ++ [b]) =
      { image := (cursorAfter rawSize done).image.take (rawOf done).length ++ b.raw ++
          (cursorAfter rawSize done).image.drop ((rawOf done).length + b.descriptor.rawSize)
        nextRaw := (rawOf done).length + b.descriptor.rawSize
        nextEncoded := (encodedOf done).length + b.descriptor.encodedSize } := by
  rw [cursorAfter, cursorAfter, OtaV3.rawOf_append, OtaV3.rawOf_singleton,
    OtaV3.encodedOf_append, OtaV3.encodedOf_singleton, List.length_append, List.length_append,
    hraw, hencoded]
  dsimp only
  rw [List.take_left, ← List.drop_drop, List.drop_left, List.drop_replicate, Nat.sub_sub]

section Blocks

variable {crate : ArtifactEnv} {key : crate.VerifyingKey} {device : OtaV3.PackageEnv}
  {fields : OtaV3.SignedFields} {payload : Bytes} {done : List Block}

/-- What both sides read of the signed fields of a full image. -/
structure FullImage (fields : OtaV3.SignedFields) (payload : Bytes) : Prop where
  full : fields.codec = OtaV3.codecFullDeflate ∧ fields.blockSize = OtaV3.fullBlockSize
  raw_le : fields.rawSize ≤ maxImageSize
  encodedSize : payload.length = fields.encodedSize
  encoded_le : payload.length ≤ maxPackageSize
  count_le : fields.blockCount ≤ maxBlockCount

/-- What the loop of the crate over the blocks of a full image reads. -/
def fullContext (fields : OtaV3.SignedFields) (payload : Bytes) : BlockContext where
  codec := .fullDeflate
  expectedBlockSize := fullBlockSize
  blockCount := fields.blockCount
  payload := payload
  base := none

/-- A turn of the loop of the crate takes a block that follows. -/
theorem verifyBlock_follows (h : Alike crate key device) (hfull : FullImage fields payload)
    {block : FirmwareBlockDescriptor} {cursor : Cursor}
    (hroom : done.length < fields.blockCount) (hle : (rawOf done).length ≤ fields.rawSize)
    (hlast : done.length + 1 = fields.blockCount → cursor.nextRaw = fields.rawSize ∧
      cursor.nextEncoded = fields.encodedSize ∧
      chainOf device.toOtaEnv OtaV3.zeroDigest (descriptorsOf done ++ [block.onDevice]) =
        fields.blockTableSha256)
    (hrun : verifyBlock crate (fullContext fields payload) done.length block
      (cursorAfter fields.rawSize done) = pure cursor) :
    ∃ b, b.descriptor = block.onDevice ∧ b.encoded = b.descriptor.piece payload ∧
      NextBlock device.toOtaEnv (Inflates crate) fields done b ∧
      cursor = cursorAfter fields.rawSize (done ++ [b]) ∧
      (rawOf (done ++ [b])).length ≤ fields.rawSize := by
  have hcount := hfull.count_le
  have hmaxCount : maxBlockCount = 1024 := rfl
  have hmaxImage : maxImageSize < 2 ^ 32 := by decide
  have hmaxPackage : maxPackageSize < 2 ^ 32 := by decide
  have hraw := hfull.raw_le
  have hencoded := hfull.encoded_le
  have himage : (cursorAfter fields.rawSize done).image.length < 2 ^ 32 := by
    rw [length_cursorAfter hle]
    omega
  have hpayload : (fullContext fields payload).payload.length < 2 ^ 32 :=
    Nat.lt_of_le_of_lt hencoded hmaxPackage
  obtain ⟨⟨hindex, hrawOffset, hencodedOffset, hpos, hsize, hwhole, hrawEnd, hencodedEnd⟩,
    encoded, raw, hpiece, hencodedHash, hkind, hne, hlength, hinflates, hrawHash, hcursor⟩ :=
    (verifyBlock_iff rfl (by omega) himage hpayload).mp hrun
  rw [length_cursorAfter hle] at hrawEnd
  have hencodedLength : encoded.length = block.encodedSize.toNat := by
    rw [hpiece, List.length_take, List.length_drop]
    exact Nat.min_eq_left (by omega)
  have hrawPos : 0 < block.rawSize.toNat :=
    Nat.pos_of_ne_zero fun hzero => hpos (UInt32.toNat_inj.mp hzero)
  have hsealed : Block.Sealed device.toOtaEnv ⟨block.onDevice, raw, encoded⟩ :=
    ⟨hlength, hencodedLength, by rw [h.sha256]; exact hrawHash,
      by rw [h.sha256]; exact hencodedHash⟩
  have hafter : cursor = cursorAfter fields.rawSize (done ++ [⟨block.onDevice, raw, encoded⟩]) := by
    rw [cursorAfter_snoc hsealed.raw_length hsealed.encoded_length]
    exact hcursor
  have hsha (digest : Digest) : digest.toList.length = 32 :=
    digest.toArray.length_toList.trans digest.size_toArray
  refine ⟨⟨block.onDevice, raw, encoded⟩, rfl, ?_, ⟨?_, kind_iff.mp hkind, hsealed, hinflates⟩,
    hafter, ?_⟩
  · have hstart : (cursorAfter fields.rawSize done).nextEncoded = block.onDevice.encodedOffset :=
      hencodedOffset.symm
    rw [hstart] at hpiece
    exact hpiece
  · refine OtaV3.checkBlockDescriptor_eq_ok (kind_iff.mp hkind) ⟨hroom, hindex, hrawOffset,
      hencodedOffset, hrawPos, ?_, ?_, hrawEnd, ?_, ?_, ?_, fun _ => ?_, ?_, fun hend => ?_⟩
    · rw [hfull.full.2]
      exact hsize
    · rw [hfull.full.2]
      exact hwhole
    · rw [← hfull.encodedSize]
      exact hencodedEnd
    · change block.rawSha256.length = 32
      rw [← hrawHash, hsha]
    · change block.encodedSha256.length = 32
      rw [← hencodedHash, hsha]
    · change 0 < block.encodedSize.toNat
      rw [← hencodedLength]
      exact List.length_pos_iff.mpr hne
    · rw [OtaV3.descriptorsOf_append, OtaV3.chainOf_append, OtaV3.descriptorsOf_singleton]
      rfl
    · obtain ⟨hrawAll, hencodedAll, htable⟩ := hlast hend
      rw [hcursor] at hrawAll hencodedAll
      refine ⟨hrawAll, hencodedAll, ?_⟩
      rw [OtaV3.descriptorsOf_append]
      exact htable
  · rw [OtaV3.rawOf_append, OtaV3.rawOf_singleton, List.length_append, hlength]
    exact hrawEnd

/-- The loop of the crate takes a block that follows. -/
theorem follows_verifyBlock (h : Alike crate key device) (hfull : FullImage fields payload)
    {block : FirmwareBlockDescriptor} {b : Block} (hb : b.descriptor = block.onDevice)
    (hpiece : b.encoded = b.descriptor.piece payload)
    (hfollows : NextBlock device.toOtaEnv (Inflates crate) fields done b) :
    verifyBlock crate (fullContext fields payload) done.length block
        (cursorAfter fields.rawSize done) = pure (cursorAfter fields.rawSize (done ++ [b])) := by
  have hchecked := OtaV3.checkBlockDescriptor_ok hfollows.check
  have hsealed := hfollows.sealed
  have hkind := hfollows.kind
  have hencodedPos := hchecked.deflate_pos hkind
  have hcount := hfull.count_le
  have hmaxCount : maxBlockCount = 1024 := rfl
  have hmaxImage : maxImageSize < 2 ^ 32 := by decide
  have hmaxPackage : maxPackageSize < 2 ^ 32 := by decide
  have hraw := hfull.raw_le
  have hencoded := hfull.encoded_le
  have hlt := hchecked.index_lt
  have hrawFits := hchecked.raw_fits
  have hencodedFits := hchecked.encoded_fits
  have hrawPos := hchecked.rawSize_pos
  have hsizeLe := hchecked.rawSize_le
  have hsizeFull := hchecked.rawSize_full
  rw [hfull.full.2] at hsizeLe hsizeFull
  have hoffset := hchecked.encodedOffset_eq
  have hrawHash := hsealed.raw_hash
  have hencodedHash := hsealed.encoded_hash
  have hrawLength := hsealed.raw_length
  have hencodedLength := hsealed.encoded_length
  rw [h.sha256] at hrawHash hencodedHash
  rw [cursorAfter_snoc hsealed.raw_length hsealed.encoded_length]
  rw [OtaV3.BlockDescriptor.piece, hoffset] at hpiece
  have hindex := hchecked.index_eq
  have hrawOffset := hchecked.rawOffset_eq
  rw [hb] at hrawPos hsizeLe hsizeFull hrawFits hencodedFits hoffset hindex hrawOffset hkind
  rw [hb] at hrawHash hencodedHash hrawLength hencodedLength hpiece hencodedPos
  have himage : (cursorAfter fields.rawSize done).image.length < 2 ^ 32 := by
    rw [length_cursorAfter (by omega)]
    omega
  have hpayload : (fullContext fields payload).payload.length < 2 ^ 32 :=
    Nat.lt_of_le_of_lt hencoded hmaxPackage
  refine (verifyBlock_iff rfl (by omega) himage hpayload).mpr
    ⟨⟨hindex, hrawOffset, hoffset, ?_, hsizeLe, hsizeFull, ?_, ?_⟩,
      b.encoded, b.raw, hpiece, hencodedHash, kind_iff.mpr hkind, ?_, hrawLength,
      hfollows.inflates, hrawHash, ?_⟩
  · intro hzero
    have hnone : block.onDevice.rawSize = 0 := by
      change block.rawSize.toNat = 0
      rw [hzero]
      rfl
    exact Nat.ne_of_gt hrawPos hnone
  · rw [length_cursorAfter (by omega)]
    exact hrawFits
  · rw [← hfull.encodedSize] at hencodedFits
    exact hencodedFits
  · intro hnil
    rw [hnil] at hencodedLength
    exact Nat.ne_of_gt hencodedPos hencodedLength.symm
  · rw [hb]
    rfl

/-- What the crate has verified are blocks that follow one another. -/
theorem verifyBlocks_walked (h : Alike crate key device) (hfull : FullImage fields payload)
    {blocks : List FirmwareBlockDescriptor} {cursor : Cursor}
    (hcount : done.length + blocks.length = fields.blockCount)
    (hle : (rawOf done).length ≤ fields.rawSize)
    (hwalked : Walked device.toOtaEnv (Inflates crate) fields done) (hfront : Fronts payload done)
    (htable : chainOf device.toOtaEnv OtaV3.zeroDigest
      (descriptorsOf done ++ blocks.map FirmwareBlockDescriptor.onDevice) =
        fields.blockTableSha256)
    (hraw : cursor.nextRaw = fields.rawSize) (hencoded : cursor.nextEncoded = fields.encodedSize)
    (hrun : verifyBlocks crate (fullContext fields payload) done.length blocks
      (cursorAfter fields.rawSize done) = pure cursor) :
    ∃ new, descriptorsOf new = blocks.map FirmwareBlockDescriptor.onDevice ∧
      Walked device.toOtaEnv (Inflates crate) fields (done ++ new) ∧
      Fronts payload (done ++ new) ∧ cursor = cursorAfter fields.rawSize (done ++ new) := by
  induction blocks generalizing done with
  | nil =>
      obtain rfl := eq_of_pure_eq hrun
      refine ⟨[], rfl, ?_⟩
      rw [List.append_nil]
      exact ⟨hwalked, hfront, rfl⟩
  | cons block blocks ih =>
      rw [List.length_cons] at hcount
      rw [List.map_cons] at htable
      obtain ⟨cursor₁, hblock, hrest⟩ := bind_eq_pure hrun
      -- The last block leaves the cursor at the end.
      have hlast (hend : done.length + 1 = fields.blockCount) :
          cursor₁.nextRaw = fields.rawSize ∧ cursor₁.nextEncoded = fields.encodedSize ∧
            chainOf device.toOtaEnv OtaV3.zeroDigest (descriptorsOf done ++ [block.onDevice]) =
              fields.blockTableSha256 := by
        have hnil : blocks = [] := List.eq_nil_of_length_eq_zero (by omega)
        rw [hnil] at hrest htable
        obtain rfl := eq_of_pure_eq hrest
        exact ⟨hraw, hencoded, htable⟩
      obtain ⟨b, hb, hpiece, hfollows, rfl, hle₁⟩ :=
        verifyBlock_follows h hfull (by omega) hle hlast hblock
      have hlength : (done ++ [b]).length = done.length + 1 := List.length_append
      have hfront₁ := hfront.snoc (OtaV3.checkBlockDescriptor_ok hfollows.check).encodedOffset_eq
        hpiece hfollows.sealed.encoded_length
      have htable₁ : chainOf device.toOtaEnv OtaV3.zeroDigest (descriptorsOf (done ++ [b]) ++
          blocks.map FirmwareBlockDescriptor.onDevice) = fields.blockTableSha256 := by
        rw [OtaV3.descriptorsOf_append, OtaV3.descriptorsOf_singleton, hb, List.append_assoc]
        exact htable
      obtain ⟨new, hnew, hall⟩ := ih (by omega) hle₁ (hwalked.snoc hfollows) hfront₁ htable₁
        (by rw [hlength]; exact hrest)
      refine ⟨b :: new, ?_, ?_⟩
      · rw [List.map_cons, ← hnew, ← hb]
        rfl
      · rwa [List.append_cons]

theorem verifyBlocks_append (ctx : BlockContext) (index : ℕ)
    (blocks more : List FirmwareBlockDescriptor) (cursor : Cursor) :
    verifyBlocks crate ctx index (blocks ++ more) cursor =
      verifyBlocks crate ctx index blocks cursor >>=
        verifyBlocks crate ctx (index + blocks.length) more := by
  induction blocks generalizing index cursor with
  | nil => exact (pure_bind _ _).symm
  | cons block blocks ih =>
      rw [List.cons_append, verifyBlocks, verifyBlocks, bind_assoc, List.length_cons,
        ← Nat.add_assoc, Nat.add_right_comm]
      exact congrArg _ (funext fun cursor => ih (index + 1) cursor)

/-- Blocks that follow one another are verified by the crate. -/
theorem walked_verifyBlocks (h : Alike crate key device) (hfull : FullImage fields payload)
    {blocks : List Block} (hwalked : Walked device.toOtaEnv (Inflates crate) fields blocks)
    (hpieces : ∀ b ∈ blocks, b.encoded = b.descriptor.piece payload)
    {found : List FirmwareBlockDescriptor}
    (hfound : descriptorsOf blocks = found.map FirmwareBlockDescriptor.onDevice) :
    verifyBlocks crate (fullContext fields payload) 0 found (cursorAfter fields.rawSize []) =
      pure (cursorAfter fields.rawSize blocks) := by
  induction hwalked generalizing found with
  | nil =>
      obtain rfl := List.map_eq_nil_iff.mp hfound.symm
      rfl
  | @snoc done b _ hb ih =>
      rw [OtaV3.descriptorsOf_append, OtaV3.descriptorsOf_singleton] at hfound
      obtain ⟨before, last, rfl, hbefore, hlast⟩ := List.map_eq_append_iff.mp hfound.symm
      obtain ⟨block, rest, rfl, hblock, hnone⟩ := List.map_eq_cons_iff.mp hlast
      obtain rfl := List.map_eq_nil_iff.mp hnone
      have hlength : before.length = done.length := by
        have hsame := congrArg List.length hbefore
        rwa [List.length_map, descriptorsOf, List.length_map] at hsame
      have hrun := ih (fun b hmem => hpieces b (List.mem_append_left _ hmem)) hbefore.symm
      have hstep := follows_verifyBlock h hfull hblock.symm
        (hpieces b (List.mem_append_right _ (List.mem_singleton_self b))) hb
      rw [verifyBlocks_append, hrun, pure_bind, Nat.zero_add, hlength, verifyBlocks, hstep,
        pure_bind]
      rfl

theorem chain_alike (h : Alike crate key device) (blocks : List FirmwareBlockDescriptor) :
    chainOf device.toOtaEnv OtaV3.zeroDigest
      (blocks.map FirmwareBlockDescriptor.onDevice) = blockTableChain crate blocks := by
  rw [chainOf, blockTableChain, List.foldl_map]
  have hstep (chain : Digest) (block : FirmwareBlockDescriptor) :
      OtaV3.chainStep device.toOtaEnv chain block.onDevice =
        crate.sha256 (chain.toList ++ crate.encodeDescriptor block) := by
    rw [OtaV3.chainStep, h.sha256, h.descriptor]
  simp only [hstep]
  rfl

theorem framed_alike (h : Alike crate key device) (artifact : Bytes) :
    OtaV3.Framed (fun bytes => device.crc32 0 bytes % 2 ^ 32) artifact ↔
      OtaV3.Framed crate.crc32 artifact := by
  rw [funext h.crc32]

/-- All blocks before the last one are full. -/
theorem walked_raw_length {inflates : Bytes → Bytes → Prop} {blocks : List Block}
    (h : Walked device.toOtaEnv inflates fields blocks) (hlt : blocks.length < fields.blockCount) :
    (rawOf blocks).length = blocks.length * fields.blockSize := by
  induction h with
  | nil => exact (Nat.zero_mul _).symm
  | @snoc done b _ hb ih =>
      rw [List.length_append, List.length_singleton] at hlt ⊢
      have hfull := (OtaV3.checkBlockDescriptor_ok hb.check).rawSize_full hlt
      rw [OtaV3.rawOf_append, OtaV3.rawOf_singleton, List.length_append, ih (by omega),
        hb.sealed.raw_length, hfull, Nat.add_mul, Nat.one_mul]

/-- The number of blocks that an image needs. -/
theorem walked_blockCount {inflates : Bytes → Bytes → Prop} {blocks : List Block}
    (h : Walked device.toOtaEnv inflates fields blocks) (hcount : fields.blockCount = blocks.length)
    (hpos : 0 < blocks.length) (hsize : fields.blockSize = OtaV3.fullBlockSize) :
    fields.blockCount =
      ((rawOf blocks).length + OtaV3.fullBlockSize - 1) / OtaV3.fullBlockSize := by
  have hfull : OtaV3.fullBlockSize = 16384 := rfl
  cases h with
  | nil => exact absurd hpos (Nat.lt_irrefl 0)
  | @snoc done b hdone hb =>
      rw [List.length_append, List.length_singleton] at hcount
      have hchecked := OtaV3.checkBlockDescriptor_ok hb.check
      have hbefore := walked_raw_length hdone hchecked.index_lt
      have hrawPos := hchecked.rawSize_pos
      have hrawLe := hchecked.rawSize_le
      rw [hsize, hfull] at hbefore hrawLe
      rw [OtaV3.rawOf_append, OtaV3.rawOf_singleton, List.length_append,
        hb.sealed.raw_length, hcount, hfull]
      omega

end Blocks

end KeemashCore.KeeLink.Ota

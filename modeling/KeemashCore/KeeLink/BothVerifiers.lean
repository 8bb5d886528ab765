import KeemashCore.KeeLink.OnDevice

/-!
# The two verifiers agree

The crate and the device verify the same full packages, up to the limits of the device on
texts, signed fields and manifests, and find the same image.
-/

namespace KeemashCore.KeeLink.Ota

open Effects LittleEndian Tiling
open OtaV3 (Block Contents Fronts FullFields NextBlock Walked chainOf descriptorsOf encodedOf rawOf)

/-! ## The verdicts -/

/-- The limits that the device has and the crate has not: the sizes of the manifest, of the
signed fields and of the texts, and names that are not cut to nothing by a zero. -/
structure VerifiedArtifact.FitsDevice (v : VerifiedArtifact) (artifact : Bytes) : Prop where
  manifestSize : OtaV3.manifestSizeOf artifact ≤ OtaV3.manifestMax
  signedFields : v.manifest.signedFields.length ≤ OtaV3.signedFieldsMax
  texts : v.signed.TextsFit
  named : cString v.signed.projectName ≠ [] ∧ cString v.signed.chipTarget ≠ [] ∧
    cString v.signed.signingKeyId ≠ []

theorem cString_empty : cString "" = [] := by
  decide

section Verdicts

variable {crate : ArtifactEnv} {key : crate.VerifyingKey} {device : OtaV3.PackageEnv}
  {artifact : Bytes} {fields : OtaV3.SignedFields}

/-- What both sides read of the fields that the crate has checked. -/
theorem Declared.fullImage {manifest : FirmwareArtifactManifest}
    {signed : FirmwareArtifactSignedFields}
    (h : Declared crate key manifest signed (OtaV3.packagePayload artifact))
    (hsmall : artifact.length ≤ maxPackageSize) (hcopied : signed.onDevice.CopiedTo fields) :
    FullImage fields (OtaV3.packagePayload artifact) ∧
      fields.blockCount = manifest.blocks.length ∧ fields.rawSize = signed.rawSize.toNat := by
  obtain ⟨-, -, -, hrawSize, hencodedSize, -, hcodec, hblockSize, hblockCount, -⟩ :=
    hcopied.numbers
  have hpayload : (OtaV3.packagePayload artifact).length ≤ maxPackageSize := by
    rw [OtaV3.packagePayload, List.length_drop]
    exact Nat.le_trans (Nat.sub_le _ _) hsmall
  have hcount : fields.blockCount = manifest.blocks.length := hblockCount.trans h.count
  refine ⟨⟨⟨hcodec.trans (codec_iff.mp h.codec), hblockSize.trans h.blockSize⟩, ?_,
    h.encodedSize.symm.trans hencodedSize.symm, hpayload, ?_⟩, hcount, hrawSize⟩
  · rw [hrawSize]
    exact h.raw_le
  · rw [hcount]
    exact h.count_le

/-- The loop of the crate keeps the size of the image. -/
theorem verifyBlocks_length {ctx : BlockContext} {rawSize : ℕ}
    {blocks : List FirmwareBlockDescriptor} {cursor : Cursor}
    (hcount : blocks.length ≤ maxBlockCount)
    (hrun : verifyBlocks crate ctx 0 blocks
      { image := List.replicate rawSize 0, nextRaw := 0, nextEncoded := 0 } = pure cursor) :
    cursor.image.length = rawSize := by
  have hstart : Progress crate ctx rawSize []
      { image := List.replicate rawSize 0, nextRaw := 0, nextEncoded := 0 } :=
    ⟨rfl, rfl, rfl, List.length_replicate, Nat.zero_le _,
      fun _ hmem => absurd hmem List.not_mem_nil⟩
  have hroom : ([] : List FirmwareBlockDescriptor).length + blocks.length ≤ maxBlockCount := by
    rwa [List.length_nil, Nat.zero_add]
  exact ((verifyBlocks_safe hstart hroom).of_ok hrun).image_length

/-- The blocks that the crate has verified are what the signed fields say. -/
theorem Rebuilds.contents (h : Alike crate key device) {manifest : FirmwareArtifactManifest}
    {signed : FirmwareArtifactSignedFields} {image : Bytes}
    (hsmall : artifact.length ≤ maxPackageSize)
    (hdeclared : Declared crate key manifest signed (OtaV3.packagePayload artifact))
    (hcopied : signed.onDevice.CopiedTo fields)
    (hrun : Rebuilds crate manifest signed (OtaV3.packagePayload artifact) image) :
    ∃ blocks, descriptorsOf blocks = manifest.blocks.map FirmwareBlockDescriptor.onDevice ∧
      rawOf blocks = image ∧
      Contents device.toOtaEnv (Inflates crate) fields (OtaV3.packagePayload artifact)
        blocks := by
  obtain ⟨hfull, hcount, hrawSize⟩ := hdeclared.fullImage hsmall hcopied
  obtain ⟨cursor, hloop, hraw, hencoded, himage, hsame⟩ := hrun
  have hlength : cursor.image.length = fields.rawSize :=
    (verifyBlocks_length hdeclared.count_le hloop).trans hrawSize.symm
  rw [hlength] at hraw
  rw [← hcount, ← hrawSize] at hloop
  have htable : chainOf device.toOtaEnv OtaV3.zeroDigest
      (manifest.blocks.map FirmwareBlockDescriptor.onDevice) = fields.blockTableSha256 := by
    have hlists := hdeclared.table.trans hcopied.blockTableSha256.symm
    rw [chain_alike h]
    exact Vector.toList_inj.mp hlists
  have hsum : ([] : List Block).length + manifest.blocks.length = fields.blockCount := by
    rw [List.length_nil, Nat.zero_add, hcount]
  have hstart : (rawOf ([] : List Block)).length ≤ fields.rawSize := Nat.zero_le _
  obtain ⟨blocks, hblocks, hwalked, hfront, rfl⟩ := verifyBlocks_walked h hfull hsum hstart .nil
    rfl htable hraw (hencoded.trans hfull.encodedSize) hloop
  rw [List.nil_append] at hwalked hfront hencoded hraw hsame himage
  have hrawAll : (rawOf blocks).length = fields.rawSize := hraw
  have himageAll : (cursorAfter fields.rawSize blocks).image = rawOf blocks := by
    rw [cursorAfter]
    dsimp only
    rw [hrawAll, Nat.sub_self, List.replicate_zero, List.append_nil]
  have hblockCount : manifest.blocks.length = blocks.length := by
    have hlengths := congrArg List.length hblocks
    rw [descriptorsOf, List.length_map, List.length_map] at hlengths
    exact hlengths.symm
  have hwhole : encodedOf blocks = OtaV3.packagePayload artifact := by
    have hall : (encodedOf blocks).length = (OtaV3.packagePayload artifact).length := hencoded
    rw [Fronts, hall] at hfront
    exact hfront.trans List.take_length
  refine ⟨blocks, hblocks, himageAll.symm.trans hsame, ⟨hwalked, hfull.full, hcopied.base.2,
    hcount.trans hblockCount, ?_, hwhole, hrawAll, hfull.encodedSize, ?_, ?_, ?_⟩⟩
  · rw [← hblockCount]
    exact List.length_pos_iff.mpr hdeclared.blocks_ne
  · rw [h.sha256]
    refine Vector.toList_inj.mp ?_
    rw [← himageAll, hcopied.imageSha256]
    exact himage
  · rw [h.sha256]
    exact Vector.toList_inj.mp (hdeclared.payloadHash.trans hcopied.encodedSha256.symm)
  · rw [hblocks]
    exact htable

/-- A digest has the size of the fields that hold one. -/
theorem length_digest (digest : Digest) : digest.toList.length = 32 :=
  digest.toArray.length_toList.trans digest.size_toArray

theorem Declared.fitsDevice {manifest : FirmwareArtifactManifest}
    {signed : FirmwareArtifactSignedFields} {payload : Bytes}
    (h : Declared crate key manifest signed payload) (htexts : signed.TextsFit)
    (hcopied : signed.onDevice.CopiedTo fields) : signed.FitsDevice := by
  refine ⟨htexts, ?_, ?_, ?_, ?_⟩
  · change signed.onDevice.imageSha256.length ≤ 32
    rw [← hcopied.imageSha256, length_digest]
  · change signed.onDevice.encodedSha256.length ≤ 32
    rw [← hcopied.encodedSha256, length_digest]
  · change signed.onDevice.blockTableSha256.length ≤ 32
    rw [← hcopied.blockTableSha256, length_digest]
  · rw [h.base]
    exact Nat.zero_le _

/-- The descriptors of blocks that follow one another have whole hashes. -/
theorem hashes_of_walked {inflates : Bytes → Bytes → Prop} {blocks : List Block}
    {found : List FirmwareBlockDescriptor}
    (h : Walked device.toOtaEnv inflates fields blocks)
    (hblocks : descriptorsOf blocks = found.map FirmwareBlockDescriptor.onDevice) :
    ∀ block ∈ found, block.rawSha256.length ≤ 32 ∧ block.encodedSha256.length ≤ 32 := by
  intro block hmem
  have hmem' : block.onDevice ∈ descriptorsOf blocks := by
    rw [hblocks]
    exact List.mem_map_of_mem hmem
  obtain ⟨b, hb, hdescriptor⟩ := List.mem_map.mp hmem'
  have hsealed := h.sealed b hb
  have hrawHash := congrArg List.length hsealed.raw_hash
  have hencodedHash := congrArg List.length hsealed.encoded_hash
  rw [length_digest, hdescriptor] at hrawHash hencodedHash
  exact ⟨Nat.le_of_eq hrawHash.symm, Nat.le_of_eq hencodedHash.symm⟩

/-- What the crate has declared good, and the device has room for, the device takes. -/
theorem Declared.fullFields {v : VerifiedArtifact}
    (h : Declared crate key v.manifest v.signed (OtaV3.packagePayload artifact))
    (hsmall : artifact.length ≤ maxPackageSize) (hfits : v.FitsDevice artifact)
    (hcopied : v.signed.onDevice.CopiedTo fields) {inflates : Bytes → Bytes → Prop}
    {blocks : List Block}
    (hc : Contents device.toOtaEnv inflates fields (OtaV3.packagePayload artifact) blocks) :
    FullFields v.signed.onDevice := by
  obtain ⟨hfull, hcount, hrawSize⟩ := h.fullImage hsmall hcopied
  have hblockTotal := walked_blockCount hc.walked hc.count hc.pos hfull.full.2
  rw [hc.rawSize, hcount, ← h.count, hrawSize] at hblockTotal
  have hencodedPos : v.signed.encodedSize.toNat ≠ 0 := by
    rw [h.encodedSize]
    exact Nat.ne_of_gt hc.payload_pos
  refine ⟨congrArg UInt32.toNat h.schema, ?_, ?_, h.raw_le, ?_, ?_, ?_,
    congrArg UInt32.toNat h.window, hfits.named.1, hfits.named.2.1, hfits.named.2.2,
    codec_iff.mp h.codec, h.blockSize, hencodedPos, h.base, hblockTotal⟩
  · exact fun hzero => h.raw_ne (UInt32.toNat_inj.mp hzero)
  · exact Nat.le_of_not_lt h.slot
  · change v.signed.encodedSize.toNat ≤ maxPackageSize
    rw [h.encodedSize]
    exact hfull.encoded_le
  · change v.signed.blockCount.toNat ≠ 0
    rw [h.count, ← hcount, hc.count]
    exact Nat.ne_of_gt hc.pos
  · change v.signed.blockCount.toNat ≤ maxBlockCount
    rw [h.count]
    exact h.count_le

/-- A C string with characters is the text of a `String` with characters. -/
theorem ne_empty_of_cString {text : String} (h : cString text ≠ []) : text ≠ "" := by
  rintro rfl
  exact h cString_empty

/-- What the device has found in a package, the crate declares good. -/
theorem declared_of_device (h : Alike crate key device) {manifest : FirmwareArtifactManifest}
    {signed : FirmwareArtifactSignedFields} {blocks : List Block}
    {inflates : Bytes → Bytes → Prop} (hfull : FullFields signed.onDevice)
    (hcopied : signed.onDevice.CopiedTo fields)
    (hlength : manifest.signature.length = OtaV3.signatureLen)
    (hverified : OtaV3.verifyP256 device.toOtaEnv manifest.signedFields manifest.signature = .ok)
    (hblocks : descriptorsOf blocks = manifest.blocks.map FirmwareBlockDescriptor.onDevice)
    (hc : Contents device.toOtaEnv inflates fields (OtaV3.packagePayload artifact) blocks) :
    Declared crate key manifest signed (OtaV3.packagePayload artifact) := by
  obtain ⟨-, -, -, -, hencodedSize, -, -, -, hblockCount, -⟩ := hcopied.numbers
  have hblockLength : manifest.blocks.length = blocks.length := by
    have hlengths := congrArg List.length hblocks
    rw [descriptorsOf, List.length_map, List.length_map] at hlengths
    exact hlengths.symm
  have hcount : signed.blockCount.toNat = manifest.blocks.length :=
    hblockCount.symm.trans (hc.count.trans hblockLength.symm)
  refine ⟨UInt32.toNat_inj.mp hfull.schema, hlength, (h.signature _ _ hlength).mp hverified,
    hcount, ?_, ?_, ?_, hfull.raw_le, hencodedSize.symm.trans hc.encodedSize.symm,
    UInt32.toNat_inj.mp hfull.window, Nat.not_lt_of_le hfull.slot,
    ne_empty_of_cString hfull.project, ne_empty_of_cString hfull.chip,
    ne_empty_of_cString hfull.key, ?_, ?_, codec_iff.mpr hfull.codec, hfull.blockSize,
    hfull.base⟩
  · have hpos := hc.pos
    rw [← hblockLength] at hpos
    exact List.length_pos_iff.mp hpos
  · rw [← hcount]
    exact hfull.count_le
  · intro hzero
    refine hfull.raw_pos ?_
    change signed.rawSize.toNat = 0
    rw [hzero]
    rfl
  · have hchain := hc.chain
    rw [hblocks, chain_alike h] at hchain
    rw [hchain]
    exact hcopied.blockTableSha256
  · have hhash := hc.payloadHash
    rw [h.sha256] at hhash
    rw [hhash]
    exact hcopied.encodedSha256

/-- What the device has found in a package, the crate rebuilds. -/
theorem rebuilds_of_device (h : Alike crate key device) {manifest : FirmwareArtifactManifest}
    {signed : FirmwareArtifactSignedFields} {blocks : List Block}
    (hsmall : artifact.length ≤ maxPackageSize)
    (hdeclared : Declared crate key manifest signed (OtaV3.packagePayload artifact))
    (hcopied : signed.onDevice.CopiedTo fields)
    (hblocks : descriptorsOf blocks = manifest.blocks.map FirmwareBlockDescriptor.onDevice)
    (hc : Contents device.toOtaEnv (Inflates crate) fields (OtaV3.packagePayload artifact)
      blocks) :
    Rebuilds crate manifest signed (OtaV3.packagePayload artifact) (rawOf blocks) := by
  obtain ⟨hfull, hcount, hrawSize⟩ := hdeclared.fullImage hsmall hcopied
  have hpieces := hc.walked.pieces []
  rw [List.append_nil, hc.payload_eq] at hpieces
  have hrun := walked_verifyBlocks h hfull hc.walked hpieces hblocks
  have himage : (cursorAfter fields.rawSize blocks).image = rawOf blocks := by
    rw [cursorAfter]
    dsimp only
    rw [hc.rawSize, Nat.sub_self, List.replicate_zero, List.append_nil]
  rw [fullContext, hcount] at hrun
  refine ⟨cursorAfter fields.rawSize blocks, ?_, ?_, ?_, ?_, himage⟩
  · rw [← hrawSize]
    exact hrun
  · rw [himage]
    rfl
  · change (encodedOf blocks).length = (OtaV3.packagePayload artifact).length
    rw [hc.payload_eq]
  · have hhash := hc.imageHash
    rw [h.sha256] at hhash
    rw [himage, hhash]
    exact hcopied.imageSha256

/-- What the device finds in an artifact that the crate takes and that fits it. -/
theorem device_of_crate (h : Alike crate key device)
    (hmessages : SameMessages crate device artifact) {v : VerifiedArtifact}
    (hrun : verifyArtifact crate artifact key none = pure v) (hfits : v.FitsDevice artifact)
    (hcopied : v.signed.onDevice.CopiedTo fields) :
    OtaV3.Framed crate.crc32 artifact ∧ ∃ blocks, rawOf blocks = v.image ∧
      device.decodeManifest (OtaV3.manifestBytesOf artifact) =
        ⟨(descriptorsOf blocks).map some,
          some ⟨v.manifest.signedFields, v.manifest.signature⟩⟩ ∧
      blocks.length ≤ OtaV3.maxBlockCount ∧
      OtaV3.verifySignedFields device.toOtaEnv v.manifest.signedFields v.manifest.signature =
        .ok fields ∧
      Contents device.toOtaEnv (Inflates crate) fields (OtaV3.packagePayload artifact)
        blocks := by
  obtain ⟨hframed, -, hmanifest, hsigned, hdeclared, hrebuilds, -⟩ := verifyArtifact_iff.mp hrun
  obtain ⟨blocks, hblocks, himage, hc⟩ :=
    Rebuilds.contents h hframed.small hdeclared hcopied hrebuilds
  obtain ⟨-, hcount, -⟩ := hdeclared.fullImage hframed.small hcopied
  have hscan := (hmessages.manifest (descriptorsOf blocks) _).mpr ⟨v.manifest, hmanifest,
    ⟨hfits.signedFields, Nat.le_of_eq hdeclared.signature_length,
      hashes_of_walked hc.walked hblocks⟩, hblocks, rfl⟩
  have hcountLe : blocks.length ≤ OtaV3.maxBlockCount := by
    rw [← hc.count, hcount]
    exact hdeclared.count_le
  have hne : v.manifest.signedFields ≠ [] := by
    intro hnil
    rw [hnil] at hsigned
    have hzero := h.absent _ hsigned
    rw [hdeclared.schema] at hzero
    exact absurd hzero (by decide)
  have hhashes := hdeclared.fitsDevice hfits.texts hcopied
  have hdecode := (hmessages.signedFields _ hmanifest _).mpr ⟨v.signed, hsigned, hhashes, rfl⟩
  have hverified :=
    (h.signature _ _ hdeclared.signature_length).mpr hdeclared.signature
  have hverify := (OtaV3.verifySignedFields_iff _ _ _ _).mpr ⟨hne, hfits.signedFields,
    hdeclared.signature_length, hverified, _, hdecode,
    hdeclared.fullFields hframed.small hfits hcopied hc, hcopied⟩
  exact ⟨hframed, blocks, himage, hscan, hcountLe, hverify.1, hc⟩

section Storage

variable {readFn : OtaV3.ReadFn} {heap : OtaV3.Heap}

theorem verifyPackage_iff_crate (h : Alike crate key device)
    (hmessages : SameMessages crate device artifact) (hstores : OtaV3.Stores readFn artifact)
    (hheap : ∀ scratch, heap scratch = true) (fields : OtaV3.SignedFields) (t : OtaV3.Trace) :
    (∃ t', OtaV3.verifyPackage device heap readFn artifact.length t = .ok fields t') ↔
      ∃ v, verifyArtifact crate artifact key none = pure v ∧ v.FitsDevice artifact ∧
        v.signed.onDevice.CopiedTo fields := by
  have hstreams : OtaV3.Streams device.toOtaEnv (Inflates crate) := h.streams
  have hsizes : OtaV3.manifestMax ≤ maxManifestSize := by decide
  rw [OtaV3.verifyPackage_iff h.crcStreams h.greedy h.ends hstreams hstores hheap fields t,
    framed_alike h]
  constructor
  · rintro ⟨hframed, hsize, pb, blocks, hscan, -, hverify, hc⟩
    obtain ⟨-, hmaxFields, hlength, hverified, found, hdecode, hfull, hcopied⟩ :=
      (OtaV3.verifySignedFields_iff _ _ _ _).mp ⟨hverify, hc.full.1⟩
    obtain ⟨manifest, hmanifest, -, hblocks, rfl⟩ := (hmessages.manifest _ _).mp hscan
    obtain ⟨signed, hsigned, hroom, rfl⟩ :=
      (hmessages.signedFields _ hmanifest _).mp hdecode
    have hdeclared := declared_of_device h hfull hcopied hlength hverified hblocks hc
    have hrebuilds := rebuilds_of_device h hframed.small hdeclared hcopied hblocks hc
    exact ⟨⟨crate.sha256 artifact, manifest, signed, rawOf blocks⟩,
      verifyArtifact_iff.mpr ⟨hframed, Nat.le_trans hsize hsizes, hmanifest, hsigned, hdeclared,
        hrebuilds, rfl⟩,
      ⟨hsize, hmaxFields, hroom.toTextsFit, hfull.project, hfull.chip, hfull.key⟩, hcopied⟩
  · rintro ⟨v, hrun, hfits, hcopied⟩
    obtain ⟨hframed, blocks, -, hscan, hcount, hverify, hc⟩ :=
      device_of_crate h hmessages hrun hfits hcopied
    exact ⟨hframed, hfits.manifestSize, _, blocks, hscan, hcount, hverify, hc⟩

/-- The device puts out the image that the crate has rebuilt. -/
theorem validates_of_crate (h : Alike crate key device)
    (hmessages : SameMessages crate device artifact) (hstores : OtaV3.Stores readFn artifact)
    {v : VerifiedArtifact} (hrun : verifyArtifact crate artifact key none = pure v)
    (hfits : v.FitsDevice artifact) (hcopied : v.signed.onDevice.CopiedTo fields)
    (t : OtaV3.Trace) :
    ∃ manifest validated t', OtaV3.decodeManifest device readFn (OtaV3.manifestSizeOf artifact)
        (OtaV3.validateBlock readFn) ⟨headerSize + OtaV3.manifestSizeOf artifact,
          fields.encodedSize, OtaV3.Stream.fresh device.toOtaEnv fields, 0⟩ t =
        .ok (manifest, validated) t' ∧ validated.validator.sent.flatten = v.image := by
  have hmax : maxPackageSize < 2 ^ 32 := by decide
  obtain ⟨hframed, blocks, himage, hscan, hcount, -, hc⟩ :=
    device_of_crate h hmessages hrun hfits hcopied
  obtain ⟨validator, t', hvalidates, hpassed⟩ := hc.validates hstores
    (Nat.lt_of_le_of_lt hframed.small hmax) hframed.fits h.streams hscan hcount t
  exact ⟨_, _, t', hvalidates, hpassed.output.trans himage⟩

end Storage

/-- A full artifact in a storage passes `keemash_ota_v3_verify_package` exactly when it passes
`verify_artifact` without a base image and fits the device, which then puts out the image
that the crate has rebuilt. -/
theorem verifiers_agree (h : Alike crate key device)
    (hmessages : SameMessages crate device artifact) {readFn : OtaV3.ReadFn}
    (hstores : OtaV3.Stores readFn artifact) {heap : OtaV3.Heap}
    (hheap : ∀ scratch, heap scratch = true) (fields : OtaV3.SignedFields) :
    (∀ t, (∃ t', OtaV3.verifyPackage device heap readFn artifact.length t = .ok fields t') ↔
      ∃ v, verifyArtifact crate artifact key none = pure v ∧ v.FitsDevice artifact ∧
        v.signed.onDevice.CopiedTo fields) ∧
    ∀ v, verifyArtifact crate artifact key none = pure v → v.FitsDevice artifact →
      v.signed.onDevice.CopiedTo fields → ∀ t, ∃ manifest validated t',
        OtaV3.decodeManifest device readFn (OtaV3.manifestSizeOf artifact)
          (OtaV3.validateBlock readFn) ⟨headerSize + OtaV3.manifestSizeOf artifact,
            fields.encodedSize, OtaV3.Stream.fresh device.toOtaEnv fields, 0⟩ t =
          .ok (manifest, validated) t' ∧ validated.validator.sent.flatten = v.image :=
  ⟨verifyPackage_iff_crate h hmessages hstores hheap fields,
    fun _ hrun hfits hcopied => validates_of_crate h hmessages hstores hrun hfits hcopied⟩

end Verdicts

/-! ## The byte on both sides -/

open OtaV3 (letterRaw ZResult ZStep Zlib)

/-- Raw inflate of an encoded byte in parts; the state counts the bytes that are
consumed. -/
def oneByteInflate (encoded : Bytes) (byte : UInt8) (taken : ℕ) (input : Bytes) (room : ℕ)
    (final : Bool) : ZStep ℕ :=
  if input = (encoded.drop taken).take input.length ∧ 0 < room then
    { stream := taken + input.length
      consumed := input.length
      produced := if taken < encoded.length ∧ taken + input.length = encoded.length then [byte]
        else []
      result :=
        if taken + input.length = encoded.length then .streamEnd
        else if final ∨ input = [] then .bufError
        else .ok }
  else
    { stream := taken
      consumed := 0
      produced := []
      result := .failed }

def oneByteZlib (encoded : Bytes) (byte : UInt8) : Zlib where
  State := ℕ
  init := 0
  inflate := oneByteInflate encoded byte
  consumed_le := fun taken input room final => by
    rw [oneByteInflate]
    split
    · exact Nat.le_refl _
    · exact Nat.zero_le _
  produced_le := fun taken input room final => by
    rw [oneByteInflate]
    split
    · next hinput =>
        dsimp only
        split
        · exact hinput.2
        · exact Nat.zero_le _
    · exact Nat.zero_le _

section OneByte

variable {encoded : Bytes} {byte : UInt8}

/-- The byte is out when all of `encoded` is consumed. -/
def OneByteAfter (encoded : Bytes) (n m : ℕ) (taken : ℕ) : Prop :=
  taken = n ∧ n ≤ encoded.length ∧ m = if n = encoded.length then 1 else 0

/-- A call of `inflate` that does not fail takes the next bytes. -/
theorem oneByteInflate_takes {taken : ℕ} {input : Bytes} {room : ℕ} {final : Bool}
    (hfailed : (oneByteInflate encoded byte taken input room final).result ≠ .failed) :
    input = (encoded.drop taken).take input.length ∧
      (oneByteInflate encoded byte taken input room final).stream = taken + input.length ∧
      (oneByteInflate encoded byte taken input room final).consumed = input.length ∧
      ((oneByteInflate encoded byte taken input room final).result = .streamEnd ↔
        taken + input.length = encoded.length) ∧
      (oneByteInflate encoded byte taken input room final).produced =
        if taken < encoded.length ∧ taken + input.length = encoded.length then [byte]
        else [] := by
  rw [oneByteInflate] at hfailed ⊢
  split at hfailed
  next hinput =>
    rw [if_pos hinput]
    refine ⟨hinput.1, rfl, rfl, ⟨fun hend => ?_, fun hall => if_pos hall⟩, rfl⟩
    dsimp only at hend
    split at hend
    · assumption
    split at hend
    · cases hend
    · cases hend
  next hinput => exact absurd rfl hfailed

/-- What is out after `k` more bytes. -/
theorem oneByte_out {taken k : ℕ} (h : taken + k ≤ encoded.length) :
    (if taken = encoded.length then 1 else 0) +
        (if taken < encoded.length ∧ taken + k = encoded.length then [byte] else []).length =
      if taken + k = encoded.length then 1 else 0 := by
  by_cases hlast : taken + k = encoded.length
  · rw [if_pos hlast]
    by_cases hdone : taken = encoded.length
    · rw [if_pos hdone, if_neg (fun hboth => Nat.ne_of_lt hboth.1 hdone), List.length_nil]
    · have hlt : taken < encoded.length := by omega
      rw [if_neg hdone, if_pos ⟨hlt, hlast⟩, List.length_singleton]
  · have hmore : taken ≠ encoded.length := by omega
    rw [if_neg hlast, if_neg hmore, if_neg (fun hboth => hlast hboth.2), List.length_nil]

theorem oneByteInflate_streaming {taken k : ℕ} (hk : taken + k ≤ encoded.length) {room : ℕ}
    (hroom : 0 < room) (final : Bool) :
    OtaV3.Streaming encoded [byte] (OneByteAfter encoded) taken
      (if taken = encoded.length then 1 else 0) k room
      (oneByteInflate encoded byte taken ((encoded.drop taken).take k) room final) := by
  have hinput : ((encoded.drop taken).take k).length = k := by
    rw [List.length_take, List.length_drop]
    omega
  have hsame : (encoded.drop taken).take k =
      (encoded.drop taken).take ((encoded.drop taken).take k).length := by
    rw [hinput]
  have hgoes : (oneByteInflate encoded byte taken ((encoded.drop taken).take k) room
      final).result ≠ .failed := by
    rw [oneByteInflate, if_pos ⟨hsame, hroom⟩]
    dsimp only
    split
    · exact ZResult.noConfusion
    split
    · exact ZResult.noConfusion
    · exact ZResult.noConfusion
  obtain ⟨-, hstream, hconsumed, hend, hproduced⟩ := oneByteInflate_takes hgoes
  rw [hinput] at hstream hconsumed hend hproduced
  have hout : (if taken = encoded.length then 1 else 0) +
      (if taken < encoded.length ∧ taken + k = encoded.length then [byte] else []).length =
        if taken + k = encoded.length then 1 else 0 :=
    oneByte_out hk
  rw [← hproduced] at hout
  refine ⟨?_, ?_, .inr hconsumed, fun hended => ?_, fun hlast _ => ?_, hgoes⟩
  · rw [hproduced]
    split
    · next hlast =>
        rw [if_neg (Nat.ne_of_lt hlast.1)]
        rfl
    · rw [List.length_nil, List.take_zero]
  · rw [hconsumed]
    exact ⟨hstream, hk, hout⟩
  · have hlast := hend.mp hended
    rw [if_pos hlast] at hout
    rw [hconsumed]
    exact ⟨hlast, hout⟩
  · rw [hconsumed] at hlast
    exact hend.mpr hlast

theorem oneByteZlib_inflates (hne : encoded ≠ []) :
    (oneByteZlib encoded byte).Inflates encoded [byte] (OneByteAfter encoded) where
  start := ⟨rfl, Nat.zero_le _,
    (if_neg (Nat.ne_of_lt (List.length_pos_iff.mpr hne))).symm⟩
  call := by
    rintro n m taken ⟨rfl, -, rfl⟩ k room final hk hroom
    exact oneByteInflate_streaming hk hroom final

/-- The next bytes fit into what is left. -/
theorem next_fits {taken : ℕ} {input : Bytes} (hlt : taken < encoded.length)
    (hinput : input = (encoded.drop taken).take input.length) :
    taken + input.length ≤ encoded.length := by
  have hlength := congrArg List.length hinput
  rw [List.length_take, List.length_drop] at hlength
  omega

/-- `inflate` has taken a part of `encoded`, and nothing is out. -/
theorem oneByteZlib_run (hne : encoded ≠ []) {consumed produced : Bytes}
    {s : (oneByteZlib encoded byte).State}
    (h : (oneByteZlib encoded byte).Run consumed produced s) :
    ∃ taken : ℕ, taken = s ∧ consumed = encoded.take taken ∧ taken < encoded.length ∧
      produced = [] := by
  induction h with
  | init => exact ⟨0, rfl, rfl, List.length_pos_iff.mpr hne, rfl⟩
  | call _ input hroom final hgoes ih =>
      obtain ⟨taken, rfl, rfl, hlt, rfl⟩ := ih
      obtain ⟨hinput, hstream, hconsumed, hend, hproduced⟩ := oneByteInflate_takes hgoes.2
      have hmore : taken + input.length ≠ encoded.length :=
        fun hall => hgoes.1 (hend.mpr hall)
      have hle := next_fits hlt hinput
      rw [if_neg (fun hboth => hmore hboth.2)] at hproduced
      refine ⟨taken + input.length, hstream.symm, ?_, by omega, ?_⟩
      · change _ ++ input.take (oneByteInflate encoded byte taken input _ final).consumed = _
        rw [hconsumed, List.take_length, List.take_add, ← hinput]
      · exact congrArg ([] ++ ·) hproduced

theorem oneByteZlib_ends (hne : encoded ≠ []) {bytes raw : Bytes}
    (h : (oneByteZlib encoded byte).Ends bytes raw) : bytes = encoded ∧ raw = [byte] := by
  obtain ⟨consumed, produced, s, input, room, final, hrun, -, hend, rfl, rfl⟩ := h
  obtain ⟨taken, rfl, rfl, hlt, rfl⟩ := oneByteZlib_run hne hrun
  have hgoes : (oneByteInflate encoded byte taken input room final).result ≠ .failed := by
    intro hfailed
    have hboth := hfailed.symm.trans hend
    cases hboth
  obtain ⟨hinput, -, hconsumed, hend', hproduced⟩ := oneByteInflate_takes hgoes
  have hall := hend'.mp hend
  rw [if_pos ⟨hlt, hall⟩] at hproduced
  refine ⟨?_, congrArg ([] ++ ·) hproduced⟩
  change _ ++ input.take (oneByteInflate encoded byte taken input room final).consumed = _
  rw [hconsumed, List.take_length, hinput, ← List.take_add, hall, List.take_length]

end OneByte

def crc32Bit (crc : ℕ) : ℕ :=
  if crc % 2 = 1 then (crc / 2) ^^^ 0xedb88320 else crc / 2

def crc32Byte (crc : ℕ) (byte : UInt8) : ℕ :=
  crc32Bit^[8] (crc ^^^ byte.toNat)

/-- The register is matched on, so that it is a number before the next byte. -/
def crc32Bytes : ℕ → Bytes → ℕ
  | crc, [] => crc
  | 0, byte :: bytes => crc32Bytes (crc32Byte 0 byte) bytes
  | crc + 1, byte :: bytes => crc32Bytes (crc32Byte (crc + 1) byte) bytes

/-- zlib's `crc32`. -/
def zlibCrc32 (crc : ℕ) (bytes : Bytes) : ℕ :=
  crc32Bytes (crc ^^^ 0xffffffff) bytes ^^^ 0xffffffff

theorem crc32Bytes_append (crc : ℕ) (first more : Bytes) :
    crc32Bytes crc (first ++ more) = crc32Bytes (crc32Bytes crc first) more := by
  induction first generalizing crc with
  | nil => rfl
  | cons byte first ih =>
      cases crc with
      | zero => exact ih _
      | succ crc => exact ih _

theorem zlibCrc32_append (crc : ℕ) (first more : Bytes) :
    zlibCrc32 (zlibCrc32 crc first) more = zlibCrc32 crc (first ++ more) := by
  rw [zlibCrc32, zlibCrc32, zlibCrc32, crc32Bytes_append, Nat.xor_assoc, Nat.xor_self,
    Nat.xor_zero]

/-- SHA-256 on the inputs that the byte needs. -/
def byteHash (bytes : Bytes) : Digest :=
  if bytes = wireSignedFields byteSigned then
    #v[211, 3, 136, 157, 55, 27, 78, 255, 184, 170, 231, 219, 121, 112, 91, 145,
      103, 159, 66, 139, 94, 142, 177, 15, 184, 4, 12, 224, 183, 248, 222, 83]
  else byteEnv.sha256 bytes

/-- The crates on the byte. -/
def byteCrate : BuildEnv :=
  { byteEnv with
    sha256 := byteHash
    crc32 := fun bytes => zlibCrc32 0 bytes % 2 ^ 32
    crc32_lt := fun _ => Nat.mod_lt _ (by decide) }

def byteMessage : FirmwareArtifactManifest where
  signedFields := wireSignedFields byteSigned
  blocks := [byteBlock]
  signature := List.replicate 64 0

/-- The libraries of the device on the byte, whose signature counts as good. -/
def byteDevice : OtaV3.PackageEnv where
  interval := 65536
  interval_pos := OtaV3.defaultInterval_pos
  interval_aligned := OtaV3.defaultInterval_aligned
  deltaExperimental := false
  sha256 := byteHash
  encodeDescriptor := fun d => Protobuf.encode
    (Protobuf.uint 1 d.index ++ Protobuf.uint 2 d.rawOffset ++ Protobuf.uint 3 d.rawSize ++
      Protobuf.uint 4 d.encodedOffset ++ Protobuf.uint 5 d.encodedSize ++
      Protobuf.uint 6 (enumValue (enumOf d.kind)) ++ Protobuf.bytes 7 d.rawSha256 ++
      Protobuf.bytes 8 d.encodedSha256)
  decodeSignedFields := fun bytes =>
    if bytes = wireSignedFields byteSigned then some byteSigned.onDevice else none
  publicKey := .ok []
  importKey := fun _ => true
  verifyHash := fun _ _ _ => true
  zlib := oneByteZlib byteEncoded 0x41
  crc32 := zlibCrc32
  decodeManifest := fun bytes =>
    if bytes = byteManifestBytes then
      ⟨[some byteBlock.onDevice], some ⟨byteMessage.signedFields, byteMessage.signature⟩⟩
    else ⟨[], none⟩

theorem encodeVarint_eq (n : ℕ) : OtaV3.encodeVarint n = Protobuf.varint n := by
  induction n using Nat.strong_induction_on with
  | _ n ih =>
      rw [OtaV3.encodeVarint, Protobuf.varint]
      split
      · rfl
      · rw [ih (n / 128) (by omega)]

theorem byteCrate_inflates {encoded raw : Bytes} :
    Inflates byteCrate.toArtifactEnv encoded raw ↔ encoded = byteEncoded ∧ raw = letterRaw := by
  constructor
  · intro h
    have h : (if encoded = byteEncoded ∧ 1 ≤ raw.length then
        some (⟨true, 3, letterRaw⟩ : Inflation) else none) = some ⟨true, encoded.length, raw⟩ := h
    split at h
    · next hbyte => exact ⟨hbyte.1, (congrArg Inflation.written (Option.some.inj h)).symm⟩
    · cases h
  · rintro ⟨rfl, rfl⟩
    rfl

theorem byte_alike : Alike byteCrate.toArtifactEnv () byteDevice where
  sha256 := fun _ => rfl
  crc32 := fun _ => rfl
  crcStreams := zlibCrc32_append
  descriptor := by
    intro block
    have hkind : enumOf block.onDevice.kind = block.kind := by
      change Int32.ofBitVec (BitVec.ofNat 32 block.kind.toBitVec.toNat) = block.kind
      rw [BitVec.ofNat_toNat, BitVec.setWidth_eq]
      rfl
    have hencode : byteDevice.encodeDescriptor block.onDevice =
        Protobuf.encode block.toFields := by
      change Protobuf.encode (_ ++ Protobuf.uint 6 (enumValue (enumOf block.onDevice.kind)) ++
        _ ++ _) = _
      rw [hkind]
      rfl
    rw [OtaV3.encodeBlockDescriptor, hencode, encodeVarint_eq]
    rfl
  signature := by
    intro data signature _
    exact ⟨fun _ => ⟨(), rfl, rfl⟩, fun _ => rfl⟩
  greedy := fun s input room final _ hfailed => .inl (oneByteInflate_takes hfailed).2.2.1
  streams := by
    intro encoded raw h
    obtain ⟨rfl, rfl⟩ := byteCrate_inflates.mp h
    exact ⟨_, oneByteZlib_inflates (by decide)⟩
  ends := fun _ _ h => byteCrate_inflates.mpr (oneByteZlib_ends (by decide) h)
  absent := by
    intro signed h
    have hnil : readSignedFields [] = .ok signed := h
    have hempty : (readSignedFields []).map FirmwareArtifactSignedFields.schemaVersion =
        .ok 0 := by
      decide
    rw [hnil] at hempty
    exact Except.ok.inj hempty

theorem byte_messages : SameMessages byteCrate.toArtifactEnv byteDevice byteArtifact := by
  have hbytes : OtaV3.manifestBytesOf byteArtifact = byteManifestBytes := by
    decide +kernel
  have hcrate : byteCrate.decodeManifest byteManifestBytes = .ok byteMessage :=
    readManifest_wire byteMessage
  have hdevice : byteDevice.decodeManifest byteManifestBytes =
      ⟨[byteBlock.onDevice].map some, some ⟨byteMessage.signedFields, byteMessage.signature⟩⟩ :=
    if_pos rfl
  rw [← hbytes] at hcrate hdevice
  constructor
  · intro ds pb
    have hfits : byteMessage.FitsDevice :=
      ⟨by decide +kernel, by decide, by decide⟩
    rw [hdevice, hcrate]
    constructor
    · intro h
      obtain ⟨hds, hpb⟩ := OtaV3.ManifestScan.mk.inj h
      exact ⟨byteMessage, rfl, hfits, List.map_injective_iff.mpr (Option.some_injective _) hds.symm,
        (Option.some.inj hpb).symm⟩
    · rintro ⟨manifest, hmanifest, -, rfl, rfl⟩
      obtain rfl := Except.ok.inj hmanifest
      rfl
  · intro manifest hmanifest pb
    obtain rfl := Except.ok.inj (hcrate.symm.trans hmanifest)
    have hsigned : byteCrate.decodeSignedFields byteMessage.signedFields = .ok byteSigned :=
      readSignedFields_wire byteSigned
    have hfields : byteDevice.decodeSignedFields byteMessage.signedFields =
        some byteSigned.onDevice := if_pos rfl
    have hfits : byteSigned.FitsDevice :=
      ⟨⟨by decide, by decide, by decide, by decide, by decide⟩, by decide, by decide,
        by decide, by decide⟩
    rw [hsigned, hfields]
    constructor
    · intro h
      exact ⟨byteSigned, rfl, hfits, (Option.some.inj h).symm⟩
    · rintro ⟨signed, hok, -, rfl⟩
      obtain rfl := Except.ok.inj hok
      rfl

/-- A storage has the bytes that it holds. -/
theorem storageOf_stores (artifact : Bytes) :
    OtaV3.Stores (OtaV3.storageOf artifact) artifact := by
  intro offset length h
  have hlength : ((artifact.drop offset).take length).length = length := by
    rw [List.length_take, List.length_drop]
    omega
  exact ⟨⟨((artifact.drop offset).take length).toArray, hlength⟩, dif_pos hlength, rfl⟩

def byteVerified : VerifiedArtifact where
  artifactId := byteArtifactSha256
  manifest := byteMessage
  signed := byteSigned
  image := letterRaw

/-- The signed fields of the byte on the device. -/
def byteFields : OtaV3.SignedFields where
  schemaVersion := 1
  projectName := [0x70]
  chipTarget := [0x63]
  firmwareVersion := [0x76]
  buildCommit := []
  signingKeyId := [0x6b]
  minimumCoreVersion := 0
  minimumFabricSchema := 0
  rawSize := 1
  encodedSize := 3
  requiredAppSlotSize := 1
  codec := OtaV3.codecFullDeflate
  blockSize := OtaV3.fullBlockSize
  blockCount := 1
  deflateWindowBits := 11
  imageSha256 := OtaV3.letterRawSha256
  encodedSha256 := byteEncodedSha256
  blockTableSha256 := byteChainSha256
  baseImageSha256 := OtaV3.zeroDigest
  hasBaseImage := false

/-- Both sides take the byte, and the device puts it out. -/
theorem verifiers_agree_byte :
    (∃ t', OtaV3.verifyPackage byteDevice (fun _ => true) (OtaV3.storageOf byteArtifact) 300
      .start = .ok byteFields t') ∧
    ∃ manifest validated t', OtaV3.decodeManifest byteDevice (OtaV3.storageOf byteArtifact) 281
        (OtaV3.validateBlock (OtaV3.storageOf byteArtifact))
        ⟨headerSize + 281, 3, OtaV3.Stream.fresh byteDevice.toOtaEnv byteFields, 0⟩
        .start = .ok (manifest, validated) t' ∧
      validated.validator.sent.flatten = letterRaw := by
  have hlength : byteArtifact.length = 300 := by decide +kernel
  have hsize : OtaV3.manifestSizeOf byteArtifact = 281 := by decide +kernel
  have hrun : (verifyArtifact byteCrate.toArtifactEnv byteArtifact () none).run =
      some (.ok byteVerified) := by
    decide +kernel
  have hfits : byteVerified.FitsDevice byteArtifact :=
    ⟨by decide +kernel, by decide +kernel,
      ⟨by decide, by decide, by decide, by decide, by decide⟩, by decide⟩
  have hcopied : byteVerified.signed.onDevice.CopiedTo byteFields :=
    ⟨by decide, by decide, rfl, rfl, rfl, by decide⟩
  have hagree := verifiers_agree byte_alike byte_messages (storageOf_stores byteArtifact)
    (fun _ => rfl) byteFields
  rw [hlength, hsize] at hagree
  exact ⟨(hagree.1 .start).mpr ⟨byteVerified, hrun, hfits, hcopied⟩,
    hagree.2 byteVerified hrun hfits hcopied .start⟩

end KeemashCore.KeeLink.Ota

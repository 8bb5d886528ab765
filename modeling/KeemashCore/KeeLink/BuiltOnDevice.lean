import KeemashCore.KeeLink.BothVerifiers

/-!
# Built artifacts on the device

Which full artifacts of `build_full_artifact` the device verifies: those whose texts fit the
sizes of `keelink-fabric-v2.options`.  The other limits of the device, on the signed fields and
on the manifest, are then kept as well.
-/

namespace KeemashCore.KeeLink.Ota

open Effects LittleEndian
open OtaV3 (Contents descriptorsOf)
open Protobuf (bytes message size size_append size_bytes_le_key size_uint_le_key uint)

/-! ## Sizes on the wire -/

section Sizes

variable {number c : ℕ} (hc : c ≠ 0) (hkey : 8 * number + 2 < 128 ^ c)

include hc hkey

theorem size_word_le (word : UInt32) : size (uint number word.toNat) ≤ c + 5 := by
  have hword : word.toNat < 128 ^ 5 :=
    Nat.lt_of_lt_of_le word.toNat_lt (by decide)
  exact size_uint_le_key hc hkey (by decide) hword

theorem size_enum_le (value : Int32) : size (uint number (enumValue value)) ≤ c + 10 := by
  have hvalue : enumValue value < 128 ^ 10 :=
    Nat.lt_of_lt_of_le (BitVec.isLt _) (by decide)
  exact size_uint_le_key hc hkey (by decide) hvalue

theorem size_short_le {value : Bytes} {n : ℕ} (hn : n < 128) (h : value.length ≤ n) :
    size (bytes number value) ≤ c + (1 + n) :=
  size_bytes_le_key hc hkey (by decide) hn h

end Sizes

/-- Signed fields that fit the device are short. -/
theorem length_wireSignedFields_le {signed : FirmwareArtifactSignedFields}
    (h : signed.FitsDevice) : (wireSignedFields signed).length ≤ 367 := by
  have hword (number : ℕ) (hkey : 8 * number + 2 < 128 ^ 1) (word : UInt32) :
      size (uint number word.toNat) ≤ 6 :=
    size_word_le one_ne_zero hkey word
  have hwide (number : ℕ) (hkey : 8 * number + 2 < 128 ^ 2) (word : UInt32) :
      size (uint number word.toNat) ≤ 7 :=
    size_word_le two_ne_zero hkey word
  have hhash (number : ℕ) (hkey : 8 * number + 2 < 128 ^ 1) {value : Bytes}
      (hvalue : value.length ≤ 32) : size (bytes number value) ≤ 34 :=
    size_short_le one_ne_zero hkey (by decide) hvalue
  have hcodec : size (uint 11 (enumValue signed.codec)) ≤ 11 :=
    size_enum_le one_ne_zero (by decide) signed.codec
  have hproject := hhash 2 (by decide) h.projectName
  have hchip : size (bytes 3 (stringBytes signed.chipTarget)) ≤ 18 :=
    size_short_le one_ne_zero (by decide) (by decide) h.chipTarget
  have hversion := hhash 4 (by decide) h.firmwareVersion
  have hcommit : size (bytes 5 (stringBytes signed.buildCommit)) ≤ 42 :=
    size_short_le one_ne_zero (by decide) (by decide) h.buildCommit
  have hkeyId : size (bytes 19 (stringBytes signed.signingKeyId)) ≤ 35 :=
    size_short_le two_ne_zero (by decide) (by decide) h.signingKeyId
  have himage := hhash 12 (by decide) h.imageSha256
  have hencoded := hhash 13 (by decide) h.encodedSha256
  have htable := hhash 14 (by decide) h.blockTableSha256
  have hbase := hhash 15 (by decide) h.baseImageSha256
  have h₁ := hword 1 (by decide) signed.schemaVersion
  have h₆ := hword 6 (by decide) signed.minimumCoreVersion
  have h₇ := hword 7 (by decide) signed.minimumFabricSchema
  have h₈ := hword 8 (by decide) signed.rawSize
  have h₉ := hword 9 (by decide) signed.encodedSize
  have h₁₀ := hword 10 (by decide) signed.requiredAppSlotSize
  have h₁₆ := hwide 16 (by decide) signed.blockSize
  have h₁₇ := hwide 17 (by decide) signed.blockCount
  have h₁₈ := hwide 18 (by decide) signed.deflateWindowBits
  change size signed.toFields ≤ 367
  simp only [FirmwareArtifactSignedFields.toFields, size_append]
  omega

theorem size_descriptor_le {block : FirmwareBlockDescriptor}
    (h : block.rawSha256.length ≤ 32 ∧ block.encodedSha256.length ≤ 32) :
    size block.toFields ≤ 109 := by
  have hword (number : ℕ) (hkey : 8 * number + 2 < 128 ^ 1) (word : UInt32) :
      size (uint number word.toNat) ≤ 6 :=
    size_word_le one_ne_zero hkey word
  have hkind : size (uint 6 (enumValue block.kind)) ≤ 11 :=
    size_enum_le one_ne_zero (by decide) block.kind
  have hraw : size (bytes 7 block.rawSha256) ≤ 34 :=
    size_short_le one_ne_zero (by decide) (by decide) h.1
  have hencoded : size (bytes 8 block.encodedSha256) ≤ 34 :=
    size_short_le one_ne_zero (by decide) (by decide) h.2
  have h₁ := hword 1 (by decide) block.index
  have h₂ := hword 2 (by decide) block.rawOffset
  have h₃ := hword 3 (by decide) block.rawSize
  have h₄ := hword 4 (by decide) block.encodedOffset
  have h₅ := hword 5 (by decide) block.encodedSize
  simp only [FirmwareBlockDescriptor.toFields, size_append]
  omega

theorem size_descriptors_le {blocks : List FirmwareBlockDescriptor}
    (h : ∀ block ∈ blocks, block.rawSha256.length ≤ 32 ∧ block.encodedSha256.length ≤ 32) :
    size (blocks.flatMap fun block => message 2 block.toFields) ≤ 111 * blocks.length := by
  induction blocks with
  | nil => exact Nat.zero_le _
  | cons block blocks ih =>
      have hfields : (Protobuf.encode block.toFields).length ≤ 109 :=
        size_descriptor_le (h block List.mem_cons_self)
      have hblock : size (message 2 block.toFields) ≤ 111 := by
        rw [Protobuf.size_message (by decide)]
        exact (Protobuf.delimitedSize_mono hfields).trans
          (Nat.le_of_eq (Protobuf.delimitedSize_short (by decide)))
      have hrest := ih fun other hmem => h other (List.mem_cons_of_mem _ hmem)
      rw [List.flatMap_cons, size_append, List.length_cons]
      omega

/-- The manifest of a full image of up to 8 MiB has room in the buffer of the device. -/
theorem length_wireManifest_le {manifest : FirmwareArtifactManifest}
    (hfields : manifest.signedFields.length ≤ 367) (hcount : manifest.blocks.length ≤ 512)
    (hblocks : ∀ block ∈ manifest.blocks,
      block.rawSha256.length ≤ 32 ∧ block.encodedSha256.length ≤ 32)
    (hsignature : manifest.signature.length = signatureLen) :
    (wireManifest manifest).length ≤ OtaV3.manifestMax := by
  have hmax : OtaV3.manifestMax = 65536 := rfl
  have hfirst : size (bytes 1 manifest.signedFields) ≤ 370 :=
    size_bytes_le_key one_ne_zero (by decide) two_ne_zero (by decide) hfields
  have hmiddle := size_descriptors_le hblocks
  have hlast : size (bytes 3 manifest.signature) ≤ 66 :=
    size_short_le one_ne_zero (by decide) (by decide) (Nat.le_of_eq hsignature)
  change size manifest.toFields ≤ OtaV3.manifestMax
  simp only [FirmwareArtifactManifest.toFields, size_append]
  omega

/-- The header names the size of the manifest behind it. -/
theorem manifestSizeOf_packed {env : BuildEnv} {manifestBytes payload artifact : Bytes}
    (h : packArtifact env manifestBytes payload = pure artifact) :
    OtaV3.manifestSizeOf artifact = manifestBytes.length := by
  obtain ⟨_, -, h⟩ := bind_eq_pure h
  obtain ⟨word, hword, h⟩ := bind_eq_pure h
  obtain ⟨_, -, h⟩ := bind_eq_pure h
  obtain rfl := eq_of_pure_eq h
  obtain ⟨hlen, hlt⟩ := checkedU32_eq hword
  have hmagic : magic.length = 8 := rfl
  rw [OtaV3.manifestSizeOf, hlen, List.append_assoc, List.append_assoc, List.append_assoc,
    List.drop_left' hmagic, List.take_left' (length_bytesOf 4 _), bytesOf_four hlt]

/-! ## The fields on the device -/

/-- The texts of the spec have room on the device, and its names do not start with a zero. -/
structure ArtifactBuildSpec.FitsDevice (spec : ArtifactBuildSpec) : Prop where
  projectName : (stringBytes spec.projectName).length ≤ 32
  chipTarget : (stringBytes spec.chipTarget).length ≤ 16
  firmwareVersion : (stringBytes spec.firmwareVersion).length ≤ 32
  buildCommit : (stringBytes spec.buildCommit).length ≤ 40
  signingKeyId : (stringBytes spec.signingKeyId).length ≤ 32
  named : cString spec.projectName ≠ [] ∧ cString spec.chipTarget ≠ [] ∧
    cString spec.signingKeyId ≠ []

/-- The signed fields say what the spec says, in the texts up to the first zero. -/
structure ArtifactBuildSpec.OnDevice (spec : ArtifactBuildSpec)
    (fields : OtaV3.SignedFields) : Prop where
  projectName : fields.projectName = cString spec.projectName
  chipTarget : fields.chipTarget = cString spec.chipTarget
  firmwareVersion : fields.firmwareVersion = cString spec.firmwareVersion
  buildCommit : fields.buildCommit = cString spec.buildCommit
  minimumCoreVersion : fields.minimumCoreVersion = spec.minimumCoreVersion.toNat
  minimumFabricSchema : fields.minimumFabricSchema = spec.minimumFabricSchema.toNat
  requiredAppSlotSize : fields.requiredAppSlotSize = spec.requiredAppSlotSize.toNat
  signingKeyId : fields.signingKeyId = cString spec.signingKeyId

theorem ArtifactBuildSpec.Signed.onDevice {spec : ArtifactBuildSpec}
    {signed : FirmwareArtifactSignedFields} (h : spec.Signed signed)
    {fields : OtaV3.SignedFields} (hcopied : signed.onDevice.CopiedTo fields) :
    spec.OnDevice fields := by
  obtain ⟨-, hcore, hfabric, -, -, hslot, -⟩ := hcopied.numbers
  obtain ⟨hproject, hchip, hversion, hcommit, hkey⟩ := hcopied.texts
  exact ⟨hproject.trans (congrArg cString h.projectName),
    hchip.trans (congrArg cString h.chipTarget),
    hversion.trans (congrArg cString h.firmwareVersion),
    hcommit.trans (congrArg cString h.buildCommit),
    hcore.trans (congrArg UInt32.toNat h.minimumCoreVersion),
    hfabric.trans (congrArg UInt32.toNat h.minimumFabricSchema),
    hslot.trans (congrArg UInt32.toNat h.requiredAppSlotSize),
    hkey.trans (congrArg cString h.signingKeyId)⟩

/-- Signed fields have the texts of their spec. -/
theorem ArtifactBuildSpec.Signed.fitsDevice_iff {spec : ArtifactBuildSpec}
    {signed : FirmwareArtifactSignedFields} (h : spec.Signed signed) :
    signed.TextsFit ∧ cString signed.projectName ≠ [] ∧ cString signed.chipTarget ≠ [] ∧
      cString signed.signingKeyId ≠ [] ↔ spec.FitsDevice := by
  constructor
  · rintro ⟨htexts, hnamed⟩
    rw [h.projectName, h.chipTarget, h.signingKeyId] at hnamed
    obtain ⟨hproject, hchip, hversion, hcommit, hkey⟩ := htexts
    rw [h.projectName] at hproject
    rw [h.chipTarget] at hchip
    rw [h.firmwareVersion] at hversion
    rw [h.buildCommit] at hcommit
    rw [h.signingKeyId] at hkey
    exact ⟨hproject, hchip, hversion, hcommit, hkey, hnamed⟩
  · intro hfits
    rw [h.projectName, h.chipTarget, h.signingKeyId]
    refine ⟨⟨?_, ?_, ?_, ?_, ?_⟩, hfits.named⟩
    · rw [h.projectName]
      exact hfits.projectName
    · rw [h.chipTarget]
      exact hfits.chipTarget
    · rw [h.firmwareVersion]
      exact hfits.firmwareVersion
    · rw [h.buildCommit]
      exact hfits.buildCommit
    · rw [h.signingKeyId]
      exact hfits.signingKeyId

/-- The fields of a full artifact that the crate takes are copied to some record. -/
theorem exists_copiedTo {crate : ArtifactEnv} {key : crate.VerifyingKey} {artifact : Bytes}
    {v : VerifiedArtifact} (hrun : verifyArtifact crate artifact key none = pure v) :
    ∃ fields, v.signed.onDevice.CopiedTo fields := by
  obtain ⟨-, -, -, -, hdeclared, ⟨cursor, -, -, -, himage, -⟩, -⟩ := verifyArtifact_iff.mp hrun
  exact ⟨{
    schemaVersion := v.signed.onDevice.schemaVersion
    projectName := v.signed.onDevice.projectName
    chipTarget := v.signed.onDevice.chipTarget
    firmwareVersion := v.signed.onDevice.firmwareVersion
    buildCommit := v.signed.onDevice.buildCommit
    signingKeyId := v.signed.onDevice.signingKeyId
    minimumCoreVersion := v.signed.onDevice.minimumCoreVersion
    minimumFabricSchema := v.signed.onDevice.minimumFabricSchema
    rawSize := v.signed.onDevice.rawSize
    encodedSize := v.signed.onDevice.encodedSize
    requiredAppSlotSize := v.signed.onDevice.requiredAppSlotSize
    codec := v.signed.onDevice.codec
    blockSize := v.signed.onDevice.blockSize
    blockCount := v.signed.onDevice.blockCount
    deflateWindowBits := v.signed.onDevice.deflateWindowBits
    imageSha256 := crate.sha256 cursor.image
    encodedSha256 := crate.sha256 (OtaV3.packagePayload artifact)
    blockTableSha256 := blockTableChain crate v.manifest.blocks
    baseImageSha256 := OtaV3.zeroDigest
    hasBaseImage := false },
    ⟨rfl, rfl, rfl, rfl, rfl, rfl, rfl, rfl, rfl, rfl⟩, ⟨rfl, rfl, rfl, rfl, rfl⟩, himage,
    hdeclared.payloadHash, hdeclared.table, rfl, rfl⟩

/-! ## Built artifacts -/

section Built

variable {env : BuildEnv} {verifyingKey : env.SigningKey → env.VerifyingKey}
  {signingKey : env.SigningKey} {device : OtaV3.PackageEnv} {image artifact : Bytes}
  {spec : ArtifactBuildSpec}

/-- What a full artifact that was built verifies to. -/
theorem built_verifies (henv : env.Faithful verifyingKey)
    (hbuilt : buildFullArtifact env image spec signingKey = pure artifact) :
    ∃ v, verifyArtifact env.toArtifactEnv artifact (verifyingKey signingKey) none = pure v ∧
      v.image = image ∧ spec.Signed v.signed ∧
      v.manifest.signedFields = env.encodeSignedFields v.signed ∧
      OtaV3.manifestSizeOf artifact = (env.encodeManifest v.manifest).length := by
  obtain ⟨blockSize, built, signed, hfrom⟩ := buildArtifact_builtFrom hbuilt
  have hfields := signedFieldsOf_fields hfrom.signed_eq
  exact ⟨_, hfrom.verify henv none fun _ => rfl, rfl, hfields.spec_eq, rfl,
    manifestSizeOf_packed hfrom.packed⟩

/-- A full artifact whose texts fit the device fits it as a whole. -/
theorem fitsDevice_of_texts {crate : ArtifactEnv} {key : crate.VerifyingKey}
    (h : Alike crate key device) {v : VerifiedArtifact}
    (hrun : verifyArtifact crate artifact key none = pure v) (htexts : v.signed.TextsFit)
    (hnamed : cString v.signed.projectName ≠ [] ∧ cString v.signed.chipTarget ≠ [] ∧
      cString v.signed.signingKeyId ≠ [])
    (hfields : v.manifest.signedFields = wireSignedFields v.signed)
    (hsize : OtaV3.manifestSizeOf artifact = (wireManifest v.manifest).length) :
    v.FitsDevice artifact := by
  obtain ⟨fields, hcopied⟩ := exists_copiedTo hrun
  obtain ⟨hframed, -, -, -, hdeclared, hrebuilds, -⟩ := verifyArtifact_iff.mp hrun
  obtain ⟨blocks, hblocks, -, hc⟩ :=
    Rebuilds.contents h hframed.small hdeclared hcopied hrebuilds
  obtain ⟨hfull, hcount, -⟩ := hdeclared.fullImage hframed.small hcopied
  have hmax : OtaV3.signedFieldsMax = 1024 := rfl
  have hshort : v.manifest.signedFields.length ≤ 367 := by
    rw [hfields]
    exact length_wireSignedFields_le (hdeclared.fitsDevice htexts hcopied)
  have hblockCount : v.manifest.blocks.length ≤ 512 := by
    have htotal := walked_blockCount hc.walked hc.count hc.pos hfull.full.2
    have hraw := hfull.raw_le
    have himage : maxImageSize = 8388608 := rfl
    have hblock : OtaV3.fullBlockSize = 16384 := rfl
    rw [hc.rawSize, hcount, hblock] at htotal
    omega
  refine ⟨?_, by omega, htexts, hnamed⟩
  rw [hsize]
  exact length_wireManifest_le hshort hblockCount (hashes_of_walked hc.walked hblocks)
    hdeclared.signature_length

/-- The device verifies a full artifact that was built exactly when the texts of the spec fit
it, and then finds what the spec says and puts out the image. -/
theorem built_on_device (henv : env.Faithful verifyingKey)
    (hwire : env.encodeManifest = wireManifest ∧ env.encodeSignedFields = wireSignedFields)
    (h : Alike env.toArtifactEnv (verifyingKey signingKey) device)
    (hbuilt : (buildFullArtifact env image spec signingKey).run = some (.ok artifact))
    (hmessages : SameMessages env.toArtifactEnv device artifact) {readFn : OtaV3.ReadFn}
    (hstores : OtaV3.Stores readFn artifact) {heap : OtaV3.Heap}
    (hheap : ∀ scratch, heap scratch = true) (t : OtaV3.Trace) :
    ((∃ fields t', OtaV3.verifyPackage device heap readFn artifact.length t = .ok fields t') ↔
      spec.FitsDevice) ∧
    ∀ fields t', OtaV3.verifyPackage device heap readFn artifact.length t = .ok fields t' →
      spec.OnDevice fields ∧ ∀ t, ∃ manifest validated t',
        OtaV3.decodeManifest device readFn (OtaV3.manifestSizeOf artifact)
          (OtaV3.validateBlock readFn) ⟨headerSize + OtaV3.manifestSizeOf artifact,
            fields.encodedSize, OtaV3.Stream.fresh device.toOtaEnv fields, 0⟩ t =
          .ok (manifest, validated) t' ∧ validated.validator.sent.flatten = image := by
  obtain ⟨v, hrun, himage, hsigned, hfields, hsize⟩ := built_verifies henv hbuilt
  rw [hwire.1] at hsize
  rw [hwire.2] at hfields
  -- The device can only have found what the crate verifies.
  have hfound {fields : OtaV3.SignedFields} {t' : OtaV3.Trace}
      (hok : OtaV3.verifyPackage device heap readFn artifact.length t = .ok fields t') :
      v.FitsDevice artifact ∧ v.signed.onDevice.CopiedTo fields := by
    obtain ⟨v', hrun', hfits, hcopied⟩ :=
      (verifyPackage_iff_crate h hmessages hstores hheap fields t).mp ⟨t', hok⟩
    obtain rfl := eq_of_pure_eq (hrun.symm.trans hrun')
    exact ⟨hfits, hcopied⟩
  refine ⟨⟨?_, fun hfits => ?_⟩, fun fields t' hok => ?_⟩
  · rintro ⟨fields, t', hok⟩
    obtain ⟨hfits, -⟩ := hfound hok
    exact hsigned.fitsDevice_iff.mp ⟨hfits.texts, hfits.named⟩
  · obtain ⟨fields, hcopied⟩ := exists_copiedTo hrun
    obtain ⟨htexts, hnamed⟩ := hsigned.fitsDevice_iff.mpr hfits
    have hall := fitsDevice_of_texts h hrun htexts hnamed hfields hsize
    exact ⟨fields, (verifyPackage_iff_crate h hmessages hstores hheap fields t).mpr
      ⟨v, hrun, hall, hcopied⟩⟩
  · obtain ⟨hfits, hcopied⟩ := hfound hok
    refine ⟨hsigned.onDevice hcopied, fun t => ?_⟩
    rw [← himage]
    exact validates_of_crate h hmessages hstores hrun hfits hcopied t

end Built

theorem byteCrate_wire : byteCrate.encodeManifest = wireManifest ∧
    byteCrate.encodeSignedFields = wireSignedFields := by
  dsimp only [byteCrate, byteEnv]
  exact ⟨rfl, rfl⟩

theorem byteCrate_faithful : byteCrate.Faithful fun _ => () where
  manifest := readManifest_wire
  emptyManifest := readManifest_nil
  signedFields := by
    dsimp only [byteCrate, byteEnv]
    exact readSignedFields_wire
  signature := fun _ => rfl
  signature_length := fun _ => rfl
  verifies := fun _ _ => rfl
  inflates := byteEnv_faithful.inflates
  written_ne_nil := byteEnv_faithful.written_ne_nil

/-- The device verifies the byte that was built. -/
theorem built_on_device_byte :
    (buildFullArtifact byteCrate OtaV3.letterRaw byteSpec ()).run = some (.ok byteArtifact) ∧
      ∃ fields t', OtaV3.verifyPackage byteDevice (fun _ => true)
        (OtaV3.storageOf byteArtifact) byteArtifact.length .start = .ok fields t' := by
  have hbuilt : (buildFullArtifact byteCrate OtaV3.letterRaw byteSpec ()).run =
      some (.ok byteArtifact) := by
    decide +kernel
  have hfits : byteSpec.FitsDevice :=
    ⟨by decide, by decide, by decide, by decide, by decide, by decide⟩
  have hverdict := built_on_device byteCrate_faithful byteCrate_wire byte_alike hbuilt byte_messages
    (storageOf_stores byteArtifact) (fun _ => rfl) .start
  exact ⟨hbuilt, hverdict.1.mpr hfits⟩

end KeemashCore.KeeLink.Ota

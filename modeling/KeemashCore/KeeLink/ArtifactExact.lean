import KeemashCore.KeeLink.RoundTrip
import KeemashCore.OtaV3.PackageVerdict

/-!
# When the crate verifies an artifact

`verify_artifact` on a full artifact: it returns an image exactly when the artifact is
framed, its manifest and its fields decode and say the same, and its blocks follow one
another.  The blocks are those of the device, so that its verifier can be held against this.
-/

namespace KeemashCore.KeeLink.Ota

open Effects LittleEndian Tiling

/-! ## Steps that return -/

section Returns

variable {ε α β : Type}

theorem bind_eq_pure_iff {x : ExceptT ε Option α} {f : α → ExceptT ε Option β} {b : β} :
    x >>= f = pure b ↔ ∃ a, x = pure a ∧ f a = pure b := by
  constructor
  · exact bind_eq_pure
  · rintro ⟨a, rfl, hb⟩
    rw [pure_bind, hb]

theorem pure_eq_pure_iff {a b : α} : (pure a : ExceptT ε Option α) = pure b ↔ a = b :=
  ⟨eq_of_pure_eq, congrArg pure⟩

end Returns

variable {env : ArtifactEnv} {err : ArtifactError}

theorem throwIf_iff {condition : Prop} [Decidable condition] {u : Unit} :
    throwIf condition err = pure u ↔ ¬condition :=
  ⟨not_of_throwIf, throwIf_neg⟩

theorem okOr_iff {α : Type} {value : Option α} {a : α} :
    okOr value err = pure a ↔ value = some a := by
  cases value with
  | none => exact ⟨fun h => absurd h throw_ne_pure, fun h => by cases h⟩
  | some b => exact pure_eq_pure_iff.trans (Option.some_inj).symm

theorem sliceOf_iff {bytes piece : Bytes} {start stop : ℕ} :
    sliceOf bytes start stop = pure piece ↔
      (start ≤ stop ∧ stop ≤ bytes.length) ∧ (bytes.drop start).take (stop - start) = piece := by
  rw [sliceOf]
  split
  · next h => exact ⟨fun hpure => ⟨h, eq_of_pure_eq hpure⟩, fun hpiece => by rw [← hpiece.2]; rfl⟩
  next h =>
    constructor
    · intro hno
      cases hno
    · exact fun hyes => absurd hyes.1 h

theorem bytes32_iff {value : Bytes} {field : String} {digest : Digest} :
    bytes32 value field = pure digest ↔ digest.toList = value := by
  constructor
  · intro h
    rw [bytes32] at h
    split at h
    · obtain rfl := eq_of_pure_eq h
      rfl
    · exact absurd h throw_ne_pure
  · rintro rfl
    exact bytes32_toList digest field

theorem decoded_iff {α : Type} {result : Except String α} {a : α} :
    decoded result = pure a ↔ result = .ok a := by
  cases result with
  | error message => exact ⟨fun h => absurd h throw_ne_pure, fun h => by cases h⟩
  | ok b => exact pure_eq_pure_iff.trans ⟨congrArg _, Except.ok.inj⟩

theorem copyFromSlice_iff {image raw image' : Bytes} {start stop : ℕ} :
    copyFromSlice image start stop raw = pure image' ↔
      (start ≤ stop ∧ stop ≤ image.length ∧ raw.length = stop - start) ∧
        image.take start ++ raw ++ image.drop stop = image' := by
  rw [copyFromSlice]
  split
  · next h => exact ⟨fun hpure => ⟨h, eq_of_pure_eq hpure⟩, fun himage => by rw [← himage.2]⟩
  next h =>
    constructor
    · intro hno
      cases hno
    · exact fun hyes => absurd hyes.1 h

theorem endWithin_iff {a b limit stop : ℕ} (hlimit : limit < 2 ^ 32) :
    endWithin env a b limit = some stop ↔ stop = a + b ∧ a + b ≤ limit := by
  constructor
  · intro h
    obtain ⟨rfl, hle⟩ := endWithin_eq h
    exact ⟨rfl, hle⟩
  · rintro ⟨rfl, hle⟩
    exact endWithin_eq_some (by omega) hle

/-! ## Parsing -/

/-- An artifact parses exactly when it is framed and its messages decode. -/
theorem parseArtifact_iff {artifact payload : Bytes} {manifest : FirmwareArtifactManifest}
    {signed : FirmwareArtifactSignedFields} :
    parseArtifact env artifact = pure (manifest, signed, payload) ↔
      OtaV3.Framed env.crc32 artifact ∧ OtaV3.manifestSizeOf artifact ≤ maxManifestSize ∧
        env.decodeManifest (OtaV3.manifestBytesOf artifact) = .ok manifest ∧
        env.decodeSignedFields manifest.signedFields = .ok signed ∧
        payload = OtaV3.packagePayload artifact := by
  have hmax : maxPackageSize < 2 ^ 32 := by decide
  have hsame : OtaV3.maxPackageSize = maxPackageSize := rfl
  have hheader : headerSize = 16 := rfl
  have hdevice : OtaV3.headerSize = 16 := rfl
  have hmagic : magic.length = 8 := rfl
  simp only [parseArtifact, bind_eq_pure_iff, throwIf_iff, okOr_iff, sliceOf_iff, decoded_iff,
    pure_eq_pure_iff, Prod.mk.injEq]
  constructor
  · rintro ⟨-, hlong, -, hsmall, head, ⟨-, rfl⟩, -, hfront, lenBytes, ⟨-, rfl⟩, -, hsize,
      stop, hstop, crcBytes, ⟨-, rfl⟩, manifestBytes, ⟨hbounds, rfl⟩, -, hcrc, _, hdecoded, _,
      hsigned, _, ⟨hrest, rfl⟩, rfl, rfl, rfl⟩
    obtain ⟨rfl, hfits⟩ := (endWithin_iff (by omega)).mp hstop
    rw [Nat.add_sub_cancel_left] at hcrc hdecoded
    rw [hmagic, List.drop_zero] at hfront
    refine ⟨⟨by omega, not_not.mp hfront, ?_, ?_, not_not.mp hcrc⟩, ?_, hdecoded, hsigned, ?_⟩
    · exact Nat.pos_of_ne_zero fun hzero => hsize (.inl hzero)
    · exact hfits
    · exact Nat.le_of_not_lt fun hlarge => hsize (.inr hlarge)
    · rw [← List.length_drop, List.take_length]
      rfl
  · rintro ⟨hframed, hle, hdecoded, hsigned, rfl⟩
    have hfits := hframed.fits
    have hpos := hframed.size_pos
    have hsmall := hframed.small
    rw [hdevice] at hfits
    refine ⟨(), by omega, (), by omega, _, ⟨⟨by omega, by omega⟩, rfl⟩, (), ?_, _,
      ⟨⟨by omega, by omega⟩, rfl⟩, (), ?_, headerSize + OtaV3.manifestSizeOf artifact,
      (endWithin_iff (by omega)).mpr ⟨rfl, hfits⟩, _, ⟨⟨by omega, by omega⟩, rfl⟩, _,
      ⟨⟨by omega, hfits⟩, rfl⟩, (), ?_, manifest, ?_, signed, hsigned, _,
      ⟨⟨hfits, le_rfl⟩, rfl⟩, rfl, rfl, ?_⟩
    · exact not_not.mpr hframed.front
    · rintro (hzero | hlarge)
      · exact Nat.ne_of_gt hpos hzero
      · exact Nat.not_lt_of_le hle hlarge
    · rw [Nat.add_sub_cancel_left]
      exact not_not.mpr hframed.crc
    · rw [Nat.add_sub_cancel_left]
      exact hdecoded
    · rw [← List.length_drop, List.take_length]
      rfl

/-! ## Blocks -/

theorem decompressBlock_iff {encoded raw : Bytes} {expectedSize : ℕ} {index : UInt32} :
    decompressBlock env encoded expectedSize index = pure raw ↔
      raw.length = expectedSize ∧ Inflates env encoded raw := by
  constructor
  · intro h
    have hsafe := @decompressBlock_safe env encoded expectedSize index
    exact hsafe.of_ok h
  · rintro ⟨rfl, hinflates⟩
    simp only [decompressBlock, bind_eq_pure_iff, throwIf_iff, okOr_iff, pure_eq_pure_iff]
    refine ⟨_, hinflates, (), ?_, ?_⟩
    · simp
    · rw [Nat.sub_self, List.replicate_zero, List.append_nil]

/-- What a deflated block comes from. -/
theorem rawBlock_iff {ctx : BlockContext} (hcodec : ctx.codec = .fullDeflate)
    {block : FirmwareBlockDescriptor} {encoded raw : Bytes} {nextRaw rawEnd : ℕ} :
    rawBlock env ctx block encoded nextRaw rawEnd = pure raw ↔
      FirmwareBlockKind.tryFrom block.kind = some .deflate ∧ encoded ≠ [] ∧
        raw.length = block.rawSize.toNat ∧ Inflates env encoded raw := by
  simp only [rawBlock, bind_eq_pure_iff, okOr_iff]
  constructor
  · rintro ⟨kind, hkind, h⟩
    cases kind with
    | unspecified => exact absurd h throw_ne_pure
    | deflate =>
        simp only [bind_eq_pure_iff, throwIf_iff, decompressBlock_iff] at h
        obtain ⟨-, hne, hraw⟩ := h
        exact ⟨hkind, hne, hraw⟩
    | copyBase =>
        simp only [bind_eq_pure_iff, throwIf_iff] at h
        obtain ⟨-, hcopy, -⟩ := h
        refine absurd (.inl ?_) hcopy
        rw [hcodec]
        decide
  · rintro ⟨hkind, hne, hraw⟩
    refine ⟨.deflate, hkind, ?_⟩
    simp only [bind_eq_pure_iff, throwIf_iff, decompressBlock_iff]
    exact ⟨(), hne, hraw⟩

/-- A turn of the loop over the blocks of a full artifact. -/
theorem verifyBlock_iff {ctx : BlockContext} (hcodec : ctx.codec = .fullDeflate)
    {index : ℕ} {block : FirmwareBlockDescriptor} {cursor cursor' : Cursor}
    (hindex : index + 1 < 2 ^ 32) (himage : cursor.image.length < 2 ^ 32)
    (hpayload : ctx.payload.length < 2 ^ 32) :
    verifyBlock env ctx index block cursor = pure cursor' ↔
      (block.index.toNat = index ∧ block.rawOffset.toNat = cursor.nextRaw ∧
        block.encodedOffset.toNat = cursor.nextEncoded ∧ block.rawSize ≠ 0 ∧
        block.rawSize.toNat ≤ ctx.expectedBlockSize ∧
        (index + 1 < ctx.blockCount → block.rawSize.toNat = ctx.expectedBlockSize) ∧
        cursor.nextRaw + block.rawSize.toNat ≤ cursor.image.length ∧
        cursor.nextEncoded + block.encodedSize.toNat ≤ ctx.payload.length) ∧
      ∃ encoded raw, encoded =
          (ctx.payload.drop cursor.nextEncoded).take block.encodedSize.toNat ∧
        (env.sha256 encoded).toList = block.encodedSha256 ∧
        FirmwareBlockKind.tryFrom block.kind = some .deflate ∧ encoded ≠ [] ∧
        raw.length = block.rawSize.toNat ∧ Inflates env encoded raw ∧
        (env.sha256 raw).toList = block.rawSha256 ∧
        cursor' =
          { image := cursor.image.take cursor.nextRaw ++ raw ++
              cursor.image.drop (cursor.nextRaw + block.rawSize.toNat)
            nextRaw := cursor.nextRaw + block.rawSize.toNat
            nextEncoded := cursor.nextEncoded + block.encodedSize.toNat } := by
  have hfollowing : addUsize env index 1 = pure (index + 1) := addUsize_eq hindex
  simp only [verifyBlock, bind_eq_pure_iff, throwIf_iff, okOr_iff, sliceOf_iff, bytes32_iff,
    copyFromSlice_iff, rawBlock_iff hcodec, endWithin_iff himage, endWithin_iff hpayload,
    hfollowing, pure_eq_pure_iff]
  constructor
  · rintro ⟨-, hplace, following, rfl, -, hfull, rawEnd, ⟨rfl, hraw⟩, encodedEnd,
      ⟨rfl, hencoded⟩, encoded, ⟨-, rfl⟩, encodedSha256, hsha, -, hhash, raw,
      ⟨hkind, hne, hlength, hinflates⟩, rawSha256, hrawSha, -, hrawHash, image, ⟨-, rfl⟩, rfl⟩
    simp only [not_or, ne_eq, Decidable.not_not, Nat.not_lt] at hplace
    obtain ⟨hown, hrawOffset, hencodedOffset, hpos, hle⟩ := hplace
    rw [Nat.add_sub_cancel_left] at hne hinflates hhash
    refine ⟨⟨hown, hrawOffset, hencodedOffset, hpos, hle,
      fun hmore => not_not.mp fun hno => hfull ⟨hmore, hno⟩, hraw, hencoded⟩, _, raw, rfl, ?_,
      hkind, hne, hlength, hinflates, ?_, rfl⟩
    · rw [not_not.mp hhash, hsha]
    · rw [not_not.mp hrawHash, hrawSha]
  · rintro ⟨⟨hown, hrawOffset, hencodedOffset, hpos, hle, hfull, hraw, hencoded⟩, _, raw, rfl,
      hhash, hkind, hne, hlength, hinflates, hrawHash, rfl⟩
    have hplace : ¬(block.index.toNat ≠ index ∨ block.rawOffset.toNat ≠ cursor.nextRaw ∨
        block.encodedOffset.toNat ≠ cursor.nextEncoded ∨ block.rawSize = 0 ∨
        block.rawSize.toNat > ctx.expectedBlockSize) := by
      simp only [not_or, ne_eq, Decidable.not_not, Nat.not_lt]
      exact ⟨hown, hrawOffset, hencodedOffset, hpos, hle⟩
    have hpiece : (ctx.payload.drop cursor.nextEncoded).take
        (cursor.nextEncoded + block.encodedSize.toNat - cursor.nextEncoded) =
          (ctx.payload.drop cursor.nextEncoded).take block.encodedSize.toNat := by
      rw [Nat.add_sub_cancel_left]
    refine ⟨(), hplace, index + 1, rfl, (), fun hno => hno.2 (hfull hno.1), _, ⟨rfl, hraw⟩, _,
      ⟨rfl, hencoded⟩, _, ⟨⟨Nat.le_add_right _ _, hencoded⟩, hpiece⟩, _, hhash, (),
      not_not.mpr rfl, raw, ⟨hkind, hne, hlength, hinflates⟩, _, hrawHash, (), not_not.mpr rfl,
      _, ⟨⟨Nat.le_add_right _ _, hraw, ?_⟩, rfl⟩, rfl⟩
    rw [hlength, Nat.add_sub_cancel_left]

/-! ## Whole artifacts -/

/-- What `verify_artifact` checks of a full artifact, except for its blocks. -/
structure Declared (env : ArtifactEnv) (key : env.VerifyingKey)
    (manifest : FirmwareArtifactManifest) (signed : FirmwareArtifactSignedFields)
    (payload : Bytes) : Prop where
  schema : signed.schemaVersion = schemaVersion
  signature_length : manifest.signature.length = signatureLen
  signature : ∃ decoded, env.signatureFromSlice manifest.signature = some decoded ∧
    env.verify key manifest.signedFields decoded = true
  count : signed.blockCount.toNat = manifest.blocks.length
  blocks_ne : manifest.blocks ≠ []
  count_le : manifest.blocks.length ≤ maxBlockCount
  raw_ne : signed.rawSize ≠ 0
  raw_le : signed.rawSize.toNat ≤ maxImageSize
  encodedSize : signed.encodedSize.toNat = payload.length
  window : signed.deflateWindowBits = deflateWindowBits
  slot : ¬signed.requiredAppSlotSize < signed.rawSize
  project : signed.projectName ≠ ""
  chip : signed.chipTarget ≠ ""
  keyId : signed.signingKeyId ≠ ""
  table : (blockTableChain env manifest.blocks).toList = signed.blockTableSha256
  payloadHash : (env.sha256 payload).toList = signed.encodedSha256
  codec : FirmwareArtifactCodec.tryFrom signed.codec = some .fullDeflate
  blockSize : signed.blockSize.toNat = fullBlockSize
  base : signed.baseImageSha256 = []

/-- The loop over the blocks of a full artifact, and the checks behind it. -/
def Rebuilds (env : ArtifactEnv) (manifest : FirmwareArtifactManifest)
    (signed : FirmwareArtifactSignedFields) (payload image : Bytes) : Prop :=
  ∃ cursor, verifyBlocks env
      { codec := .fullDeflate
        expectedBlockSize := fullBlockSize
        blockCount := manifest.blocks.length
        payload := payload
        base := none } 0 manifest.blocks
      { image := List.replicate signed.rawSize.toNat 0, nextRaw := 0, nextEncoded := 0 } =
        pure cursor ∧
    cursor.nextRaw = cursor.image.length ∧ cursor.nextEncoded = payload.length ∧
    (env.sha256 cursor.image).toList = signed.imageSha256 ∧ cursor.image = image

/-- Without a base image, `verify_artifact` takes the full artifacts that are what they
say. -/
theorem verifyArtifact_iff {artifact : Bytes} {key : env.VerifyingKey} {v : VerifiedArtifact} :
    verifyArtifact env artifact key none = pure v ↔
      OtaV3.Framed env.crc32 artifact ∧ OtaV3.manifestSizeOf artifact ≤ maxManifestSize ∧
        env.decodeManifest (OtaV3.manifestBytesOf artifact) = .ok v.manifest ∧
        env.decodeSignedFields v.manifest.signedFields = .ok v.signed ∧
        Declared env key v.manifest v.signed (OtaV3.packagePayload artifact) ∧
        Rebuilds env v.manifest v.signed (OtaV3.packagePayload artifact) v.image ∧
        v.artifactId = env.sha256 artifact := by
  simp only [verifyArtifact, bind_eq_pure_iff, Prod.exists, parseArtifact_iff, throwIf_iff,
    okOr_iff, bytes32_iff, pure_eq_pure_iff]
  constructor
  · rintro ⟨manifest, signed, payload, ⟨hframed, hsize, hmanifest, hsigned, rfl⟩, -, hschema, -,
      hlength, decoded, hdecoded, -, hverify, -, hsizes, table, htable, -, hchain, encoded,
      hencoded, -, hpayload, codec, hcodec, blockSize, hblockSize, -, hblock, -, hbase, base,
      hcheck, cursor, hrun, -, hcoverage, image, himage, -, hhash, rfl⟩
    cases codec with
    | unspecified => exact absurd hblockSize throw_ne_pure
    | deltaBlock =>
        obtain ⟨image, hnone, -⟩ := bind_eq_pure hcheck
        exact absurd hnone throw_ne_pure
    | fullDeflate =>
        obtain rfl := eq_of_pure_eq hblockSize
        obtain rfl := eq_of_pure_eq hcheck
        simp only [not_or, ne_eq, Decidable.not_not, Nat.not_lt] at hsizes hcoverage
        obtain ⟨hcount, hne, hmax, hraw, hrawMax, hencodedSize, hwindow, hslot, hproject, hchip,
          hkey⟩ := hsizes
        refine ⟨hframed, hsize, hmanifest, hsigned,
          ⟨not_not.mp hschema, not_not.mp hlength, ⟨decoded, hdecoded, ?_⟩, hcount, hne, hmax,
            hraw, hrawMax, hencodedSize, hwindow, hslot, hproject, hchip, hkey, ?_, ?_, hcodec,
            not_not.mp hblock, ?_⟩,
          ⟨cursor, hrun, hcoverage.1, hcoverage.2, ?_, rfl⟩, rfl⟩
        · exact Bool.not_eq_false _ |>.mp hverify
        · rw [not_not.mp hchain, htable]
        · rw [not_not.mp hpayload, hencoded]
        · exact not_not.mp fun hno => hbase ⟨rfl, hno⟩
        · rw [not_not.mp hhash, himage]
  · rintro ⟨hframed, hsize, hmanifest, hsigned, hdeclared, ⟨cursor, hrun, hraw, hencoded, himage,
      hsame⟩, hid⟩
    obtain ⟨decoded, hdecoded, hverify⟩ := hdeclared.signature
    refine ⟨v.manifest, v.signed, _, ⟨hframed, hsize, hmanifest, hsigned, rfl⟩, (),
      not_not.mpr hdeclared.schema, (), not_not.mpr hdeclared.signature_length, decoded, hdecoded,
      (), by rw [hverify]; exact Bool.true_eq_false.mp, (), ?_, _, hdeclared.table, (),
      not_not.mpr rfl, _, hdeclared.payloadHash, (), not_not.mpr rfl, .fullDeflate,
      hdeclared.codec, fullBlockSize, rfl, (), not_not.mpr hdeclared.blockSize, (),
      fun hno => hno.2 hdeclared.base, none, rfl, cursor, hrun, (), ?_, _, himage, (),
      not_not.mpr rfl, ?_⟩
    · simp only [not_or, ne_eq, Decidable.not_not, Nat.not_lt]
      exact ⟨hdeclared.count, hdeclared.blocks_ne, hdeclared.count_le, hdeclared.raw_ne,
        hdeclared.raw_le, hdeclared.encodedSize, hdeclared.window, hdeclared.slot,
        hdeclared.project, hdeclared.chip, hdeclared.keyId⟩
    · simp only [not_or, ne_eq, Decidable.not_not]
      exact ⟨hraw, hencoded⟩
    · rw [← hid, hsame]

end KeemashCore.KeeLink.Ota

import KeemashCore.Effects.Basic
import KeemashCore.KeeLink.Artifact
import KeemashCore.OtaV3.Validator

/-!
# The artifact verifier of the crate is sound

`verify_artifact` does not panic, and what it returns is what the artifact says: the
blocks tile the image and the payload in the order of their indices, each block of the
image is inflated from its piece of the payload or copied from the base image, and all
hashes match.  The loop over the blocks keeps `Progress`, which says this of the blocks
done so far.
-/

namespace KeemashCore.KeeLink.Ota

open Effects LittleEndian Tiling

variable {env : ArtifactEnv}

/-! ## Steps -/

theorem throwIf_safe (condition : Prop) [Decidable condition] (err : ArtifactError) :
    Safe (throwIf condition err) fun _ => ¬condition := by
  rw [throwIf]
  split
  · exact safe_throw err
  · next h => exact safe_pure h

theorem okOr_safe {α : Type} (value : Option α) (err : ArtifactError) :
    Safe (okOr value err) fun a => value = some a := by
  cases value with
  | none => exact safe_throw err
  | some a => exact safe_pure rfl

theorem sliceOf_safe {bytes : Bytes} {start stop : ℕ} (hle : start ≤ stop)
    (hfits : stop ≤ bytes.length) :
    Safe (sliceOf bytes start stop) fun piece =>
      piece = Span.slice ⟨start, stop - start⟩ bytes := by
  rw [sliceOf, if_pos ⟨hle, hfits⟩]
  exact safe_pure rfl

theorem copyFromSlice_safe {image raw : Bytes} {start stop : ℕ} (hle : start ≤ stop)
    (hfits : stop ≤ image.length) (hraw : raw.length = stop - start) :
    Safe (copyFromSlice image start stop raw) fun image' =>
      image' = image.take start ++ raw ++ image.drop stop := by
  rw [copyFromSlice, if_pos ⟨hle, hfits, hraw⟩]
  exact safe_pure rfl

theorem bytes32_safe (value : Bytes) (field : String) :
    Safe (bytes32 value field) fun digest => digest.toList = value := by
  rw [bytes32]
  split
  · exact safe_pure rfl
  · exact safe_throw _

theorem decoded_safe {α : Type} (result : Except String α) :
    Safe (decoded result) fun a => result = .ok a := by
  cases result with
  | error message => exact safe_throw _
  | ok a => exact safe_pure rfl

theorem addUsize_safe {a b : ℕ} (h : a + b < 2 ^ 32) :
    Safe (addUsize env a b) fun sum => sum = a + b := by
  have hmax := env.usizeMax_le
  rw [addUsize, if_pos (by omega)]
  exact safe_pure rfl

theorem endWithin_eq {a b limit stop : ℕ} (h : endWithin env a b limit = some stop) :
    stop = a + b ∧ stop ≤ limit := by
  rw [endWithin] at h
  split at h
  · next hle =>
      cases h
      exact ⟨rfl, hle.2⟩
  · cases h

/-! ## Parsing -/

/-- The parts of an artifact: sixteen bytes of header, the manifest and the payload. -/
structure Parsed (env : ArtifactEnv) (artifact : Bytes) (manifest : FirmwareArtifactManifest)
    (signed : FirmwareArtifactSignedFields) (payload : Bytes) : Prop where
  parts : ∃ header manifestBytes, artifact = header ++ manifestBytes ++ payload ∧
    header.length = headerSize ∧ env.decodeManifest manifestBytes = .ok manifest
  signed_eq : env.decodeSignedFields manifest.signedFields = .ok signed

theorem parseArtifact_safe (artifact : Bytes) :
    Safe (parseArtifact env artifact) fun parsed =>
      Parsed env artifact parsed.1 parsed.2.1 parsed.2.2 := by
  refine (throwIf_safe _ _).bind fun _ hlong => ?_
  have hheader : headerSize = 16 := rfl
  have hlength : headerSize ≤ artifact.length := Nat.le_of_not_lt hlong
  refine (throwIf_safe _ _).bind fun _ _ => ?_
  refine (sliceOf_safe (Nat.zero_le _) ?_).bind fun head _ => ?_
  · exact Nat.le_trans (by decide) hlength
  refine (throwIf_safe _ _).bind fun _ _ => ?_
  refine (sliceOf_safe (by omega) (by omega)).bind fun lenBytes _ => ?_
  refine (throwIf_safe _ _).bind fun _ _ => ?_
  refine (okOr_safe _ _).bind fun manifestEnd hend => ?_
  obtain ⟨rfl, hfits⟩ := endWithin_eq hend
  refine (sliceOf_safe (by omega) (by omega)).bind fun crcBytes _ => ?_
  refine (sliceOf_safe (Nat.le_add_right _ _) hfits).bind fun manifestBytes hbytes => ?_
  refine (throwIf_safe _ _).bind fun _ _ => ?_
  refine (decoded_safe _).bind fun manifest hmanifest => ?_
  refine (decoded_safe _).bind fun signed hsigned => ?_
  refine (sliceOf_safe hfits (Nat.le_refl _)).bind fun payload hpayload => ?_
  refine safe_pure ⟨⟨artifact.take headerSize, manifestBytes, ?_, ?_, hmanifest⟩, hsigned⟩
  · rw [hbytes, hpayload, Span.slice, Span.slice, Nat.add_sub_cancel_left, ← List.take_add,
      ← List.length_drop, List.take_length, List.take_append_drop]
  · rw [List.length_take]
    omega

/-! ## Blocks -/

/-- The place of the block in the image. -/
def FirmwareBlockDescriptor.rawSpan (block : FirmwareBlockDescriptor) : Span :=
  ⟨block.rawOffset.toNat, block.rawSize.toNat⟩

/-- The place of the block in the payload. -/
def FirmwareBlockDescriptor.encodedSpan (block : FirmwareBlockDescriptor) : Span :=
  ⟨block.encodedOffset.toNat, block.encodedSize.toNat⟩

/-- The inflater reads all of `encoded`, ends, and writes `raw`. -/
def Inflates (env : ArtifactEnv) (encoded raw : Bytes) : Prop :=
  env.decompress encoded raw.length =
    some { streamEnd := true, totalIn := encoded.length, written := raw }

/-- Where the bytes of a block come from: its piece of the payload, or the same place of
the base image of a delta artifact. -/
inductive Origin (env : ArtifactEnv) (codec : FirmwareArtifactCodec) (base : Option Bytes)
    (block : FirmwareBlockDescriptor) (encoded raw : Bytes) : Prop where
  | inflated (kind : FirmwareBlockKind.tryFrom block.kind = some .deflate)
      (inflates : Inflates env encoded raw) : Origin env codec base block encoded raw
  | copied (kind : FirmwareBlockKind.tryFrom block.kind = some .copyBase)
      (delta : codec = .deltaBlock) {image : Bytes} (base_eq : base = some image)
      (fits : block.rawSpan.stop ≤ image.length) (raw_eq : raw = block.rawSpan.slice image) :
      Origin env codec base block encoded raw

/-- The bytes of a block in the image come from the right place and match the
descriptor. -/
structure Covered (env : ArtifactEnv) (codec : FirmwareArtifactCodec) (base : Option Bytes)
    (payload image : Bytes) (block : FirmwareBlockDescriptor) : Prop where
  origin : Origin env codec base block (block.encodedSpan.slice payload)
    (block.rawSpan.slice image)
  rawHash : (env.sha256 (block.rawSpan.slice image)).toList = block.rawSha256
  encodedHash : (env.sha256 (block.encodedSpan.slice payload)).toList = block.encodedSha256

theorem decompressBlock_safe (encoded : Bytes) (expectedSize : ℕ) (index : UInt32) :
    Safe (decompressBlock env encoded expectedSize index) fun raw =>
      raw.length = expectedSize ∧ Inflates env encoded raw := by
  refine (okOr_safe _ _).bind fun inflation hinflation => ?_
  refine (throwIf_safe _ _).bind fun _ hwhole => ?_
  simp only [not_or, Bool.not_eq_false, ne_eq, Decidable.not_not] at hwhole
  obtain ⟨hend, hwritten, htotal⟩ := hwhole
  have hraw : inflation.written ++
      List.replicate (expectedSize - inflation.written.length) 0 = inflation.written := by
    rw [hwritten, Nat.sub_self, List.replicate_zero, List.append_nil]
  refine safe_pure ?_
  rw [hraw]
  refine ⟨hwritten, ?_⟩
  rw [Inflates, hwritten, hinflation, ← hend, ← htotal]

theorem rawBlock_safe (ctx : BlockContext) {block : FirmwareBlockDescriptor} {encoded : Bytes}
    {nextRaw rawEnd : ℕ} (hnext : block.rawOffset.toNat = nextRaw)
    (hend : rawEnd = nextRaw + block.rawSize.toNat) :
    Safe (rawBlock env ctx block encoded nextRaw rawEnd) fun raw =>
      raw.length = block.rawSize.toNat ∧ Origin env ctx.codec ctx.base block encoded raw := by
  refine (okOr_safe _ _).bind fun kind hkind => ?_
  cases kind with
  | unspecified => exact safe_throw _
  | deflate =>
      refine (throwIf_safe _ _).bind fun _ _ => ?_
      have hsafe := @decompressBlock_safe env encoded block.rawSize.toNat block.index
      exact hsafe.mono fun raw hraw => ⟨hraw.1, .inflated hkind hraw.2⟩
  | copyBase =>
      refine (throwIf_safe _ _).bind fun _ hcopy => ?_
      simp only [not_or, ne_eq, Decidable.not_not, Bool.not_eq_true] at hcopy
      obtain ⟨hdelta, -, hbase⟩ := hcopy
      refine (okOr_safe _ _).bind fun image himage => ?_
      rw [himage, Option.all_some, decide_eq_false_iff_not, Nat.not_lt] at hbase
      subst hnext hend
      have hspan : (⟨block.rawOffset.toNat, block.rawOffset.toNat + block.rawSize.toNat -
          block.rawOffset.toNat⟩ : Span) = block.rawSpan := by
        rw [Nat.add_sub_cancel_left]
        rfl
      have hsafe := sliceOf_safe (Nat.le_add_right _ _) hbase
      refine hsafe.mono fun raw hraw => ?_
      rw [hspan] at hraw
      refine ⟨?_, .copied hkind hdelta himage hbase hraw⟩
      rw [hraw]
      exact Span.length_slice hbase

/-- The blocks done so far tile the front of the image and of the payload, and are
covered. -/
structure Progress (env : ArtifactEnv) (ctx : BlockContext) (rawSize : ℕ)
    (done : List FirmwareBlockDescriptor) (cursor : Cursor) : Prop where
  indices : (done.map fun block => block.index.toNat) = List.range done.length
  rawTiles : Tiles 0 (done.map FirmwareBlockDescriptor.rawSpan) cursor.nextRaw
  encodedTiles : Tiles 0 (done.map FirmwareBlockDescriptor.encodedSpan) cursor.nextEncoded
  image_length : cursor.image.length = rawSize
  raw_le : cursor.nextRaw ≤ rawSize
  covered : ∀ block ∈ done, Covered env ctx.codec ctx.base ctx.payload cursor.image block

theorem verifyBlock_safe {ctx : BlockContext} {rawSize : ℕ}
    {done : List FirmwareBlockDescriptor} {cursor : Cursor}
    (h : Progress env ctx rawSize done cursor) (hcount : done.length < maxBlockCount)
    (block : FirmwareBlockDescriptor) :
    Safe (verifyBlock env ctx done.length block cursor)
      (Progress env ctx rawSize (done ++ [block])) := by
  have hmax : maxBlockCount < 2 ^ 32 := by decide
  refine (throwIf_safe _ _).bind fun _ hplace => ?_
  simp only [not_or, ne_eq, Decidable.not_not] at hplace
  obtain ⟨hindex, hraw, hencoded, -, -⟩ := hplace
  refine (addUsize_safe (by omega)).bind fun following _ => ?_
  refine (throwIf_safe _ _).bind fun _ _ => ?_
  refine (okOr_safe _ _).bind fun rawEnd hrawEnd => ?_
  obtain ⟨rfl, hrawFits⟩ := endWithin_eq hrawEnd
  refine (okOr_safe _ _).bind fun encodedEnd hencodedEnd => ?_
  obtain ⟨rfl, hencodedFits⟩ := endWithin_eq hencodedEnd
  refine (sliceOf_safe (Nat.le_add_right _ _) hencodedFits).bind fun encoded hpiece => ?_
  rw [Nat.add_sub_cancel_left, ← hencoded] at hpiece
  refine (bytes32_safe _ _).bind fun encodedSha256 hencodedSha256 => ?_
  refine (throwIf_safe _ _).bind fun _ hencodedHash => ?_
  refine (rawBlock_safe ctx hraw rfl).bind fun raw horigin => ?_
  obtain ⟨hlength, horigin⟩ := horigin
  refine (bytes32_safe _ _).bind fun rawSha256 hrawSha256 => ?_
  refine (throwIf_safe _ _).bind fun _ hrawHash => ?_
  have hroom : raw.length = cursor.nextRaw + block.rawSize.toNat - cursor.nextRaw := by omega
  refine (copyFromSlice_safe (Nat.le_add_right _ _) hrawFits hroom).bind fun image himage => ?_
  have hstart : cursor.nextRaw ≤ cursor.image.length := by omega
  have hfront : (cursor.image.take cursor.nextRaw).length = cursor.nextRaw := by
    rw [List.length_take]
    omega
  -- The block stands where it was written, and the blocks before it are as they were.
  have hwritten : block.rawSpan.slice image = raw := by
    have hspan : block.rawSpan = ⟨(cursor.image.take cursor.nextRaw).length, raw.length⟩ := by
      rw [hfront, hlength, ← hraw]
      rfl
    rw [hspan, himage]
    exact Span.slice_middle
  have hbefore (other : FirmwareBlockDescriptor) (hother : other ∈ done) :
      other.rawSpan.slice image = other.rawSpan.slice cursor.image := by
    have hwithin := h.rawTiles.within other.rawSpan (List.mem_map_of_mem hother)
    rw [himage]
    exact Span.slice_write hwithin.2 hstart
  refine safe_pure ⟨?_, ?_, ?_, ?_, ?_, fun other hother => ?_⟩
  · rw [List.map_append, h.indices, List.length_append, List.map_singleton, hindex,
      List.length_singleton, List.range_succ]
  · rw [List.map_append, List.map_singleton, FirmwareBlockDescriptor.rawSpan, hraw]
    exact h.rawTiles.snoc _
  · rw [List.map_append, List.map_singleton, FirmwareBlockDescriptor.encodedSpan, hencoded]
    exact h.encodedTiles.snoc _
  · rw [himage, List.length_append, List.length_append, hfront, List.length_drop, hlength,
      ← h.image_length]
    omega
  · rw [← h.image_length]
    exact hrawFits
  · rcases List.mem_append.mp hother with hold | hnew
    · obtain ⟨hfrom, hrawHash', hencodedHash'⟩ := h.covered other hold
      rw [← hbefore other hold] at hfrom hrawHash'
      exact ⟨hfrom, hrawHash', hencodedHash'⟩
    · obtain rfl := List.mem_singleton.mp hnew
      have hslice : encoded = other.encodedSpan.slice ctx.payload := hpiece
      refine ⟨?_, ?_, ?_⟩
      · rw [hwritten, ← hslice]
        exact horigin
      · rw [hwritten, not_not.mp hrawHash, hrawSha256]
      · rw [← hslice, not_not.mp hencodedHash, hencodedSha256]

theorem verifyBlocks_safe {ctx : BlockContext} {rawSize : ℕ}
    {done blocks : List FirmwareBlockDescriptor} {cursor : Cursor}
    (h : Progress env ctx rawSize done cursor)
    (hcount : done.length + blocks.length ≤ maxBlockCount) :
    Safe (verifyBlocks env ctx done.length blocks cursor)
      (Progress env ctx rawSize (done ++ blocks)) := by
  induction blocks generalizing done cursor with
  | nil =>
      rw [List.append_nil]
      exact safe_pure h
  | cons block blocks ih =>
      rw [List.length_cons] at hcount
      refine (verifyBlock_safe h (by omega) block).bind fun cursor' hcursor' => ?_
      have hlength : (done ++ [block]).length = done.length + 1 := List.length_append
      have hnext := ih hcursor' (by omega)
      rw [hlength, List.append_assoc, List.singleton_append] at hnext
      exact hnext

/-! ## Verifying -/

theorem checkBase_safe (codec : FirmwareArtifactCodec) (signed : FirmwareArtifactSignedFields)
    (baseImage : Option Bytes) :
    Safe (checkBase env codec signed baseImage) fun base =>
      if codec = .deltaBlock then
        base = baseImage ∧ ∃ image, baseImage = some image ∧
          (env.sha256 image).toList = signed.baseImageSha256
      else
        base = none := by
  rw [checkBase]
  split
  · refine (okOr_safe _ _).bind fun image himage => ?_
    refine (bytes32_safe _ _).bind fun digest hdigest => ?_
    refine (throwIf_safe _ _).bind fun _ hhash => ?_
    exact safe_pure ⟨himage.symm, image, himage, by rw [not_not.mp hhash, hdigest]⟩
  · exact safe_pure rfl

/-- What a verified artifact is. -/
structure Sound (env : ArtifactEnv) (artifact : Bytes) (verifyingKey : env.VerifyingKey)
    (baseImage : Option Bytes) (v : VerifiedArtifact) (payload : Bytes)
    (codec : FirmwareArtifactCodec) : Prop where
  artifactId : v.artifactId = env.sha256 artifact
  parsed : Parsed env artifact v.manifest v.signed payload
  signature : ∃ signature, env.signatureFromSlice v.manifest.signature = some signature ∧
    env.verify verifyingKey v.manifest.signedFields signature = true
  codec_eq : FirmwareArtifactCodec.tryFrom v.signed.codec = some codec ∧
    (codec = .fullDeflate ∨ codec = .deltaBlock)
  image_length : v.image.length = v.signed.rawSize.toNat
  payload_length : payload.length = v.signed.encodedSize.toNat
  indices : (v.manifest.blocks.map fun block => block.index.toNat) =
    List.range v.signed.blockCount.toNat
  rawTiles : Tiles 0 (v.manifest.blocks.map FirmwareBlockDescriptor.rawSpan) v.image.length
  encodedTiles : Tiles 0 (v.manifest.blocks.map FirmwareBlockDescriptor.encodedSpan)
    payload.length
  covered : ∀ block ∈ v.manifest.blocks, Covered env codec baseImage payload v.image block
  blockTableHash : (blockTableChain env v.manifest.blocks).toList = v.signed.blockTableSha256
  payloadHash : (env.sha256 payload).toList = v.signed.encodedSha256
  imageHash : (env.sha256 v.image).toList = v.signed.imageSha256
  baseHash : codec = .deltaBlock → ∃ image, baseImage = some image ∧
    (env.sha256 image).toList = v.signed.baseImageSha256

theorem verifyArtifact_safe (artifact : Bytes) (verifyingKey : env.VerifyingKey)
    (baseImage : Option Bytes) :
    Safe (verifyArtifact env artifact verifyingKey baseImage) fun v =>
      ∃ payload codec, Sound env artifact verifyingKey baseImage v payload codec := by
  refine (parseArtifact_safe artifact).bind fun parsed hparsed => ?_
  obtain ⟨manifest, signed, payload⟩ := parsed
  refine (throwIf_safe _ _).bind fun _ _ => ?_
  refine (throwIf_safe _ _).bind fun _ _ => ?_
  refine (okOr_safe _ _).bind fun signature hsignature => ?_
  refine (throwIf_safe _ _).bind fun _ hverify => ?_
  refine (throwIf_safe _ _).bind fun _ hsizes => ?_
  simp only [not_or, ne_eq, Decidable.not_not, Nat.not_lt] at hsizes
  obtain ⟨hcount, -, hmax, -, -, hencodedSize, -⟩ := hsizes
  refine (bytes32_safe _ _).bind fun blockTableSha256 hblockTableSha256 => ?_
  refine (throwIf_safe _ _).bind fun _ hblockTable => ?_
  refine (bytes32_safe _ _).bind fun encodedSha256 hencodedSha256 => ?_
  refine (throwIf_safe _ _).bind fun _ hpayload => ?_
  refine (okOr_safe _ _).bind fun codec hcodec => ?_
  have hsize : Safe (expectedBlockSize codec) fun _ =>
      codec = .fullDeflate ∨ codec = .deltaBlock := by
    cases codec with
    | unspecified => exact safe_throw _
    | fullDeflate => exact safe_pure (Or.inl rfl)
    | deltaBlock => exact safe_pure (Or.inr rfl)
  refine hsize.bind fun blockSize hknown => ?_
  refine (throwIf_safe _ _).bind fun _ _ => ?_
  refine (throwIf_safe _ _).bind fun _ _ => ?_
  refine (checkBase_safe codec signed baseImage).bind fun base hbase => ?_
  let ctx : BlockContext :=
    { codec := codec
      expectedBlockSize := blockSize
      blockCount := manifest.blocks.length
      payload := payload
      base := base }
  have hstart : Progress env ctx signed.rawSize.toNat []
      { image := List.replicate signed.rawSize.toNat 0, nextRaw := 0, nextEncoded := 0 } :=
    ⟨rfl, rfl, rfl, List.length_replicate, Nat.zero_le _,
      fun _ hmem => absurd hmem List.not_mem_nil⟩
  have hroom : ([] : List FirmwareBlockDescriptor).length + manifest.blocks.length ≤
      maxBlockCount := by
    rw [List.length_nil]
    omega
  have hblocks := verifyBlocks_safe hstart hroom
  refine hblocks.bind fun cursor hcursor => ?_
  rw [List.nil_append] at hcursor
  refine (throwIf_safe _ _).bind fun _ hcoverage => ?_
  simp only [not_or, ne_eq, Decidable.not_not] at hcoverage
  obtain ⟨hraw, hencoded⟩ := hcoverage
  refine (bytes32_safe _ _).bind fun imageSha256 himageSha256 => ?_
  refine (throwIf_safe _ _).bind fun _ himage => ?_
  have hrawTiles := hcursor.rawTiles
  have hencodedTiles := hcursor.encodedTiles
  rw [hraw] at hrawTiles
  rw [hencoded] at hencodedTiles
  refine safe_pure ⟨payload, codec, rfl, hparsed, ⟨signature, hsignature, ?_⟩, ⟨hcodec, hknown⟩,
    hcursor.image_length, hencodedSize.symm, ?_, hrawTiles, hencodedTiles, ?_, ?_, ?_, ?_, ?_⟩
  · simpa using hverify
  · rw [hcount]
    exact hcursor.indices
  · intro block hblock
    obtain ⟨horigin, hrawHash, hencodedHash⟩ := hcursor.covered block hblock
    refine ⟨?_, hrawHash, hencodedHash⟩
    cases horigin with
    | inflated hkind hinflates => exact .inflated hkind hinflates
    | copied hkind hdelta hbaseEq hfits hrawEq =>
        have hdelta' : codec = .deltaBlock := hdelta
        rw [if_pos hdelta'] at hbase
        exact .copied hkind hdelta (hbase.1.symm.trans hbaseEq) hfits hrawEq
  · rw [not_not.mp hblockTable, hblockTableSha256]
  · rw [not_not.mp hpayload, hencodedSha256]
  · rw [not_not.mp himage, himageSha256]
  · intro hdelta
    rw [if_pos hdelta] at hbase
    exact hbase.2

/-- `verify_artifact` does not panic, and an artifact that it accepts is sound.  The base
image that a delta artifact is put together from has the hash of its signed fields. -/
theorem verifyArtifact_sound (env : ArtifactEnv) (artifact : Bytes)
    (verifyingKey : env.VerifyingKey) (baseImage : Option Bytes) :
    (verifyArtifact env artifact verifyingKey baseImage).run ≠ none ∧
      ∀ v, (verifyArtifact env artifact verifyingKey baseImage).run = some (.ok v) →
        (∃ payload codec, Sound env artifact verifyingKey baseImage v payload codec ∧
          (v.manifest.blocks.map fun block => block.rawSpan.slice v.image).flatten = v.image ∧
          (v.manifest.blocks.map fun block => block.encodedSpan.slice payload).flatten =
            payload) ∧
        ∀ image, baseImage = some image →
          FirmwareArtifactCodec.tryFrom v.signed.codec = some .deltaBlock →
          (env.sha256 image).toList = v.signed.baseImageSha256 := by
  have hsafe := @verifyArtifact_safe env artifact verifyingKey baseImage
  refine ⟨hsafe.not_none, fun v hrun => ?_⟩
  obtain ⟨payload, codec, hsound⟩ := hsafe.of_ok hrun
  refine ⟨⟨payload, codec, hsound, ?_, ?_⟩, fun image himage hdelta => ?_⟩
  · have hpieces := hsound.rawTiles.flatten_slices rfl
    rwa [List.map_map, List.drop_zero] at hpieces
  · have hpieces := hsound.encodedTiles.flatten_slices rfl
    rwa [List.map_map, List.drop_zero] at hpieces
  · have hcodec := hsound.codec_eq.1
    rw [hdelta, Option.some.injEq] at hcodec
    obtain ⟨base, hbase, hhash⟩ := hsound.baseHash hcodec.symm
    rw [himage, Option.some.injEq] at hbase
    rwa [hbase]

/-! ## A delta artifact of one copied byte -/

open OtaV3 (varintField bytesField encodeVarint letterRaw letterRawSha256)

def emptySha256 : Digest :=
  #v[227, 176, 196, 66, 152, 252, 28, 20, 154, 251, 244, 200, 153, 111, 185, 36,
    39, 174, 65, 228, 100, 155, 147, 76, 164, 149, 153, 27, 120, 82, 184, 85]

def copyChainSha256 : Digest :=
  #v[162, 180, 176, 145, 184, 127, 20, 231, 114, 169, 103, 238, 97, 110, 202, 81,
    214, 205, 150, 216, 26, 59, 152, 90, 40, 247, 80, 214, 40, 51, 179, 228]

def copyArtifactSha256 : Digest :=
  #v[64, 123, 9, 71, 4, 100, 213, 215, 49, 229, 189, 73, 214, 52, 161, 167,
    23, 70, 109, 18, 30, 194, 101, 116, 191, 151, 38, 236, 5, 203, 228, 241]

def copyBlock : FirmwareBlockDescriptor where
  index := 0
  rawOffset := 0
  rawSize := 1
  encodedOffset := 0
  encodedSize := 0
  kind := 2
  rawSha256 := letterRawSha256.toList
  encodedSha256 := emptySha256.toList

/-- The protobuf encoding of the block. -/
def copyBlockBytes : Bytes :=
  varintField 3 1 ++ varintField 6 2 ++ bytesField 7 copyBlock.rawSha256 ++
    bytesField 8 copyBlock.encodedSha256

def copySigned : FirmwareArtifactSignedFields where
  schemaVersion := 1
  projectName := "p"
  chipTarget := "c"
  firmwareVersion := ""
  buildCommit := ""
  minimumCoreVersion := 0
  minimumFabricSchema := 0
  rawSize := 1
  encodedSize := 0
  requiredAppSlotSize := 1
  codec := 2
  imageSha256 := letterRawSha256.toList
  encodedSha256 := emptySha256.toList
  blockTableSha256 := copyChainSha256.toList
  baseImageSha256 := letterRawSha256.toList
  blockSize := 8192
  blockCount := 1
  deflateWindowBits := 11
  signingKeyId := "k"

def copySignedBytes : Bytes :=
  varintField 1 1 ++ bytesField 2 [0x70] ++ bytesField 3 [0x63] ++ varintField 8 1 ++
    varintField 10 1 ++ varintField 11 2 ++ bytesField 12 copySigned.imageSha256 ++
    bytesField 13 copySigned.encodedSha256 ++ bytesField 14 copySigned.blockTableSha256 ++
    bytesField 15 copySigned.baseImageSha256 ++ varintField 16 8192 ++ varintField 17 1 ++
    varintField 18 11 ++ bytesField 19 [0x6b]

def copyManifest : FirmwareArtifactManifest where
  signedFields := copySignedBytes
  blocks := [copyBlock]
  signature := List.replicate 64 0

def copyManifestBytes : Bytes :=
  bytesField 1 copySignedBytes ++ bytesField 2 copyBlockBytes ++
    bytesField 3 copyManifest.signature

def copyArtifact : Bytes :=
  magic ++ [51, 1, 0, 0] ++ [224, 238, 55, 34] ++ copyManifestBytes

/-- The bytes that the block table covers. -/
def copyChained : Bytes :=
  List.replicate 32 0 ++ encodeVarint copyBlockBytes.length ++ copyBlockBytes

/-- The crates on the artifact, whose signature counts as good. -/
def copyEnv : ArtifactEnv where
  usizeMax := 2 ^ 64 - 1
  usizeMax_le := by decide
  sha256 := fun bytes =>
    if bytes = letterRaw then letterRawSha256
    else if bytes = [] then emptySha256
    else if bytes = copyChained then copyChainSha256
    else if bytes = copyArtifact then copyArtifactSha256
    else Vector.replicate 32 0
  crc32 := fun bytes => if bytes = copyManifestBytes then 0x2237eee0 else 0
  encodeDescriptor := fun _ => encodeVarint copyBlockBytes.length ++ copyBlockBytes
  decodeManifest := fun bytes =>
    if bytes = copyManifestBytes then .ok copyManifest else .error "manifest"
  decodeSignedFields := fun bytes =>
    if bytes = copySignedBytes then .ok copySigned else .error "signed fields"
  Signature := Unit
  VerifyingKey := Unit
  signatureFromSlice := fun _ => some ()
  verify := fun _ _ _ => true
  decompress := fun _ _ => none
  written_le := by
    intro input room inflation h
    cases h

def copyVerified : VerifiedArtifact where
  artifactId := copyArtifactSha256
  manifest := copyManifest
  signed := copySigned
  image := letterRaw

/-- The byte of the image is the byte of the base image. -/
theorem verifyArtifact_sound_copy :
    (verifyArtifact copyEnv copyArtifact () (some letterRaw)).run = some (.ok copyVerified) ∧
      (copyEnv.sha256 letterRaw).toList = copySigned.baseImageSha256 :=
  ⟨by decide +kernel,
    ((verifyArtifact_sound copyEnv copyArtifact () (some letterRaw)).2 copyVerified
      (by decide +kernel)).2 letterRaw rfl (by decide)⟩

end KeemashCore.KeeLink.Ota

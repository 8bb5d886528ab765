import KeemashCore.KeeLink.ArtifactSound
import KeemashCore.KeeLink.Build
import KeemashCore.KeeLink.Wire

/-!
# What is built verifies

The builder goes through the chunks of the image, and the verifier goes through the
descriptors that come of it.  `Described` says what one turn of the first loop leaves, and
one turn of the second loop undoes it; the two runs then go along together.
-/

namespace KeemashCore.KeeLink.Ota

open Effects LittleEndian Tiling

/-! ## Steps -/

section Steps

variable {env : ArtifactEnv} {err : ArtifactError}

theorem throwIf_neg {condition : Prop} [Decidable condition] (h : ¬condition) :
    throwIf condition err = pure () :=
  if_neg h

theorem not_of_throwIf {condition : Prop} [Decidable condition] {u : Unit}
    (h : throwIf condition err = pure u) : ¬condition := by
  intro hcondition
  rw [throwIf, if_pos hcondition] at h
  exact throw_ne_pure h

theorem sliceOf_eq {bytes : Bytes} {start stop : ℕ} (hle : start ≤ stop)
    (hfits : stop ≤ bytes.length) :
    sliceOf bytes start stop = pure (Span.slice ⟨start, stop - start⟩ bytes) :=
  if_pos ⟨hle, hfits⟩

/-- The bytes between two others. -/
theorem sliceOf_middle {bytes : Bytes} (before : Bytes) {piece : Bytes} (after : Bytes)
    {start stop : ℕ} (h : bytes = before ++ piece ++ after) (hstart : start = before.length)
    (hstop : stop = before.length + piece.length) :
    sliceOf bytes start stop = pure piece := by
  have hlength : bytes.length = before.length + piece.length + after.length := by
    rw [h, List.length_append, List.length_append]
  rw [sliceOf_eq (by omega) (by omega), h, hstart, hstop, Nat.add_sub_cancel_left,
    Span.slice_middle]

theorem bytes32_toList (digest : Digest) (field : String) :
    bytes32 digest.toList field = pure digest := by
  have hlength : digest.toList.length = 32 := digest.toArray.length_toList.trans digest.size_toArray
  rw [bytes32, dif_pos hlength]
  rfl

theorem addUsize_eq {a b : ℕ} (h : a + b < 2 ^ 32) : addUsize env a b = pure (a + b) := by
  have hmax := env.usizeMax_le
  exact if_pos (by omega)

theorem endWithin_eq_some {a b limit : ℕ} (h : a + b < 2 ^ 32) (hlimit : a + b ≤ limit) :
    endWithin env a b limit = some (a + b) := by
  have hmax := env.usizeMax_le
  exact if_pos ⟨by omega, hlimit⟩

theorem decoded_ok {α : Type} (a : α) : decoded (.ok a) = pure a :=
  rfl

theorem checkedU32_eq {value : ℕ} {word : UInt32} (h : checkedU32 value = pure word) :
    word.toNat = value ∧ value < 2 ^ 32 := by
  rw [checkedU32] at h
  split at h
  · next hlt =>
      obtain rfl := eq_of_pure_eq h
      exact ⟨UInt32.toNat_ofNat_of_lt' hlt, hlt⟩
  · exact absurd h throw_ne_pure

end Steps

/-! ## Chunks -/

/-- Chunks of an image: full ones, and a last one that is not empty. -/
inductive Cut (size : ℕ) : List Bytes → Prop where
  | nil : Cut size []
  | cons {raw : Bytes} {rest : List Bytes} (ne_nil : raw ≠ []) (le : raw.length ≤ size)
      (full : rest ≠ [] → raw.length = size) (more : Cut size rest) : Cut size (raw :: rest)

theorem chunks_nil {size : ℕ} (hsize : 0 < size) : chunks size [] = [] := by
  rw [chunks, List.length_nil, Nat.zero_add, Nat.div_eq_of_lt (by omega)]
  rfl

theorem chunks_cons {size : ℕ} (hsize : 0 < size) {image : Bytes} (h : image ≠ []) :
    chunks size image = image.take size :: chunks size (image.drop size) := by
  have hpos := List.length_pos_iff.2 h
  have hcount : (image.length + size - 1) / size =
      ((image.drop size).length + size - 1) / size + 1 := by
    rw [List.length_drop, ← Nat.add_div_right _ hsize]
    by_cases hle : size ≤ image.length
    · congr 1
      omega
    · have hover : image.length - size = 0 := by omega
      have hone : (image.length + size - 1) / size = 1 :=
        Nat.div_eq_of_lt_le (by omega) (by omega)
      rw [hover, hone, Nat.zero_add, Nat.add_div_right _ hsize, Nat.div_eq_of_lt (by omega)]
  rw [chunks, hcount, List.range_succ_eq_map, List.map_cons, List.map_map]
  refine congrArg₂ List.cons ?_ (List.map_congr_left fun i _ => ?_)
  · rw [Nat.zero_mul]
    rfl
  · rw [Function.comp_apply, Span.slice, Span.slice, List.drop_drop, Nat.succ_mul, Nat.add_comm]

theorem chunks_cut {size : ℕ} (hsize : 0 < size) (image : Bytes) :
    Cut size (chunks size image) ∧ (chunks size image).flatten = image := by
  induction hlength : image.length using Nat.strong_induction_on generalizing image with
  | _ n ih =>
      by_cases h : image = []
      · rw [h, chunks_nil hsize]
        exact ⟨.nil, rfl⟩
      · have hpos := List.length_pos_iff.2 h
        have hless : (image.drop size).length < n := by
          rw [List.length_drop]
          omega
        obtain ⟨hcut, hflat⟩ := ih _ hless (image.drop size) rfl
        rw [chunks_cons hsize h]
        refine ⟨.cons ?_ (List.length_take_le _ _) (fun hmore => ?_) hcut, ?_⟩
        · rw [← List.length_pos_iff, List.length_take]
          omega
        · have hne : image.drop size ≠ [] := by
            intro hnil
            rw [hnil, chunks_nil hsize] at hmore
            exact hmore rfl
          have hover := List.length_pos_iff.2 hne
          rw [List.length_drop] at hover
          rw [List.length_take]
          omega
        · rw [List.flatten_cons, hflat, List.take_append_drop]

/-! ## The crates -/

/-- The other crates undo what they do: decoding an encoded message gives it back, an
inflater gives back what a compressor has been given, and a signature verifies under the
key that goes with the one it was made with. -/
structure BuildEnv.Faithful (env : BuildEnv) (verifyingKey : env.SigningKey → env.VerifyingKey) :
    Prop where
  manifest : ∀ manifest, env.decodeManifest (env.encodeManifest manifest) = .ok manifest
  /-- No bytes decode to the message with every field at its default. -/
  emptyManifest : env.decodeManifest [] =
    .ok { signedFields := [], blocks := [], signature := [] }
  signedFields : ∀ signed, env.decodeSignedFields (env.encodeSignedFields signed) = .ok signed
  signature : ∀ signature, env.signatureFromSlice (env.signatureBytes signature) = some signature
  signature_length : ∀ signature, (env.signatureBytes signature).length = signatureLen
  verifies : ∀ key data, env.verify (verifyingKey key) data (env.sign key data) = true
  inflates : ∀ raw room deflation, env.compress raw room = some deflation →
    deflation.streamEnd = true → Inflates env.toArtifactEnv deflation.written raw
  /-- A finished stream has at least its last block. -/
  written_ne_nil : ∀ raw room deflation, env.compress raw room = some deflation →
    deflation.streamEnd = true → deflation.written ≠ []

section Blocks

variable {env : BuildEnv} {verifyingKey : env.SigningKey → env.VerifyingKey}
  {baseImage : Option Bytes} {blockSize index : ℕ} {raw : Bytes}

/-! ## One block -/

/-- Where the bytes of a chunk went: nowhere when the base image has them in the same
place, else into the payload. -/
inductive Packed (env : BuildEnv) (baseImage : Option Bytes) (rawOffset : ℕ) (raw : Bytes)
    (block : FirmwareBlockDescriptor) (encoded : Bytes) : Prop where
  | copied {base : Bytes} (base_eq : baseImage = some base) (kind : block.kind = 2)
      (nothing : encoded = []) (fits : rawOffset + raw.length ≤ base.length)
      (raw_eq : Span.slice ⟨rawOffset, raw.length⟩ base = raw) :
      Packed env baseImage rawOffset raw block encoded
  | deflated (kind : block.kind = 1) (compressed : compressBlock env raw = pure encoded) :
      Packed env baseImage rawOffset raw block encoded

/-- The descriptor of a chunk with its encoded bytes. -/
structure Described (env : BuildEnv) (baseImage : Option Bytes) (blockSize index : ℕ)
    (raw : Bytes) (encodedOffset : ℕ) (block : FirmwareBlockDescriptor) (encoded : Bytes) :
    Prop where
  index_eq : block.index.toNat = index
  index_lt : index < 2 ^ 32
  rawOffset_eq : block.rawOffset.toNat = index * blockSize
  rawSize_eq : block.rawSize.toNat = raw.length
  encodedOffset_eq : block.encodedOffset.toNat = encodedOffset
  encodedSize_eq : block.encodedSize.toNat = encoded.length
  rawSha256_eq : block.rawSha256 = (env.sha256 raw).toList
  encodedSha256_eq : block.encodedSha256 = (env.sha256 encoded).toList
  packed : Packed env baseImage (index * blockSize) raw block encoded

theorem canCopy_eq {rawOffset : ℕ} {copied : Bool}
    (h : canCopy env baseImage raw rawOffset = pure copied) (htrue : copied = true) :
    ∃ base, baseImage = some base ∧ rawOffset + raw.length ≤ base.length ∧
      Span.slice ⟨rawOffset, raw.length⟩ base = raw := by
  cases baseImage with
  | none =>
      have hfalse := eq_of_pure_eq h
      rw [htrue] at hfalse
      cases hfalse
  | some base =>
      obtain ⟨stop, hstop, h⟩ := bind_eq_pure h
      rw [addUsize] at hstop
      split at hstop
      · obtain rfl := eq_of_pure_eq hstop
        have hcopied := eq_of_pure_eq h
        rw [htrue, decide_eq_true_eq] at hcopied
        exact ⟨base, rfl, hcopied⟩
      · cases hstop

theorem buildBlock_described {built built' : Built}
    (h : buildBlock env baseImage blockSize index raw built = pure built') :
    ∃ block encoded, built' = ⟨built.blocks ++ [block], built.payload ++ encoded⟩ ∧
      Described env baseImage blockSize index raw built.payload.length block encoded := by
  obtain ⟨rawOffset, hoffset, h⟩ := bind_eq_pure h
  have hoffset_eq : rawOffset = index * blockSize := by
    rw [mulUsize] at hoffset
    split at hoffset
    · exact (eq_of_pure_eq hoffset).symm
    · cases hoffset
  obtain ⟨copied, hcopied, h⟩ := bind_eq_pure h
  obtain ⟨encoded, hencoded, h⟩ := bind_eq_pure h
  obtain ⟨word, hindex, h⟩ := bind_eq_pure h
  obtain ⟨rawOffset32, hrawOffset, h⟩ := bind_eq_pure h
  obtain ⟨rawSize, hrawSize, h⟩ := bind_eq_pure h
  obtain ⟨encodedOffset, hencodedOffset, h⟩ := bind_eq_pure h
  obtain ⟨encodedSize, hencodedSize, h⟩ := bind_eq_pure h
  obtain rfl := eq_of_pure_eq h
  subst hoffset_eq
  refine ⟨_, encoded, rfl, (checkedU32_eq hindex).1, (checkedU32_eq hindex).2,
    (checkedU32_eq hrawOffset).1, (checkedU32_eq hrawSize).1, (checkedU32_eq hencodedOffset).1,
    (checkedU32_eq hencodedSize).1, rfl, rfl, ?_⟩
  cases copied with
  | true =>
      obtain ⟨base, hbase, hfits, hraw⟩ := canCopy_eq hcopied rfl
      exact .copied hbase rfl (eq_of_pure_eq hencoded).symm hfits hraw
  | false => exact .deflated rfl hencoded

theorem compressBlock_inflates (henv : env.Faithful verifyingKey) {encoded : Bytes}
    (h : compressBlock env raw = pure encoded) :
    Inflates env.toArtifactEnv encoded raw ∧ encoded ≠ [] := by
  obtain ⟨deflation, hdeflation, h⟩ := bind_eq_pure h
  obtain ⟨u, hend, h⟩ := bind_eq_pure h
  obtain rfl := eq_of_pure_eq h
  have hfinished := not_of_throwIf hend
  rw [Bool.not_eq_false] at hfinished
  cases hcompress : env.compress raw (deflateRoom env raw.length) with
  | none =>
      rw [hcompress] at hdeflation
      exact absurd hdeflation throw_ne_pure
  | some other =>
      rw [hcompress] at hdeflation
      obtain rfl := eq_of_pure_eq hdeflation
      exact ⟨henv.inflates _ _ _ hcompress hfinished, henv.written_ne_nil _ _ _ hcompress hfinished⟩

theorem decompressBlock_inflates {encoded : Bytes} (h : Inflates env.toArtifactEnv encoded raw)
    (word : UInt32) : decompressBlock env.toArtifactEnv encoded raw.length word = pure raw := by
  rw [Inflates] at h
  rw [decompressBlock, h, okOr, pure_bind, throwIf_neg, pure_bind, Nat.sub_self,
    List.replicate_zero, List.append_nil]
  rintro (hno | hno | hno)
  · cases hno
  · exact hno rfl
  · exact hno rfl

/-- What the verifier takes the bytes of a block from. -/
structure BlockContext.Fits (ctx : BlockContext) (baseImage : Option Bytes) (blockSize : ℕ) :
    Prop where
  base_eq : ctx.base = baseImage
  codec_eq : baseImage.isSome = true → ctx.codec = .deltaBlock
  blockSize_eq : ctx.expectedBlockSize = blockSize

theorem rawBlock_described (henv : env.Faithful verifyingKey) {ctx : BlockContext}
    (hctx : ctx.Fits baseImage blockSize) {encodedOffset : ℕ} {block : FirmwareBlockDescriptor}
    {encoded : Bytes}
    (h : Described env baseImage blockSize index raw encodedOffset block encoded) :
    rawBlock env.toArtifactEnv ctx block encoded (index * blockSize)
      (index * blockSize + raw.length) = pure raw := by
  cases h.packed with
  | copied hbase hkind hnothing hfits hraw =>
      have hsome : ctx.base = some _ := hctx.base_eq.trans hbase
      have hcodec := hctx.codec_eq (by rw [hbase, Option.isSome_some])
      rw [rawBlock, hkind]
      change (do
        throwIf (ctx.codec ≠ .deltaBlock ∨ encoded ≠ [] ∨
          ctx.base.all fun value => index * blockSize + raw.length > value.length)
          (.blockBounds block.index)
        let value ← okOr ctx.base .missingBaseImage
        sliceOf value (index * blockSize) (index * blockSize + raw.length) : RustM Bytes) =
          pure raw
      rw [throwIf_neg, pure_bind, hsome, okOr, pure_bind,
        sliceOf_eq (Nat.le_add_right _ _) hfits, Nat.add_sub_cancel_left, hraw]
      rw [hsome, Option.all_some, decide_eq_true_eq]
      rintro (hno | hno | hno)
      · exact hno hcodec
      · exact hno hnothing
      · exact absurd hfits (Nat.not_le_of_gt hno)
  | deflated hkind hcompressed =>
      obtain ⟨hinflates, hne⟩ := compressBlock_inflates henv hcompressed
      rw [rawBlock, hkind]
      change (do
        throwIf (encoded = []) (.blockBounds block.index)
        decompressBlock env.toArtifactEnv encoded block.rawSize.toNat block.index : RustM Bytes) =
          pure raw
      rw [throwIf_neg hne, pure_bind, h.rawSize_eq]
      exact decompressBlock_inflates hinflates _

/-- One turn of the verifier undoes one turn of the builder. -/
theorem verifyBlock_described (henv : env.Faithful verifyingKey) {ctx : BlockContext}
    (hctx : ctx.Fits baseImage blockSize) {block : FirmwareBlockDescriptor}
    {encoded front zeros before after : Bytes}
    (h : Described env baseImage blockSize index raw before.length block encoded)
    (hpayload : ctx.payload = before ++ encoded ++ after) (hsmall : ctx.payload.length < 2 ^ 32)
    (hfront : front.length = index * blockSize) (hroom : raw.length ≤ zeros.length)
    (himage : front.length + zeros.length < 2 ^ 32) (hne : raw ≠ [])
    (hle : raw.length ≤ blockSize)
    (hfull : index + 1 < ctx.blockCount → raw.length = blockSize)
    (hindex : index + 1 < 2 ^ 32) :
    verifyBlock env.toArtifactEnv ctx index block
        { image := front ++ zeros, nextRaw := front.length, nextEncoded := before.length } =
      pure
        { image := front ++ raw ++ zeros.drop raw.length
          nextRaw := front.length + raw.length
          nextEncoded := before.length + encoded.length } := by
  have hpieces : ctx.payload.length = before.length + encoded.length + after.length := by
    rw [hpayload, List.length_append, List.length_append]
  have hpos := List.length_pos_iff.2 hne
  have hsize : block.rawSize ≠ 0 := by
    intro hzero
    have hraw := h.rawSize_eq
    rw [hzero] at hraw
    exact absurd hraw.symm (Nat.ne_of_gt hpos)
  have hplace : ¬(block.index.toNat ≠ index ∨ block.rawOffset.toNat ≠ front.length ∨
      block.encodedOffset.toNat ≠ before.length ∨ block.rawSize = 0 ∨
      block.rawSize.toNat > ctx.expectedBlockSize) := by
    rw [h.index_eq, h.rawOffset_eq, h.encodedOffset_eq, h.rawSize_eq, hctx.blockSize_eq, hfront]
    rintro (hno | hno | hno | hno | hno)
    · exact hno rfl
    · exact hno rfl
    · exact hno rfl
    · exact hsize hno
    · exact absurd hle (Nat.not_le_of_gt hno)
  have hlast : ¬(index + 1 < ctx.blockCount ∧ block.rawSize.toNat ≠ ctx.expectedBlockSize) := by
    rw [h.rawSize_eq, hctx.blockSize_eq]
    exact fun hno => hno.2 (hfull hno.1)
  have hlength : (front ++ zeros).length = front.length + zeros.length := List.length_append
  rw [verifyBlock, throwIf_neg hplace, pure_bind, addUsize_eq hindex, pure_bind,
    throwIf_neg hlast, pure_bind, h.rawSize_eq, h.encodedSize_eq]
  dsimp only
  rw [endWithin_eq_some (by omega) (by omega), okOr, pure_bind,
    endWithin_eq_some (by omega) (by omega), okOr, pure_bind,
    sliceOf_middle before after hpayload rfl rfl, pure_bind, h.encodedSha256_eq, bytes32_toList, pure_bind, throwIf_neg (fun hno => hno rfl),
    pure_bind, hfront, rawBlock_described henv hctx h, pure_bind, h.rawSha256_eq,
    bytes32_toList, pure_bind, throwIf_neg (fun hno => hno rfl), pure_bind, copyFromSlice,
    if_pos ⟨Nat.le_add_right _ _, by omega, (Nat.add_sub_cancel_left _ _).symm⟩, pure_bind,
    ← hfront, List.take_left, List.drop_append]
  rw [List.drop_eq_nil_of_le (Nat.le_add_right _ _), List.nil_append, Nat.add_sub_cancel_left]

/-! ## All blocks -/

/-- The verifier goes along with the builder: after the same number of turns it stands at
the end of what has been built, with the chunks in the image. -/
theorem buildBlocks_verified (henv : env.Faithful verifyingKey) {rest : List Bytes}
    (hcut : Cut blockSize rest) {built built' : Built}
    (h : buildBlocks env baseImage blockSize index rest built = pure built') :
    ∃ blocks more, built' = ⟨built.blocks ++ blocks, built.payload ++ more⟩ ∧
      blocks.length = rest.length ∧
      ∀ (ctx : BlockContext) (front : Bytes), ctx.Fits baseImage blockSize →
        ctx.payload = built'.payload → ctx.payload.length < 2 ^ 32 →
        ctx.blockCount = index + rest.length → ctx.blockCount < 2 ^ 32 →
        (rest ≠ [] → front.length = index * blockSize) →
        front.length + rest.flatten.length < 2 ^ 32 →
        verifyBlocks env.toArtifactEnv ctx index blocks
            { image := front ++ List.replicate rest.flatten.length 0
              nextRaw := front.length
              nextEncoded := built.payload.length } =
          pure
            { image := front ++ rest.flatten
              nextRaw := front.length + rest.flatten.length
              nextEncoded := ctx.payload.length } := by
  induction hcut generalizing index built with
  | nil =>
      obtain rfl := eq_of_pure_eq h
      refine ⟨[], [], by simp, rfl, ?_⟩
      intro ctx front _ hpayload _ _ _ _ _
      rw [verifyBlocks, hpayload]
      rfl
  | @cons raw rest hne hle hfull hmore ih =>
      obtain ⟨next, hnext, h⟩ := bind_eq_pure h
      obtain ⟨block, encoded, rfl, hdescribed⟩ := buildBlock_described hnext
      obtain ⟨blocks, more, hbuilt, hlength, hrun⟩ := ih h
      refine ⟨block :: blocks, encoded ++ more, ?_, ?_, ?_⟩
      · rw [hbuilt, List.append_assoc, List.append_assoc, List.singleton_append]
      · rw [List.length_cons, List.length_cons, hlength]
      intro ctx front hctx hpayload hsmall hcount hcountLt hfront himage
      have hstart := hfront (List.cons_ne_nil _ _)
      rw [List.length_cons] at hcount
      rw [List.flatten_cons, List.length_append] at himage
      rw [List.flatten_cons, List.length_append, verifyBlocks]
      have hpieces : ctx.payload = built.payload ++ encoded ++ more := by
        rw [hpayload, hbuilt]
      have hzeros : (List.replicate (raw.length + rest.flatten.length) (0 : UInt8)).length =
          raw.length + rest.flatten.length := List.length_replicate
      have hlast : index + 1 < ctx.blockCount → raw.length = blockSize := by
        intro hlt
        refine hfull fun hnil => ?_
        rw [hnil, List.length_nil] at hcount
        omega
      rw [verifyBlock_described henv hctx hdescribed hpieces hsmall hstart (by omega) (by omega)
        hne hle hlast (by omega), pure_bind]
      have hfront' : rest ≠ [] → (front ++ raw).length = (index + 1) * blockSize := by
        intro hrest
        rw [List.length_append, hstart, hfull hrest, Nat.succ_mul]
      have hlength' : (front ++ raw).length = front.length + raw.length := List.length_append
      have hpayload' : (built.payload ++ encoded).length = built.payload.length + encoded.length :=
        List.length_append
      have hgoal := hrun ctx (front ++ raw) hctx hpayload hsmall (by omega) hcountLt hfront'
        (by omega)
      rw [hlength', hpayload', List.append_assoc front raw rest.flatten, Nat.add_assoc] at hgoal
      rw [List.drop_replicate, Nat.add_sub_cancel_left]
      exact hgoal

end Blocks

/-! ## The whole artifact -/

section Artifact

variable {env : BuildEnv} {verifyingKey : env.SigningKey → env.VerifyingKey}

theorem bytesOf_four {n : ℕ} (h : n < 2 ^ 32) : valueOf (bytesOf 4 n) = n := by
  rw [valueOf_bytesOf, Nat.mod_eq_of_lt (by omega)]

/-- A packed artifact parses to its manifest and its payload. -/
theorem parseArtifact_packed {manifestBytes payload artifact : Bytes}
    {manifest : FirmwareArtifactManifest} {signed : FirmwareArtifactSignedFields}
    (h : packArtifact env manifestBytes payload = pure artifact) (hne : manifestBytes ≠ [])
    (hmanifest : env.decodeManifest manifestBytes = .ok manifest)
    (hsigned : env.decodeSignedFields manifest.signedFields = .ok signed) :
    parseArtifact env.toArtifactEnv artifact = pure (manifest, signed, payload) := by
  obtain ⟨_, hmax, h⟩ := bind_eq_pure h
  have hle := Nat.le_of_not_lt (not_of_throwIf hmax)
  obtain ⟨word, hword, h⟩ := bind_eq_pure h
  obtain ⟨_, hsize, h⟩ := bind_eq_pure h
  obtain rfl := eq_of_pure_eq h
  have hpackage := not_of_throwIf hsize
  obtain ⟨hlen, hlt⟩ := checkedU32_eq hword
  rw [hlen] at hpackage ⊢
  have hpos := List.length_pos_iff.2 hne
  have hmagic : magic.length = 8 := rfl
  have hheader : headerSize = 16 := rfl
  generalize hcrc : bytesOf 4 (env.crc32 manifestBytes) = crcBytes at hpackage ⊢
  have hcrcLength : crcBytes.length = 4 := by rw [← hcrc, length_bytesOf]
  have hcrcValue : valueOf crcBytes = env.crc32 manifestBytes := by
    rw [← hcrc, bytesOf_four (env.crc32_lt _)]
  generalize hlenBytes : bytesOf 4 manifestBytes.length = lenBytes at hpackage ⊢
  have hlenLength : lenBytes.length = 4 := by rw [← hlenBytes, length_bytesOf]
  have hlenValue : valueOf lenBytes = manifestBytes.length := by
    rw [← hlenBytes, bytesOf_four hlt]
  generalize hartifact : magic ++ lenBytes ++ crcBytes ++ manifestBytes ++ payload = artifact
    at hpackage ⊢
  have htotal : artifact.length = 16 + manifestBytes.length + payload.length := by
    rw [← hartifact]
    simp only [List.length_append, hmagic, hlenLength, hcrcLength]
  have hmagicAt : sliceOf artifact 0 magic.length = pure magic :=
    sliceOf_middle [] (lenBytes ++ crcBytes ++ manifestBytes ++ payload)
      (by rw [← hartifact]; simp) rfl (Nat.zero_add _).symm
  have hlenAt : sliceOf artifact 8 12 = pure lenBytes :=
    sliceOf_middle magic (crcBytes ++ manifestBytes ++ payload)
      (by rw [← hartifact]; simp) rfl (by rw [hlenLength, hmagic])
  have hcrcAt : sliceOf artifact 12 16 = pure crcBytes :=
    sliceOf_middle (magic ++ lenBytes) (manifestBytes ++ payload)
      (by rw [← hartifact]; simp) (by rw [List.length_append, hlenLength, hmagic])
      (by rw [List.length_append, hlenLength, hmagic, hcrcLength])
  have hmanifestAt : sliceOf artifact headerSize (headerSize + manifestBytes.length) =
      pure manifestBytes :=
    sliceOf_middle (magic ++ lenBytes ++ crcBytes) payload
      (by rw [← hartifact])
      (by rw [List.length_append, List.length_append, hlenLength, hmagic, hcrcLength, hheader])
      (by rw [List.length_append, List.length_append, hlenLength, hmagic, hcrcLength, hheader])
  have hpayloadAt : sliceOf artifact (headerSize + manifestBytes.length) artifact.length =
      pure payload :=
    sliceOf_middle (magic ++ lenBytes ++ crcBytes ++ manifestBytes) []
      (by rw [← hartifact, List.append_nil])
      (by simp only [List.length_append, hlenLength, hmagic, hcrcLength, hheader])
      (by simp only [List.length_append, hlenLength, hmagic, hcrcLength, htotal])
  have hsizes : ¬(valueOf lenBytes = 0 ∨ valueOf lenBytes > maxManifestSize) := by
    rw [hlenValue]
    omega
  have hsmall : maxManifestSize + 16 < 2 ^ 32 := by decide
  rw [parseArtifact, throwIf_neg (by omega), pure_bind, throwIf_neg (by exact hpackage),
    pure_bind, hmagicAt, pure_bind, throwIf_neg (fun hno => hno rfl), pure_bind, hlenAt,
    pure_bind]
  dsimp only
  rw [throwIf_neg hsizes, pure_bind, hlenValue,
    endWithin_eq_some (by omega) (by omega), okOr, pure_bind, hcrcAt, pure_bind, hmanifestAt,
    pure_bind, throwIf_neg (by rw [hcrcValue]; exact fun hno => hno rfl), pure_bind, hmanifest,
    decoded_ok, pure_bind, hsigned, decoded_ok, pure_bind, hpayloadAt, pure_bind]

/-- The signed fields say what the spec says. -/
structure ArtifactBuildSpec.Signed (spec : ArtifactBuildSpec)
    (signed : FirmwareArtifactSignedFields) : Prop where
  projectName : signed.projectName = spec.projectName
  chipTarget : signed.chipTarget = spec.chipTarget
  firmwareVersion : signed.firmwareVersion = spec.firmwareVersion
  buildCommit : signed.buildCommit = spec.buildCommit
  minimumCoreVersion : signed.minimumCoreVersion = spec.minimumCoreVersion
  minimumFabricSchema : signed.minimumFabricSchema = spec.minimumFabricSchema
  requiredAppSlotSize : signed.requiredAppSlotSize = spec.requiredAppSlotSize
  signingKeyId : signed.signingKeyId = spec.signingKeyId

/-- The manifest of an artifact of the blocks. -/
def manifestOf (env : BuildEnv) (signingKey : env.SigningKey) (blocks : List FirmwareBlockDescriptor)
    (signed : FirmwareArtifactSignedFields) : FirmwareArtifactManifest where
  signedFields := env.encodeSignedFields signed
  blocks := blocks
  signature := env.signatureBytes (env.sign signingKey (env.encodeSignedFields signed))

/-- What a build that succeeds has gone through. -/
structure BuiltFrom (env : BuildEnv) (image : Bytes) (baseImage : Option Bytes)
    (spec : ArtifactBuildSpec) (signingKey : env.SigningKey) (blockSize : ℕ) (built : Built)
    (signed : FirmwareArtifactSignedFields) (artifact : Bytes) : Prop where
  image_ne : image ≠ []
  image_le : image.length ≤ maxImageSize
  names : spec.projectName ≠ "" ∧ spec.chipTarget ≠ "" ∧ spec.signingKeyId ≠ ""
  slot : ¬spec.requiredAppSlotSize < UInt32.ofNat image.length
  blockSize_eq : blockSize = if baseImage.isSome then deltaBlockSize else fullBlockSize
  blocks : buildBlocks env baseImage blockSize 0 (chunks blockSize image)
    { blocks := [], payload := [] } = pure built
  signed_eq : signedFieldsOf env image baseImage spec blockSize built = pure signed
  packed : packArtifact env (env.encodeManifest (manifestOf env signingKey built.blocks signed))
    built.payload = pure artifact

theorem buildArtifact_builtFrom {image artifact : Bytes} {baseImage : Option Bytes}
    {spec : ArtifactBuildSpec} {signingKey : env.SigningKey}
    (h : buildArtifact env image baseImage spec signingKey = pure artifact) :
    ∃ blockSize built signed,
      BuiltFrom env image baseImage spec signingKey blockSize built signed artifact := by
  obtain ⟨_, himage, h⟩ := bind_eq_pure h
  obtain ⟨_, hnames, h⟩ := bind_eq_pure h
  obtain ⟨_, hslot, h⟩ := bind_eq_pure h
  obtain ⟨built, hblocks, h⟩ := bind_eq_pure h
  obtain ⟨signed, hsigned, h⟩ := bind_eq_pure h
  have himage := not_of_throwIf himage
  have hnames := not_of_throwIf hnames
  simp only [not_or] at himage hnames
  exact ⟨_, built, signed, himage.1, Nat.le_of_not_lt himage.2,
    ⟨hnames.1, hnames.2.1, hnames.2.2.2⟩, not_of_throwIf hslot, rfl, hblocks, hsigned, h⟩

/-- The signed fields go with the blocks and the spec. -/
structure Fields (env : BuildEnv) (image : Bytes) (baseImage : Option Bytes)
    (spec : ArtifactBuildSpec) (blockSize : ℕ) (built : Built)
    (signed : FirmwareArtifactSignedFields) : Prop where
  spec_eq : spec.Signed signed
  schemaVersion_eq : signed.schemaVersion = schemaVersion
  rawSize_eq : signed.rawSize.toNat = image.length
  encodedSize_eq : signed.encodedSize.toNat = built.payload.length
  blockCount_eq : signed.blockCount.toNat = built.blocks.length
  codec_eq : signed.codec = if baseImage.isSome then 2 else 1
  imageSha256_eq : signed.imageSha256 = (env.sha256 image).toList
  encodedSha256_eq : signed.encodedSha256 = (env.sha256 built.payload).toList
  blockTableSha256_eq : signed.blockTableSha256 =
    (blockTableChain env.toArtifactEnv built.blocks).toList
  baseImageSha256_eq : signed.baseImageSha256 =
    (baseImage.map fun base => (env.sha256 base).toList).getD []
  blockSize_eq : signed.blockSize = UInt32.ofNat blockSize
  window_eq : signed.deflateWindowBits = deflateWindowBits
  payload_lt : built.payload.length < 2 ^ 32

theorem signedFieldsOf_fields {image : Bytes} {baseImage : Option Bytes}
    {spec : ArtifactBuildSpec} {blockSize : ℕ} {built : Built}
    {signed : FirmwareArtifactSignedFields}
    (h : signedFieldsOf env image baseImage spec blockSize built = pure signed) :
    Fields env image baseImage spec blockSize built signed := by
  obtain ⟨rawSize, hrawSize, h⟩ := bind_eq_pure h
  obtain ⟨encodedSize, hencodedSize, h⟩ := bind_eq_pure h
  obtain ⟨blockCount, hblockCount, h⟩ := bind_eq_pure h
  obtain rfl := eq_of_pure_eq h
  exact ⟨⟨rfl, rfl, rfl, rfl, rfl, rfl, rfl, rfl⟩, rfl, (checkedU32_eq hrawSize).1,
    (checkedU32_eq hencodedSize).1, (checkedU32_eq hblockCount).1, rfl, rfl, rfl, rfl, rfl, rfl,
    rfl, (checkedU32_eq hencodedSize).2⟩

/-- The number of chunks of an image that is not too long. -/
theorem length_chunks_le {size : ℕ} (hsize : deltaBlockSize ≤ size) {image : Bytes}
    (himage : image.length ≤ maxImageSize) : (chunks size image).length ≤ maxBlockCount := by
  have hdelta : deltaBlockSize = 8192 := rfl
  have hmaxImage : maxImageSize = 8192 * 1024 := rfl
  have hmaxCount : maxBlockCount = 1024 := rfl
  rw [chunks, List.length_map, List.length_range, Nat.div_le_iff_le_mul_add_pred (by omega),
    hmaxCount]
  have hmul : 8192 * 1024 ≤ size * 1024 := Nat.mul_le_mul_right _ (by omega)
  omega

/-- The codec that the builder uses. -/
def codecFor (baseImage : Option Bytes) : FirmwareArtifactCodec :=
  if baseImage.isSome then .deltaBlock else .fullDeflate

theorem tryFrom_codecFor (baseImage : Option Bytes) :
    FirmwareArtifactCodec.tryFrom (if baseImage.isSome then 2 else 1) =
      some (codecFor baseImage) := by
  cases baseImage <;> rfl

theorem expectedBlockSize_codecFor (baseImage : Option Bytes) :
    expectedBlockSize (codecFor baseImage) =
      pure (if baseImage.isSome then deltaBlockSize else fullBlockSize) := by
  cases baseImage <;> rfl

theorem checkBase_codecFor {signed : FirmwareArtifactSignedFields}
    {baseImage other : Option Bytes} (hother : baseImage.isSome → other = baseImage)
    (hbase : signed.baseImageSha256 =
      (baseImage.map fun base => (env.sha256 base).toList).getD []) :
    checkBase env.toArtifactEnv (codecFor baseImage) signed other = pure baseImage := by
  cases baseImage with
  | none => rfl
  | some base =>
      have hsha256 : signed.baseImageSha256 = (env.sha256 base).toList := hbase
      rw [hother rfl, checkBase, hsha256, bytes32_toList]
      change (do
        throwIf (env.sha256 base ≠ env.sha256 base) .wrongBaseImage
        pure (some base) : RustM (Option Bytes)) = pure (some base)
      rw [throwIf_neg (fun hno => hno rfl), pure_bind]

section BuiltFrom

variable {image artifact : Bytes} {baseImage : Option Bytes} {spec : ArtifactBuildSpec}
  {signingKey : env.SigningKey} {blockSize : ℕ} {built : Built}
  {signed : FirmwareArtifactSignedFields}

theorem BuiltFrom.blockSize_bounds
    (h : BuiltFrom env image baseImage spec signingKey blockSize built signed artifact) :
    deltaBlockSize ≤ blockSize ∧ 0 < blockSize ∧ blockSize < 2 ^ 32 := by
  rw [h.blockSize_eq]
  split <;> decide

/-- The loop of the verifier goes through, and puts the image together. -/
theorem BuiltFrom.verifyBlocks (henv : env.Faithful verifyingKey)
    (h : BuiltFrom env image baseImage spec signingKey blockSize built signed artifact) :
    built.blocks ≠ [] ∧ built.blocks.length ≤ maxBlockCount ∧
      verifyBlocks env.toArtifactEnv
          { codec := codecFor baseImage
            expectedBlockSize := blockSize
            blockCount := built.blocks.length
            payload := built.payload
            base := baseImage } 0 built.blocks
          { image := List.replicate image.length 0, nextRaw := 0, nextEncoded := 0 } =
        pure { image := image, nextRaw := image.length, nextEncoded := built.payload.length } := by
  have hfields := signedFieldsOf_fields h.signed_eq
  obtain ⟨hdelta, hpos, -⟩ := h.blockSize_bounds
  obtain ⟨hcut, hflat⟩ := chunks_cut hpos image
  obtain ⟨blocks, more, hbuilt, hlength, hrun⟩ := buildBlocks_verified henv hcut h.blocks
  have hblocks : built.blocks = blocks := congrArg Built.blocks hbuilt
  have hcount : built.blocks.length = (chunks blockSize image).length := by rw [hblocks, hlength]
  have hcountLe := length_chunks_le hdelta h.image_le
  have hmaxCount : maxBlockCount < 2 ^ 32 := by decide
  have hmaxImage : maxImageSize < 2 ^ 32 := by decide
  have himageLe := h.image_le
  have himageLt : image.length < 2 ^ 32 := by omega
  refine ⟨fun hnil => ?_, by omega, ?_⟩
  · rw [hnil] at hcount
    rw [List.length_eq_zero_iff.1 hcount.symm] at hflat
    exact h.image_ne hflat.symm
  · have hloop := hrun
      { codec := codecFor baseImage
        expectedBlockSize := blockSize
        blockCount := built.blocks.length
        payload := built.payload
        base := baseImage } [] ⟨rfl, fun hsome => if_pos hsome, rfl⟩ rfl hfields.payload_lt
      (by rw [hcount, Nat.zero_add]) (show built.blocks.length < 2 ^ 32 by omega)
      (fun _ => (Nat.zero_mul _).symm) (by rwa [hflat, List.length_nil, Nat.zero_add])
    rwa [hflat, ← hblocks, List.nil_append, List.nil_append, List.length_nil,
      Nat.zero_add] at hloop

theorem BuiltFrom.parse (henv : env.Faithful verifyingKey)
    (h : BuiltFrom env image baseImage spec signingKey blockSize built signed artifact) :
    parseArtifact env.toArtifactEnv artifact =
      pure (manifestOf env signingKey built.blocks signed, signed, built.payload) := by
  have hblocks := (h.verifyBlocks henv).1
  refine parseArtifact_packed h.packed (fun hnil => hblocks ?_) (henv.manifest _)
    (henv.signedFields signed)
  have hdecoded := henv.manifest (manifestOf env signingKey built.blocks signed)
  rw [hnil, henv.emptyManifest, Except.ok.injEq] at hdecoded
  exact (congrArg FirmwareArtifactManifest.blocks hdecoded).symm

/-- The signed fields pass the checks on the sizes and the names. -/
theorem BuiltFrom.sizes (henv : env.Faithful verifyingKey)
    (h : BuiltFrom env image baseImage spec signingKey blockSize built signed artifact) :
    ¬(signed.blockCount.toNat ≠ built.blocks.length ∨ built.blocks = [] ∨
      built.blocks.length > maxBlockCount ∨ signed.rawSize = 0 ∨
      signed.rawSize.toNat > maxImageSize ∨ signed.encodedSize.toNat ≠ built.payload.length ∨
      signed.deflateWindowBits ≠ deflateWindowBits ∨
      signed.requiredAppSlotSize < signed.rawSize ∨ signed.projectName = "" ∨
      signed.chipTarget = "" ∨ signed.signingKeyId = "") := by
  have hfields := signedFieldsOf_fields h.signed_eq
  obtain ⟨hblocks, hcount, -⟩ := h.verifyBlocks henv
  have hraw : signed.rawSize = UInt32.ofNat image.length := by
    rw [← hfields.rawSize_eq, UInt32.ofNat_toNat]
  have hrawNe : signed.rawSize ≠ 0 := by
    intro hzero
    have hlength := hfields.rawSize_eq
    rw [hzero] at hlength
    exact h.image_ne (List.length_eq_zero_iff.1 hlength.symm)
  rw [hfields.rawSize_eq, hfields.spec_eq.projectName, hfields.spec_eq.chipTarget,
    hfields.spec_eq.signingKeyId, hfields.spec_eq.requiredAppSlotSize]
  rintro (hno | hno | hno | hno | hno | hno | hno | hno | hno | hno | hno)
  · exact hno hfields.blockCount_eq
  · exact hblocks hno
  · exact absurd hcount (Nat.not_le_of_gt hno)
  · exact hrawNe hno
  · exact absurd h.image_le (Nat.not_le_of_gt hno)
  · exact hno hfields.encodedSize_eq
  · exact hno hfields.window_eq
  · rw [hraw] at hno
    exact h.slot hno
  · exact h.names.1 hno
  · exact h.names.2.1 hno
  · exact h.names.2.2 hno

theorem BuiltFrom.verify (henv : env.Faithful verifyingKey)
    (h : BuiltFrom env image baseImage spec signingKey blockSize built signed artifact)
    (other : Option Bytes) (hother : baseImage.isSome → other = baseImage) :
    verifyArtifact env.toArtifactEnv artifact (verifyingKey signingKey) other =
      pure
        { artifactId := env.sha256 artifact
          manifest := manifestOf env signingKey built.blocks signed
          signed := signed
          image := image } := by
  have hfields := signedFieldsOf_fields h.signed_eq
  have hsignature : (manifestOf env signingKey built.blocks signed).signature.length =
      signatureLen := henv.signature_length _
  have hsignatureAt : env.signatureFromSlice
      (manifestOf env signingKey built.blocks signed).signature =
        some (env.sign signingKey (env.encodeSignedFields signed)) := henv.signature _
  have hverifies : ¬env.verify (verifyingKey signingKey)
      (manifestOf env signingKey built.blocks signed).signedFields
      (env.sign signingKey (env.encodeSignedFields signed)) = false := by
    rw [Bool.not_eq_false]
    exact henv.verifies signingKey _
  have hbaseNil : ¬(codecFor baseImage = .fullDeflate ∧ signed.baseImageSha256 ≠ []) := by
    rw [hfields.baseImageSha256_eq]
    cases baseImage with
    | none => exact fun hno => hno.2 rfl
    | some base => exact fun hno => FirmwareArtifactCodec.noConfusion hno.1
  have hblockSize : signed.blockSize.toNat = blockSize := by
    rw [hfields.blockSize_eq, UInt32.toNat_ofNat_of_lt' h.blockSize_bounds.2.2]
  have hblocks : (manifestOf env signingKey built.blocks signed).blocks = built.blocks := rfl
  rw [verifyArtifact, h.parse henv, pure_bind]
  dsimp only
  rw [throwIf_neg (fun hno => hno hfields.schemaVersion_eq), pure_bind,
    throwIf_neg (fun hno => hno hsignature), pure_bind, hsignatureAt, okOr, pure_bind,
    throwIf_neg hverifies, pure_bind, hblocks, throwIf_neg (h.sizes henv),
    pure_bind, hfields.blockTableSha256_eq, bytes32_toList, pure_bind,
    throwIf_neg (fun hno => hno rfl), pure_bind, hfields.encodedSha256_eq, bytes32_toList,
    pure_bind, throwIf_neg (fun hno => hno rfl), pure_bind, hfields.codec_eq,
    tryFrom_codecFor, okOr, pure_bind, expectedBlockSize_codecFor, pure_bind, ← h.blockSize_eq,
    throwIf_neg (fun hno => hno hblockSize), pure_bind, throwIf_neg hbaseNil, pure_bind,
    checkBase_codecFor hother hfields.baseImageSha256_eq, pure_bind, hfields.rawSize_eq,
    (h.verifyBlocks henv).2.2, pure_bind]
  dsimp only
  rw [throwIf_neg (by simp), pure_bind, hfields.imageSha256_eq, bytes32_toList, pure_bind,
    throwIf_neg (fun hno => hno rfl), pure_bind]

end BuiltFrom

/-- The artifact verifies to the image and to what the spec says, and its payload has the
signed length. -/
def RoundTrips (env : BuildEnv) (verifyingKey : env.VerifyingKey) (image artifact : Bytes)
    (baseImage : Option Bytes) (spec : ArtifactBuildSpec) : Prop :=
  (∃ v, (verifyArtifact env.toArtifactEnv artifact verifyingKey baseImage).run = some (.ok v) ∧
    v.image = image ∧ spec.Signed v.signed) ∧
  ∃ manifest signed payload,
    (parseArtifact env.toArtifactEnv artifact).run = some (.ok (manifest, signed, payload)) ∧
      spec.Signed signed ∧ payload.length = signed.encodedSize.toNat

theorem buildArtifact_roundTrips (henv : env.Faithful verifyingKey) {image artifact : Bytes}
    {baseImage : Option Bytes} {spec : ArtifactBuildSpec} {signingKey : env.SigningKey}
    (h : buildArtifact env image baseImage spec signingKey = pure artifact)
    (other : Option Bytes) (hother : baseImage.isSome → other = baseImage) :
    RoundTrips env (verifyingKey signingKey) image artifact other spec := by
  obtain ⟨blockSize, built, signed, hbuilt⟩ := buildArtifact_builtFrom h
  have hfields := signedFieldsOf_fields hbuilt.signed_eq
  exact ⟨⟨_, hbuilt.verify henv other hother, rfl, hfields.spec_eq⟩, _, signed, built.payload,
    hbuilt.parse henv, hfields.spec_eq, hfields.encodedSize_eq.symm⟩

/-- What the builder returns verifies under the matching key: a full artifact with any base
image or none, a delta artifact with the base image that it was built on. -/
theorem artifact_round_trip (env : BuildEnv) (verifyingKey : env.SigningKey → env.VerifyingKey)
    (henv : env.Faithful verifyingKey) (image : Bytes) (spec : ArtifactBuildSpec)
    (signingKey : env.SigningKey) (artifact : Bytes) :
    ((buildFullArtifact env image spec signingKey).run = some (.ok artifact) →
      ∀ baseImage, RoundTrips env (verifyingKey signingKey) image artifact baseImage spec) ∧
    ∀ baseImage,
      (buildDeltaArtifact env image baseImage spec signingKey).run = some (.ok artifact) →
        RoundTrips env (verifyingKey signingKey) image artifact (some baseImage) spec := by
  refine ⟨fun h baseImage => ?_, fun baseImage h => ?_⟩
  · exact buildArtifact_roundTrips henv h baseImage (fun hsome => Bool.noConfusion hsome)
  · obtain ⟨_, -, hbuild⟩ := bind_eq_pure (f := fun _ =>
      buildArtifact env image (some baseImage) spec signingKey) h
    exact buildArtifact_roundTrips henv hbuild (some baseImage) fun _ => rfl

end Artifact

/-! ## A full artifact of one byte -/

open OtaV3 (letterRaw letterRawSha256)

def byteEncoded : Bytes := [115, 4, 0]

def byteEncodedSha256 : Digest :=
  #v[54, 143, 8, 78, 218, 119, 202, 158, 205, 181, 115, 208, 158, 117, 65, 4,
    187, 159, 229, 152, 86, 109, 164, 5, 199, 246, 240, 197, 236, 207, 158, 67]

def byteChainSha256 : Digest :=
  #v[238, 90, 236, 124, 38, 185, 141, 174, 181, 95, 80, 109, 199, 145, 109, 0,
    190, 72, 197, 114, 141, 219, 50, 204, 41, 96, 237, 120, 229, 230, 118, 250]

def byteArtifactSha256 : Digest :=
  #v[83, 78, 105, 136, 73, 200, 139, 195, 39, 217, 174, 187, 152, 62, 119, 19,
    200, 184, 185, 206, 69, 117, 255, 41, 34, 177, 172, 164, 151, 130, 36, 176]

def byteSpec : ArtifactBuildSpec where
  projectName := "p"
  chipTarget := "c"
  firmwareVersion := "v"
  buildCommit := ""
  minimumCoreVersion := 0
  minimumFabricSchema := 0
  requiredAppSlotSize := 1
  signingKeyId := "k"

def byteBlock : FirmwareBlockDescriptor where
  index := 0
  rawOffset := 0
  rawSize := 1
  encodedOffset := 0
  encodedSize := 3
  kind := 1
  rawSha256 := letterRawSha256.toList
  encodedSha256 := byteEncodedSha256.toList

def byteSigned : FirmwareArtifactSignedFields where
  schemaVersion := 1
  projectName := "p"
  chipTarget := "c"
  firmwareVersion := "v"
  buildCommit := ""
  minimumCoreVersion := 0
  minimumFabricSchema := 0
  rawSize := 1
  encodedSize := 3
  requiredAppSlotSize := 1
  codec := 1
  imageSha256 := letterRawSha256.toList
  encodedSha256 := byteEncodedSha256.toList
  blockTableSha256 := byteChainSha256.toList
  baseImageSha256 := []
  blockSize := 16384
  blockCount := 1
  deflateWindowBits := 11
  signingKeyId := "k"

def byteManifestBytes : Bytes :=
  wireManifest
    { signedFields := wireSignedFields byteSigned
      blocks := [byteBlock]
      signature := List.replicate 64 0 }

def byteArtifact : Bytes :=
  magic ++ [25, 1, 0, 0] ++ [173, 38, 127, 157] ++ byteManifestBytes ++ byteEncoded

/-- The crates on the byte, with a signature that counts as good. -/
def byteEnv : BuildEnv where
  usizeMax := 2 ^ 64 - 1
  usizeMax_le := copyEnv.usizeMax_le
  sha256 := fun bytes =>
    if bytes = letterRaw then letterRawSha256
    else if bytes = byteEncoded then byteEncodedSha256
    else if bytes = List.replicate 32 0 ++ wireDescriptor byteBlock then byteChainSha256
    else if bytes = byteArtifact then byteArtifactSha256
    else Vector.replicate 32 0
  crc32 := fun bytes => if bytes = byteManifestBytes then 0x9d7f26ad else 0
  crc32_lt := by
    intro bytes
    split <;> decide
  encodeDescriptor := wireDescriptor
  encodeManifest := wireManifest
  encodeSignedFields := wireSignedFields
  decodeManifest := readManifest
  decodeSignedFields := readSignedFields
  Signature := Unit
  VerifyingKey := Unit
  SigningKey := Unit
  sign := fun _ _ => ()
  signatureBytes := fun _ => List.replicate 64 0
  signatureFromSlice := fun _ => some ()
  verify := fun _ _ _ => true
  compress := fun raw _ => if raw = letterRaw then some ⟨true, byteEncoded⟩ else none
  decompress := fun input room =>
    if input = byteEncoded ∧ 1 ≤ room then some ⟨true, 3, letterRaw⟩ else none
  written_le := by
    intro input room inflation h
    split at h
    · next hroom =>
        cases h
        exact hroom.2
    · cases h

theorem byteEnv_faithful : byteEnv.Faithful fun _ => () where
  manifest := readManifest_wire
  emptyManifest := readManifest_nil
  signedFields := by
    dsimp only [byteEnv]
    exact readSignedFields_wire
  signature := fun _ => rfl
  signature_length := fun _ => rfl
  verifies := fun _ _ => rfl
  inflates := by
    intro raw room deflation h hend
    change (if raw = letterRaw then some _ else none) = some deflation at h
    split at h
    · next hraw =>
        cases h
        rw [hraw, Inflates]
        decide
    · cases h
  written_ne_nil := by
    intro raw room deflation h hend
    change (if raw = letterRaw then some _ else none) = some deflation at h
    split at h
    · cases h
      decide
    · cases h

/-- The byte comes back, with what the spec says of it. -/
theorem artifact_round_trip_byte :
    (buildFullArtifact byteEnv letterRaw byteSpec ()).run = some (.ok byteArtifact) ∧
      RoundTrips byteEnv () letterRaw byteArtifact none byteSpec :=
  ⟨by decide +kernel,
    (artifact_round_trip byteEnv (fun _ => ()) byteEnv_faithful letterRaw byteSpec ()
      byteArtifact).1 (by decide +kernel) none⟩

end KeemashCore.KeeLink.Ota

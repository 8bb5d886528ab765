import KeemashCore.LittleEndian.Basic
import KeemashCore.OtaV3.PackagePass

/-!
# When a package is verified

`keemash_ota_v3_verify_package` on a storage that holds an artifact: it returns the signed
fields exactly when the artifact is framed and its manifest, its fields and its blocks say
the same.
-/

namespace KeemashCore.OtaV3

open Effects LittleEndian Tiling

/-! ## The parts of an artifact -/

/-- The manifest size that the header names. -/
def manifestSizeOf (artifact : Bytes) : ℕ :=
  valueOf ((artifact.drop 8).take 4)

/-- The checksum that the header names. -/
def manifestCrcOf (artifact : Bytes) : ℕ :=
  valueOf ((artifact.drop 12).take 4)

def manifestBytesOf (artifact : Bytes) : Bytes :=
  (artifact.drop headerSize).take (manifestSizeOf artifact)

/-- Everything behind the manifest. -/
def packagePayload (artifact : Bytes) : Bytes :=
  artifact.drop (headerSize + manifestSizeOf artifact)

/-- The header fits the bytes behind it. -/
structure Framed (crc32 : Bytes → ℕ) (artifact : Bytes) : Prop where
  small : artifact.length ≤ maxPackageSize
  front : artifact.take 8 = magic
  size_pos : 0 < manifestSizeOf artifact
  fits : headerSize + manifestSizeOf artifact ≤ artifact.length
  crc : crc32 (manifestBytesOf artifact) = manifestCrcOf artifact

/-- The blocks are what the signed fields say, and they are all of the payload. -/
structure Contents (env : OtaEnv) (inflates : Bytes → Bytes → Prop) (fields : SignedFields)
    (payload : Bytes) (blocks : List Block) : Prop where
  walked : Walked env inflates fields blocks
  full : fields.codec = codecFullDeflate ∧ fields.blockSize = fullBlockSize
  base : fields.hasBaseImage = false
  count : fields.blockCount = blocks.length
  pos : 0 < blocks.length
  payload_eq : encodedOf blocks = payload
  rawSize : (rawOf blocks).length = fields.rawSize
  encodedSize : payload.length = fields.encodedSize
  imageHash : env.sha256 (rawOf blocks) = fields.imageSha256
  payloadHash : env.sha256 payload = fields.encodedSha256
  chain : chainOf env zeroDigest (descriptorsOf blocks) = fields.blockTableSha256

theorem le32_eq_valueOf {bytes : Bytes} (h : bytes.length = 4) : le32 bytes = valueOf bytes := by
  obtain ⟨b₀, b₁, b₂, b₃, rfl⟩ : ∃ b₀ b₁ b₂ b₃, bytes = [b₀, b₁, b₂, b₃] := by
    rcases bytes with _ | ⟨b₀, _ | ⟨b₁, _ | ⟨b₂, _ | ⟨b₃, _ | ⟨b₄, bytes⟩⟩⟩⟩⟩
    all_goals simp at h
    exact ⟨b₀, b₁, b₂, b₃, rfl⟩
  simp only [le32, valueOf]
  omega

theorem Walked.mono {env : OtaEnv} {inflates inflates' : Bytes → Bytes → Prop}
    {fields : SignedFields} {blocks : List Block}
    (himp : ∀ encoded raw, inflates encoded raw → inflates' encoded raw)
    (h : Walked env inflates fields blocks) : Walked env inflates' fields blocks := by
  induction h with
  | nil => exact .nil
  | snoc _ hb ih => exact ih.snoc ⟨hb.check, hb.kind, hb.sealed, himp _ _ hb.inflates⟩

/-- The blocks stand in the payload where their descriptors say. -/
theorem Walked.pieces {env : OtaEnv} {inflates : Bytes → Bytes → Prop} {fields : SignedFields}
    {blocks : List Block} (h : Walked env inflates fields blocks) (rest : Bytes) :
    ∀ b ∈ blocks, b.encoded = b.descriptor.piece (encodedOf blocks ++ rest) := by
  induction h generalizing rest with
  | nil => exact fun b hmem => absurd hmem List.not_mem_nil
  | @snoc done b _ hb ih =>
      intro other hmem
      rw [encodedOf_append, encodedOf_singleton, List.append_assoc]
      rcases List.mem_append.mp hmem with hold | hnew
      · exact ih (b.encoded ++ rest) other hold
      · obtain rfl := List.mem_singleton.mp hnew
        rw [BlockDescriptor.piece, (checkBlockDescriptor_ok hb.check).encodedOffset_eq,
          List.drop_left, ← hb.sealed.encoded_length, List.take_left]

theorem Contents.payload_pos {env : OtaEnv} {inflates : Bytes → Bytes → Prop}
    {fields : SignedFields} {payload : Bytes} {blocks : List Block}
    (h : Contents env inflates fields payload blocks) : 0 < payload.length := by
  rw [← h.payload_eq]
  cases h.walked with
  | nil => exact absurd h.pos (Nat.lt_irrefl 0)
  | snoc _ hb =>
      have hdeflate := (checkBlockDescriptor_ok hb.check).deflate_pos hb.kind
      rw [encodedOf_append, encodedOf_singleton, List.length_append, hb.sealed.encoded_length]
      omega

/-! ## The signed fields of a full image -/

/-- The fields are those of a full image that the device can take. -/
structure FullFields (pb : PbSignedFields) : Prop where
  schema : pb.schemaVersion = schemaVersion
  raw_pos : pb.rawSize ≠ 0
  slot : pb.rawSize ≤ pb.requiredAppSlotSize
  raw_le : pb.rawSize ≤ maxImageSize
  encoded_le : pb.encodedSize ≤ maxPackageSize
  count_pos : pb.blockCount ≠ 0
  count_le : pb.blockCount ≤ maxBlockCount
  window : pb.deflateWindowBits = deflateWindowBits
  project : pb.projectName ≠ []
  chip : pb.chipTarget ≠ []
  key : pb.signingKeyId ≠ []
  codec : pb.codec = codecFullDeflate
  blockSize : pb.blockSize = fullBlockSize
  encoded_pos : pb.encodedSize ≠ 0
  base : pb.baseImageSha256 = []
  count : pb.blockCount = (pb.rawSize + fullBlockSize - 1) / fullBlockSize

/-- The record that the fields of a full image are copied to. -/
structure PbSignedFields.CopiedTo (pb : PbSignedFields) (fields : SignedFields) : Prop where
  numbers : fields.schemaVersion = pb.schemaVersion ∧
    fields.minimumCoreVersion = pb.minimumCoreVersion ∧
    fields.minimumFabricSchema = pb.minimumFabricSchema ∧ fields.rawSize = pb.rawSize ∧
    fields.encodedSize = pb.encodedSize ∧
    fields.requiredAppSlotSize = pb.requiredAppSlotSize ∧ fields.codec = pb.codec ∧
    fields.blockSize = pb.blockSize ∧ fields.blockCount = pb.blockCount ∧
    fields.deflateWindowBits = pb.deflateWindowBits
  texts : fields.projectName = pb.projectName ∧ fields.chipTarget = pb.chipTarget ∧
    fields.firmwareVersion = pb.firmwareVersion ∧ fields.buildCommit = pb.buildCommit ∧
    fields.signingKeyId = pb.signingKeyId
  imageSha256 : fields.imageSha256.toList = pb.imageSha256
  encodedSha256 : fields.encodedSha256.toList = pb.encodedSha256
  blockTableSha256 : fields.blockTableSha256.toList = pb.blockTableSha256
  base : fields.baseImageSha256 = zeroDigest ∧ fields.hasBaseImage = false

theorem copyHash_iff {source : Bytes} {digest : Digest} :
    copyHash source false = some digest ↔ digest.toList = source := by
  rw [copyHash]
  split
  · constructor
    · intro h
      obtain rfl := Option.some.inj h
      rfl
    · rintro rfl
      rfl
  next hlength =>
    constructor
    · intro h
      cases h
    · rintro rfl
      exact absurd digest.size_toArray hlength

theorem verifySignedFields_iff (env : OtaEnv) (signedFields signature : Bytes)
    (fields : SignedFields) :
    verifySignedFields env signedFields signature = .ok fields ∧
        fields.codec = codecFullDeflate ↔
      signedFields ≠ [] ∧ signedFields.length ≤ signedFieldsMax ∧
        signature.length = signatureLen ∧ verifyP256 env signedFields signature = .ok ∧
        ∃ pb, env.decodeSignedFields signedFields = some pb ∧ FullFields pb ∧
          pb.CopiedTo fields := by
  have hbase : copyHash [] true = some zeroDigest := rfl
  have hdelta : ¬codecFullDeflate = codecDeltaBlock := by decide
  constructor
  · rintro ⟨h, hcodec⟩
    rw [verifySignedFields] at h
    split at h
    · cases h
    next hne =>
      split at h
      · cases h
      next hmax =>
        split at h
        · cases h
        next hsignature =>
          split at h
          · cases h
          next hverify =>
            refine ⟨fun hnil => hne (by rw [hnil]; rfl), Nat.le_of_not_lt hmax,
              not_not.mp hsignature, not_not.mp hverify, ?_⟩
            split at h
            · cases h
            next pb hdecode =>
              refine ⟨pb, hdecode, ?_⟩
              split at h
              · cases h
              next hsizes =>
                split at h
                · cases h
                next hknown =>
                  split at h
                  · cases h
                  next hshape =>
                    split at h
                    · cases h
                    next hcount =>
                      split at h
                      · next image encoded blockTable base himage hencoded htable hbaseEq =>
                          obtain rfl := Except.ok.inj h
                          have hcodec : pb.codec = codecFullDeflate := hcodec
                          simp only [not_or, ne_eq, Decidable.not_not, Nat.not_lt] at hsizes
                          obtain ⟨hschema, hraw, hslot, hrawMax, hencodedMax, hblocks,
                            hblocksMax, hwindow, hproject, hchip, hkey⟩ := hsizes
                          simp only [hcodec, hdelta, true_and, false_and, or_false, not_or,
                            ne_eq, Decidable.not_not, List.length_eq_zero_iff] at hshape
                          obtain ⟨hsize, hencodedPos, hnone⟩ := hshape
                          rw [hsize] at hcount
                          rw [hnone] at hbaseEq
                          refine ⟨⟨hschema, hraw, hslot, hrawMax, hencodedMax, hblocks,
                            hblocksMax, hwindow, hproject, hchip, hkey, hcodec, hsize,
                            hencodedPos, hnone, not_not.mp hcount⟩,
                            ⟨rfl, rfl, rfl, rfl, rfl, rfl, rfl, rfl, rfl, rfl⟩,
                            ⟨rfl, rfl, rfl, rfl, rfl⟩, copyHash_iff.mp himage,
                            copyHash_iff.mp hencoded, copyHash_iff.mp htable,
                            (Option.some.inj hbaseEq).symm, ?_⟩
                          dsimp only
                          rw [hnone]
                          rfl
                      · cases h
  · rintro ⟨hne, hmax, hsignature, hverify, pb, hdecode, hfull, hcopied⟩
    have hlength : ¬signedFields.length = 0 := fun hzero =>
      hne (List.eq_nil_of_length_eq_zero hzero)
    have hsizes : ¬(pb.schemaVersion ≠ schemaVersion ∨ pb.rawSize = 0 ∨
        pb.requiredAppSlotSize < pb.rawSize ∨ pb.rawSize > maxImageSize ∨
        pb.encodedSize > maxPackageSize ∨ pb.blockCount = 0 ∨ pb.blockCount > maxBlockCount ∨
        pb.deflateWindowBits ≠ deflateWindowBits ∨ pb.projectName = [] ∨ pb.chipTarget = [] ∨
        pb.signingKeyId = []) := by
      simp only [not_or, ne_eq, Decidable.not_not, Nat.not_lt]
      exact ⟨hfull.schema, hfull.raw_pos, hfull.slot, hfull.raw_le, hfull.encoded_le,
        hfull.count_pos, hfull.count_le, hfull.window, hfull.project, hfull.chip, hfull.key⟩
    have hshape : ¬((pb.codec = codecFullDeflate ∧ (pb.blockSize ≠ fullBlockSize ∨
        pb.encodedSize = 0 ∨ pb.baseImageSha256.length ≠ 0)) ∨
        (pb.codec = codecDeltaBlock ∧ (pb.blockSize ≠ deltaBlockSize ∨
          pb.baseImageSha256.length ≠ 32))) := by
      rw [hfull.codec, hfull.blockSize, hfull.base]
      simp only [hdelta, false_and, or_false, true_and, not_or, ne_eq, List.length_nil,
        not_true_eq_false, not_false_eq_true]
      exact hfull.encoded_pos
    have hcount : ¬pb.blockCount ≠ (pb.rawSize + pb.blockSize - 1) / pb.blockSize := by
      rw [hfull.blockSize]
      exact not_not.mpr hfull.count
    refine ⟨?_, hcopied.numbers.2.2.2.2.2.2.1.trans hfull.codec⟩
    rw [verifySignedFields, if_neg hlength, if_neg (Nat.not_lt_of_le hmax),
      if_neg (not_not.mpr hsignature), if_neg (not_not.mpr hverify), hdecode]
    dsimp only
    rw [if_neg hsizes, if_neg (fun hno => hno.1 hfull.codec), if_neg hshape, if_neg hcount,
      copyHash_iff.mpr hcopied.imageSha256, copyHash_iff.mpr hcopied.encodedSha256,
      copyHash_iff.mpr hcopied.blockTableSha256, hfull.base, hbase]
    obtain ⟨⟨h₁, h₂, h₃, h₄, h₅, h₆, h₇, h₈, h₉, h₁₀⟩, ⟨h₁₁, h₁₂, h₁₃, h₁₄, h₁₅⟩, -, -, -,
      h₁₆, h₁₇⟩ := hcopied
    rw [← h₁, ← h₂, ← h₃, ← h₄, ← h₅, ← h₆, ← h₇, ← h₈, ← h₉, ← h₁₀, ← h₁₁, ← h₁₂, ← h₁₃, ← h₁₄,
      ← h₁₅, ← h₁₆]
    have hnone : decide (([] : Bytes).length = 32) = fields.hasBaseImage := h₁₇.symm
    dsimp only
    rw [hnone]

section Verdict

variable {env : PackageEnv} {readFn : ReadFn} {artifact : Bytes}

/-- The checksum of one piece after the other is the checksum of them all. -/
def PackageEnv.CrcStreams (env : PackageEnv) : Prop :=
  ∀ crc first more, env.crc32 (env.crc32 crc first) more = env.crc32 crc (first ++ more)

theorem crcLoop_run (hcrc : env.CrcStreams) (hstores : Stores readFn artifact)
    (hsmall : artifact.length < 2 ^ 32) {offset remaining crc : ℕ} (hpos : 0 < remaining)
    (hfits : offset + remaining ≤ artifact.length) (t : Trace) :
    ∃ t', crcLoop env readFn offset remaining crc t =
      .ok (env.crc32 crc ((artifact.drop offset).take remaining)) t' := by
  have hread : 0 < readBytes := by decide
  fun_induction crcLoop env readFn offset remaining crc generalizing t with
  | case1 offset remaining crc hmore count =>
      rename_i ih
      have hstop : (⟨offset, count⟩ : Span).stop ≤ artifact.length := by
        change offset + count ≤ artifact.length
        omega
      rw [bind_eq (hstores.readAt hsmall hstop t)]
      dsimp only
      have hle : count ≤ remaining := Nat.min_le_left _ _
      by_cases hlast : remaining - count = 0
      · have hall : count = remaining := by omega
        rw [hall, Nat.sub_self, crcLoop, if_neg (Nat.lt_irrefl 0)]
        exact ⟨_, rfl⟩
      · obtain ⟨t', hrun⟩ := ih ((artifact.drop offset).take count) (Nat.pos_of_ne_zero hlast)
          (by omega) _
        refine ⟨t', ?_⟩
        rw [hrun, hcrc]
        have hsum : (artifact.drop offset).take remaining =
            (artifact.drop offset).take count ++
              (artifact.drop (offset + count)).take (remaining - count) := by
          rw [← List.drop_drop, ← List.take_add, Nat.add_sub_cancel' hle]
        rw [hsum]
  | case2 offset remaining crc hdone => omega

/-- The header is read exactly when the artifact is framed. -/
theorem readHeader_iff (hcrc : env.CrcStreams) (hstores : Stores readFn artifact)
    (manifestSize : ℕ) (t : Trace) :
    (∃ t', readHeader env readFn artifact.length t = .ok manifestSize t') ↔
      Framed (fun bytes => env.crc32 0 bytes % 2 ^ 32) artifact ∧
        manifestSizeOf artifact ≤ manifestMax ∧ manifestSize = manifestSizeOf artifact := by
  have hheader : headerSize = 16 := rfl
  have hmax : maxPackageSize < 2 ^ 32 := by decide
  rw [readHeader]
  split
  · next hsize =>
      constructor
      · rintro ⟨t', hrun⟩
        exact (throw_ok hrun).elim
      · rintro ⟨hframed, -, -⟩
        have hsmall := hframed.small
        have hpos := hframed.size_pos
        have hfits := hframed.fits
        omega
  next hsize =>
    have hlong : 16 < artifact.length := by omega
    have hstop : (⟨0, headerSize⟩ : Span).stop ≤ artifact.length := by
      change 0 + 16 ≤ artifact.length
      omega
    have hread := hstores.readAt (by omega) hstop t
    dsimp only at hread
    rw [List.drop_zero, hheader] at hread
    have hfront : (artifact.take 16).take 8 = artifact.take 8 := by
      rw [List.take_take]
      rfl
    have hword (n : ℕ) (hn : n + 4 ≤ 16) :
        ((artifact.take 16).drop n).take 4 = (artifact.drop n).take 4 := by
      rw [List.drop_take, List.take_take, Nat.min_eq_left (by omega)]
    have hfour (n : ℕ) (hn : n + 4 ≤ 16) : ((artifact.drop n).take 4).length = 4 := by
      rw [List.length_take, List.length_drop]
      omega
    have hnamed : le32 ((artifact.drop 8).take 4) = manifestSizeOf artifact :=
      le32_eq_valueOf (hfour 8 (by omega))
    have hsum : le32 ((artifact.drop 12).take 4) = manifestCrcOf artifact :=
      le32_eq_valueOf (hfour 12 (by omega))
    rw [hheader, bind_eq hread, hfront, hword 8 (by omega), hword 12 (by omega), hnamed, hsum]
    by_cases hmagic : artifact.take 8 ≠ magic
    · rw [if_pos hmagic]
      constructor
      · rintro ⟨t', hrun⟩
        exact (throw_ok hrun).elim
      · rintro ⟨hframed, -, -⟩
        exact absurd hframed.front hmagic
    rw [if_neg hmagic]
    by_cases hbad : manifestSizeOf artifact = 0 ∨ manifestSizeOf artifact > manifestMax ∨
        manifestSizeOf artifact > artifact.length - 16
    · rw [if_pos hbad]
      constructor
      · rintro ⟨t', hrun⟩
        exact (throw_ok hrun).elim
      · rintro ⟨hframed, hle, -⟩
        have hpos := hframed.size_pos
        have hfits := hframed.fits
        omega
    rw [if_neg hbad]
    have hfits : headerSize + manifestSizeOf artifact ≤ artifact.length := by omega
    have hpos : 0 < manifestSizeOf artifact := by omega
    obtain ⟨t₁, hloop⟩ : ∃ t₁, crcLoop env readFn headerSize (manifestSizeOf artifact) 0
        { t with reads := t.reads ++ [⟨0, 16⟩] } =
          .ok (env.crc32 0 (manifestBytesOf artifact)) t₁ :=
      crcLoop_run hcrc hstores (by omega) hpos hfits _
    have hcheck : checkManifestCrc env readFn (manifestSizeOf artifact) (manifestCrcOf artifact)
        { t with reads := t.reads ++ [⟨0, 16⟩] } =
          if env.crc32 0 (manifestBytesOf artifact) % 2 ^ 32 ≠ manifestCrcOf artifact then
            .error .invalidCrc t₁
          else
            .ok () t₁ := by
      rw [checkManifestCrc, bind_eq hloop]
      split <;> rfl
    by_cases hcrc : env.crc32 0 (manifestBytesOf artifact) % 2 ^ 32 ≠ manifestCrcOf artifact
    · rw [if_pos hcrc] at hcheck
      constructor
      · rintro ⟨t', hrun⟩
        obtain ⟨u, t₂, hok, -⟩ := bind_ok hrun
        rw [hcheck] at hok
        cases hok
      · rintro ⟨hframed, -, -⟩
        exact absurd hframed.crc hcrc
    · rw [if_neg hcrc] at hcheck
      rw [bind_eq hcheck]
      constructor
      · rintro ⟨t', hrun⟩
        obtain ⟨rfl, -⟩ := pure_ok hrun
        exact ⟨⟨by omega, not_not.mp hmagic, by omega, by omega, not_not.mp hcrc⟩, by omega, rfl⟩
      · rintro ⟨-, -, rfl⟩
        exact ⟨t₁, rfl⟩

theorem Stores.readManifest (hstores : Stores readFn artifact)
    (hsmall : artifact.length < 2 ^ 32)
    (hfits : headerSize + manifestSizeOf artifact ≤ artifact.length) (t : Trace) :
    ∃ t', OtaV3.readAt readFn ⟨headerSize, manifestSizeOf artifact⟩ t =
      .ok (manifestBytesOf artifact) t' := by
  have hstop : (⟨headerSize, manifestSizeOf artifact⟩ : Span).stop ≤ artifact.length := hfits
  exact ⟨_, hstores.readAt hsmall hstop t⟩

/-- The manifest is decoded by folding the callback over its blocks. -/
theorem decodeManifest_run {σ : Type} (hstores : Stores readFn artifact)
    (hsmall : artifact.length < 2 ^ 32)
    (hfits : headerSize + manifestSizeOf artifact ≤ artifact.length)
    {callback : σ → Option BlockDescriptor → PackageM σ} {manifest : PbManifest}
    {ds : List BlockDescriptor}
    (hscan : env.decodeManifest (manifestBytesOf artifact) = ⟨ds.map some, some manifest⟩)
    {blocks blocks' : σ}
    (hfold : ∀ t, ∃ t', (ds.map some).foldlM callback blocks t = .ok blocks' t') (t : Trace) :
    ∃ t', decodeManifest env readFn (manifestSizeOf artifact) callback blocks t =
      .ok (manifest, blocks') t' := by
  obtain ⟨t₁, hread⟩ := hstores.readManifest hsmall hfits t
  obtain ⟨t₂, hrun⟩ := hfold t₁
  refine ⟨t₂, ?_⟩
  rw [decodeManifest, bind_eq hread, hscan]
  dsimp only
  rw [bind_eq hrun]
  rfl

theorem decodeManifest_scan {σ : Type} (hstores : Stores readFn artifact)
    (hsmall : artifact.length < 2 ^ 32)
    (hfits : headerSize + manifestSizeOf artifact ≤ artifact.length)
    {callback : σ → Option BlockDescriptor → PackageM σ} {manifest : PbManifest}
    {blocks blocks' : σ} {t t' : Trace}
    (h : decodeManifest env readFn (manifestSizeOf artifact) callback blocks t =
      .ok (manifest, blocks') t') :
    (env.decodeManifest (manifestBytesOf artifact)).manifest = some manifest ∧
      ∃ t₁, (env.decodeManifest (manifestBytesOf artifact)).blocks.foldlM callback blocks t₁ =
        .ok blocks' t' := by
  obtain ⟨t₁, hread⟩ := hstores.readManifest hsmall hfits t
  rw [decodeManifest, bind_eq hread] at h
  obtain ⟨folded, t₂, hfold, h⟩ := bind_ok h
  cases hmanifest : (env.decodeManifest (manifestBytesOf artifact)).manifest with
  | none =>
      rw [hmanifest] at h
      exact (throw_ok h).elim
  | some found =>
      rw [hmanifest] at h
      obtain ⟨heq, rfl⟩ := pure_ok h
      obtain ⟨rfl, rfl⟩ := Prod.mk.inj heq
      exact ⟨rfl, t₁, hfold⟩

theorem countBlocks_run {ds : List BlockDescriptor} {n : ℕ}
    (hmax : n + ds.length ≤ maxBlockCount) (t : Trace) :
    (ds.map some).foldlM countBlock n t = .ok (n + ds.length) t := by
  induction ds generalizing n with
  | nil => rfl
  | cons d ds ih =>
      rw [List.length_cons] at hmax
      have hnext : nextDescriptor n (some d) t = .ok d t := by
        rw [nextDescriptor.eq_def, if_neg (by omega)]
        rfl
      have hstep : countBlock n (some d) t = .ok (n + 1) t := by
        rw [countBlock, bind_eq hnext]
        rfl
      rw [List.map_cons, List.foldlM_cons, bind_eq hstep, ih (by omega), List.length_cons,
        Nat.add_right_comm]
      rfl

theorem checkFields_iff (manifest : PbManifest) (blockCount payloadSize : ℕ)
    (fields : SignedFields) (t : Trace) :
    (∃ t', checkFields env manifest blockCount payloadSize t = .ok fields t') ↔
      verifySignedFields env.toOtaEnv manifest.signedFields manifest.signature = .ok fields ∧
        fields.blockCount = blockCount ∧ fields.encodedSize = payloadSize ∧
        fields.hasBaseImage = false := by
  rw [checkFields]
  cases verifySignedFields env.toOtaEnv manifest.signedFields manifest.signature with
  | error err =>
      constructor
      · rintro ⟨t', hrun⟩
        exact (throw_ok hrun).elim
      · rintro ⟨hok, -⟩
        cases hok
  | ok found =>
      dsimp only
      split
      · next hbad =>
          constructor
          · rintro ⟨t', hrun⟩
            exact (throw_ok hrun).elim
          · rintro ⟨hok, hcount, hsize, hbase⟩
            cases hok
            rw [hbase] at hbad
            rcases hbad with hno | hno | hno
            · exact absurd hcount hno
            · exact absurd hsize hno
            · cases hno
      next hgood =>
        simp only [not_or, ne_eq, Decidable.not_not, Bool.not_eq_true] at hgood
        constructor
        · rintro ⟨t', hrun⟩
          obtain ⟨rfl, -⟩ := pure_ok hrun
          exact ⟨rfl, hgood⟩
        · rintro ⟨hok, -⟩
          cases hok
          exact ⟨t, rfl⟩

/-! ## The verdict -/

theorem Passed.finish {fields : SignedFields} {blocks : List Block}
    {s : Stream env.toOtaEnv} (h : Passed fields blocks s) {inflates : Bytes → Bytes → Prop}
    {payload : Bytes} (hc : Contents env.toOtaEnv inflates fields payload blocks) :
    (streamFinish s).1 = .ok := by
  have hstate : ¬(s.failed = true ∨ s.finished = true ∨ s.blockActive = true ∨
      s.nextBlockIndex ≠ s.fields.blockCount ∨ s.rawOffset ≠ s.fields.rawSize ∨
      s.encodedOffset ≠ s.fields.encodedSize) := by
    rw [h.failed, h.finished, h.idle, h.index, h.rawOffset, h.encodedOffset, h.fields, hc.count,
      hc.rawSize, hc.payload_eq, hc.encodedSize]
    simp
  have hhash : ¬(env.sha256 s.imageHash ≠ s.fields.imageSha256 ∨
      (s.payloadHashComplete = true ∧ env.sha256 s.payloadHash ≠ s.fields.encodedSha256) ∨
      s.blockChain ≠ s.fields.blockTableSha256) := by
    rw [h.imageHash, h.payloadHash, h.chain, h.fields, hc.payload_eq, hc.imageHash,
      hc.payloadHash, hc.chain]
    simp
  rw [streamFinish, if_neg hstate, if_neg hhash]

/-- The pass over the blocks of a package puts out the image. -/
theorem Contents.validates (hstores : Stores readFn artifact)
    (hsmall : artifact.length < 2 ^ 32)
    (hfits : headerSize + manifestSizeOf artifact ≤ artifact.length)
    {inflates : Bytes → Bytes → Prop} (hstreams : Streams env.toOtaEnv inflates)
    {fields : SignedFields} {blocks : List Block} {manifest : PbManifest}
    (hscan : env.decodeManifest (manifestBytesOf artifact) =
      ⟨(descriptorsOf blocks).map some, some manifest⟩)
    (hcount : blocks.length ≤ maxBlockCount)
    (h : Contents env.toOtaEnv inflates fields (packagePayload artifact) blocks) (t : Trace) :
    ∃ validator t', decodeManifest env readFn (manifestSizeOf artifact) (validateBlock readFn)
        ⟨headerSize + manifestSizeOf artifact, fields.encodedSize,
          Stream.fresh env.toOtaEnv fields, 0⟩ t =
        .ok (manifest, ⟨headerSize + manifestSizeOf artifact, fields.encodedSize, validator,
          blocks.length⟩) t' ∧ Passed fields blocks validator := by
  have hpieces := h.walked.pieces []
  rw [List.append_nil, h.payload_eq] at hpieces
  obtain ⟨t₁, hread⟩ := hstores.readManifest hsmall hfits t
  obtain ⟨validator, t₂, hrun, hpassed⟩ := validateBlocks_takes hstreams hstores hsmall h.full
    h.encodedSize h.walked hpieces hcount t₁
  refine ⟨validator, t₂, ?_, hpassed⟩
  rw [decodeManifest, bind_eq hread, hscan]
  dsimp only
  rw [bind_eq hrun]
  rfl

/-- `keemash_ota_v3_verify_package` returns the signed fields exactly when the artifact is
framed, its manifest decodes, the signed fields are good, and the blocks are what they
say. -/
theorem verifyPackage_iff {inflates : Bytes → Bytes → Prop} (hcrc : env.CrcStreams)
    (hgreedy : env.zlib.Greedy)
    (hends : ∀ encoded raw, env.zlib.Ends encoded raw → inflates encoded raw)
    (hstreams : Streams env.toOtaEnv inflates) (hstores : Stores readFn artifact) {heap : Heap}
    (hheap : ∀ scratch, heap scratch = true) (fields : SignedFields) (t : Trace) :
    (∃ t', verifyPackage env heap readFn artifact.length t = .ok fields t') ↔
      Framed (fun bytes => env.crc32 0 bytes % 2 ^ 32) artifact ∧
        manifestSizeOf artifact ≤ manifestMax ∧
        ∃ manifest blocks, env.decodeManifest (manifestBytesOf artifact) =
            ⟨(descriptorsOf blocks).map some, some manifest⟩ ∧
          blocks.length ≤ maxBlockCount ∧
          verifySignedFields env.toOtaEnv manifest.signedFields manifest.signature =
            .ok fields ∧
          Contents env.toOtaEnv inflates fields (packagePayload artifact) blocks := by
  have hmax : maxPackageSize < 2 ^ 32 := by decide
  have halloc (scratch : Scratch) (t : Trace) : alloc heap scratch t = .ok () t := by
    rw [alloc, if_pos (hheap scratch)]
    rfl
  have hpayload : (packagePayload artifact).length =
      artifact.length - (headerSize + manifestSizeOf artifact) := List.length_drop
  constructor
  · rintro ⟨t', hrun⟩
    obtain ⟨manifestSize, t₁, hheader, hrun⟩ := bind_ok hrun
    obtain ⟨hframed, hle, rfl⟩ :=
      (readHeader_iff hcrc hstores manifestSize t).mp ⟨t₁, hheader⟩
    have hsmall : artifact.length < 2 ^ 32 := Nat.lt_of_le_of_lt hframed.small hmax
    rw [bind_eq (halloc .manifest t₁), bind_eq (halloc .validator t₁),
      bind_eq (halloc .countBytes t₁)] at hrun
    obtain ⟨⟨original, expectedCount⟩, t₂, hcount, hrun⟩ := bind_ok hrun
    obtain ⟨hmanifest, t₃, hcounted⟩ := decodeManifest_scan hstores hsmall hframed.fits hcount
    obtain ⟨ds, hds⟩ := foldlM_decoded (fun b block b' t t' hstep => by
      obtain ⟨d, hd, -⟩ := countBlock_ok hstep
      exact ⟨d, hd⟩) hcounted
    rw [hds] at hcounted
    obtain ⟨hexpected, hroom⟩ := countBlocks_ok (Nat.zero_le _) hcounted
    rw [Nat.zero_add] at hexpected
    obtain ⟨checked, t₄, hcheck, hrun⟩ := bind_ok hrun
    obtain ⟨hverify, hblocks, hencoded, hbase⟩ :=
      (checkFields_iff original expectedCount _ checked t₂).mp ⟨t₄, hcheck⟩
    rw [← hpayload] at hencoded
    cases hbegin : (streamBegin checked : Except EspErr (Stream env.toOtaEnv)) with
    | error err =>
        rw [hbegin] at hrun
        exact (throw_ok hrun).elim
    | ok validator =>
        rw [hbegin] at hrun
        dsimp only at hrun
        obtain ⟨rfl, hfull⟩ := streamBegin_ok hbegin
        rw [bind_eq (halloc .validateBytes t₄)] at hrun
        obtain ⟨⟨manifest, blocks⟩, t₅, hvalidated, hrun⟩ := bind_ok hrun
        dsimp only at hrun
        split at hrun
        · exact (throw_ok hrun).elim
        split at hrun
        · exact (throw_ok hrun).elim
        split at hrun
        · exact (throw_ok hrun).elim
        next hfinish =>
          obtain ⟨rfl, -⟩ := pure_ok hrun
          obtain ⟨-, t₆, hfold⟩ := decodeManifest_scan hstores hsmall hframed.fits hvalidated
          rw [hds] at hfold
          obtain ⟨hreached, hall⟩ := validateBlocks_passed hgreedy hstores hsmall rfl hencoded
            (passed_fresh checked) .nil rfl hfold
          obtain ⟨-, -, hindex, hraw, hsize, himage, hhash, hchain⟩ :=
            streamFinish_ok (not_not.mp hfinish)
          have hkept : blocks.validator.fields = checked := by
            obtain ⟨hkept, -⟩ := validateBlocks_ok rfl hfold
            exact hkept
          rw [hkept] at hindex hraw hsize himage hhash hchain
          have hlength : ([] : List Block).length + ds.length = checked.blockCount := by
            rw [List.length_nil, Nat.zero_add, hblocks, hexpected]
          obtain ⟨new, hnew, hpassed, hwalked, hfront⟩ := hall (hindex.trans hlength.symm)
          rw [List.nil_append] at hpassed hwalked hfront
          have hnewLength : new.length = ds.length := by
            rw [← hnew, descriptorsOf, List.length_map]
          have hwhole : encodedOf new = packagePayload artifact := by
            rw [Fronts, ← hpassed.encodedOffset, hsize, hencoded] at hfront
            exact hfront.trans List.take_length
          rw [hpassed.rawOffset] at hraw
          rw [hpassed.imageHash] at himage
          rw [hpassed.complete, hpassed.payloadHash, hwhole] at hhash
          rw [hpassed.chain] at hchain
          have hscan : env.decodeManifest (manifestBytesOf artifact) =
              ⟨(descriptorsOf new).map some, some original⟩ := by
            rw [hnew, ← hds, ← hmanifest]
          refine ⟨hframed, hle, original, new, hscan, by omega, hverify,
            hwalked.mono hends, hfull, hbase, by omega, ?_, hwhole, hraw, hencoded.symm, himage,
            hhash rfl, hchain⟩
          rw [streamBegin] at hbegin
          split at hbegin
          · cases hbegin
          next hshape =>
            simp only [not_or] at hshape
            omega
  · rintro ⟨hframed, hle, manifest, blocks, hscan, hcount, hverify, hc⟩
    have hsmall : artifact.length < 2 ^ 32 := Nat.lt_of_le_of_lt hframed.small hmax
    obtain ⟨t₁, hheader⟩ := (readHeader_iff hcrc hstores (manifestSizeOf artifact) t).mpr
      ⟨hframed, hle, rfl⟩
    have hlength : (descriptorsOf blocks).length = blocks.length := List.length_map _
    obtain ⟨t₂, hcounted⟩ := decodeManifest_run hstores hsmall hframed.fits hscan
      (fun t => ⟨t, countBlocks_run (n := 0) (by omega) t⟩) t₁
    rw [Nat.zero_add, hlength] at hcounted
    obtain ⟨t₃, hcheck⟩ := (checkFields_iff manifest blocks.length
      (artifact.length - (headerSize + manifestSizeOf artifact)) fields t₂).mpr
        ⟨hverify, hc.count, by rw [← hc.encodedSize, hpayload], hc.base⟩
    have hbegin : (streamBegin fields : Except EspErr (Stream env.toOtaEnv)) =
        .ok (Stream.fresh env.toOtaEnv fields) := by
      have hpos := hc.pos
      rw [streamBegin, if_neg]
      rw [hc.full.1, hc.full.2, hc.count]
      simp only [ne_eq, not_true_eq_false, false_or]
      omega
    obtain ⟨validator, t₄, hvalidated, hpassed⟩ :=
      hc.validates hstores hsmall hframed.fits hstreams hscan hcount t₃
    refine ⟨t₄, ?_⟩
    rw [verifyPackage, bind_eq hheader, bind_eq (halloc .manifest t₁),
      bind_eq (halloc .validator t₁), bind_eq (halloc .countBytes t₁), bind_eq hcounted]
    dsimp only
    rw [bind_eq hcheck, hbegin]
    dsimp only
    rw [bind_eq (halloc .validateBytes t₃), bind_eq hvalidated]
    dsimp only
    rw [if_neg (not_not.mpr rfl), if_neg (not_not.mpr rfl),
      if_neg (not_not.mpr (hpassed.finish hc))]
    rfl

end Verdict

end KeemashCore.OtaV3

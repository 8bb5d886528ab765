import KeemashCore.Effects.Basic
import KeemashCore.OtaV3.Chunking
import KeemashCore.OtaV3.Package

/-!
# Packages are read inside their bounds and visited without gaps

Every range that the checks of a package read lies inside the package.  A package that
passes `keemash_ota_v3_verify_package` has blocks that tile its payload in the order of
their indices: each descriptor moves the validator by at most one block, and the number
of descriptors leaves no room for one that does not move it.
-/

namespace KeemashCore.OtaV3

open Effects Tiling

variable {env : PackageEnv}

/-! ## Reads -/

/-- Everything read so far lies inside the package, and no sum of offsets needs more
than 32 bits. -/
def Trace.Inside (packageSize : ℕ) (t : Trace) : Prop :=
  ∀ span ∈ t.reads, span.Within 0 packageSize ∧ span.stop < 2 ^ 32

variable {packageSize : ℕ}

theorem readAt_keeps {readFn : ReadFn} {span : Span} (hspan : span.stop ≤ packageSize)
    (hmax : packageSize ≤ maxPackageSize) :
    Keeps (Trace.Inside packageSize) (readAt readFn span) fun _ => True := by
  have hsmall : maxPackageSize < 2 ^ 32 := by decide
  intro t ht
  have hread : Trace.Inside packageSize { t with reads := t.reads ++ [span] } := by
    intro other hmem
    rcases List.mem_append.mp hmem with hold | hnew
    · exact ht other hold
    · obtain rfl := List.mem_singleton.mp hnew
      exact ⟨⟨Nat.zero_le _, hspan⟩, by omega⟩
  rw [readAt_run]
  cases readFn (span.start % 2 ^ 32) span.size with
  | error err => exact hread
  | ok buffer => exact ⟨hread, trivial⟩

theorem alloc_keeps {P : Trace → Prop} (heap : Heap) (scratch : Scratch) :
    Keeps P (alloc heap scratch) fun _ => True := by
  rw [alloc]
  split
  · exact keeps_pure trivial
  · exact keeps_throw _

theorem nextDescriptor_keeps {P : Trace → Prop} (blockCount : ℕ)
    (block : Option BlockDescriptor) :
    Keeps P (nextDescriptor blockCount block) fun _ => True := by
  rw [nextDescriptor.eq_def]
  split
  · exact keeps_throw _
  · cases block with
    | none => exact keeps_throw _
    | some descriptor => exact keeps_pure trivial

theorem countBlock_keeps {P : Trace → Prop} (blockCount : ℕ) (block : Option BlockDescriptor) :
    Keeps P (countBlock blockCount block) fun _ => True :=
  (nextDescriptor_keeps blockCount block).bind fun _ _ => keeps_pure trivial

/-- The loop stays inside the block, and the block inside the payload. -/
theorem validateChunks_keeps {readFn : ReadFn} {payloadOffset : ℕ}
    {descriptor : BlockDescriptor} {consumed : ℕ} {validator : Stream env.toOtaEnv}
    (hblock : payloadOffset + descriptor.encodedOffset + descriptor.encodedSize ≤ packageSize)
    (hmax : packageSize ≤ maxPackageSize) :
    Keeps (Trace.Inside packageSize)
      (validateChunks readFn payloadOffset descriptor consumed validator) fun _ => True := by
  fun_induction validateChunks readFn payloadOffset descriptor consumed validator with
  | case1 consumed validator hmore count ih =>
      refine (readAt_keeps ?_ hmax).bind fun chunk _ => ?_
      · have hcount : count ≤ descriptor.encodedSize - consumed := Nat.min_le_left _ _
        rw [Span.stop]
        dsimp only
        omega
      · dsimp only
        split
        · exact keeps_throw _
        · exact ih _
  | case2 consumed validator hdone => exact keeps_pure trivial

theorem validateBlock_keeps {readFn : ReadFn} {payloadOffset payloadSize : ℕ}
    (hpayload : payloadOffset + payloadSize = packageSize)
    (hmax : packageSize ≤ maxPackageSize) {blocks : BlockContext env}
    (hblocks : blocks.payloadOffset = payloadOffset ∧ blocks.payloadSize = payloadSize)
    (block : Option BlockDescriptor) :
    Keeps (Trace.Inside packageSize) (validateBlock readFn blocks block) fun blocks' =>
      blocks'.payloadOffset = payloadOffset ∧ blocks'.payloadSize = payloadSize := by
  obtain ⟨rfl, rfl⟩ := hblocks
  refine (nextDescriptor_keeps _ _).bind fun descriptor _ => ?_
  split
  · exact keeps_throw _
  · next hinside =>
      rw [outsidePayload] at hinside
      refine (validateChunks_keeps (by omega) hmax).bind fun validator _ => ?_
      exact keeps_pure ⟨rfl, rfl⟩

theorem decodeManifest_keeps {σ : Type} {readFn : ReadFn} {manifestSize : ℕ}
    {callback : σ → Option BlockDescriptor → PackageM σ} {R : σ → Prop} {blocks : σ}
    (hsize : headerSize + manifestSize ≤ packageSize) (hmax : packageSize ≤ maxPackageSize)
    (hcallback : ∀ b, R b → ∀ block, Keeps (Trace.Inside packageSize) (callback b block) R)
    (hblocks : R blocks) :
    Keeps (Trace.Inside packageSize)
      (decodeManifest env readFn manifestSize callback blocks) fun _ => True := by
  refine (readAt_keeps hsize hmax).bind fun bytes _ => ?_
  refine (keeps_foldlM hcallback hblocks).bind fun blocks' _ => ?_
  split
  · exact keeps_throw _
  · exact keeps_pure trivial

theorem crcLoop_keeps {readFn : ReadFn} {offset remaining crc : ℕ}
    (hsize : offset + remaining ≤ packageSize) (hmax : packageSize ≤ maxPackageSize) :
    Keeps (Trace.Inside packageSize) (crcLoop env readFn offset remaining crc)
      fun _ => True := by
  fun_induction crcLoop env readFn offset remaining crc with
  | case1 offset remaining crc hmore count ih =>
      have hcount : count ≤ remaining := Nat.min_le_left _ _
      refine (readAt_keeps ?_ hmax).bind fun buffer _ => ?_
      · rw [Span.stop]
        dsimp only
        omega
      · exact ih buffer (by omega)
  | case2 offset remaining crc hdone => exact keeps_pure trivial

/-- What is known once the header has been read. -/
structure Sized (packageSize manifestSize : ℕ) : Prop where
  pos : manifestSize ≠ 0
  le_max : manifestSize ≤ manifestMax
  fits : headerSize + manifestSize ≤ packageSize
  package : packageSize ≤ maxPackageSize

theorem readHeader_keeps (readFn : ReadFn) (packageSize : ℕ) :
    Keeps (Trace.Inside packageSize) (readHeader env readFn packageSize)
      (Sized packageSize) := by
  rw [readHeader]
  split
  · exact keeps_throw _
  next hsize =>
    refine (readAt_keeps ?_ (by omega)).bind fun header _ => ?_
    · rw [Span.stop]
      dsimp only
      omega
    split
    · exact keeps_throw _
    dsimp only
    split
    · exact keeps_throw _
    next hmanifest =>
      have hsized : Sized packageSize (le32 ((header.drop 8).take 4)) :=
        ⟨by omega, by omega, by omega, by omega⟩
      refine Keeps.bind (Q := fun _ => True) ?_ fun _ _ => keeps_pure hsized
      refine (crcLoop_keeps hsized.fits hsized.package).bind fun crc _ => ?_
      split
      · exact keeps_throw _
      · exact keeps_pure trivial

theorem checkFields_keeps {P : Trace → Prop} (manifest : PbManifest)
    (blockCount payloadSize : ℕ) :
    Keeps P (checkFields env manifest blockCount payloadSize) fun fields =>
      fields.encodedSize = payloadSize := by
  rw [checkFields]
  split
  · exact keeps_throw _
  · split
    · exact keeps_throw _
    next hfields =>
      simp only [not_or, ne_eq, Decidable.not_not] at hfields
      exact keeps_pure hfields.2.1

theorem packageInspect_keeps (heap : Heap) (readFn : ReadFn) (packageSize : ℕ) :
    Keeps (Trace.Inside packageSize) (packageInspect env heap readFn packageSize)
      fun _ => True := by
  refine (readHeader_keeps readFn packageSize).bind fun manifestSize hsized => ?_
  refine (alloc_keeps heap _).bind fun _ _ => ?_
  refine (alloc_keeps heap _).bind fun _ _ => ?_
  refine (decodeManifest_keeps (R := fun _ => True) hsized.fits hsized.package
    (fun b _ block => countBlock_keeps b block) trivial).bind fun counted _ => ?_
  dsimp only
  split
  · exact keeps_throw _
  · exact (checkFields_keeps _ _ _).bind fun _ _ => keeps_pure trivial

theorem verifyPackage_keeps (heap : Heap) (readFn : ReadFn) (packageSize : ℕ) :
    Keeps (Trace.Inside packageSize) (verifyPackage env heap readFn packageSize)
      fun _ => True := by
  refine (readHeader_keeps readFn packageSize).bind fun manifestSize hsized => ?_
  refine (alloc_keeps heap _).bind fun _ _ => ?_
  refine (alloc_keeps heap _).bind fun _ _ => ?_
  refine (alloc_keeps heap _).bind fun _ _ => ?_
  refine (decodeManifest_keeps (R := fun _ => True) hsized.fits hsized.package
    (fun b _ block => countBlock_keeps b block) trivial).bind fun counted _ => ?_
  refine (checkFields_keeps _ _ _).bind fun fields hencoded => ?_
  split
  · exact keeps_throw _
  · have hfits := hsized.fits
    refine (alloc_keeps heap _).bind fun _ _ => ?_
    refine (decodeManifest_keeps (R := fun blocks : BlockContext env =>
      blocks.payloadOffset = headerSize + manifestSize ∧
        blocks.payloadSize = fields.encodedSize) hsized.fits hsized.package
      (fun b hb block => validateBlock_keeps (by omega) hsized.package hb block)
      ⟨rfl, rfl⟩).bind fun validated _ => ?_
    dsimp only
    split
    · exact keeps_throw _
    split
    · exact keeps_throw _
    split
    · exact keeps_throw _
    · exact keeps_pure trivial

/-! ## What a run has found -/

/-- The storage holds a header that names `manifestSize`. -/
def Headed (readFn : ReadFn) (manifestSize : ℕ) : Prop :=
  ∃ header, readFn 0 headerSize = .ok header ∧
    manifestSize = le32 ((header.toList.drop 8).take 4)

theorem Headed.unique {readFn : ReadFn} {m m' : ℕ} (h : Headed readFn m)
    (h' : Headed readFn m') : m = m' := by
  obtain ⟨header, hread, rfl⟩ := h
  obtain ⟨header', hread', rfl⟩ := h'
  rw [hread] at hread'
  cases hread'
  rfl

/-- The storage holds a manifest with these blocks. -/
def Scans (env : PackageEnv) (readFn : ReadFn) (manifestSize : ℕ)
    (ds : List BlockDescriptor) (manifest : PbManifest) : Prop :=
  ∃ buffer, readFn headerSize manifestSize = .ok buffer ∧
    env.decodeManifest buffer.toList = ⟨ds.map some, some manifest⟩

theorem Scans.unique {readFn : ReadFn} {manifestSize : ℕ} {ds ds' : List BlockDescriptor}
    {manifest manifest' : PbManifest} (h : Scans env readFn manifestSize ds manifest)
    (h' : Scans env readFn manifestSize ds' manifest') : ds = ds' ∧ manifest = manifest' := by
  obtain ⟨buffer, hread, hscan⟩ := h
  obtain ⟨buffer', hread', hscan'⟩ := h'
  rw [hread] at hread'
  cases hread'
  rw [hscan] at hscan'
  obtain ⟨hblocks, hmanifest⟩ := ManifestScan.mk.inj hscan'
  exact ⟨List.map_injective_iff.mpr (Option.some_injective _) hblocks,
    Option.some_injective _ hmanifest⟩

theorem readAt_ok {readFn : ReadFn} {span : Span} {bytes : Bytes} {t t' : Trace}
    (h : readAt readFn span t = .ok bytes t') :
    ∃ buffer, readFn (span.start % 2 ^ 32) span.size = .ok buffer ∧
      bytes = buffer.toList := by
  rw [readAt_run] at h
  cases hread : readFn (span.start % 2 ^ 32) span.size with
  | error err =>
      rw [hread] at h
      cases h
  | ok buffer =>
      rw [hread] at h
      cases h
      exact ⟨buffer, rfl, rfl⟩

theorem readAt_eq {readFn : ReadFn} {span : Span} {buffer : Vector UInt8 span.size} {t : Trace}
    (h : readFn (span.start % 2 ^ 32) span.size = .ok buffer) :
    readAt readFn span t = .ok buffer.toList { t with reads := t.reads ++ [span] } := by
  rw [readAt_run, h]

theorem readHeader_ok {readFn : ReadFn} {manifestSize : ℕ} {t t' : Trace}
    (h : readHeader env readFn packageSize t = .ok manifestSize t') :
    Headed readFn manifestSize ∧ Sized packageSize manifestSize := by
  rw [readHeader] at h
  split at h
  · exact (throw_ok h).elim
  next hsize =>
    obtain ⟨header, t₁, hread, h⟩ := bind_ok h
    obtain ⟨buffer, hbuffer, rfl⟩ := readAt_ok hread
    split at h
    · exact (throw_ok h).elim
    dsimp only at h
    split at h
    · exact (throw_ok h).elim
    next hmanifest =>
      obtain ⟨u, t₂, -, h⟩ := bind_ok h
      obtain ⟨rfl, -⟩ := pure_ok h
      exact ⟨⟨buffer, hbuffer, rfl⟩, by omega, by omega, by omega, by omega⟩

theorem nextDescriptor_ok {blockCount : ℕ} {block : Option BlockDescriptor}
    {d : BlockDescriptor} {t t' : Trace} (h : nextDescriptor blockCount block t = .ok d t') :
    blockCount < maxBlockCount ∧ block = some d ∧ t' = t := by
  rw [nextDescriptor.eq_def] at h
  split at h
  · exact (throw_ok h).elim
  next hroom =>
    cases block with
    | none => exact (throw_ok h).elim
    | some descriptor =>
        obtain ⟨rfl, rfl⟩ := pure_ok h
        exact ⟨Nat.lt_of_not_le hroom, rfl, rfl⟩

/-- Decoding reads the manifest and folds the callback over its blocks. -/
theorem decodeManifest_ok {σ : Type} {readFn : ReadFn} {manifestSize : ℕ}
    {callback : σ → Option BlockDescriptor → PackageM σ} {blocks blocks' : σ}
    {manifest : PbManifest} {t t' : Trace}
    (h : decodeManifest env readFn manifestSize callback blocks t =
      .ok (manifest, blocks') t') :
    ∃ buffer found t₁, readFn headerSize manifestSize = .ok buffer ∧
      env.decodeManifest buffer.toList = ⟨found, some manifest⟩ ∧
      found.foldlM callback blocks t₁ = .ok blocks' t' := by
  obtain ⟨bytes, t₁, hread, h⟩ := bind_ok h
  obtain ⟨buffer, hbuffer, rfl⟩ := readAt_ok hread
  obtain ⟨folded, t₂, hfold, h⟩ := bind_ok h
  cases hmanifest : (env.decodeManifest buffer.toList).manifest with
  | none =>
      rw [hmanifest] at h
      exact (throw_ok h).elim
  | some found =>
      rw [hmanifest] at h
      obtain ⟨heq, rfl⟩ := pure_ok h
      obtain ⟨rfl, rfl⟩ := Prod.mk.inj heq
      refine ⟨buffer, _, t₁, hbuffer, ?_, hfold⟩
      rw [← hmanifest]

/-- A fold whose steps succeed only on descriptors that decode. -/
theorem foldlM_decoded {σ : Type} {callback : σ → Option BlockDescriptor → PackageM σ}
    (hcallback : ∀ b block b' t t', callback b block t = .ok b' t' → ∃ d, block = some d)
    {found : List (Option BlockDescriptor)} {blocks blocks' : σ} {t t' : Trace}
    (h : found.foldlM callback blocks t = .ok blocks' t') :
    ∃ ds : List BlockDescriptor, found = ds.map some := by
  induction found generalizing blocks t with
  | nil => exact ⟨[], rfl⟩
  | cons block found ih =>
      rw [List.foldlM_cons] at h
      obtain ⟨b, t₁, hstep, hrest⟩ := bind_ok h
      obtain ⟨d, rfl⟩ := hcallback _ _ _ _ _ hstep
      obtain ⟨ds, rfl⟩ := ih hrest
      exact ⟨d :: ds, rfl⟩

theorem countBlock_ok {blockCount count : ℕ} {block : Option BlockDescriptor} {t t' : Trace}
    (h : countBlock blockCount block t = .ok count t') :
    ∃ d, block = some d ∧ blockCount < maxBlockCount ∧ count = blockCount + 1 := by
  obtain ⟨d, t₁, hnext, h⟩ := bind_ok h
  obtain ⟨hroom, hblock, -⟩ := nextDescriptor_ok hnext
  exact ⟨d, hblock, hroom, (pure_ok h).1.symm⟩

theorem countBlocks_ok {ds : List BlockDescriptor} {blockCount count : ℕ} {t t' : Trace}
    (hmax : blockCount ≤ maxBlockCount)
    (h : (ds.map some).foldlM countBlock blockCount t = .ok count t') :
    count = blockCount + ds.length ∧ count ≤ maxBlockCount := by
  induction ds generalizing blockCount t with
  | nil =>
      obtain ⟨rfl, -⟩ := pure_ok h
      exact ⟨rfl, hmax⟩
  | cons d ds ih =>
      rw [List.map_cons, List.foldlM_cons] at h
      obtain ⟨b, t₁, hstep, h⟩ := bind_ok h
      obtain ⟨-, -, hroom, rfl⟩ := countBlock_ok hstep
      obtain ⟨rfl, hle⟩ := ih hroom h
      exact ⟨by rw [List.length_cons]; omega, hle⟩

/-- The counting pass over a manifest. -/
theorem decodeManifest_counted {readFn : ReadFn} {manifestSize count : ℕ}
    {manifest : PbManifest} {t t' : Trace}
    (h : decodeManifest env readFn manifestSize countBlock 0 t = .ok (manifest, count) t') :
    ∃ ds, Scans env readFn manifestSize ds manifest ∧ count = ds.length ∧
      ds.length ≤ maxBlockCount := by
  obtain ⟨buffer, found, t₁, hread, hscan, hfold⟩ := decodeManifest_ok h
  obtain ⟨ds, rfl⟩ := foldlM_decoded (fun b block b' t t' hstep => by
    obtain ⟨d, hd, -⟩ := countBlock_ok hstep
    exact ⟨d, hd⟩) hfold
  obtain ⟨hcount, hle⟩ := countBlocks_ok (Nat.zero_le _) hfold
  rw [Nat.zero_add] at hcount
  exact ⟨ds, ⟨buffer, hread, hscan⟩, hcount, by omega⟩

theorem checkFields_ok {manifest : PbManifest} {blockCount payloadSize : ℕ}
    {fields : SignedFields} {t t' : Trace}
    (h : checkFields env manifest blockCount payloadSize t = .ok fields t') :
    verifySignedFields env.toOtaEnv manifest.signedFields manifest.signature = .ok fields ∧
      fields.blockCount = blockCount ∧ fields.encodedSize = payloadSize := by
  rw [checkFields] at h
  cases hverify : verifySignedFields env.toOtaEnv manifest.signedFields manifest.signature with
  | error err =>
      rw [hverify] at h
      exact (throw_ok h).elim
  | ok found =>
      rw [hverify] at h
      dsimp only at h
      split at h
      · exact (throw_ok h).elim
      next hfields =>
        simp only [not_or, ne_eq, Decidable.not_not] at hfields
        obtain ⟨rfl, -⟩ := pure_ok h
        exact ⟨rfl, hfields.1, hfields.2.1⟩

/-! ## How a descriptor moves the validator -/

variable {s s' : Stream env.toOtaEnv} {outputFn : OutputFn}

theorem openBlock_places {d : BlockDescriptor} {n : ℕ} (h : (openBlock s d n).1 = .ok) :
    (s.blockActive = false → n = 0 ∧ d.index = s.nextBlockIndex ∧
      d.encodedOffset = s.encodedOffset) ∧
    (openBlock s d n).2.blockActive = true ∧ (openBlock s d n).2.block = d ∧
    (openBlock s d n).2.nextBlockIndex = s.nextBlockIndex ∧
    (openBlock s d n).2.encodedOffset = s.encodedOffset ∧
    (openBlock s d n).2.fields = s.fields := by
  rw [openBlock] at h ⊢
  by_cases hidle : s.blockActive = false
  · rw [if_pos hidle] at h ⊢
    by_cases hn : n ≠ 0
    · rw [if_pos hn] at h
      cases h
    rw [if_neg hn] at h ⊢
    rw [startBlock] at h ⊢
    cases hcheck : checkBlockDescriptor env.toOtaEnv s.fields d s.nextBlockIndex s.rawOffset
        s.encodedOffset s.blockChain with
    | error err =>
        rw [hcheck] at h
        exact absurd h (checkBlockDescriptor_error hcheck)
    | ok next =>
        rw [hcheck] at h
        have hchecked := checkBlockDescriptor_ok hcheck
        dsimp only at h ⊢
        by_cases hkind : d.kind ≠ blockDeflate
        · rw [if_pos hkind] at h
          cases h
        rw [if_neg hkind] at h ⊢
        exact ⟨fun _ => ⟨by omega, hchecked.index_eq, hchecked.encodedOffset_eq⟩,
          decide_eq_true h, rfl, rfl, rfl, rfl⟩
  · rw [if_neg hidle] at h ⊢
    by_cases hsame : sameDescriptor s.block d = true
    · rw [if_pos hsame]
      exact ⟨fun hno => absurd hno hidle, by simpa using hidle, sameDescriptor_eq hsame,
        rfl, rfl, rfl⟩
    · rw [if_neg hsame] at h
      cases h

/-- A chunk that is taken closes its block if it is the final one. -/
theorem inflateChunk_places {n : ℕ} {bytes : Bytes} {final : Bool}
    (hactive : s.blockActive = true) (h : (inflateChunk outputFn s n bytes final).1 = .ok) :
    let s' := (inflateChunk outputFn s n bytes final).2
    s'.fields = s.fields ∧ if final then
      s'.blockActive = false ∧ s'.nextBlockIndex = s.nextBlockIndex + 1 ∧
        s'.encodedOffset = s.encodedOffset + s.block.encodedSize
    else
      s'.blockActive = true ∧ s'.block = s.block ∧ s'.nextBlockIndex = s.nextBlockIndex ∧
        s'.encodedOffset = s.encodedOffset := by
  obtain ⟨pieces, hinflates⟩ := inflaterFeed_inflates outputFn final
    (s.hashChunk bytes).inflater bytes (s.hashChunk bytes)
  have hemitted := hinflates.emitted
  have hactive' := (congrArg Stream.blockActive hemitted).trans hactive
  have hblock := congrArg Stream.block hemitted
  have hindex := congrArg Stream.nextBlockIndex hemitted
  have hencoded := congrArg Stream.encodedOffset hemitted
  have hfields := congrArg Stream.fields hemitted
  rw [inflateChunk] at h ⊢
  dsimp only at h ⊢
  by_cases hplace : n ≠ s.blockEncodedOffset ∨
      bytes.length > s.block.encodedSize - s.blockEncodedOffset ∨
      final ≠ decide (bytes.length = s.block.encodedSize - s.blockEncodedOffset)
  · rw [if_pos hplace] at h
    cases h
  rw [if_neg hplace] at h ⊢
  rw [takeChunk] at h ⊢
  dsimp only at h ⊢
  by_cases herr : (inflaterFeed env.toOtaEnv (streamOutput outputFn) (s.hashChunk bytes).inflater
      bytes final (s.hashChunk bytes)).1 ≠ .ok
  · rw [if_pos herr] at h
    exact absurd h herr
  rw [if_neg herr] at h ⊢
  cases final with
  | false => exact ⟨hfields, hactive', hblock, hindex, hencoded⟩
  | true =>
      rw [if_pos rfl] at h ⊢
      rw [finishBlock] at h ⊢
      split at h
      · cases h
      next hhash =>
        rw [if_neg hhash]
        refine ⟨hfields, rfl, congrArg (· + 1) hindex, ?_⟩
        exact congrArg₂ (· + ·) hencoded (congrArg BlockDescriptor.encodedSize hblock)

/-- What an accepted chunk does, unless it is the last one again. -/
theorem streamFeed_places {c : Chunk} (h : streamFeed outputFn s c = (.ok, s')) :
    (s.isRepeat c = true ∧ s' = s) ∨
      (s'.fields = s.fields ∧ (s.blockActive = false → c.offset = 0 ∧ c.descriptor.index = s.nextBlockIndex ∧
        c.descriptor.encodedOffset = s.encodedOffset) ∧
      if c.final then
        s'.blockActive = false ∧ s'.nextBlockIndex = s.nextBlockIndex + 1 ∧
          s'.encodedOffset = s.encodedOffset + c.descriptor.encodedSize
      else
        s'.blockActive = true ∧ s'.block = c.descriptor ∧
          s'.nextBlockIndex = s.nextBlockIndex ∧ s'.encodedOffset = s.encodedOffset) := by
  rw [streamFeed] at h
  split at h
  · cases h
  by_cases hrepeat : s.isRepeat c = true
  · rw [if_pos hrepeat] at h
    split at h
    · exact Or.inl ⟨hrepeat, (Prod.mk.inj h).2.symm⟩
    · cases h
  rw [if_neg hrepeat] at h
  dsimp only at h
  split at h
  · next herr => exact absurd (Prod.mk.inj h).1 herr
  next hopen =>
    split at h
    · next herr => exact absurd (Prod.mk.inj h).1 herr
    next hinflate =>
      obtain rfl := (Prod.mk.inj h).2
      obtain ⟨hstart, hactive, hblock, hindex, hencoded, hfields⟩ :=
        openBlock_places (not_not.mp hopen)
      obtain ⟨hkept, hplaces⟩ := inflateChunk_places hactive (not_not.mp hinflate)
      refine Or.inr ⟨hkept.trans hfields, hstart, ?_⟩
      dsimp only at hplaces ⊢
      rw [hblock, hindex, hencoded] at hplaces
      exact hplaces

/-- Where the validator can be after `consumed` bytes of the block `d`, when it stood
between blocks before. -/
inductive Reaches (s₀ : Stream env.toOtaEnv) (d : BlockDescriptor) :
    ℕ → Stream env.toOtaEnv → Prop where
  | start : Reaches s₀ d 0 s₀
  | repeated {consumed : ℕ} (hlast : s₀.lastChunkOffset < consumed) : Reaches s₀ d consumed s₀
  | opened {consumed : ℕ} {s : Stream env.toOtaEnv} (hactive : s.blockActive = true)
      (hlast : s.lastChunkOffset < consumed) (hmore : consumed < d.encodedSize)
      (hindex : d.index = s₀.nextBlockIndex ∧ s.nextBlockIndex = s₀.nextBlockIndex)
      (hencoded : d.encodedOffset = s₀.encodedOffset ∧ s.encodedOffset = s₀.encodedOffset) :
      Reaches s₀ d consumed s
  | passed {s : Stream env.toOtaEnv} (hidle : s.blockActive = false)
      (hindex : d.index = s₀.nextBlockIndex ∧ s.nextBlockIndex = s₀.nextBlockIndex + 1)
      (hencoded : d.encodedOffset = s₀.encodedOffset ∧
        s.encodedOffset = s₀.encodedOffset + d.encodedSize) :
      Reaches s₀ d d.encodedSize s

/-- The next chunk of the block. -/
theorem Reaches.feed {s₀ : Stream env.toOtaEnv} {d : BlockDescriptor} {consumed count : ℕ}
    {chunk : Bytes} (hidle : s₀.blockActive = false) (h : Reaches s₀ d consumed s)
    (hmore : consumed < d.encodedSize) (hcount : 0 < count)
    (hle : consumed + count ≤ d.encodedSize)
    (hfed : streamFeed outputFn s
      ⟨d, consumed, chunk, consumed + count = d.encodedSize⟩ = (.ok, s')) :
    Reaches s₀ d (consumed + count) s' := by
  have hlast' : s'.lastChunkOffset < consumed + count := by
    rw [(recalls_of_accepted hfed).offset]
    exact Nat.lt_add_of_pos_right hcount
  -- The state after a chunk that goes into the block.
  have hnext (hindex : d.index = s₀.nextBlockIndex ∧ s.nextBlockIndex = s₀.nextBlockIndex)
      (hencoded : d.encodedOffset = s₀.encodedOffset ∧ s.encodedOffset = s₀.encodedOffset)
      (hplaces : if decide (consumed + count = d.encodedSize) = true then
          s'.blockActive = false ∧ s'.nextBlockIndex = s.nextBlockIndex + 1 ∧
            s'.encodedOffset = s.encodedOffset + d.encodedSize
        else
          s'.blockActive = true ∧ s'.block = d ∧ s'.nextBlockIndex = s.nextBlockIndex ∧
            s'.encodedOffset = s.encodedOffset) :
      Reaches s₀ d (consumed + count) s' := by
    by_cases hend : consumed + count = d.encodedSize
    · rw [if_pos (decide_eq_true hend)] at hplaces
      obtain ⟨hidle', hindex', hencoded'⟩ := hplaces
      rw [hend]
      exact .passed hidle' ⟨hindex.1, hindex'.trans (congrArg (· + 1) hindex.2)⟩
        ⟨hencoded.1, hencoded'.trans (congrArg (· + d.encodedSize) hencoded.2)⟩
    · rw [if_neg (by simpa using hend)] at hplaces
      obtain ⟨hactive', -, hindex', hencoded'⟩ := hplaces
      exact .opened hactive' hlast' (by omega) ⟨hindex.1, hindex'.trans hindex.2⟩
        ⟨hencoded.1, hencoded'.trans hencoded.2⟩
  rcases streamFeed_places hfed with ⟨hrepeat, rfl⟩ | ⟨-, hstart, hplaces⟩
  · simp only [Stream.isRepeat, decide_eq_true_eq] at hrepeat
    cases h with
    | start => exact .repeated hlast'
    | repeated hlast => exact .repeated hlast'
    | opened hactive hlast => exact absurd hrepeat.2.2.symm (Nat.ne_of_lt hlast)
    | passed => exact absurd hmore (Nat.lt_irrefl _)
  · cases h with
    | start =>
        obtain ⟨-, hindex, hencoded⟩ := hstart hidle
        exact hnext ⟨hindex, rfl⟩ ⟨hencoded, rfl⟩ hplaces
    | repeated hlast =>
        -- No block is open, and the chunk is not the first one.
        obtain ⟨hzero, -⟩ := hstart hidle
        have hzero : consumed = 0 := hzero
        omega
    | opened hactive hlast hmore hindex hencoded => exact hnext hindex hencoded hplaces
    | passed => exact absurd hmore (Nat.lt_irrefl _)

/-- A descriptor leaves the validator as it is or takes it over one block. -/
structure Passes (s : Stream env.toOtaEnv) (d : BlockDescriptor) (s' : Stream env.toOtaEnv) :
    Prop where
  fields : s'.fields = s.fields
  idle : s'.blockActive = false
  moved : s' = s ∨ (d.index = s.nextBlockIndex ∧ d.encodedOffset = s.encodedOffset ∧
    s'.nextBlockIndex = s.nextBlockIndex + 1 ∧
    s'.encodedOffset = s.encodedOffset + d.encodedSize)

theorem validateChunks_ok {s₀ : Stream env.toOtaEnv} {readFn : ReadFn} {payloadOffset : ℕ}
    {d : BlockDescriptor} {consumed : ℕ} {t t' : Trace} (hidle : s₀.blockActive = false)
    (hsize : d.encodedSize ≠ 0) (hreach : Reaches s₀ d consumed s)
    (hfields : s.fields = s₀.fields)
    (h : validateChunks readFn payloadOffset d consumed s t = .ok s' t') : Passes s₀ d s' := by
  fun_induction validateChunks readFn payloadOffset d consumed s generalizing t with
  | case1 consumed s hmore count =>
      rename_i ih
      obtain ⟨chunk, t₁, -, h⟩ := bind_ok h
      dsimp only at h
      split at h
      · exact (throw_ok h).elim
      next hfed =>
        have hread : 0 < readBytes := by decide
        have hfed : streamFeed discardOutput s
            ⟨d, consumed, chunk, consumed + count = d.encodedSize⟩ = (.ok, _) :=
          Prod.ext (not_not.mp hfed) rfl
        refine ih _ (hreach.feed hidle hmore (by omega) (by omega) hfed) ?_ h
        rcases streamFeed_places hfed with ⟨-, hsame⟩ | ⟨hkept, -⟩
        · exact (congrArg Stream.fields hsame).trans hfields
        · exact hkept.trans hfields
  | case2 consumed s hdone =>
      obtain ⟨rfl, -⟩ := pure_ok h
      cases hreach with
      | start => omega
      | repeated hlast => exact ⟨rfl, hidle, Or.inl rfl⟩
      | opened hactive hlast hmore => exact absurd hmore hdone
      | passed hidle' hindex hencoded =>
          exact ⟨hfields, hidle', Or.inr ⟨hindex.1, hencoded.1, hindex.2, hencoded.2⟩⟩

theorem validateBlock_ok {readFn : ReadFn} {b b' : BlockContext env}
    {block : Option BlockDescriptor} {t t' : Trace} (hidle : b.validator.blockActive = false)
    (h : validateBlock readFn b block t = .ok b' t') :
    ∃ d, block = some d ∧ ¬outsidePayload b.payloadSize d ∧ b'.payloadSize = b.payloadSize ∧
      Passes b.validator d b'.validator := by
  obtain ⟨d, t₁, hnext, h⟩ := bind_ok h
  obtain ⟨-, hblock, -⟩ := nextDescriptor_ok hnext
  split at h
  · exact (throw_ok h).elim
  next hinside =>
    obtain ⟨validator, t₂, hloop, h⟩ := bind_ok h
    obtain ⟨rfl, -⟩ := pure_ok h
    have hsize : d.encodedSize ≠ 0 := by
      rw [outsidePayload] at hinside
      omega
    exact ⟨d, hblock, hinside, rfl, validateChunks_ok hidle hsize .start rfl hloop⟩

/-- The place of the block in the payload. -/
def BlockDescriptor.payloadSpan (d : BlockDescriptor) : Span :=
  ⟨d.encodedOffset, d.encodedSize⟩

/-- Descriptors that each take the validator over a block have consecutive indices and
tile the payload. -/
theorem validateBlocks_ok {readFn : ReadFn} {ds : List BlockDescriptor}
    {b b' : BlockContext env} {t t' : Trace} (hidle : b.validator.blockActive = false)
    (h : (ds.map some).foldlM (validateBlock readFn) b t = .ok b' t') :
    b'.validator.fields = b.validator.fields ∧
    b'.validator.nextBlockIndex ≤ b.validator.nextBlockIndex + ds.length ∧
      (b'.validator.nextBlockIndex = b.validator.nextBlockIndex + ds.length →
        ds.map BlockDescriptor.index =
            List.range' b.validator.nextBlockIndex ds.length ∧
          Tiles b.validator.encodedOffset (ds.map BlockDescriptor.payloadSpan)
            b'.validator.encodedOffset ∧
          ∀ d ∈ ds, ¬outsidePayload b.payloadSize d) := by
  induction ds generalizing b t with
  | nil =>
      obtain ⟨rfl, -⟩ := pure_ok h
      exact ⟨rfl, Nat.le_refl _, fun _ => ⟨rfl, rfl, fun _ hmem => absurd hmem List.not_mem_nil⟩⟩
  | cons d ds ih =>
      rw [List.map_cons, List.foldlM_cons] at h
      obtain ⟨b₁, t₁, hstep, hrest⟩ := bind_ok h
      obtain ⟨d', hd, hinside, hsize, hpasses⟩ := validateBlock_ok hidle hstep
      obtain rfl := Option.some_injective _ hd
      obtain ⟨hfields, hle, htiles⟩ := ih hpasses.idle hrest
      rw [List.length_cons]
      refine ⟨hfields.trans hpasses.fields, ?_⟩
      rcases hpasses.moved with hsame | ⟨hindex, hencoded, hnext, hend⟩
      · -- A descriptor that does not move the validator is one too many.
        rw [hsame] at hle
        exact ⟨by omega, fun heq => by omega⟩
      · rw [hnext] at hle
        refine ⟨by omega, fun heq => ?_⟩
        obtain ⟨hindices, htiling, hall⟩ := htiles (by omega)
        rw [hnext] at hindices
        rw [hend, ← hencoded] at htiling
        rw [hsize] at hall
        refine ⟨?_, ⟨hencoded, htiling⟩, fun other hmem => ?_⟩
        · rw [List.map_cons, hindex, hindices]
          rfl
        · rcases List.mem_cons.mp hmem with rfl | hmem
          · exact hinside
          · exact hall other hmem

/-- The blocks of a package have consecutive indices and tile the payload. -/
structure Laid (fields : SignedFields) (ds : List BlockDescriptor) : Prop where
  count : fields.blockCount = ds.length
  indices : ds.map BlockDescriptor.index = List.range ds.length
  tiles : Tiles 0 (ds.map BlockDescriptor.payloadSpan) fields.encodedSize
  inside : ∀ d ∈ ds, ¬outsidePayload fields.encodedSize d

/-- The validating pass. -/
theorem decodeManifest_validated {readFn : ReadFn} {manifestSize : ℕ}
    {ds : List BlockDescriptor} {manifest manifest' : PbManifest} {fields : SignedFields}
    {blocks : BlockContext env} {payloadOffset : ℕ} {t t' : Trace}
    (hscans : Scans env readFn manifestSize ds manifest) (hcount : fields.blockCount = ds.length)
    (h : decodeManifest env readFn manifestSize (validateBlock readFn)
      ⟨payloadOffset, fields.encodedSize, Stream.fresh env.toOtaEnv fields, 0⟩ t =
        .ok (manifest', blocks) t')
    (hfinish : (streamFinish blocks.validator).1 = .ok) : Laid fields ds := by
  obtain ⟨buffer, found, t₁, hread, hscan, hfold⟩ := decodeManifest_ok h
  obtain ⟨buffer', hread', hscan'⟩ := hscans
  rw [hread] at hread'
  cases hread'
  rw [hscan] at hscan'
  obtain ⟨rfl, -⟩ := ManifestScan.mk.inj hscan'
  obtain ⟨hfields, -, htiles⟩ := validateBlocks_ok rfl hfold
  have hkept : blocks.validator.fields = fields := hfields
  obtain ⟨-, -, hindex, -, hencoded, -⟩ := streamFinish_ok hfinish
  rw [hkept] at hindex hencoded
  obtain ⟨hindices, htiling, hinside⟩ := htiles (by
    change _ = 0 + ds.length
    omega)
  refine ⟨hcount, ?_, ?_, hinside⟩
  · rw [hindices, List.range_eq_range']
    rfl
  · rw [hencoded] at htiling
    exact htiling

/-- What a verified package is. -/
theorem verifyPackage_ok {heap : Heap} {readFn : ReadFn} {fields : SignedFields}
    {t t' : Trace} (h : verifyPackage env heap readFn packageSize t = .ok fields t') :
    ∃ manifestSize ds manifest, Headed readFn manifestSize ∧
      Scans env readFn manifestSize ds manifest ∧ Laid fields ds ∧
      ds.length ≤ maxBlockCount ∧
      verifySignedFields env.toOtaEnv manifest.signedFields manifest.signature = .ok fields := by
  obtain ⟨manifestSize, t₁, hheader, h⟩ := bind_ok h
  obtain ⟨hheaded, -⟩ := readHeader_ok hheader
  obtain ⟨_, t₂, -, h⟩ := bind_ok h
  obtain ⟨_, t₃, -, h⟩ := bind_ok h
  obtain ⟨_, t₄, -, h⟩ := bind_ok h
  obtain ⟨⟨original, expectedCount⟩, t₅, hcount, h⟩ := bind_ok h
  obtain ⟨ds, hscans, rfl, hmax⟩ := decodeManifest_counted hcount
  obtain ⟨checked, t₆, hcheck, h⟩ := bind_ok h
  obtain ⟨hverify, hblocks, -⟩ := checkFields_ok hcheck
  cases hbegin : (streamBegin checked : Except EspErr (Stream env.toOtaEnv)) with
  | error err =>
      rw [hbegin] at h
      exact (throw_ok h).elim
  | ok validator =>
      rw [hbegin] at h
      obtain ⟨rfl, -⟩ := streamBegin_ok hbegin
      obtain ⟨_, t₇, -, h⟩ := bind_ok h
      obtain ⟨⟨manifest, blocks⟩, t₈, hvalidated, h⟩ := bind_ok h
      dsimp only at h
      split at h
      · exact (throw_ok h).elim
      split at h
      · exact (throw_ok h).elim
      split at h
      · exact (throw_ok h).elim
      next hfinish =>
        obtain ⟨rfl, -⟩ := pure_ok h
        exact ⟨manifestSize, ds, original, hheaded, hscans,
          decodeManifest_validated hscans hblocks hvalidated (not_not.mp hfinish), hmax, hverify⟩

/-- What the inspection of a package tells. -/
theorem packageInspect_ok {heap : Heap} {readFn : ReadFn} {info : PackageInfo} {t t' : Trace}
    (h : packageInspect env heap readFn packageSize t = .ok info t') :
    ∃ manifestSize ds manifest, Headed readFn manifestSize ∧ Sized packageSize manifestSize ∧
      Scans env readFn manifestSize ds manifest ∧
      verifySignedFields env.toOtaEnv manifest.signedFields manifest.signature =
        .ok info.fields ∧
      info.manifestSize = manifestSize ∧ info.payloadOffset = headerSize + manifestSize ∧
      info.packageSize = packageSize ∧
      info.fields.encodedSize = packageSize - info.payloadOffset := by
  obtain ⟨manifestSize, t₁, hheader, h⟩ := bind_ok h
  obtain ⟨hheaded, hsized⟩ := readHeader_ok hheader
  obtain ⟨_, t₂, -, h⟩ := bind_ok h
  obtain ⟨_, t₃, -, h⟩ := bind_ok h
  obtain ⟨⟨manifest, blockCount⟩, t₄, hcount, h⟩ := bind_ok h
  obtain ⟨ds, hscans, -, -⟩ := decodeManifest_counted hcount
  dsimp only at h
  split at h
  · exact (throw_ok h).elim
  obtain ⟨fields, t₅, hcheck, h⟩ := bind_ok h
  obtain ⟨hverify, -, hencoded⟩ := checkFields_ok hcheck
  obtain ⟨rfl, -⟩ := pure_ok h
  exact ⟨manifestSize, ds, manifest, hheaded, hsized, hscans, hverify, rfl, rfl, rfl, hencoded⟩

/-! ## The visiting pass -/

/-- The visit of a block. -/
def BlockDescriptor.visit (payloadOffset : ℕ) (d : BlockDescriptor) : Visit :=
  ⟨d, payloadOffset + d.encodedOffset⟩

theorem visitBlock_run {visitor : List Visit → Visit → EspErr}
    (hvisitor : ∀ before visit, visitor before visit = .ok) {payloadOffset payloadSize : ℕ}
    (hsmall : payloadOffset + payloadSize < 2 ^ 32) {blockCount : ℕ}
    (hroom : blockCount < maxBlockCount) {d : BlockDescriptor}
    (hinside : ¬outsidePayload payloadSize d) (t : Trace) :
    visitBlock visitor payloadOffset payloadSize blockCount (some d) t =
      .ok (blockCount + 1) { t with visits := t.visits ++ [d.visit payloadOffset] } := by
  have hnext : nextDescriptor blockCount (some d) t = .ok d t := by
    rw [nextDescriptor.eq_def, if_neg (Nat.not_le_of_gt hroom)]
    rfl
  have hplace : (payloadOffset + d.encodedOffset) % 2 ^ 32 = payloadOffset + d.encodedOffset := by
    rw [outsidePayload] at hinside
    exact Nat.mod_eq_of_lt (by omega)
  have hvisit : visitAt visitor (d.visit payloadOffset) t =
      .ok () { t with visits := t.visits ++ [d.visit payloadOffset] } := by
    have hok := hvisitor t.visits (d.visit payloadOffset)
    change (if visitor t.visits (d.visit payloadOffset) ≠ .ok then
      throw (visitor t.visits (d.visit payloadOffset)) else pure () : PackageM Unit)
        { t with visits := t.visits ++ [d.visit payloadOffset] } = _
    rw [if_neg (not_not.mpr hok)]
    rfl
  rw [visitBlock, bind_eq hnext, if_neg hinside, hplace]
  exact bind_eq hvisit

theorem visitBlocks_run {visitor : List Visit → Visit → EspErr}
    (hvisitor : ∀ before visit, visitor before visit = .ok) {payloadOffset payloadSize : ℕ}
    (hsmall : payloadOffset + payloadSize < 2 ^ 32) {ds : List BlockDescriptor}
    {blockCount : ℕ} (hroom : blockCount + ds.length ≤ maxBlockCount)
    (hinside : ∀ d ∈ ds, ¬outsidePayload payloadSize d) (t : Trace) :
    (ds.map some).foldlM (visitBlock visitor payloadOffset payloadSize) blockCount t =
      .ok (blockCount + ds.length)
        { t with visits := t.visits ++ ds.map (BlockDescriptor.visit payloadOffset) } := by
  induction ds generalizing blockCount t with
  | nil =>
      rw [List.map_nil, List.map_nil, List.append_nil]
      rfl
  | cons d ds ih =>
      rw [List.length_cons] at hroom
      have hlt : blockCount < maxBlockCount := by omega
      have hstep := visitBlock_run hvisitor hsmall hlt (hinside d List.mem_cons_self) t
      rw [List.map_cons, List.foldlM_cons, bind_eq hstep, ih (by omega)
        (fun other hmem => hinside other (List.mem_cons_of_mem _ hmem))]
      rw [List.map_cons, List.append_assoc, List.singleton_append, List.length_cons]
      have hcount : blockCount + 1 + ds.length = blockCount + (ds.length + 1) := by omega
      rw [hcount]

/-- A run over a storage from the start: what it returns, and its trace. -/
def run {α : Type} (x : PackageM α) : Except EspErr α × Trace :=
  match x Trace.start with
  | .ok a t => (.ok a, t)
  | .error err t => (.error err, t)

theorem run_ok {α : Type} {x : PackageM α} {a : α} (h : (run x).1 = .ok a) :
    ∃ t, x Trace.start = .ok a t := by
  rw [run] at h
  split at h
  · next b t hrun =>
      cases h
      exact ⟨t, hrun⟩
  · cases h

theorem run_inside {α : Type} {x : PackageM α} {Q : α → Prop}
    (h : Keeps (Trace.Inside packageSize) x Q) : (run x).2.Inside packageSize := by
  have hrun := h Trace.start fun _ hmem => absurd hmem List.not_mem_nil
  rw [run]
  cases hres : x Trace.start with
  | ok a t =>
      rw [hres] at hrun
      exact hrun.1
  | error err t =>
      rw [hres] at hrun
      exact hrun

/-- The blocks of a laid package are all visited. -/
theorem packageForEachBlock_run {heap : Heap} (hheap : ∀ scratch, heap scratch = true)
    {readFn : ReadFn} {info : PackageInfo} {visitor : List Visit → Visit → EspErr}
    (hvisitor : ∀ before visit, visitor before visit = .ok) {ds : List BlockDescriptor}
    {manifest : PbManifest} (hscans : Scans env readFn info.manifestSize ds manifest)
    (hsized : Sized info.packageSize info.manifestSize)
    (hoffset : info.payloadOffset = headerSize + info.manifestSize)
    (hencoded : info.fields.encodedSize = info.packageSize - info.payloadOffset)
    (hlaid : Laid info.fields ds) (hmax : ds.length ≤ maxBlockCount) :
    run (packageForEachBlock env heap readFn info visitor) =
      (.ok (), ⟨[⟨headerSize, info.manifestSize⟩],
        ds.map (BlockDescriptor.visit info.payloadOffset)⟩) := by
  have hsmall : maxPackageSize < 2 ^ 32 := by decide
  have hfits := hsized.fits
  have hpackage := hsized.package
  have hpos := hsized.pos
  have hwrap : (headerSize + info.manifestSize) % 2 ^ 32 = headerSize + info.manifestSize :=
    Nat.mod_eq_of_lt (by omega)
  have halloc (scratch : Scratch) : alloc heap scratch Trace.start = .ok () Trace.start := by
    rw [alloc, if_pos (hheap scratch)]
    rfl
  obtain ⟨buffer, hread, hscan⟩ := hscans
  have hbytes : readAt readFn ⟨headerSize, info.manifestSize⟩ Trace.start =
      .ok buffer.toList ⟨[⟨headerSize, info.manifestSize⟩], []⟩ :=
    readAt_eq hread
  have hroom : 0 + ds.length ≤ maxBlockCount := by omega
  have hvisits := visitBlocks_run hvisitor
    (show info.payloadOffset + info.fields.encodedSize < 2 ^ 32 by omega) hroom
    hlaid.inside ⟨[⟨headerSize, info.manifestSize⟩], []⟩
  have hdecode : decodeManifest env readFn info.manifestSize
      (visitBlock visitor info.payloadOffset info.fields.encodedSize) 0 Trace.start =
        .ok (manifest, ds.length) ⟨[⟨headerSize, info.manifestSize⟩],
          ds.map (BlockDescriptor.visit info.payloadOffset)⟩ := by
    rw [decodeManifest, bind_eq hbytes, hscan, bind_eq hvisits, Nat.zero_add]
    rfl
  rw [run, packageForEachBlock, if_neg (by omega), bind_eq (halloc _), bind_eq (halloc _),
    bind_eq hdecode]
  dsimp only
  rw [if_neg (not_not.mpr hlaid.count.symm)]
  rfl

/-- Every read of `keemash_ota_v3_verify_package` and `keemash_ota_v3_package_inspect`
lies inside the package.  When both succeed on a storage,
`keemash_ota_v3_package_for_each_block` visits all the blocks in the order of their
indices, and the ranges it passes on tile the payload. -/
theorem package_reads_and_tiling (env : PackageEnv) (readFn : ReadFn) (packageSize : ℕ) :
    (∀ heap, ∀ span ∈ (run (verifyPackage env heap readFn packageSize)).2.reads,
      span.Within 0 packageSize ∧ span.stop < 2 ^ 32) ∧
    (∀ heap, ∀ span ∈ (run (packageInspect env heap readFn packageSize)).2.reads,
      span.Within 0 packageSize ∧ span.stop < 2 ^ 32) ∧
    ∀ (verifyHeap inspectHeap heap : Heap) (fields : SignedFields) (info : PackageInfo)
      (visitor : List Visit → Visit → EspErr),
      (run (verifyPackage env verifyHeap readFn packageSize)).1 = .ok fields →
      (run (packageInspect env inspectHeap readFn packageSize)).1 = .ok info →
      (∀ scratch, heap scratch = true) → (∀ before visit, visitor before visit = .ok) →
      let result := run (packageForEachBlock env heap readFn info visitor)
      let spans := result.2.visits.map Visit.span
      result.1 = .ok () ∧ result.2.visits.length = info.fields.blockCount ∧
        (result.2.visits.map fun visit => visit.descriptor.index) =
          List.range info.fields.blockCount ∧
        Tiles info.payloadOffset spans packageSize ∧
        spans.Pairwise (fun a b => Disjoint a.places b.places) ∧
        (⋃ span ∈ spans, span.places) = Set.Ico info.payloadOffset packageSize := by
  refine ⟨fun heap => run_inside (verifyPackage_keeps heap readFn packageSize),
    fun heap => run_inside (packageInspect_keeps heap readFn packageSize), ?_⟩
  intro verifyHeap inspectHeap heap fields info visitor hverify hinspect hheap hvisitor
  obtain ⟨t, hverify⟩ := run_ok hverify
  obtain ⟨t', hinspect⟩ := run_ok hinspect
  obtain ⟨manifestSize, ds, manifest, hheaded, hscans, hlaid, hmax, hfields⟩ :=
    verifyPackage_ok hverify
  obtain ⟨manifestSize', ds', manifest', hheaded', hsized, hscans', hfields', hsize, hoffset,
    rfl, hencoded⟩ := packageInspect_ok hinspect
  -- Both runs have read the same bytes.
  obtain rfl := hheaded.unique hheaded'
  obtain ⟨rfl, rfl⟩ := hscans.unique hscans'
  rw [hfields] at hfields'
  cases hfields'
  subst hsize
  have hrun := packageForEachBlock_run hheap hvisitor hscans hsized hoffset hencoded hlaid hmax
  have hspans : (ds.map (BlockDescriptor.visit info.payloadOffset)).map Visit.span =
      (ds.map BlockDescriptor.payloadSpan).map fun span =>
        ⟨info.payloadOffset + span.start, span.size⟩ := by
    rw [List.map_map, List.map_map]
    rfl
  have htiles : Tiles info.payloadOffset
      ((ds.map (BlockDescriptor.visit info.payloadOffset)).map Visit.span)
      info.packageSize := by
    have hshift := hlaid.tiles.shift info.payloadOffset
    have hfits := hsized.fits
    have hend : info.payloadOffset + info.fields.encodedSize = info.packageSize := by omega
    rw [hend] at hshift
    rw [hspans]
    exact hshift
  dsimp only
  rw [hrun]
  refine ⟨rfl, ?_, ?_, htiles, htiles.disjoint, htiles.covers⟩
  · rw [hlaid.count, List.length_map]
  · rw [hlaid.count, ← hlaid.indices, List.map_map]
    rfl

/-! ## A package of one block -/

/-- The signed fields of the one-byte image. -/
def packedFields : Bytes :=
  varintField 1 1 ++ bytesField 2 [0x70] ++ bytesField 3 [0x63] ++ varintField 8 1 ++
    varintField 9 6 ++ varintField 10 1 ++ varintField 11 codecFullDeflate ++
    bytesField 12 letterRawSha256.toList ++ bytesField 13 letterEncodedSha256.toList ++
    bytesField 14 letterChainSha256.toList ++ varintField 16 fullBlockSize ++
    varintField 17 1 ++ varintField 18 11 ++ bytesField 19 [0x6b]

def packedPbFields : PbSignedFields where
  schemaVersion := 1
  projectName := [0x70]
  chipTarget := [0x63]
  firmwareVersion := []
  buildCommit := []
  minimumCoreVersion := 0
  minimumFabricSchema := 0
  rawSize := 1
  encodedSize := 6
  requiredAppSlotSize := 1
  codec := codecFullDeflate
  imageSha256 := letterRawSha256.toList
  encodedSha256 := letterEncodedSha256.toList
  blockTableSha256 := letterChainSha256.toList
  baseImageSha256 := []
  blockSize := fullBlockSize
  blockCount := 1
  deflateWindowBits := 11
  signingKeyId := [0x6b]

def letterManifest : PbManifest where
  signedFields := packedFields
  signature := List.replicate 64 0

def letterManifestBytes : Bytes :=
  bytesField 1 letterManifest.signedFields ++ bytesField 2 (protoDescriptor letterBlock) ++
    bytesField 3 letterManifest.signature

/-- The libraries on the package, whose signature counts as good. -/
def letterPackageEnv : PackageEnv where
  toOtaEnv :=
    { letterEnv with
      decodeSignedFields := fun bytes =>
        if bytes = packedFields then some packedPbFields else none
      publicKey := .ok []
      importKey := fun _ => true
      verifyHash := fun _ _ signature => signature = letterManifest.signature }
  crc32 := fun crc bytes => if crc = 0 ∧ bytes = letterManifestBytes then 0xb484c037 else 0
  decodeManifest := fun bytes =>
    if bytes = letterManifestBytes then ⟨[some letterBlock], some letterManifest⟩ else ⟨[], none⟩

def letterPackage : Bytes :=
  magic ++ [22, 1, 0, 0] ++ [55, 192, 132, 180] ++ letterManifestBytes ++ letterEncoded

/-- A storage that holds `bytes`. -/
def storageOf (bytes : Bytes) : ReadFn := fun offset length =>
  if h : ((bytes.drop offset).take length).length = length then
    .ok ⟨((bytes.drop offset).take length).toArray, h⟩
  else
    .error .fail

def letterInfo : PackageInfo where
  fields := letterFields
  signedFields := packedFields
  signature := letterManifest.signature
  manifestSize := 278
  payloadOffset := 294
  packageSize := 300

/-- The only block of the package is visited. -/
theorem package_reads_and_tiling_letter :
    (run (packageForEachBlock letterPackageEnv (fun _ => true) (storageOf letterPackage)
      letterInfo fun _ _ => .ok)).2.visits = [⟨letterBlock, 294⟩] ∧
    Tiles 294 ((run (packageForEachBlock letterPackageEnv (fun _ => true)
      (storageOf letterPackage) letterInfo fun _ _ => .ok)).2.visits.map Visit.span) 300 :=
  ⟨by decide +kernel,
    ((package_reads_and_tiling letterPackageEnv (storageOf letterPackage) 300).2.2
      (fun _ => true) (fun _ => true) (fun _ => true) letterFields letterInfo
      (fun _ _ => .ok) (by decide +kernel) (by decide +kernel) (fun _ => rfl)
      (fun _ _ => rfl)).2.2.2.1⟩

end KeemashCore.OtaV3

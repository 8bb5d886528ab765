import KeemashCore.OtaV3.InflateRuns
import KeemashCore.OtaV3.PackageTiling

/-!
# The validating pass over a package

`Walked` says of a list of blocks that each descriptor is the one expected after the blocks
before it, and that each block matches its descriptor and is inflated from its bytes.  The
pass of `keemash_ota_v3_verify_package` takes the validator over such blocks, and over
nothing else.
-/

namespace KeemashCore.OtaV3

open Effects Tiling

variable {env : OtaEnv}

/-! ## Blocks that follow one another -/

/-- The block is the one expected after the blocks `done`. -/
structure NextBlock (env : OtaEnv) (inflates : Bytes → Bytes → Prop) (fields : SignedFields)
    (done : List Block) (b : Block) : Prop where
  check : checkBlockDescriptor env fields b.descriptor done.length (rawOf done).length
    (encodedOf done).length (chainOf env zeroDigest (descriptorsOf done)) =
      .ok (chainOf env zeroDigest (descriptorsOf (done ++ [b])))
  kind : b.descriptor.kind = blockDeflate
  sealed : b.Sealed env
  inflates : inflates b.encoded b.raw

/-- Blocks from the first one on, each the one expected after those before it. -/
inductive Walked (env : OtaEnv) (inflates : Bytes → Bytes → Prop) (fields : SignedFields) :
    List Block → Prop where
  | nil : Walked env inflates fields []
  | snoc {done : List Block} {b : Block} (h : Walked env inflates fields done)
      (hb : NextBlock env inflates fields done b) : Walked env inflates fields (done ++ [b])

theorem Walked.sealed {inflates : Bytes → Bytes → Prop} {fields : SignedFields}
    {blocks : List Block} (h : Walked env inflates fields blocks) :
    ∀ b ∈ blocks, b.Sealed env := by
  induction h with
  | nil => exact fun b hmem => absurd hmem List.not_mem_nil
  | snoc _ hlast ih =>
      intro b hmem
      rcases List.mem_append.mp hmem with hold | hnew
      · exact ih b hold
      · obtain rfl := List.mem_singleton.mp hnew
        exact hlast.sealed

/-- The chain that a check of a descriptor returns. -/
theorem chain_of_check {fields : SignedFields} {done : List Block} {b : Block} {next : Digest}
    (h : checkBlockDescriptor env fields b.descriptor done.length (rawOf done).length
      (encodedOf done).length (chainOf env zeroDigest (descriptorsOf done)) = .ok next) :
    next = chainOf env zeroDigest (descriptorsOf (done ++ [b])) := by
  rw [(checkBlockDescriptor_ok h).next_eq, descriptorsOf_append, chainOf_append,
    descriptorsOf_singleton]
  rfl

/-- A deflated block that satisfies the conditions is accepted. -/
theorem checkBlockDescriptor_eq_ok {fields : SignedFields} {d : BlockDescriptor}
    {index rawOffset encodedOffset : ℕ} {chain next : Digest} (hkind : d.kind = blockDeflate)
    (h : Checked env fields d index rawOffset encodedOffset chain next) :
    checkBlockDescriptor env fields d index rawOffset encodedOffset chain = .ok next := by
  have hshape : ¬(index ≥ fields.blockCount ∨ d.index ≠ index ∨ d.rawOffset ≠ rawOffset ∨
      d.encodedOffset ≠ encodedOffset ∨ d.rawSize = 0 ∨ d.rawSize > fields.blockSize ∨
      (index + 1 < fields.blockCount ∧ d.rawSize ≠ fields.blockSize) ∨
      rawOffset > fields.rawSize ∨ d.rawSize > fields.rawSize - rawOffset ∨
      encodedOffset > fields.encodedSize ∨ d.encodedSize > fields.encodedSize - encodedOffset ∨
      d.rawSha256.length ≠ 32 ∨ d.encodedSha256.length ≠ 32) := by
    have hlt := h.index_lt
    have hpos := h.rawSize_pos
    have hle := h.rawSize_le
    have hraw := h.raw_fits
    have hencoded := h.encoded_fits
    rintro (hno | hno | hno | hno | hno | hno | ⟨hno, hno'⟩ | hno | hno | hno | hno | hno | hno)
    · omega
    · exact hno h.index_eq
    · exact hno h.rawOffset_eq
    · exact hno h.encodedOffset_eq
    · omega
    · omega
    · exact hno' (h.rawSize_full hno)
    · omega
    · omega
    · omega
    · omega
    · exact hno h.rawSha256_length
    · exact hno h.encodedSha256_length
  have hcopy : d.kind ≠ blockCopyBase := by
    rw [hkind]
    decide
  have hlast : ¬(index + 1 = fields.blockCount ∧ (rawOffset + d.rawSize ≠ fields.rawSize ∨
      encodedOffset + d.encodedSize ≠ fields.encodedSize ∨
        chainStep env chain d ≠ fields.blockTableSha256)) := by
    rintro ⟨hend, hno⟩
    obtain ⟨hraw, hencoded, htable⟩ := h.last hend
    rw [← h.next_eq] at hno
    rcases hno with hno | hno | hno
    · exact hno hraw
    · exact hno hencoded
    · exact hno htable
  rw [checkBlockDescriptor, if_neg hshape,
    if_neg (fun hzero => Nat.ne_of_gt (h.deflate_pos hkind) hzero.2),
    if_neg (fun hno => hcopy hno.1), if_neg (fun hno => hcopy hno.1),
    if_neg (fun hno => hno.1 hkind)]
  dsimp only
  rw [if_neg hlast, h.next_eq]

/-- The validator has taken the blocks `done` and stands behind them. -/
structure Passed (fields : SignedFields) (done : List Block) (s : Stream env) : Prop where
  fields : s.fields = fields
  idle : s.blockActive = false
  failed : s.failed = false
  finished : s.finished = false
  index : s.nextBlockIndex = done.length
  rawOffset : s.rawOffset = (rawOf done).length
  encodedOffset : s.encodedOffset = (encodedOf done).length
  chain : s.blockChain = chainOf env zeroDigest (descriptorsOf done)
  imageHash : s.imageHash = rawOf done
  payloadHash : s.payloadHash = encodedOf done
  complete : s.payloadHashComplete = true
  output : s.sent.flatten = rawOf done
  earlier : s.lastChunkValid = true → s.lastChunkIndex < done.length

theorem passed_fresh (fields : SignedFields) : Passed fields [] (Stream.fresh env fields) where
  fields := rfl
  idle := rfl
  failed := rfl
  finished := rfl
  index := rfl
  rawOffset := rfl
  encodedOffset := rfl
  chain := rfl
  imageHash := rfl
  payloadHash := rfl
  complete := rfl
  output := rfl
  earlier h := by cases h

section Pass

variable {fields : SignedFields} {done : List Block} {s s₀ : Stream env} {b : Block}
  {next : Digest} {outputFn : OutputFn}

/-- A validator that has taken one block more. -/
theorem Passed.takes (h : Passed fields done s₀) (hsealed : b.Sealed env)
    (hnext : next = chainOf env zeroDigest (descriptorsOf (done ++ [b])))
    (hview : s.view = s₀.view.takes b next) (hindex : s.lastChunkIndex = done.length) :
    Passed fields (done ++ [b]) s where
  fields := (congrArg StreamView.fields hview).trans h.fields
  idle := congrArg StreamView.blockActive hview
  failed := (congrArg StreamView.failed hview).trans h.failed
  finished := (congrArg StreamView.finished hview).trans h.finished
  index := by
    rw [List.length_append, List.length_singleton, ← h.index]
    exact congrArg StreamView.nextBlockIndex hview
  rawOffset := by
    rw [rawOf_append, rawOf_singleton, List.length_append, ← h.rawOffset, hsealed.raw_length]
    exact congrArg StreamView.rawOffset hview
  encodedOffset := by
    rw [encodedOf_append, encodedOf_singleton, List.length_append, ← h.encodedOffset,
      hsealed.encoded_length]
    exact congrArg StreamView.encodedOffset hview
  chain := (congrArg StreamView.blockChain hview).trans hnext
  imageHash := by
    rw [rawOf_append, rawOf_singleton, ← h.imageHash]
    exact congrArg StreamView.imageHash hview
  payloadHash := by
    rw [encodedOf_append, encodedOf_singleton, ← h.payloadHash]
    exact congrArg StreamView.payloadHash hview
  complete := (congrArg StreamView.payloadHashComplete hview).trans h.complete
  output := by
    rw [rawOf_append, rawOf_singleton, ← h.output]
    exact congrArg StreamView.output hview
  earlier _ := by
    rw [hindex, List.length_append, List.length_singleton]
    exact Nat.lt_succ_self _

/-- The check of the next descriptor, in terms of the blocks. -/
theorem Passed.check (h : Passed fields done s) (d : BlockDescriptor) :
    checkBlockDescriptor env s.fields d s.nextBlockIndex s.rawOffset s.encodedOffset
      s.blockChain = checkBlockDescriptor env fields d done.length (rawOf done).length
        (encodedOf done).length (chainOf env zeroDigest (descriptorsOf done)) := by
  rw [h.fields, h.index, h.rawOffset, h.encodedOffset, h.chain]

/-! ## What the pass has taken -/

/-- Where the validator can be after `consumed` of the bytes of a block that it met in the
state `s₀`. -/
inductive Covers (s₀ : Stream env) (d : BlockDescriptor) (bytes : Bytes) :
    ℕ → Stream env → Prop where
  | start : Covers s₀ d bytes 0 s₀
  | repeated {consumed : ℕ} (hlast : s₀.lastChunkOffset < consumed) :
      Covers s₀ d bytes consumed s₀
  | opened {consumed : ℕ} {raw : Bytes} {next : Digest} {s : Stream env}
      (hcheck : checkBlockDescriptor env s₀.fields d s₀.nextBlockIndex s₀.rawOffset
        s₀.encodedOffset s₀.blockChain = .ok next)
      (hkind : d.kind = blockDeflate)
      (h : Underway s₀ d next (bytes.take consumed) raw s)
      (hlast : s.lastChunkOffset < consumed) (hmore : consumed < d.encodedSize) :
      Covers s₀ d bytes consumed s
  | passed {raw : Bytes} {next : Digest} {s : Stream env}
      (h : Admitted s₀ ⟨d, raw, bytes⟩ next)
      (hview : s.view = s₀.view.takes ⟨d, raw, bytes⟩ next)
      (hindex : s.lastChunkIndex = d.index) : Covers s₀ d bytes d.encodedSize s

theorem Stream.openBlock_open {s : Stream env} {d : BlockDescriptor} {n : ℕ}
    (hactive : s.blockActive = true) (hok : (openBlock s d n).1 = .ok) :
    (openBlock s d n).2 = s := by
  have hbusy : ¬s.blockActive = false := by
    rw [hactive]
    exact Bool.true_eq_false.mp
  rw [openBlock, if_neg hbusy] at hok ⊢
  split at hok
  · next hsame => rw [if_pos hsame]
  · cases hok

/-- The next chunk of a block. -/
theorem Covers.feed (hgreedy : env.zlib.Greedy) {d : BlockDescriptor} {bytes : Bytes}
    (hbytes : bytes.length = d.encodedSize) {consumed : ℕ} {chunk : Bytes} {s' : Stream env}
    (hidle : s₀.blockActive = false) (h : Covers s₀ d bytes consumed s)
    (hmore : consumed < d.encodedSize) (hpos : 0 < chunk.length)
    (hchunk : chunk = (bytes.drop consumed).take chunk.length)
    (hfed : streamFeed outputFn s
      ⟨d, consumed, chunk, consumed + chunk.length = d.encodedSize⟩ = (.ok, s')) :
    Covers s₀ d bytes (consumed + chunk.length) s' := by
  have hrecalls := recalls_of_accepted hfed
  have hlast' : s'.lastChunkOffset < consumed + chunk.length := by
    rw [hrecalls.offset]
    exact Nat.lt_add_of_pos_right hpos
  have hfit : consumed + chunk.length ≤ d.encodedSize := by
    have hlength := congrArg List.length hchunk
    rw [List.length_take, List.length_drop] at hlength
    omega
  have htake : bytes.take consumed ++ chunk = bytes.take (consumed + chunk.length) := by
    rw [List.take_add, ← hchunk]
  have hconsumed : (bytes.take consumed).length = consumed := by
    rw [List.length_take]
    omega
  -- A chunk that goes into a block that is open.
  have hnext {raw : Bytes} {next : Digest} {opened : Stream env}
      (hcheck : checkBlockDescriptor env s₀.fields d s₀.nextBlockIndex s₀.rawOffset
        s₀.encodedOffset s₀.blockChain = .ok next)
      (hkind : d.kind = blockDeflate)
      (hopened : Underway s₀ d next (bytes.take consumed) raw opened)
      (hok : (inflateChunk outputFn opened consumed chunk
        (decide (consumed + chunk.length = d.encodedSize))).1 = .ok)
      (hview : s'.view = (inflateChunk outputFn opened consumed chunk
        (decide (consumed + chunk.length = d.encodedSize))).2.view)
      (hinflater : s'.inflater = (inflateChunk outputFn opened consumed chunk
        (decide (consumed + chunk.length = d.encodedSize))).2.inflater) :
      Covers s₀ d bytes (consumed + chunk.length) s' := by
    obtain ⟨raw', -, -, hpart, hfinal⟩ := hopened.chunk hgreedy hok
    rw [htake] at hpart hfinal
    by_cases hend : consumed + chunk.length = d.encodedSize
    · obtain ⟨hsealed, hends, htaken⟩ := hfinal (decide_eq_true hend)
      have hall : bytes.take (consumed + chunk.length) = bytes := by
        rw [hend, ← hbytes, List.take_length]
      rw [hall] at hsealed hends htaken
      rw [hend]
      exact .passed ⟨hcheck, hkind, hsealed, hends⟩ (hview.trans htaken) hrecalls.index
    · obtain ⟨hunder, hrun, hexpected, hproduced, hactive, hroom⟩ :=
        hpart (decide_eq_false hend)
      refine .opened hcheck hkind ⟨hview.trans hunder, ?_, ?_, ?_, ?_, hroom⟩ hlast' (by omega)
      · rw [hinflater]
        exact hrun
      · rw [hinflater]
        exact hexpected
      · rw [hinflater]
        exact hproduced
      · rw [hinflater]
        exact hactive
  rw [streamFeed] at hfed
  split at hfed
  · cases hfed
  split at hfed
  · next hrepeat =>
      split at hfed
      · obtain rfl := (Prod.mk.inj hfed).2
        simp only [Stream.isRepeat, decide_eq_true_eq] at hrepeat
        cases h with
        | start => exact .repeated hlast'
        | repeated hlast => exact .repeated hlast'
        | opened _ _ _ hlast => exact absurd hrepeat.2.2.symm (Nat.ne_of_lt hlast)
        | passed => exact absurd hmore (Nat.lt_irrefl _)
      · cases hfed
  next hnew =>
    dsimp only at hfed
    split at hfed
    · next herr => exact absurd (Prod.mk.inj hfed).1 herr
    next hopen =>
      split at hfed
      · next herr => exact absurd (Prod.mk.inj hfed).1 herr
      next hinflate =>
        have hopen := not_not.mp hopen
        have hinflate := not_not.mp hinflate
        obtain rfl := (Prod.mk.inj hfed).2
        cases h with
        | start =>
            obtain ⟨next, hcheck, hkind, hunder⟩ := openBlock_underway hidle hopen
            exact hnext hcheck hkind hunder hinflate rfl rfl
        | repeated hlast =>
            -- No block is open, and the chunk is not the first one.
            rw [openBlock, if_pos hidle, if_pos (by omega)] at hopen
            cases hopen
        | opened hcheck hkind hunder hlast =>
            have hactive : s.blockActive = true := congrArg StreamView.blockActive hunder.view
            have hsame := Stream.openBlock_open hactive hopen
            rw [hsame] at hinflate
            refine hnext hcheck hkind hunder hinflate ?_ ?_
            · rw [hsame]
              rfl
            · rw [hsame]
        | passed => exact absurd hmore (Nat.lt_irrefl _)

end Pass

/-! ## The pass over a storage -/

/-- The storage holds `artifact`. -/
def Stores (readFn : ReadFn) (artifact : Bytes) : Prop :=
  ∀ offset length, offset + length ≤ artifact.length → ∃ buffer,
    readFn offset length = .ok buffer ∧ buffer.toList = (artifact.drop offset).take length

/-- A read inside the artifact. -/
theorem Stores.readAt {readFn : ReadFn} {artifact : Bytes} (h : Stores readFn artifact)
    (hsmall : artifact.length < 2 ^ 32) {span : Span} (hspan : span.stop ≤ artifact.length)
    (t : Trace) : OtaV3.readAt readFn span t =
      .ok ((artifact.drop span.start).take span.size) { t with reads := t.reads ++ [span] } := by
  have hstop : span.stop = span.start + span.size := rfl
  have hplace : span.start % 2 ^ 32 = span.start := Nat.mod_eq_of_lt (by omega)
  obtain ⟨buffer, hread, hbytes⟩ := h span.start span.size (by omega)
  rw [← hplace] at hread
  rw [readAt_eq hread, hbytes]

/-- The bytes of a block in the payload. -/
def BlockDescriptor.piece (payload : Bytes) (d : BlockDescriptor) : Bytes :=
  (payload.drop d.encodedOffset).take d.encodedSize

theorem BlockDescriptor.piece_length {payload : Bytes} {d : BlockDescriptor}
    (h : ¬outsidePayload payload.length d) : (d.piece payload).length = d.encodedSize := by
  rw [outsidePayload] at h
  rw [piece, List.length_take, List.length_drop]
  omega

/-- The part of a block that starts after `consumed` of its bytes. -/
theorem BlockDescriptor.piece_part {artifact : Bytes} {payloadOffset : ℕ} {d : BlockDescriptor}
    {consumed count : ℕ} (hcount : consumed + count ≤ d.encodedSize) :
    (artifact.drop (payloadOffset + d.encodedOffset + consumed)).take count =
      ((d.piece (artifact.drop payloadOffset)).drop consumed).take count := by
  rw [piece, List.drop_take, List.take_take, List.drop_drop, List.drop_drop,
    Nat.min_eq_left (by omega), Nat.add_assoc]

section Storage

variable {penv : PackageEnv} {readFn : ReadFn} {artifact : Bytes} {payloadOffset : ℕ}
  {d : BlockDescriptor} {fields : SignedFields}

theorem validateChunks_covers (hgreedy : penv.zlib.Greedy) (hstores : Stores readFn artifact)
    (hsmall : artifact.length < 2 ^ 32)
    (hinside : ¬outsidePayload (artifact.drop payloadOffset).length d)
    {s₀ s s' : Stream penv.toOtaEnv} (hidle : s₀.blockActive = false) {consumed : ℕ}
    {t t' : Trace} (hconsumed : consumed ≤ d.encodedSize)
    (h : Covers s₀ d (d.piece (artifact.drop payloadOffset)) consumed s)
    (hrun : validateChunks readFn payloadOffset d consumed s t = .ok s' t') :
    Covers s₀ d (d.piece (artifact.drop payloadOffset)) d.encodedSize s' := by
  have hlength := BlockDescriptor.piece_length hinside
  have hbounds := hinside
  rw [outsidePayload, List.length_drop] at hbounds
  fun_induction validateChunks readFn payloadOffset d consumed s generalizing t with
  | case1 consumed s hmore count =>
      rename_i ih
      have hcount : consumed + count ≤ d.encodedSize := by omega
      have hpos : 0 < count := by
        have hread : 0 < readBytes := by decide
        omega
      obtain ⟨chunk, t₁, hread, hrun⟩ := bind_ok hrun
      have hstop : (⟨payloadOffset + d.encodedOffset + consumed, count⟩ : Span).stop ≤
          artifact.length := by
        change payloadOffset + d.encodedOffset + consumed + count ≤ artifact.length
        omega
      rw [hstores.readAt hsmall hstop] at hread
      obtain ⟨hpiece, rfl⟩ := EStateM.Result.ok.inj hread
      dsimp only at hpiece hrun
      rw [BlockDescriptor.piece_part hcount] at hpiece
      have hchunk : chunk.length = count := by
        rw [← hpiece, List.length_take, List.length_drop, hlength]
        omega
      split at hrun
      · exact (throw_ok hrun).elim
      next hfed =>
        refine ih chunk hcount ?_ hrun
        rw [← hchunk] at hfed hpiece ⊢
        exact h.feed hgreedy hlength hidle hmore (by omega) hpiece.symm
          (Prod.ext (not_not.mp hfed) rfl)
  | case2 consumed s hdone =>
      obtain ⟨rfl, -⟩ := pure_ok hrun
      have hall : consumed = d.encodedSize := by omega
      rw [← hall]
      exact h

/-- A block of the pass: it is the one sent last again, or is taken. -/
theorem validateBlock_passed (hgreedy : penv.zlib.Greedy) (hstores : Stores readFn artifact)
    (hsmall : artifact.length < 2 ^ 32) {done : List Block} {blocks blocks' : BlockContext penv}
    (hoffset : blocks.payloadOffset = payloadOffset)
    (hsize : blocks.payloadSize = (artifact.drop payloadOffset).length)
    (h : Passed fields done blocks.validator) {t t' : Trace}
    (hrun : validateBlock readFn blocks (some d) t = .ok blocks' t') :
    blocks'.payloadOffset = payloadOffset ∧
      blocks'.payloadSize = (artifact.drop payloadOffset).length ∧
      (blocks'.validator = blocks.validator ∨
        ∃ b, b.descriptor = d ∧ b.encoded = d.piece (artifact.drop payloadOffset) ∧
          NextBlock penv.toOtaEnv penv.zlib.Ends fields done b ∧
          Passed fields (done ++ [b]) blocks'.validator) := by
  obtain ⟨d', t₁, hnext, hrun⟩ := bind_ok hrun
  obtain ⟨-, hd, -⟩ := nextDescriptor_ok hnext
  obtain rfl := Option.some_injective _ hd
  split at hrun
  · exact (throw_ok hrun).elim
  next hinside =>
    obtain ⟨validator, t₂, hloop, hrun⟩ := bind_ok hrun
    obtain ⟨rfl, -⟩ := pure_ok hrun
    rw [hsize] at hinside
    rw [hoffset] at hloop
    refine ⟨hoffset, hsize, ?_⟩
    have hcovers := validateChunks_covers hgreedy hstores hsmall hinside h.idle
      (Nat.zero_le _) .start hloop
    rw [outsidePayload] at hinside
    generalize hend : d.encodedSize = consumed at hcovers
    cases hcovers with
    | start => omega
    | repeated => exact .inl rfl
    | opened _ _ _ _ hmore => omega
    | @passed raw next _ hadmitted hview hindex =>
        have hcheck := hadmitted.check
        rw [h.check] at hcheck
        have hchain := chain_of_check hcheck
        have hlast : validator.lastChunkIndex = done.length :=
          hindex.trans (checkBlockDescriptor_ok hcheck).index_eq
        refine .inr ⟨_, rfl, rfl, ⟨?_, hadmitted.kind, hadmitted.sealed, hadmitted.ends⟩,
          h.takes hadmitted.sealed hchain hview hlast⟩
        rw [← hchain]
        exact hcheck

/-- The front of the payload that the blocks make up. -/
def Fronts (payload : Bytes) (blocks : List Block) : Prop :=
  encodedOf blocks = payload.take (encodedOf blocks).length

theorem Fronts.snoc {payload : Bytes} {done : List Block} {b : Block} (h : Fronts payload done)
    (hoffset : b.descriptor.encodedOffset = (encodedOf done).length)
    (hencoded : b.encoded = b.descriptor.piece payload)
    (hlength : b.encoded.length = b.descriptor.encodedSize) : Fronts payload (done ++ [b]) := by
  rw [Fronts, encodedOf_append, encodedOf_singleton, List.length_append, List.take_add, ← h,
    ← hoffset, hlength, hencoded]
  rfl

/-- Blocks that each take the validator further follow one another. -/
theorem validateBlocks_passed (hgreedy : penv.zlib.Greedy) (hstores : Stores readFn artifact)
    (hsmall : artifact.length < 2 ^ 32) {ds : List BlockDescriptor} {done : List Block}
    {blocks blocks' : BlockContext penv} (hoffset : blocks.payloadOffset = payloadOffset)
    (hsize : blocks.payloadSize = (artifact.drop payloadOffset).length)
    (h : Passed fields done blocks.validator)
    (hwalked : Walked penv.toOtaEnv penv.zlib.Ends fields done)
    (hfront : Fronts (artifact.drop payloadOffset) done) {t t' : Trace}
    (hrun : (ds.map some).foldlM (validateBlock readFn) blocks t = .ok blocks' t') :
    blocks'.validator.nextBlockIndex ≤ done.length + ds.length ∧
      (blocks'.validator.nextBlockIndex = done.length + ds.length → ∃ new,
        descriptorsOf new = ds ∧ Passed fields (done ++ new) blocks'.validator ∧
        Walked penv.toOtaEnv penv.zlib.Ends fields (done ++ new) ∧
        Fronts (artifact.drop payloadOffset) (done ++ new)) := by
  induction ds generalizing done blocks t with
  | nil =>
      obtain ⟨rfl, -⟩ := pure_ok hrun
      refine ⟨Nat.le_of_eq h.index, fun _ => ⟨[], rfl, ?_⟩⟩
      rw [List.append_nil]
      exact ⟨h, hwalked, hfront⟩
  | cons d ds ih =>
      rw [List.map_cons, List.foldlM_cons] at hrun
      obtain ⟨blocks₁, t₁, hstep, hrest⟩ := bind_ok hrun
      obtain ⟨hoffset₁, hsize₁, hmoved⟩ :=
        validateBlock_passed hgreedy hstores hsmall hoffset hsize h hstep
      rw [List.length_cons]
      rcases hmoved with hsame | ⟨b, hdescriptor, hencoded, hfollows, hpassed⟩
      · -- A descriptor that does not move the validator is one too many.
        rw [← hsame] at h
        obtain ⟨hle, -⟩ := ih hoffset₁ hsize₁ h hwalked hfront hrest
        exact ⟨by omega, fun heq => by omega⟩
      · have hplace := (checkBlockDescriptor_ok hfollows.check).encodedOffset_eq
        rw [← hdescriptor] at hencoded
        have hfront₁ := hfront.snoc hplace hencoded hfollows.sealed.encoded_length
        obtain ⟨hle, hall⟩ := ih hoffset₁ hsize₁ hpassed (hwalked.snoc hfollows) hfront₁ hrest
        have hcount : (done ++ [b]).length = done.length + 1 := List.length_append
        rw [hcount] at hle hall
        refine ⟨by omega, fun heq => ?_⟩
        obtain ⟨new, hnew, hrest⟩ := hall (by omega)
        refine ⟨b :: new, ?_, ?_⟩
        · rw [← hdescriptor, ← hnew]
          rfl
        · rwa [List.append_cons]

/-! ## Blocks that the pass takes -/

/-- Whatever is inflated at once can be inflated in parts. -/
def Streams (env : OtaEnv) (inflates : Bytes → Bytes → Prop) : Prop :=
  ∀ encoded raw, inflates encoded raw → ∃ after, env.zlib.Inflates encoded raw after

/-- The chunks of a block that follows are taken. -/
theorem validateChunks_takes (hstores : Stores readFn artifact)
    (hsmall : artifact.length < 2 ^ 32) {s₀ s : Stream penv.toOtaEnv} {b : Block}
    {next : Digest} {after : ℕ → ℕ → penv.zlib.State → Prop} (hcheck : Boundary s₀ b next)
    (hsealed : b.Sealed penv.toOtaEnv) (hinflates : penv.zlib.Inflates b.encoded b.raw after)
    (hinside : ¬outsidePayload (artifact.drop payloadOffset).length b.descriptor)
    (hencoded : b.encoded = b.descriptor.piece (artifact.drop payloadOffset)) {consumed : ℕ}
    (hmore : consumed < b.descriptor.encodedSize) (h : Expects s₀ b next after consumed s)
    (t : Trace) :
    ∃ s' t', validateChunks readFn payloadOffset b.descriptor consumed s t = .ok s' t' ∧
      s'.view = s₀.view.takes b next ∧ s'.lastChunkIndex = b.descriptor.index := by
  have hlength := hsealed.encoded_length
  have hbounds := hinside
  rw [outsidePayload, List.length_drop] at hbounds
  fun_induction validateChunks readFn payloadOffset b.descriptor consumed s generalizing t with
  | case1 consumed s hmore count =>
      rename_i ih
      have hcount : consumed + count ≤ b.descriptor.encodedSize := by omega
      have hpos : 0 < count := by
        have hread : 0 < readBytes := by decide
        omega
      have hstop : (⟨payloadOffset + b.descriptor.encodedOffset + consumed, count⟩ : Span).stop ≤
          artifact.length := by
        change payloadOffset + b.descriptor.encodedOffset + consumed + count ≤ artifact.length
        omega
      have hread := hstores.readAt hsmall hstop t
      dsimp only at hread
      rw [BlockDescriptor.piece_part hcount, ← hencoded] at hread
      have hchunk : ((b.encoded.drop consumed).take count).length = count := by
        rw [List.length_take, List.length_drop, hlength]
        omega
      have hmax : count ≤ maxChunkBytes := Nat.min_le_right _ _
      have hdiscards : discardOutput.Accepts := fun _ _ => rfl
      obtain ⟨hok, htaken, hopen⟩ := h.feed hcheck hsealed hinflates hdiscards
        (by rw [hchunk]; exact hpos) (by rw [hchunk]; exact hmax) (by rw [hchunk]; omega)
        (by rw [hchunk])
      rw [hchunk, hlength] at htaken hopen
      have hsame : b.chunk consumed ((b.encoded.drop consumed).take count) =
          ⟨b.descriptor, consumed, (b.encoded.drop consumed).take count,
            consumed + count = b.descriptor.encodedSize⟩ := by
        rw [Block.chunk, hchunk, hlength]
      rw [hsame] at hok htaken hopen
      have hrecalls := recalls_of_accepted (Prod.ext hok rfl)
      rw [bind_eq hread, if_neg (not_not.mpr hok)]
      by_cases hend : consumed + count = b.descriptor.encodedSize
      · rw [validateChunks, if_neg (by omega)]
        exact ⟨_, _, rfl, htaken hend, hrecalls.index⟩
      · exact ih _ (by omega) (hopen hend) _
  | case2 consumed s hdone => exact absurd hmore hdone

theorem outsidePayload_of_check {inflates : Bytes → Bytes → Prop} {done : List Block} {b : Block}
    {payload : Bytes} (h : NextBlock penv.toOtaEnv inflates fields done b)
    (hpayload : payload.length = fields.encodedSize) :
    ¬outsidePayload payload.length b.descriptor := by
  have hchecked := checkBlockDescriptor_ok h.check
  have hpos := hchecked.deflate_pos h.kind
  have hfits := hchecked.encoded_fits
  rw [← hchecked.encodedOffset_eq] at hfits
  rw [outsidePayload]
  omega

/-- The blocks that follow one another are taken. -/
theorem validateBlocks_takes {inflates : Bytes → Bytes → Prop}
    (hstreams : Streams penv.toOtaEnv inflates) (hstores : Stores readFn artifact)
    (hsmall : artifact.length < 2 ^ 32)
    (hcodec : fields.codec = codecFullDeflate ∧ fields.blockSize = fullBlockSize)
    (hpayload : (artifact.drop payloadOffset).length = fields.encodedSize) {blocks : List Block}
    (hwalked : Walked penv.toOtaEnv inflates fields blocks)
    (hfront : ∀ b ∈ blocks, b.encoded = b.descriptor.piece (artifact.drop payloadOffset))
    (hcount : blocks.length ≤ maxBlockCount) (t : Trace) :
    ∃ validator t', ((descriptorsOf blocks).map some).foldlM (validateBlock readFn)
        ⟨payloadOffset, fields.encodedSize, Stream.fresh penv.toOtaEnv fields, 0⟩ t =
          .ok ⟨payloadOffset, fields.encodedSize, validator, blocks.length⟩ t' ∧
      Passed fields blocks validator := by
  induction hwalked generalizing t with
  | nil => exact ⟨_, t, rfl, passed_fresh fields⟩
  | @snoc done b hdone hb ih =>
      rw [List.length_append, List.length_singleton] at hcount
      obtain ⟨validator, t₁, hrun, hpassed⟩ :=
        ih (fun b hmem => hfront b (List.mem_append_left _ hmem)) (by omega) t
      have hinside := outsidePayload_of_check hb hpayload
      have hcheck := hb.check
      rw [← hpassed.check] at hcheck
      obtain ⟨after, hinflates⟩ := hstreams _ _ hb.inflates
      have hboundary : Boundary validator b (chainOf penv.toOtaEnv zeroDigest
          (descriptorsOf (done ++ [b]))) := by
        refine ⟨hpassed.idle, hpassed.failed, hpassed.finished, ?_, ?_, ?_, hcheck⟩
        · rw [hpassed.fields]
          exact hcodec.1
        · rw [hpassed.fields]
          exact hcodec.2
        · rw [hpassed.index]
          exact hpassed.earlier
      have hpos : 0 < b.descriptor.encodedSize := by
        rw [outsidePayload] at hinside
        omega
      obtain ⟨validator', t₂, hloop, hview, hindex⟩ := validateChunks_takes hstores hsmall
        hboundary hb.sealed hinflates hinside
        (hfront b (List.mem_append_right _ (List.mem_singleton_self b))) hpos .boundary t₁
      have hnext : nextDescriptor done.length (some b.descriptor) t₁ = .ok b.descriptor t₁ := by
        rw [nextDescriptor.eq_def, if_neg (by omega)]
        rfl
      have hlast : validator'.lastChunkIndex = done.length :=
        hindex.trans (checkBlockDescriptor_ok hb.check).index_eq
      refine ⟨validator', t₂, ?_, hpassed.takes hb.sealed rfl hview hlast⟩
      rw [descriptorsOf_append, descriptorsOf_singleton, List.map_append, List.foldlM_append,
        bind_eq hrun, List.map_singleton, List.foldlM_cons]
      have hstep : validateBlock readFn
          ⟨payloadOffset, fields.encodedSize, validator, done.length⟩ (some b.descriptor) t₁ =
            .ok ⟨payloadOffset, fields.encodedSize, validator', done.length + 1⟩ t₂ := by
        rw [validateBlock, bind_eq hnext, if_neg (hpayload ▸ hinside), bind_eq hloop]
        rfl
      rw [bind_eq hstep, List.foldlM_nil, List.length_append]
      rfl

end Storage

end KeemashCore.OtaV3

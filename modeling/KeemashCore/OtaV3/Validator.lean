import KeemashCore.OtaV3.Stream
import Mathlib.Data.List.Induction

/-!
# What the stream validator has checked

`Trail` ties every running hash, offset and flag of a stream to the chunks it
has accepted and the bytes it has put out.  A stream starts at a `Base`: the
empty one after `keemash_ota_v3_stream_begin`, or the point from which a
transfer resumes.  Each call keeps the trail or fails the stream, and a stream
that finishes has a trail over all the blocks of its artifact.
-/

namespace KeemashCore.OtaV3

variable {env : OtaEnv}

/-! ## Output of the inflater -/

/-- The stream after `pieces` have been put out. -/
def Stream.emit (s : Stream env) (pieces : List Bytes) : Stream env :=
  { s with
    blockRawHash := s.blockRawHash ++ pieces.flatten
    imageHash := s.imageHash ++ pieces.flatten
    sent := s.sent ++ pieces }

theorem Stream.emit_nil (s : Stream env) : s.emit [] = s := by
  simp [Stream.emit]

theorem Stream.emit_emit (s : Stream env) (a b : List Bytes) :
    (s.emit a).emit b = s.emit (a ++ b) := by
  simp [Stream.emit]

theorem streamOutput_emit (outputFn : OutputFn) (s : Stream env) (bytes : Bytes) :
    (streamOutput outputFn s bytes).2 = s.emit [bytes] := by
  simp [Stream.emit, streamOutput]

/-- What feeding the inflater does to it and to the stream. -/
structure Inflates (final : Bool) (i i' : Inflater env) (s s' : Stream env)
    (err : EspErr) (pieces : List Bytes) : Prop where
  emitted : s' = s.emit pieces
  expected : i'.expectedRawSize = i.expectedRawSize
  produced : err = .ok → i'.producedRawSize = i.producedRawSize + pieces.flatten.length
  complete : err = .ok → final = true → i'.producedRawSize = i'.expectedRawSize

theorem Inflates.stop {final : Bool} {i i' : Inflater env} {s s' : Stream env} {err : EspErr}
    {pieces : List Bytes} (hemit : s' = s.emit pieces)
    (hexpected : i'.expectedRawSize = i.expectedRawSize) (herr : err ≠ .ok) :
    Inflates final i i' s s' err pieces :=
  ⟨hemit, hexpected, fun h => absurd h herr, fun h => absurd h herr⟩

/-- A final chunk is taken only when the block has its size. -/
theorem passVerdict_ok {step : ZStep env.zlib.State} {rest : Bytes} {complete : Bool}
    (h : passVerdict env true step rest complete = some .ok) : complete = true := by
  simp only [passVerdict] at h
  split at h
  · by_contra hno
    rw [if_pos (Or.inr (Or.inr (by simpa using hno)))] at h
    cases h
  · split at h
    · cases h
    · split at h
      · cases h
      · simp at h

/-- Handing over a piece. -/
theorem emitPiece_emit (outputFn : OutputFn) (s : Stream env) (produced : Bytes) :
    ∃ pieces, (emitPiece (streamOutput outputFn) s produced).2 = s.emit pieces ∧
      pieces.flatten = produced := by
  by_cases hnil : produced = []
  · exact ⟨[], by rw [emitPiece, if_pos hnil, s.emit_nil], hnil.symm⟩
  · exact ⟨[produced], by rw [emitPiece, if_neg hnil, streamOutput_emit], by simp⟩

theorem inflaterLoop_inflates (outputFn : OutputFn) (final : Bool) (i : Inflater env)
    (input : Bytes) (s : Stream env) :
    ∃ pieces, Inflates final i (inflaterLoop env (streamOutput outputFn) final i input s).2.1
      s (inflaterLoop env (streamOutput outputFn) final i input s).2.2
      (inflaterLoop env (streamOutput outputFn) final i input s).1 pieces := by
  fun_induction inflaterLoop env (streamOutput outputFn) final i input s with
  | case1 i input s err i' s' h =>
      simp only [inflaterPass] at h
      obtain ⟨pieces, hemit, hpieces⟩ := emitPiece_emit outputFn s
        (env.zlib.inflate i.stream input inflateOutputBytes final).produced
      split at h
      · obtain ⟨rfl, rfl, rfl⟩ := Pass.stop.inj h
        exact ⟨[], .stop (s.emit_nil).symm rfl (by simp)⟩
      · split at h
        · next herr =>
            obtain ⟨rfl, rfl, rfl⟩ := Pass.stop.inj h
            exact ⟨pieces, .stop hemit rfl herr⟩
        · split at h
          · next hverdict =>
              obtain ⟨rfl, rfl, rfl⟩ := Pass.stop.inj h
              refine ⟨pieces, hemit, rfl, fun _ => by rw [hpieces], fun hok hfinal => ?_⟩
              subst hok hfinal
              exact of_decide_eq_true (passVerdict_ok hverdict)
          · cases h
  | case2 i input s i' rest s' h ih =>
      obtain ⟨more, hmore⟩ := ih
      simp only [inflaterPass] at h
      obtain ⟨pieces, hemit, hpieces⟩ := emitPiece_emit outputFn s
        (env.zlib.inflate i.stream input inflateOutputBytes final).produced
      split at h
      · cases h
      · split at h
        · cases h
        · split at h
          · cases h
          · obtain ⟨rfl, rfl, rfl⟩ := Pass.more.inj h
            refine ⟨pieces ++ more, ?_, hmore.expected, fun hok => ?_, hmore.complete⟩
            · rw [hmore.emitted, hemit, Stream.emit_emit]
            · rw [hmore.produced hok, List.flatten_append, List.length_append, hpieces]
              dsimp only
              omega

theorem inflaterFeed_inflates (outputFn : OutputFn) (final : Bool) (i : Inflater env)
    (encoded : Bytes) (s : Stream env) :
    ∃ pieces, Inflates final i
      (inflaterFeed env (streamOutput outputFn) i encoded final s).2.1 s
      (inflaterFeed env (streamOutput outputFn) i encoded final s).2.2
      (inflaterFeed env (streamOutput outputFn) i encoded final s).1 pieces := by
  by_cases hactive : i.active = false
  · simp only [inflaterFeed, if_pos hactive]
    exact ⟨[], .stop (s.emit_nil).symm rfl (by simp)⟩
  · simp only [inflaterFeed, if_neg hactive]
    exact inflaterLoop_inflates outputFn final i encoded s

/-! ## Blocks and chunks -/

/-- Where a stream starts: the number of its first block, the bytes of the image
before it, and the offset and the hash chain there. -/
structure Base where
  index : ℕ
  raw : Bytes
  encodedOffset : ℕ
  chain : Digest

/-- The start of an artifact. -/
def Base.start : Base := ⟨0, [], 0, zeroDigest⟩

/-- A block with the bytes it stands for. -/
structure Block where
  descriptor : BlockDescriptor
  raw : Bytes
  encoded : Bytes

/-- The bytes of the block are the ones its descriptor names. -/
structure Block.Sealed (env : OtaEnv) (b : Block) : Prop where
  raw_length : b.raw.length = b.descriptor.rawSize
  encoded_length : b.encoded.length = b.descriptor.encodedSize
  raw_hash : (env.sha256 b.raw).toList = b.descriptor.rawSha256
  encoded_hash : (env.sha256 b.encoded).toList = b.descriptor.encodedSha256

def rawOf (blocks : List Block) : Bytes :=
  (blocks.map Block.raw).flatten

def encodedOf (blocks : List Block) : Bytes :=
  (blocks.map Block.encoded).flatten

def descriptorsOf (blocks : List Block) : List BlockDescriptor :=
  blocks.map Block.descriptor

/-- The hash chain over descriptors. -/
def chainOf (env : OtaEnv) (chain : Digest) (descriptors : List BlockDescriptor) : Digest :=
  descriptors.foldl (chainStep env) chain

/-- The bytes of the chunks. -/
def payloadOf (chunks : List Chunk) : Bytes :=
  (chunks.map Chunk.bytes).flatten

/-- The descriptors under which blocks were opened. -/
def headsOf (chunks : List Chunk) : List BlockDescriptor :=
  (chunks.filter fun c => c.offset = 0).map Chunk.descriptor

/-- The chunks of one block. -/
def chunksOf (index : ℕ) (chunks : List Chunk) : List Chunk :=
  chunks.filter fun c => c.descriptor.index = index

/-- Sealed blocks that stand one after the other from the base on. -/
def Tiled (env : OtaEnv) (base : Base) (blocks : List Block) : Prop :=
  ∀ n b, blocks[n]? = some b → b.Sealed env ∧ b.descriptor.index = base.index + n ∧
    b.descriptor.rawOffset = base.raw.length + (rawOf (blocks.take n)).length ∧
    b.descriptor.encodedOffset = base.encodedOffset + (encodedOf (blocks.take n)).length

@[simp]
theorem rawOf_append (blocks more : List Block) :
    rawOf (blocks ++ more) = rawOf blocks ++ rawOf more := by
  simp [rawOf]

@[simp]
theorem rawOf_singleton (b : Block) : rawOf [b] = b.raw := by
  simp [rawOf]

@[simp]
theorem encodedOf_append (blocks more : List Block) :
    encodedOf (blocks ++ more) = encodedOf blocks ++ encodedOf more := by
  simp [encodedOf]

@[simp]
theorem encodedOf_singleton (b : Block) : encodedOf [b] = b.encoded := by
  simp [encodedOf]

@[simp]
theorem descriptorsOf_append (blocks more : List Block) :
    descriptorsOf (blocks ++ more) = descriptorsOf blocks ++ descriptorsOf more := by
  simp [descriptorsOf]

@[simp]
theorem descriptorsOf_singleton (b : Block) : descriptorsOf [b] = [b.descriptor] := rfl

@[simp]
theorem chainOf_append (chain : Digest) (ds more : List BlockDescriptor) :
    chainOf env chain (ds ++ more) = chainOf env (chainOf env chain ds) more := by
  simp [chainOf]

@[simp]
theorem payloadOf_append (chunks more : List Chunk) :
    payloadOf (chunks ++ more) = payloadOf chunks ++ payloadOf more := by
  simp [payloadOf]

@[simp]
theorem payloadOf_singleton (c : Chunk) : payloadOf [c] = c.bytes := by
  simp [payloadOf]

theorem headsOf_snoc (chunks : List Chunk) (c : Chunk) :
    headsOf (chunks ++ [c]) =
      headsOf chunks ++ if c.offset = 0 then [c.descriptor] else [] := by
  by_cases h : c.offset = 0 <;> simp [headsOf, h]

theorem chunksOf_snoc (index : ℕ) (chunks : List Chunk) (c : Chunk) :
    chunksOf index (chunks ++ [c]) =
      chunksOf index chunks ++ if c.descriptor.index = index then [c] else [] := by
  by_cases h : c.descriptor.index = index <;> simp [chunksOf, h]

theorem getElem?_snoc {α : Type} {xs : List α} {x y : α} {n : ℕ}
    (h : (xs ++ [x])[n]? = some y) :
    (n < xs.length ∧ xs[n]? = some y) ∨ (n = xs.length ∧ y = x) := by
  have hlt := (List.getElem?_eq_some_iff.mp h).1
  rw [List.length_append, List.length_singleton] at hlt
  rcases Nat.lt_or_ge n xs.length with hbelow | hge
  · rw [List.getElem?_append_left hbelow] at h
    exact Or.inl ⟨hbelow, h⟩
  · have hn : n = xs.length := by omega
    subst hn
    rw [List.getElem?_concat_length, Option.some.injEq] at h
    exact Or.inr ⟨rfl, h.symm⟩

/-- A sealed block at the end of the tiling extends it. -/
theorem Tiled.snoc {base : Base} {blocks : List Block} {b : Block}
    (h : Tiled env base blocks) (hsealed : b.Sealed env)
    (hindex : b.descriptor.index = base.index + blocks.length)
    (hraw : b.descriptor.rawOffset = base.raw.length + (rawOf blocks).length)
    (hencoded : b.descriptor.encodedOffset =
      base.encodedOffset + (encodedOf blocks).length) :
    Tiled env base (blocks ++ [b]) := by
  intro n b' hb'
  rcases getElem?_snoc hb' with ⟨hlt, hold⟩ | ⟨rfl, rfl⟩
  · rw [List.take_append_of_le_length (Nat.le_of_lt hlt)]
    exact h n b' hold
  · rw [List.take_left]
    exact ⟨hsealed, hindex, hraw, hencoded⟩

/-! ## The trail -/

/-- The block that is open. -/
def Stream.current (s : Stream env) : Block :=
  ⟨s.block, s.blockRawHash, s.blockEncodedHash⟩

/-- The finished blocks and the open one. -/
def Stream.parts (s : Stream env) (blocks : List Block) : List Block :=
  blocks ++ if s.blockActive then [s.current] else []

/-- What holds of the open block. -/
structure Opened (s : Stream env) : Prop where
  index : s.block.index = s.nextBlockIndex
  rawOffset : s.block.rawOffset = s.rawOffset
  encodedOffset : s.block.encodedOffset = s.encodedOffset
  expected : s.inflater.expectedRawSize = s.block.rawSize
  produced : s.inflater.producedRawSize = s.blockRawHash.length
  taken : s.blockEncodedOffset = s.blockEncodedHash.length
  room : s.blockEncodedOffset ≤ s.block.encodedSize

/-- Every chunk stands where the earlier chunks of its block end. -/
inductive Placed : List Chunk → Prop where
  | nil : Placed []
  | snoc {chunks : List Chunk} {c : Chunk} (h : Placed chunks)
      (hoffset : c.offset = (payloadOf (chunksOf c.descriptor.index chunks)).length) :
      Placed (chunks ++ [c])

/-- A stream that started at `base` has accepted `chunks` and finished `blocks`. -/
structure Trail (base : Base) (fields : SignedFields) (chunks : List Chunk)
    (blocks : List Block) (s : Stream env) : Prop where
  fields_eq : s.fields = fields
  tiled : Tiled env base blocks
  index : s.nextBlockIndex = base.index + blocks.length
  rawOffset : s.rawOffset = base.raw.length + (rawOf blocks).length
  encodedOffset : s.encodedOffset = base.encodedOffset + (encodedOf blocks).length
  imageHash : s.imageHash = base.raw ++ s.sent.flatten
  payloadHash : s.payloadHash = payloadOf chunks
  complete : s.payloadHashComplete = decide (base.index = 0)
  output : s.sent.flatten = rawOf (s.parts blocks)
  payload : payloadOf chunks = encodedOf (s.parts blocks)
  chain : s.blockChain = chainOf env base.chain (descriptorsOf (s.parts blocks))
  heads : headsOf chunks = descriptorsOf blocks ++
    if s.blockActive ∧ 0 < s.blockEncodedOffset then [s.block] else []
  own : ∀ n b, (s.parts blocks)[n]? = some b →
    payloadOf (chunksOf (base.index + n) chunks) = b.encoded
  owner : ∀ c ∈ chunks, ∃ n b, c.descriptor.index = base.index + n ∧
    (s.parts blocks)[n]? = some b ∧ b.descriptor = c.descriptor
  placed : Placed chunks
  opened : s.blockActive = true → Opened s

/-- The stream remembers the place of the last chunk. -/
structure Remembers (chunks : List Chunk) (s : Stream env) : Prop where
  valid : s.lastChunkValid = true → ∃ c, chunks.getLast? = some c ∧
    s.lastChunkIndex = c.descriptor.index ∧ s.lastChunkOffset = c.offset
  none : s.lastChunkValid = false → chunks = []

theorem trail_fresh (fields : SignedFields) :
    Trail Base.start fields [] [] (Stream.fresh env fields) where
  fields_eq := rfl
  tiled := fun n b h => by simp at h
  index := rfl
  rawOffset := rfl
  encodedOffset := rfl
  imageHash := rfl
  payloadHash := rfl
  complete := rfl
  output := rfl
  payload := rfl
  chain := rfl
  heads := rfl
  own := fun n b h => by simp [Stream.parts, Stream.fresh] at h
  owner := fun c h => by simp at h
  placed := .nil
  opened := fun h => by simp [Stream.fresh] at h

/-! ## Opening a block -/

theorem Stream.parts_idle {s : Stream env} (h : s.blockActive = false) (blocks : List Block) :
    s.parts blocks = blocks := by
  simp [Stream.parts, h]

theorem Stream.parts_open {s : Stream env} (h : s.blockActive = true) (blocks : List Block) :
    s.parts blocks = blocks ++ [s.current] := by
  simp [Stream.parts, h]

theorem sameDescriptor_eq {a b : BlockDescriptor} (h : sameDescriptor a b = true) : a = b := by
  obtain ⟨index, rawOffset, rawSize, encodedOffset, encodedSize, kind, raw, encoded⟩ := a
  simp only [sameDescriptor, decide_eq_true_eq] at h
  obtain ⟨rfl, rfl, rfl, rfl, rfl, rfl, -, -, -, -, rfl, rfl⟩ := h
  rfl

/-- What an accepted descriptor satisfies. -/
structure Checked (env : OtaEnv) (fields : SignedFields) (d : BlockDescriptor)
    (index rawOffset encodedOffset : ℕ) (chain next : Digest) : Prop where
  index_lt : index < fields.blockCount
  index_eq : d.index = index
  rawOffset_eq : d.rawOffset = rawOffset
  encodedOffset_eq : d.encodedOffset = encodedOffset
  rawSize_pos : 0 < d.rawSize
  rawSize_le : d.rawSize ≤ fields.blockSize
  rawSize_full : index + 1 < fields.blockCount → d.rawSize = fields.blockSize
  raw_fits : rawOffset + d.rawSize ≤ fields.rawSize
  encoded_fits : encodedOffset + d.encodedSize ≤ fields.encodedSize
  rawSha256_length : d.rawSha256.length = 32
  encodedSha256_length : d.encodedSha256.length = 32
  deflate_pos : d.kind = blockDeflate → 0 < d.encodedSize
  next_eq : next = chainStep env chain d
  last : index + 1 = fields.blockCount → rawOffset + d.rawSize = fields.rawSize ∧
    encodedOffset + d.encodedSize = fields.encodedSize ∧ next = fields.blockTableSha256

theorem checkBlockDescriptor_ok {fields : SignedFields} {d : BlockDescriptor}
    {index rawOffset encodedOffset : ℕ} {chain next : Digest}
    (h : checkBlockDescriptor env fields d index rawOffset encodedOffset chain = .ok next) :
    Checked env fields d index rawOffset encodedOffset chain next := by
  simp only [checkBlockDescriptor] at h
  split at h
  · cases h
  · next hshape =>
      simp only [not_or, not_and, Nat.not_le, Nat.not_lt, ne_eq, Decidable.not_not] at hshape
      obtain ⟨hlt, hindex, hraw, hencoded, hpos, hle, hfull, hraw₁, hraw₂, hencoded₁,
        hencoded₂, hsha₁, hsha₂⟩ := hshape
      split at h
      · cases h
      · next hdeflate =>
          split at h
          · cases h
          · split at h
            · cases h
            · split at h
              · cases h
              · split at h
                · cases h
                · next hlast =>
                    cases h
                    refine ⟨hlt, hindex, hraw, hencoded, by omega, hle, hfull, by omega,
                      by omega, hsha₁, hsha₂, fun hkind => ?_, rfl, fun hend => ?_⟩
                    · exact Nat.pos_of_ne_zero fun hzero => hdeflate ⟨hkind, hzero⟩
                    · simpa [hend] using hlast

theorem checkBlockDescriptor_error {fields : SignedFields} {d : BlockDescriptor}
    {index rawOffset encodedOffset : ℕ} {chain : Digest} {err : EspErr}
    (h : checkBlockDescriptor env fields d index rawOffset encodedOffset chain = .error err) :
    err ≠ .ok := by
  rintro rfl
  simp only [checkBlockDescriptor] at h
  repeat' split at h
  all_goals cases h

/-- A block that opens takes its place after the finished ones. -/
theorem Trail.start {base : Base} {fields : SignedFields} {chunks : List Chunk}
    {blocks : List Block} {s : Stream env} (h : Trail base fields chunks blocks s)
    (hidle : s.blockActive = false) {d : BlockDescriptor} (hok : (startBlock s d).1 = .ok) :
    Trail base fields chunks blocks (startBlock s d).2 ∧
      (startBlock s d).2.blockActive = true ∧ (startBlock s d).2.block = d := by
  cases hcheck : checkBlockDescriptor env s.fields d s.nextBlockIndex s.rawOffset
      s.encodedOffset s.blockChain with
  | error err =>
      simp only [startBlock, hcheck] at hok
      exact absurd hok (checkBlockDescriptor_error hcheck)
  | ok next =>
      have hchecked := checkBlockDescriptor_ok hcheck
      have hparts := Stream.parts_idle hidle blocks
      by_cases hkind : d.kind = blockDeflate
      · by_cases hsize : d.rawSize = 0 ∨ d.rawSize > fullBlockSize
        · simp [startBlock, hcheck, hkind, inflaterBegin, hsize] at hok
        · -- The block opens with nothing read and nothing put out.
          have hstart : (startBlock s d).2 =
              { s with
                block := d
                blockChain := next
                blockEncodedOffset := 0
                blockRawHash := []
                blockEncodedHash := []
                blockActive := true
                inflater := { Inflater.idle env with
                  expectedRawSize := d.rawSize
                  active := true } } := by
            simp [startBlock, hcheck, hkind, inflaterBegin, hsize]
          rw [hstart]
          refine ⟨⟨h.fields_eq, h.tiled, h.index, h.rawOffset, h.encodedOffset, h.imageHash,
            h.payloadHash, h.complete, ?_, ?_, ?_, ?_, ?_, ?_, h.placed, fun _ => ?_⟩, rfl, rfl⟩
          · change s.sent.flatten = rawOf (blocks ++ [⟨d, [], []⟩])
            simp [h.output, hparts]
          · change payloadOf chunks = encodedOf (blocks ++ [⟨d, [], []⟩])
            simp [h.payload, hparts]
          · change next = chainOf env base.chain (descriptorsOf (blocks ++ [⟨d, [], []⟩]))
            rw [hchecked.next_eq, h.chain, hparts]
            simp [chainOf]
          · simp [h.heads, hidle]
          · intro n b hb
            change (blocks ++ [Block.mk d [] []])[n]? = some b at hb
            rcases getElem?_snoc hb with ⟨-, hold⟩ | ⟨rfl, rfl⟩
            · exact h.own n b (by rw [hparts]; exact hold)
            · -- No chunk of the new block has come yet.
              have hnone : chunksOf (base.index + blocks.length) chunks = [] := by
                rw [chunksOf, List.filter_eq_nil_iff]
                intro c hc
                obtain ⟨n, b, hn, hb, -⟩ := h.owner c hc
                rw [hparts] at hb
                have hlt := (List.getElem?_eq_some_iff.mp hb).1
                simp only [decide_eq_true_eq]
                omega
              rw [hnone]
              rfl
          · intro c hc
            obtain ⟨n, b, hn, hb, hd⟩ := h.owner c hc
            rw [hparts] at hb
            refine ⟨n, b, hn, ?_, hd⟩
            change (blocks ++ [Block.mk d [] []])[n]? = some b
            rw [List.getElem?_append_left (List.getElem?_eq_some_iff.mp hb).1]
            exact hb
          · exact ⟨hchecked.index_eq, hchecked.rawOffset_eq, hchecked.encodedOffset_eq, rfl,
              rfl, rfl, Nat.zero_le _⟩
      · simp [startBlock, hcheck, hkind] at hok

/-- Opening a block, or finding that the chunk belongs to the open one. -/
theorem Trail.openBlock {base : Base} {fields : SignedFields} {chunks : List Chunk}
    {blocks : List Block} {s : Stream env} (h : Trail base fields chunks blocks s)
    {d : BlockDescriptor} {offset : ℕ} (hok : (openBlock s d offset).1 = .ok) :
    Trail base fields chunks blocks (OtaV3.openBlock s d offset).2 ∧
      (OtaV3.openBlock s d offset).2.blockActive = true ∧
      (OtaV3.openBlock s d offset).2.block = d := by
  simp only [OtaV3.openBlock] at hok ⊢
  by_cases hidle : s.blockActive = false
  · rw [if_pos hidle] at hok ⊢
    by_cases hoffset : offset ≠ 0
    · simp [hoffset] at hok
    · rw [if_neg hoffset] at hok ⊢
      exact h.start hidle hok
  · rw [if_neg hidle] at hok ⊢
    by_cases hsame : sameDescriptor s.block d = true
    · rw [if_pos hsame]
      exact ⟨h, by simpa using hidle, sameDescriptor_eq hsame⟩
    · simp [hsame] at hok

/-! ## Taking a chunk -/

/-- The stream after it has taken `bytes` of the open block and put out `pieces`. -/
def Stream.took (s : Stream env) (bytes : Bytes) (pieces : List Bytes) (i : Inflater env) :
    Stream env :=
  { s with
    inflater := i
    imageHash := s.imageHash ++ pieces.flatten
    payloadHash := s.payloadHash ++ bytes
    blockRawHash := s.blockRawHash ++ pieces.flatten
    blockEncodedHash := s.blockEncodedHash ++ bytes
    blockEncodedOffset := s.blockEncodedOffset + bytes.length
    sent := s.sent ++ pieces }

/-- The trail after more bytes of the open block. -/
theorem Trail.took {base : Base} {fields : SignedFields} {chunks : List Chunk}
    {blocks : List Block} {s : Stream env} (h : Trail base fields chunks blocks s)
    (hactive : s.blockActive = true) {c : Chunk} (hblock : s.block = c.descriptor)
    (hoffset : c.offset = s.blockEncodedOffset) (hbytes : 0 < c.bytes.length)
    (hroom : c.bytes.length ≤ s.block.encodedSize - s.blockEncodedOffset)
    {pieces : List Bytes} {i : Inflater env}
    (hexpected : i.expectedRawSize = s.inflater.expectedRawSize)
    (hproduced : i.producedRawSize = s.inflater.producedRawSize + pieces.flatten.length) :
    Trail base fields (chunks ++ [c]) blocks (s.took c.bytes pieces i) := by
  have hopened := h.opened hactive
  have hparts := Stream.parts_open hactive blocks
  have hactive' : (s.took c.bytes pieces i).blockActive = true := hactive
  have hparts' : (s.took c.bytes pieces i).parts blocks = blocks ++
      [⟨s.block, s.blockRawHash ++ pieces.flatten, s.blockEncodedHash ++ c.bytes⟩] :=
    Stream.parts_open hactive' blocks
  have hsent : (s.took c.bytes pieces i).sent.flatten = s.sent.flatten ++ pieces.flatten :=
    List.flatten_append
  have hplace : c.descriptor.index = base.index + blocks.length := by
    rw [← hblock, hopened.index, h.index]
  refine ⟨h.fields_eq, h.tiled, h.index, h.rawOffset, h.encodedOffset, ?_, ?_, h.complete, ?_,
    ?_, ?_, ?_, ?_, ?_, h.placed.snoc ?_, fun _ => ?_⟩
  · rw [hsent, ← List.append_assoc, ← h.imageHash]
    rfl
  · rw [payloadOf_append, payloadOf_singleton, ← h.payloadHash]
    rfl
  · rw [hsent, hparts', h.output, hparts]
    simp [Stream.current]
  · rw [payloadOf_append, h.payload, hparts, hparts']
    simp [Stream.current]
  · rw [hparts']
    change s.blockChain = _
    rw [h.chain, hparts]
    simp [Stream.current]
  · -- The first chunk of a block brings its descriptor in.
    have hlater : 0 < (s.took c.bytes pieces i).blockEncodedOffset := by
      change 0 < s.blockEncodedOffset + c.bytes.length
      omega
    have hopen : (if (s.took c.bytes pieces i).blockActive ∧
        0 < (s.took c.bytes pieces i).blockEncodedOffset then
          [(s.took c.bytes pieces i).block] else []) = [s.block] := if_pos ⟨hactive', hlater⟩
    rw [hopen, headsOf_snoc, h.heads, hoffset]
    by_cases hfirst : s.blockEncodedOffset = 0
    · simp [hfirst, hblock]
    · simp [hfirst, hactive, Nat.pos_of_ne_zero hfirst]
  · intro n b hb
    rw [hparts'] at hb
    rw [chunksOf_snoc, payloadOf_append]
    rcases getElem?_snoc hb with ⟨hlt, hb⟩ | ⟨rfl, rfl⟩
    · have hold := h.own n b (by rw [hparts, List.getElem?_append_left hlt]; exact hb)
      rw [hold, if_neg (by omega)]
      simp [payloadOf]
    · have hold := h.own blocks.length s.current (by rw [hparts]; simp)
      rw [hold, if_pos hplace, payloadOf_singleton]
      rfl
  · intro c' hc'
    rw [hparts']
    rcases List.mem_append.mp hc' with hold | hnew
    · obtain ⟨n, b, hn, hb, hd⟩ := h.owner c' hold
      rw [hparts] at hb
      rcases getElem?_snoc hb with ⟨hlt, hb⟩ | ⟨rfl, rfl⟩
      · exact ⟨n, b, hn, by rw [List.getElem?_append_left hlt]; exact hb, hd⟩
      · exact ⟨blocks.length, _, hn, List.getElem?_concat_length, hd⟩
    · obtain rfl := List.mem_singleton.mp hnew
      exact ⟨blocks.length, _, hplace, List.getElem?_concat_length, hblock⟩
  · have hcurrent := h.own blocks.length s.current (by rw [hparts]; simp)
    rw [hoffset, hopened.taken, hplace, hcurrent]
    rfl
  · have htaken := hopened.taken
    have hfits := hopened.room
    refine ⟨hopened.index, hopened.rawOffset, hopened.encodedOffset,
      hexpected.trans hopened.expected, ?_, ?_, ?_⟩
    · change i.producedRawSize = (s.blockRawHash ++ pieces.flatten).length
      rw [hproduced, hopened.produced]
      exact List.length_append.symm
    · change s.blockEncodedOffset + _ = (s.blockEncodedHash ++ c.bytes).length
      rw [List.length_append, htaken]
    · change s.blockEncodedOffset + c.bytes.length ≤ s.block.encodedSize
      omega

/-- A block that passes its hashes joins the finished ones. -/
theorem Trail.finishBlock {base : Base} {fields : SignedFields} {chunks : List Chunk}
    {blocks : List Block} {s : Stream env} (h : Trail base fields chunks blocks s)
    (hactive : s.blockActive = true) (hpos : 0 < s.blockEncodedOffset)
    (hraw : s.inflater.producedRawSize = s.inflater.expectedRawSize)
    (hencoded : s.blockEncodedOffset = s.block.encodedSize)
    (hok : (finishBlock s).1 = .ok) :
    Trail base fields chunks (blocks ++ [s.current]) (OtaV3.finishBlock s).2 := by
  have hopened := h.opened hactive
  have hparts := Stream.parts_open hactive blocks
  by_cases hhash : (env.sha256 s.blockRawHash).toList ≠ s.block.rawSha256 ∨
      (env.sha256 s.blockEncodedHash).toList ≠ s.block.encodedSha256
  · simp [OtaV3.finishBlock, hhash] at hok
  · simp only [OtaV3.finishBlock, if_neg hhash]
    simp only [not_or, ne_eq, Decidable.not_not] at hhash
    have hrawLength : s.blockRawHash.length = s.block.rawSize := by
      rw [← hopened.produced, hraw, hopened.expected]
    have hencodedLength : s.blockEncodedHash.length = s.block.encodedSize := by
      rw [← hopened.taken, hencoded]
    have hsealed : s.current.Sealed env :=
      ⟨hrawLength, hencodedLength, hhash.1, hhash.2⟩
    refine ⟨h.fields_eq, h.tiled.snoc hsealed ?_ ?_ ?_, ?_, ?_, ?_, h.imageHash,
      h.payloadHash, h.complete, ?_, ?_, ?_, ?_, ?_, ?_, h.placed, fun hno => (nomatch hno)⟩
    · exact hopened.index.trans h.index
    · exact hopened.rawOffset.trans h.rawOffset
    · exact hopened.encodedOffset.trans h.encodedOffset
    · change s.nextBlockIndex + 1 = _
      rw [h.index, List.length_append, List.length_singleton, Nat.add_assoc]
    · change s.rawOffset + s.block.rawSize = _
      rw [h.rawOffset, rawOf_append, rawOf_singleton, List.length_append, ← hrawLength,
        Nat.add_assoc]
      rfl
    · change s.encodedOffset + s.block.encodedSize = _
      rw [h.encodedOffset, encodedOf_append, encodedOf_singleton, List.length_append,
        ← hencodedLength, Nat.add_assoc]
      rfl
    · rw [Stream.parts_idle rfl, ← hparts]
      exact h.output
    · rw [Stream.parts_idle rfl, ← hparts]
      exact h.payload
    · rw [Stream.parts_idle rfl, ← hparts]
      exact h.chain
    · rw [h.heads, if_pos ⟨hactive, hpos⟩, descriptorsOf_append]
      simp [Stream.current]
    · rw [Stream.parts_idle rfl, ← hparts]
      exact h.own
    · rw [Stream.parts_idle rfl, ← hparts]
      exact h.owner

/-- A chunk that is inflated is added to the trail. -/
theorem Trail.inflateChunk {base : Base} {fields : SignedFields} {chunks : List Chunk}
    {blocks : List Block} {s : Stream env} (h : Trail base fields chunks blocks s)
    (hactive : s.blockActive = true) {c : Chunk} (hblock : s.block = c.descriptor)
    (hbytes : 0 < c.bytes.length) {outputFn : OutputFn}
    (hok : (inflateChunk outputFn s c.offset c.bytes c.final).1 = .ok) :
    ∃ blocks', Trail base fields (chunks ++ [c]) blocks'
      (OtaV3.inflateChunk outputFn s c.offset c.bytes c.final).2 := by
  simp only [OtaV3.inflateChunk] at hok ⊢
  by_cases hplace : c.offset ≠ s.blockEncodedOffset ∨
      c.bytes.length > s.block.encodedSize - s.blockEncodedOffset ∨
      c.final ≠ decide (c.bytes.length = s.block.encodedSize - s.blockEncodedOffset)
  · simp [hplace] at hok
  · rw [if_neg hplace] at hok ⊢
    simp only [not_or, ne_eq, Decidable.not_not, Nat.not_lt] at hplace
    obtain ⟨hoffset, hroom, hfinal⟩ := hplace
    obtain ⟨pieces, hinflates⟩ :=
      inflaterFeed_inflates outputFn c.final (s.hashChunk c.bytes).inflater c.bytes
        (s.hashChunk c.bytes)
    simp only [takeChunk] at hok ⊢
    cases hfeed : inflaterFeed env (streamOutput outputFn) (s.hashChunk c.bytes).inflater
        c.bytes c.final (s.hashChunk c.bytes) with
    | mk err rest =>
        obtain ⟨i, s'⟩ := rest
        simp only [hfeed] at hinflates hok ⊢
        by_cases herr : err ≠ .ok
        · rw [if_pos herr] at hok
          exact absurd hok herr
        · rw [if_neg herr] at hok ⊢
          have herr' : err = .ok := by simpa using herr
          have htook := h.took hactive hblock hoffset hbytes hroom hinflates.expected
            (hinflates.produced herr')
          have hstream : ({ s' with
              inflater := i
              blockEncodedOffset := s'.blockEncodedOffset + c.bytes.length } : Stream env) =
              s.took c.bytes pieces i := by
            rw [hinflates.emitted]
            rfl
          rw [hstream] at hok ⊢
          by_cases hlast : c.final = true
          · rw [if_pos hlast] at hok ⊢
            have hsize : c.bytes.length = s.block.encodedSize - s.blockEncodedOffset := by
              rw [hlast] at hfinal
              exact of_decide_eq_true hfinal.symm
            have hfits := (h.opened hactive).room
            refine ⟨_, htook.finishBlock hactive ?_ (hinflates.complete herr' hlast) ?_ hok⟩
            · change 0 < s.blockEncodedOffset + c.bytes.length
              omega
            · change s.blockEncodedOffset + c.bytes.length = s.block.encodedSize
              omega
          · rw [if_neg hlast]
            exact ⟨blocks, htook⟩

/-! ## Calls -/

/-- A call on a stream that has begun. -/
inductive StreamCall where
  | feed (chunk : Chunk)
  | finish

def StreamCall.run (outputFn : OutputFn) (s : Stream env) : StreamCall → EspErr × Stream env
  | .feed chunk => streamFeed outputFn s chunk
  | .finish => streamFinish s

/-- The stream after a sequence of calls. -/
def runStream (outputFn : OutputFn) (s : Stream env) (calls : List StreamCall) : Stream env :=
  calls.foldl (fun s call => (call.run outputFn s).2) s

/-- What each call of the sequence returns. -/
def results (outputFn : OutputFn) (s : Stream env) : List StreamCall → List EspErr
  | [] => []
  | call :: calls => (call.run outputFn s).1 :: results outputFn (call.run outputFn s).2 calls

/-- The chunk of a feed that returned `ESP_OK`. -/
def fedChunk? : StreamCall × EspErr → Option Chunk
  | (.feed chunk, .ok) => some chunk
  | _ => none

/-- Add a chunk, unless it stands where the last one does. -/
def admitChunk (chunks : List Chunk) (c : Chunk) : List Chunk :=
  if chunks.getLast?.any fun last =>
      last.descriptor.index = c.descriptor.index ∧ last.offset = c.offset then
    chunks
  else
    chunks ++ [c]

/-- The distinct chunks that a sequence of calls got accepted. -/
def accepted (outputFn : OutputFn) (s : Stream env) (calls : List StreamCall) : List Chunk :=
  ((calls.zip (results outputFn s calls)).filterMap fedChunk?).foldl admitChunk []

/-- The chunks after a call, given the ones before. -/
def admitCall (chunks : List Chunk) (call : StreamCall) (err : EspErr) : List Chunk :=
  match fedChunk? (call, err) with
  | some c => admitChunk chunks c
  | none => chunks

theorem results_append (outputFn : OutputFn) (s : Stream env) (calls more : List StreamCall) :
    results outputFn s (calls ++ more) =
      results outputFn s calls ++ results outputFn (runStream outputFn s calls) more := by
  induction calls generalizing s with
  | nil => rfl
  | cons call calls ih => simp [results, runStream, ih]

theorem length_results (outputFn : OutputFn) (s : Stream env) (calls : List StreamCall) :
    (results outputFn s calls).length = calls.length := by
  induction calls generalizing s with
  | nil => rfl
  | cons call calls ih => simp [results, ih]

theorem runStream_snoc (outputFn : OutputFn) (s : Stream env) (calls : List StreamCall)
    (call : StreamCall) :
    runStream outputFn s (calls ++ [call]) =
      (call.run outputFn (runStream outputFn s calls)).2 := by
  simp [runStream]

theorem accepted_snoc (outputFn : OutputFn) (s : Stream env) (calls : List StreamCall)
    (call : StreamCall) :
    accepted outputFn s (calls ++ [call]) =
      admitCall (accepted outputFn s calls) call
        (call.run outputFn (runStream outputFn s calls)).1 := by
  rw [accepted, results_append, List.zip_append (length_results outputFn s calls).symm,
    List.filterMap_append, List.foldl_append]
  simp only [results, List.zip_cons_cons, List.zip_nil_right, List.filterMap_cons,
    List.filterMap_nil, admitCall]
  cases fedChunk? (call, (call.run outputFn (runStream outputFn s calls)).1) <;> rfl

/-- The trail does not see what the stream remembers of the last chunk. -/
theorem Trail.remember {base : Base} {fields : SignedFields} {chunks : List Chunk}
    {blocks : List Block} {s : Stream env} (h : Trail base fields chunks blocks s)
    (c : Chunk) (hash : Digest) :
    Trail base fields chunks blocks
      { s with
        lastChunkIndex := c.descriptor.index
        lastChunkBlock := c.descriptor
        lastChunkOffset := c.offset
        lastChunkSize := c.bytes.length
        lastChunkFinal := c.final
        lastChunkHash := hash
        lastChunkValid := true } :=
  ⟨h.fields_eq, h.tiled, h.index, h.rawOffset, h.encodedOffset, h.imageHash, h.payloadHash,
    h.complete, h.output, h.payload, h.chain, h.heads, h.own, h.owner, h.placed, fun hactive =>
      have hopened := h.opened hactive
      ⟨hopened.index, hopened.rawOffset, hopened.encodedOffset, hopened.expected,
        hopened.produced, hopened.taken, hopened.room⟩⟩

/-- What `keemash_ota_v3_stream_feed` can do with a chunk. -/
inductive FeedResult (outputFn : OutputFn) (s : Stream env) (c : Chunk) :
    EspErr × Stream env → Prop where
  | refused : FeedResult outputFn s c (.invalidArg, s)
  | repeated (hplace : s.isRepeat c = true) : FeedResult outputFn s c (.ok, s)
  | failed {err : EspErr} {s' : Stream env} (herr : err ≠ .ok) (hfailed : s'.failed = true) :
      FeedResult outputFn s c (err, s')
  | taken (hplace : s.isRepeat c = false) (hbytes : 0 < c.bytes.length)
      (hopen : (openBlock s c.descriptor c.offset).1 = .ok)
      (hinflate : (inflateChunk outputFn (openBlock s c.descriptor c.offset).2 c.offset c.bytes
        c.final).1 = .ok) :
      FeedResult outputFn s c (.ok,
        { (inflateChunk outputFn (openBlock s c.descriptor c.offset).2 c.offset c.bytes
            c.final).2 with
          lastChunkIndex := c.descriptor.index
          lastChunkBlock := c.descriptor
          lastChunkOffset := c.offset
          lastChunkSize := c.bytes.length
          lastChunkFinal := c.final
          lastChunkHash := env.sha256 c.bytes
          lastChunkValid := true })

theorem streamFeed_result (outputFn : OutputFn) (s : Stream env) (c : Chunk) :
    FeedResult outputFn s c (streamFeed outputFn s c) := by
  simp only [streamFeed]
  split
  · exact .refused
  · next hguard =>
      have hbytes : 0 < c.bytes.length := by
        simp only [not_or] at hguard
        exact Nat.pos_of_ne_zero hguard.2.2.1
      split
      · next hplace =>
          split
          · exact .repeated hplace
          · exact .failed (by simp) rfl
      · next hplace =>
          split
          · next herr => exact .failed herr rfl
          · next hopen =>
              split
              · next herr => exact .failed herr rfl
              · next hinflate =>
                  exact .taken (by simpa using hplace) hbytes (by simpa using hopen)
                    (by simpa using hinflate)

theorem admitCall_ok (chunks : List Chunk) (c : Chunk) :
    admitCall chunks (.feed c) .ok = admitChunk chunks c := rfl

/-- A chunk at the place the stream remembers is not a new one. -/
theorem Remembers.admitChunk_repeat {chunks : List Chunk} {s : Stream env}
    (h : Remembers chunks s) {c : Chunk} (hplace : s.isRepeat c = true) :
    admitChunk chunks c = chunks := by
  simp only [Stream.isRepeat, decide_eq_true_eq] at hplace
  obtain ⟨last, hlast, hindex, hoffset⟩ := h.valid hplace.1
  simp [admitChunk, hlast, ← hindex, ← hoffset, hplace.2.1, hplace.2.2]

theorem Remembers.admitChunk_new {chunks : List Chunk} {s : Stream env}
    (h : Remembers chunks s) {c : Chunk} (hplace : s.isRepeat c = false) :
    admitChunk chunks c = chunks ++ [c] := by
  cases hvalid : s.lastChunkValid with
  | false => simp [admitChunk, h.none hvalid]
  | true =>
      obtain ⟨last, hlast, hindex, hoffset⟩ := h.valid hvalid
      have hno : ¬(last.descriptor.index = c.descriptor.index ∧ last.offset = c.offset) := by
        intro hsame
        simp only [Stream.isRepeat, decide_eq_false_iff_not] at hplace
        exact hplace ⟨hvalid, hsame.1.symm.trans hindex.symm, hsame.2.symm.trans hoffset.symm⟩
      rw [admitChunk, hlast, Option.any_some, if_neg (by simpa using hno)]

/-- A feed fails the stream or keeps the trail, over the distinct chunks. -/
theorem streamFeed_trail {base : Base} {fields : SignedFields} {chunks : List Chunk}
    {blocks : List Block} {s : Stream env} (h : Trail base fields chunks blocks s)
    (hlast : Remembers chunks s) (outputFn : OutputFn) (c : Chunk) :
    (streamFeed outputFn s c).2.failed = true ∨
      ∃ blocks', Trail base fields (admitCall chunks (.feed c) (streamFeed outputFn s c).1)
          blocks' (streamFeed outputFn s c).2 ∧
        Remembers (admitCall chunks (.feed c) (streamFeed outputFn s c).1)
          (streamFeed outputFn s c).2 := by
  have hresult := streamFeed_result outputFn s c
  generalize streamFeed outputFn s c = result at hresult ⊢
  cases hresult with
  | refused => exact Or.inr ⟨blocks, h, hlast⟩
  | repeated hplace =>
      rw [admitCall_ok, hlast.admitChunk_repeat hplace]
      exact Or.inr ⟨blocks, h, hlast⟩
  | failed herr hfailed => exact Or.inl hfailed
  | taken hplace hbytes hopen hinflate =>
      rw [admitCall_ok, hlast.admitChunk_new hplace]
      obtain ⟨hopened, hactive, hblock⟩ := h.openBlock hopen
      obtain ⟨blocks', htook⟩ := hopened.inflateChunk hactive hblock hbytes hinflate
      refine Or.inr ⟨blocks', htook.remember c (env.sha256 c.bytes), ?_, ?_⟩
      · intro _
        exact ⟨c, by simp, rfl, rfl⟩
      · intro hno
        cases hno

/-- A stream that has failed stays failed and puts nothing out. -/
theorem run_failed (outputFn : OutputFn) {s : Stream env} (h : s.failed = true)
    (call : StreamCall) : (call.run outputFn s).1 ≠ .ok ∧ (call.run outputFn s).2 = s := by
  cases call <;> simp [StreamCall.run, streamFeed, streamFinish, h]

/-- What finishing a stream found right. -/
theorem streamFinish_ok {s : Stream env} (h : (streamFinish s).1 = .ok) :
    s.failed = false ∧ s.blockActive = false ∧ s.nextBlockIndex = s.fields.blockCount ∧
      s.rawOffset = s.fields.rawSize ∧ s.encodedOffset = s.fields.encodedSize ∧
      env.sha256 s.imageHash = s.fields.imageSha256 ∧
      (s.payloadHashComplete = true → env.sha256 s.payloadHash = s.fields.encodedSha256) ∧
      s.blockChain = s.fields.blockTableSha256 := by
  simp only [streamFinish] at h
  split at h
  · cases h
  · next hstate =>
      split at h
      · cases h
      · next hhash =>
          simp only [not_or, not_and, ne_eq, Decidable.not_not, Bool.not_eq_true] at hstate hhash
          obtain ⟨hfailed, -, hactive, hcount, hraw, hencoded⟩ := hstate
          exact ⟨hfailed, hactive, hcount, hraw, hencoded, hhash⟩

/-- Finishing fails the stream or keeps the trail. -/
theorem streamFinish_trail {base : Base} {fields : SignedFields} {chunks : List Chunk}
    {blocks : List Block} {s : Stream env} (h : Trail base fields chunks blocks s)
    (hlast : Remembers chunks s) :
    (streamFinish s).2.failed = true ∨
      Trail base fields chunks blocks (streamFinish s).2 ∧
        Remembers chunks (streamFinish s).2 := by
  simp only [streamFinish]
  split
  · exact Or.inr ⟨h, hlast⟩
  · split
    · exact Or.inl rfl
    · refine Or.inr ⟨⟨h.fields_eq, h.tiled, h.index, h.rawOffset, h.encodedOffset, h.imageHash,
        h.payloadHash, h.complete, h.output, h.payload, h.chain, h.heads, h.own, h.owner, h.placed, ?_⟩,
        hlast.valid, hlast.none⟩
      intro hactive
      have hopened := h.opened hactive
      exact ⟨hopened.index, hopened.rawOffset, hopened.encodedOffset, hopened.expected,
        hopened.produced, hopened.taken, hopened.room⟩

/-- Every stream reached by calls has failed or has a trail over the distinct
chunks that were accepted. -/
theorem runStream_trail {base : Base} {fields : SignedFields} {s : Stream env}
    (h : Trail base fields [] [] s) (hlast : s.lastChunkValid = false) (outputFn : OutputFn)
    (calls : List StreamCall) :
    (runStream outputFn s calls).failed = true ∨
      ∃ blocks, Trail base fields (accepted outputFn s calls) blocks
          (runStream outputFn s calls) ∧
        Remembers (accepted outputFn s calls) (runStream outputFn s calls) := by
  induction calls using List.reverseRecOn with
  | nil =>
      refine Or.inr ⟨[], h, fun hvalid => ?_, fun _ => rfl⟩
      change s.lastChunkValid = true at hvalid
      rw [hlast] at hvalid
      cases hvalid
  | append_singleton calls call ih =>
      rw [runStream_snoc, accepted_snoc]
      rcases ih with hfailed | ⟨blocks, htrail, hmem⟩
      · rw [(run_failed outputFn hfailed call).2]
        exact Or.inl hfailed
      · cases call with
        | feed c => exact streamFeed_trail htrail hmem outputFn c
        | finish =>
            rcases streamFinish_trail htrail hmem with hfailed | ⟨htrail', hmem'⟩
            · exact Or.inl hfailed
            · exact Or.inr ⟨blocks, htrail', hmem'⟩

/-! ## Finishing -/

/-- The bytes of block `n` stand after those of the blocks before it. -/
theorem flatten_slice (f : Block → Bytes) {blocks : List Block} {n : ℕ} {b : Block}
    (h : blocks[n]? = some b) :
    ((blocks.map f).flatten.drop ((blocks.take n).map f).flatten.length).take (f b).length =
      f b := by
  obtain ⟨hlt, hget⟩ := List.getElem?_eq_some_iff.mp h
  have hsplit : blocks = blocks.take n ++ b :: blocks.drop (n + 1) := by
    rw [← hget, List.getElem_cons_drop, List.take_append_drop]
  have hflat : (blocks.map f).flatten =
      ((blocks.take n).map f).flatten ++ (f b ++ ((blocks.drop (n + 1)).map f).flatten) := by
    conv_lhs => rw [hsplit]
    simp
  rw [hflat, List.drop_left, List.take_left]

/-- The sizes in sealed descriptors add up to the bytes of their blocks. -/
theorem Tiled.sum_rawSize {base : Base} {blocks : List Block} (h : Tiled env base blocks)
    (n : ℕ) :
    (((descriptorsOf blocks).take n).map BlockDescriptor.rawSize).sum =
      (rawOf (blocks.take n)).length := by
  rw [descriptorsOf, ← List.map_take, List.map_map, rawOf, List.length_flatten, List.map_map]
  congr 1
  refine List.map_congr_left fun b hb => ?_
  obtain ⟨i, hi⟩ := List.getElem?_of_mem (List.mem_of_mem_take hb)
  exact (h i b hi).1.raw_length.symm

theorem Tiled.sum_encodedSize {base : Base} {blocks : List Block} (h : Tiled env base blocks)
    (n : ℕ) :
    (((descriptorsOf blocks).take n).map BlockDescriptor.encodedSize).sum =
      (encodedOf (blocks.take n)).length := by
  rw [descriptorsOf, ← List.map_take, List.map_map, encodedOf, List.length_flatten,
    List.map_map]
  congr 1
  refine List.map_congr_left fun b hb => ?_
  obtain ⟨i, hi⟩ := List.getElem?_of_mem (List.mem_of_mem_take hb)
  exact (h i b hi).1.encoded_length.symm

/-- What is known of the bytes put out and the chunks taken in by a stream that
has finished. -/
structure Verified (env : OtaEnv) (fields : SignedFields) (output : Bytes)
    (chunks : List Chunk) : Prop where
  raw_length : output.length = fields.rawSize
  raw_hash : env.sha256 output = fields.imageSha256
  encoded_length : (payloadOf chunks).length = fields.encodedSize
  encoded_hash : env.sha256 (payloadOf chunks) = fields.encodedSha256
  count : (headsOf chunks).length = fields.blockCount
  chain : chainOf env zeroDigest (headsOf chunks) = fields.blockTableSha256
  owner : ∀ c ∈ chunks, (headsOf chunks)[c.descriptor.index]? = some c.descriptor
  tiles : ∀ n d, (headsOf chunks)[n]? = some d → d.index = n ∧
    d.rawOffset = (((headsOf chunks).take n).map BlockDescriptor.rawSize).sum ∧
    d.encodedOffset = (((headsOf chunks).take n).map BlockDescriptor.encodedSize).sum
  raw_block : ∀ d ∈ headsOf chunks,
    ((output.drop d.rawOffset).take d.rawSize).length = d.rawSize ∧
      (env.sha256 ((output.drop d.rawOffset).take d.rawSize)).toList = d.rawSha256
  encoded_block : ∀ d ∈ headsOf chunks,
    (payloadOf (chunksOf d.index chunks)).length = d.encodedSize ∧
      payloadOf (chunksOf d.index chunks) =
        ((payloadOf chunks).drop d.encodedOffset).take d.encodedSize ∧
      (env.sha256 (payloadOf (chunksOf d.index chunks))).toList = d.encodedSha256

/-- The trail of a stream that finishes and hashed its whole payload. -/
theorem Trail.verified {fields : SignedFields} {chunks : List Chunk} {blocks : List Block}
    {s : Stream env} (h : Trail Base.start fields chunks blocks s)
    (hcomplete : s.payloadHashComplete = true) (hok : (streamFinish s).1 = .ok) :
    Verified env fields s.sent.flatten chunks := by
  obtain ⟨-, hidle, hcount, hraw, hencoded, himage, hpayload, hchain⟩ := streamFinish_ok hok
  have hparts := Stream.parts_idle hidle blocks
  have hfields := h.fields_eq
  subst hfields
  have hheads : headsOf chunks = descriptorsOf blocks := by
    rw [h.heads, hidle]
    simp
  have houtput : s.sent.flatten = rawOf blocks := by rw [h.output, hparts]
  have hbytes : payloadOf chunks = encodedOf blocks := by rw [h.payload, hparts]
  have hblock {n : ℕ} {d : BlockDescriptor} (hd : (headsOf chunks)[n]? = some d) :
      ∃ b, blocks[n]? = some b ∧ b.descriptor = d := by
    rw [hheads, descriptorsOf, List.getElem?_map, Option.map_eq_some_iff] at hd
    exact hd
  refine ⟨?_, ?_, ?_, ?_, ?_, ?_, fun c hc => ?_, fun n d hd => ?_, fun d hd => ?_,
    fun d hd => ?_⟩
  · rw [houtput, ← hraw, h.rawOffset]
    exact (Nat.zero_add _).symm
  · rw [← himage, h.imageHash]
    rfl
  · rw [hbytes, ← hencoded, h.encodedOffset]
    exact (Nat.zero_add _).symm
  · rw [← hpayload hcomplete, h.payloadHash]
  · rw [hheads, ← hcount, h.index, descriptorsOf, List.length_map]
    exact (Nat.zero_add _).symm
  · rw [hheads, ← hchain, h.chain, hparts]
    rfl
  · obtain ⟨n, b, hn, hb, hd⟩ := h.owner c hc
    rw [hparts] at hb
    rw [hn, hheads, descriptorsOf, List.getElem?_map]
    change (blocks[0 + n]?).map _ = _
    rw [Nat.zero_add, hb, Option.map_some, hd]
  · obtain ⟨b, hb, rfl⟩ := hblock hd
    obtain ⟨-, hindex, hrawOffset, hencodedOffset⟩ := h.tiled n b hb
    rw [hheads, h.tiled.sum_rawSize, h.tiled.sum_encodedSize, hindex, hrawOffset,
      hencodedOffset]
    simp [Base.start]
  · obtain ⟨n, hn⟩ := List.getElem?_of_mem hd
    obtain ⟨b, hb, rfl⟩ := hblock hn
    obtain ⟨hsealed, -, hrawOffset, -⟩ := h.tiled n b hb
    have hslice : (s.sent.flatten.drop b.descriptor.rawOffset).take b.descriptor.rawSize =
        b.raw := by
      have hzero : b.descriptor.rawOffset = (rawOf (blocks.take n)).length := by
        rw [hrawOffset]
        exact Nat.zero_add _
      rw [houtput, hzero, ← hsealed.raw_length]
      exact flatten_slice Block.raw hb
    rw [hslice]
    exact ⟨hsealed.raw_length, hsealed.raw_hash⟩
  · obtain ⟨n, hn⟩ := List.getElem?_of_mem hd
    obtain ⟨b, hb, rfl⟩ := hblock hn
    obtain ⟨hsealed, hindex, -, hencodedOffset⟩ := h.tiled n b hb
    have hown : payloadOf (chunksOf b.descriptor.index chunks) = b.encoded := by
      rw [hindex]
      exact h.own n b (by rw [hparts]; exact hb)
    have hslice : ((payloadOf chunks).drop b.descriptor.encodedOffset).take
        b.descriptor.encodedSize = b.encoded := by
      have hzero : b.descriptor.encodedOffset = (encodedOf (blocks.take n)).length := by
        rw [hencodedOffset]
        exact Nat.zero_add _
      rw [hbytes, hzero, ← hsealed.encoded_length]
      exact flatten_slice Block.encoded hb
    rw [hown, hslice]
    exact ⟨hsealed.encoded_length, rfl, hsealed.encoded_hash⟩

/-- A field of a protobuf message, left out when it is zero. -/
def varintField (field value : ℕ) : Bytes :=
  if value = 0 then [] else encodeVarint (8 * field) ++ encodeVarint value

def bytesField (field : ℕ) (bytes : Bytes) : Bytes :=
  if bytes = [] then [] else
    encodeVarint (8 * field + 2) ++ encodeVarint bytes.length ++ bytes

/-- The protobuf encoding of a descriptor. -/
def protoDescriptor (d : BlockDescriptor) : Bytes :=
  varintField 1 d.index ++ varintField 2 d.rawOffset ++ varintField 3 d.rawSize ++
    varintField 4 d.encodedOffset ++ varintField 5 d.encodedSize ++ varintField 6 d.kind ++
    bytesField 7 d.rawSha256 ++ bytesField 8 d.encodedSha256

/-- Raw inflate of a stream that is a single stored block, given whole. -/
def storedInflate (input : Bytes) (room : ℕ) (final : Bool) : ZStep Unit :=
  match input with
  | 1 :: lo :: hi :: lo' :: hi' :: bytes =>
      if final ∧ bytes.length = lo.toNat + 256 * hi.toNat ∧ lo' = ~~~lo ∧ hi' = ~~~hi ∧
          bytes.length ≤ room then
        ⟨(), bytes.length + 5, bytes, .streamEnd⟩
      else
        ⟨(), 0, [], .failed⟩
  | _ => ⟨(), 0, [], .failed⟩

def storedZlib : Zlib where
  State := Unit
  init := ()
  inflate := fun _ input room final => storedInflate input room final
  consumed_le := fun _ input room final => by
    simp only [storedInflate]
    split
    · split <;> simp
    · simp
  produced_le := fun _ input room final => by
    simp only [storedInflate]
    split
    · split
      · next h => exact h.2.2.2.2
      · simp
    · simp

/-- The image of the single byte `A`. -/
def letterRaw : Bytes := [0x41]

/-- The image as a stored block. -/
def letterEncoded : Bytes := [0x01, 0x01, 0x00, 0xfe, 0xff, 0x41]

def letterRawSha256 : Digest :=
  #v[85, 154, 234, 208, 130, 100, 213, 121, 93, 57, 9, 113, 140, 221, 5, 171,
    212, 149, 114, 232, 79, 229, 85, 144, 238, 243, 26, 136, 160, 143, 223, 253]

def letterEncodedSha256 : Digest :=
  #v[52, 127, 213, 129, 137, 46, 255, 24, 241, 132, 154, 207, 125, 107, 117, 227,
    160, 240, 171, 57, 21, 210, 255, 48, 67, 104, 204, 246, 32, 45, 147, 147]

def letterChainSha256 : Digest :=
  #v[169, 180, 121, 33, 38, 241, 145, 5, 38, 0, 36, 53, 85, 233, 36, 45,
    202, 60, 227, 149, 155, 126, 148, 244, 207, 233, 232, 160, 62, 102, 113, 3]

def letterBlock : BlockDescriptor where
  index := 0
  rawOffset := 0
  rawSize := 1
  encodedOffset := 0
  encodedSize := 6
  kind := blockDeflate
  rawSha256 := letterRawSha256.toList
  encodedSha256 := letterEncodedSha256.toList

/-- The bytes that the hash chain of the image covers. -/
def letterChained : Bytes :=
  zeroDigest.toList ++ encodeVarint (protoDescriptor letterBlock).length ++
    protoDescriptor letterBlock

/-- SHA-256 on the three inputs that the image needs. -/
def letterSha256 (bytes : Bytes) : Digest :=
  if bytes = letterRaw then letterRawSha256
  else if bytes = letterEncoded then letterEncodedSha256
  else if bytes = letterChained then letterChainSha256
  else zeroDigest

def letterEnv : OtaEnv where
  interval := 65536
  interval_pos := defaultInterval_pos
  interval_aligned := defaultInterval_aligned
  deltaExperimental := false
  sha256 := letterSha256
  encodeDescriptor := protoDescriptor
  decodeSignedFields := fun _ => none
  publicKey := .error .notSupported
  importKey := fun _ => false
  verifyHash := fun _ _ _ => false
  zlib := storedZlib

def letterFields : SignedFields where
  schemaVersion := 1
  projectName := [0x70]
  chipTarget := [0x63]
  firmwareVersion := []
  buildCommit := []
  signingKeyId := [0x6b]
  minimumCoreVersion := 0
  minimumFabricSchema := 0
  rawSize := 1
  encodedSize := 6
  requiredAppSlotSize := 1
  codec := codecFullDeflate
  blockSize := fullBlockSize
  blockCount := 1
  deflateWindowBits := 11
  imageSha256 := letterRawSha256
  encodedSha256 := letterEncodedSha256
  blockTableSha256 := letterChainSha256
  baseImageSha256 := zeroDigest
  hasBaseImage := false

end KeemashCore.OtaV3

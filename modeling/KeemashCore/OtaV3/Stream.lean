import KeemashCore.OtaV3.Artifact

/-!
# The stream validator

`keemash_ota_v3_inflate.c` and `keemash_ota_v3_stream.c`.  A hash context is the
list of bytes it has been fed.  The output callback sees the pieces it was given
before and the new piece, and answers with a result code; `sent` records the
pieces.
-/

namespace KeemashCore.OtaV3

variable (env : OtaEnv)

/-! ## Inflating a block -/

/-- `keemash_ota_v3_inflater_t`. -/
structure Inflater where
  stream : env.zlib.State
  expectedRawSize : ℕ
  producedRawSize : ℕ
  active : Bool

def Inflater.idle : Inflater env where
  stream := env.zlib.init
  expectedRawSize := 0
  producedRawSize := 0
  active := false

/-- `keemash_ota_v3_inflater_begin`. -/
def inflaterBegin (inflater : Inflater env) (expectedRawSize : ℕ) : EspErr × Inflater env :=
  if expectedRawSize = 0 ∨ expectedRawSize > fullBlockSize then
    (.invalidArg, inflater)
  else
    (.ok, { Inflater.idle env with expectedRawSize := expectedRawSize, active := true })

/-- `keemash_ota_v3_inflater_end`. -/
def Inflater.finish {env : OtaEnv} (inflater : Inflater env) : Inflater env :=
  { inflater with active := false }

/-- One turn of the loop of `keemash_ota_v3_inflater_feed`: it returns, or goes
on with the rest of the input. -/
inductive Pass (σ : Type) where
  | stop (err : EspErr) (inflater : Inflater env) (sink : σ)
  | more (inflater : Inflater env) (rest : Bytes) (sink : σ)

/-- Hand a piece to the output callback, which is not called for an empty one. -/
def emitPiece {σ : Type} (output : σ → Bytes → EspErr × σ) (sink : σ) (produced : Bytes) :
    EspErr × σ :=
  if produced = [] then (.ok, sink) else output sink produced

/-- How the loop ends once a piece is out, if it does; `complete` says that the
block has its size. -/
def passVerdict (final : Bool) (step : ZStep env.zlib.State) (rest : Bytes)
    (complete : Bool) : Option EspErr :=
  if step.result = .streamEnd then
    some (if !final ∨ rest ≠ [] ∨ !complete then .invalidResponse else .ok)
  else if step.result = .failed then
    some .invalidResponse
  else if step.consumed = 0 ∧ step.produced = [] then
    some (if final then .invalidResponse else .ok)
  else if !final ∧ rest = [] ∧ step.produced = [] then
    some .ok
  else if !final ∧ rest = [] ∧ step.produced.length ≠ inflateOutputBytes then
    some .ok
  else
    none

/-- The body of the loop; `sink` is what the output callback changes. -/
def inflaterPass {σ : Type} (output : σ → Bytes → EspErr × σ) (final : Bool)
    (inflater : Inflater env) (input : Bytes) (sink : σ) : Pass env σ :=
  let step := env.zlib.inflate inflater.stream input inflateOutputBytes final
  let rest := input.drop step.consumed
  let moved : Inflater env := { inflater with stream := step.stream }
  if step.produced.length > inflater.expectedRawSize - inflater.producedRawSize then
    .stop .invalidSize moved sink
  else
    let emitted := emitPiece output sink step.produced
    if emitted.1 ≠ .ok then
      .stop emitted.1 moved emitted.2
    else
      let counted : Inflater env :=
        { moved with producedRawSize := inflater.producedRawSize + step.produced.length }
      match passVerdict env final step rest
          (counted.producedRawSize = counted.expectedRawSize) with
      | some err => .stop err counted emitted.2
      | none => .more counted rest emitted.2

theorem passVerdict_none {final : Bool} {step : ZStep env.zlib.State} {rest : Bytes}
    {complete : Bool} (h : passVerdict env final step rest complete = none) :
    0 < step.consumed ∨ 0 < step.produced.length := by
  by_contra hno
  have hstuck : step.consumed = 0 ∧ step.produced = [] := by
    rw [← List.length_eq_zero_iff]
    omega
  simp only [passVerdict, if_pos hstuck] at h
  split at h
  · cases h
  · split at h <;> cases h

/-- A turn that goes on has consumed input or filled some of the block. -/
theorem inflaterPass_more {σ : Type} {output : σ → Bytes → EspErr × σ} {final : Bool}
    {i i' : Inflater env} {input rest : Bytes} {sink sink' : σ}
    (h : inflaterPass env output final i input sink = .more i' rest sink') :
    rest.length + (i'.expectedRawSize - i'.producedRawSize) <
      input.length + (i.expectedRawSize - i.producedRawSize) := by
  have hconsumed := env.zlib.consumed_le i.stream input inflateOutputBytes final
  simp only [inflaterPass] at h
  split at h
  · cases h
  · next hfit =>
      split at h
      · cases h
      · split at h
        · cases h
        · next hnone =>
            have hmoved := passVerdict_none env hnone
            simp only [Pass.more.injEq] at h
            obtain ⟨rfl, rfl, -⟩ := h
            rw [List.length_drop]
            dsimp only
            omega

/-- The loop of `keemash_ota_v3_inflater_feed`. -/
def inflaterLoop {σ : Type} (output : σ → Bytes → EspErr × σ) (final : Bool)
    (inflater : Inflater env) (input : Bytes) (sink : σ) : EspErr × Inflater env × σ :=
  match _h : inflaterPass env output final inflater input sink with
  | .stop err inflater' sink' => (err, inflater', sink')
  | .more inflater' rest sink' => inflaterLoop output final inflater' rest sink'
  termination_by input.length + (inflater.expectedRawSize - inflater.producedRawSize)
  decreasing_by exact inflaterPass_more env _h

/-- `keemash_ota_v3_inflater_feed`. -/
def inflaterFeed {σ : Type} (output : σ → Bytes → EspErr × σ) (inflater : Inflater env)
    (encoded : Bytes) (final : Bool) (sink : σ) : EspErr × Inflater env × σ :=
  if inflater.active = false then
    (.invalidArg, inflater, sink)
  else
    inflaterLoop env output final inflater encoded sink

/-! ## The stream -/

/-- `keemash_ota_v3_stream_t`, with the pieces passed to the output callback. -/
structure Stream where
  fields : SignedFields
  inflater : Inflater env
  imageHash : Bytes
  payloadHash : Bytes
  blockRawHash : Bytes
  blockEncodedHash : Bytes
  block : BlockDescriptor
  lastChunkBlock : BlockDescriptor
  blockChain : Digest
  lastChunkHash : Digest
  rawOffset : ℕ
  encodedOffset : ℕ
  blockEncodedOffset : ℕ
  nextBlockIndex : ℕ
  lastChunkIndex : ℕ
  lastChunkOffset : ℕ
  lastChunkSize : ℕ
  blockActive : Bool
  lastChunkValid : Bool
  lastChunkFinal : Bool
  failed : Bool
  finished : Bool
  payloadHashComplete : Bool
  sent : List Bytes

/-- A descriptor as `memset` leaves it. -/
def BlockDescriptor.zero : BlockDescriptor where
  index := 0
  rawOffset := 0
  rawSize := 0
  encodedOffset := 0
  encodedSize := 0
  kind := 0
  rawSha256 := []
  encodedSha256 := []

/-- The state that `keemash_ota_v3_stream_begin` sets up. -/
def Stream.fresh (fields : SignedFields) : Stream env where
  fields := fields
  inflater := Inflater.idle env
  imageHash := []
  payloadHash := []
  blockRawHash := []
  blockEncodedHash := []
  block := BlockDescriptor.zero
  lastChunkBlock := BlockDescriptor.zero
  blockChain := zeroDigest
  lastChunkHash := zeroDigest
  rawOffset := 0
  encodedOffset := 0
  blockEncodedOffset := 0
  nextBlockIndex := 0
  lastChunkIndex := 0
  lastChunkOffset := 0
  lastChunkSize := 0
  blockActive := false
  lastChunkValid := false
  lastChunkFinal := false
  failed := false
  finished := false
  payloadHashComplete := true
  sent := []

/-- What the output callback answers, given the pieces before and the new piece. -/
abbrev OutputFn := List Bytes → Bytes → EspErr

/-- What a read of `length` bytes at an offset returns. -/
abbrev ReadFn := (offset length : ℕ) → Except EspErr (Vector UInt8 length)

variable {env}

/-- `stream_fail`. -/
def Stream.fail (s : Stream env) : Stream env :=
  { s with failed := true, inflater := s.inflater.finish, blockActive := false }

/-- `stream_output`. -/
def streamOutput (outputFn : OutputFn) (s : Stream env) (bytes : Bytes) :
    EspErr × Stream env :=
  (outputFn s.sent bytes,
    { s with
      blockRawHash := s.blockRawHash ++ bytes
      imageHash := s.imageHash ++ bytes
      sent := s.sent ++ [bytes] })

/-- `keemash_ota_v3_stream_begin`. -/
def streamBegin (fields : SignedFields) : Except EspErr (Stream env) :=
  if fields.codec ≠ codecFullDeflate ∨ fields.blockSize ≠ fullBlockSize ∨
      fields.blockCount = 0 then
    .error .invalidArg
  else
    .ok (Stream.fresh env fields)

/-- The loop of `keemash_ota_v3_stream_resume` that hashes the `left` bytes from
`offset` on. -/
def readBack (readFn : ReadFn) (offset left : ℕ) (hashed : Bytes) : Except EspErr Bytes :=
  if left = 0 then
    .ok hashed
  else
    let length := min left inflateOutputBytes
    match readFn offset length with
    | .error err => .error err
    | .ok buffer => readBack readFn (offset + length) (left - length) (hashed ++ buffer.toList)
  termination_by left
  decreasing_by
    have hpos : 0 < inflateOutputBytes := by decide
    omega

/-- `keemash_ota_v3_stream_resume`. -/
def streamResume (fields : SignedFields) (point : ResumePoint) (readFn : ReadFn) :
    Except EspErr (Stream env) :=
  if point.nextBlockIndex = 0 ∨ point.nextBlockIndex ≥ fields.blockCount ∨
      point.nextBlockIndex * fields.blockSize ≠ point.rawOffset ∨
      point.rawOffset ≥ fields.rawSize ∨ point.encodedOffset = 0 ∨
      point.encodedOffset ≥ fields.encodedSize then
    .error .invalidArg
  else
    match (streamBegin fields : Except EspErr (Stream env)) with
    | .error err => .error err
    | .ok s =>
        match readBack readFn 0 point.rawOffset [] with
        | .error err => .error err
        | .ok hashed =>
            if env.sha256 hashed ≠ point.imagePrefixSha256 then
              .error .invalidCrc
            else
              .ok
                { s with
                  imageHash := hashed
                  nextBlockIndex := point.nextBlockIndex
                  rawOffset := point.rawOffset
                  encodedOffset := point.encodedOffset
                  blockChain := point.blockChain
                  payloadHashComplete := false }

/-- `keemash_ota_v3_stream_checkpoint`. -/
def streamCheckpoint (s : Stream env) : Except EspErr ResumePoint :=
  if s.failed ∨ s.finished ∨ s.blockActive ∨ s.nextBlockIndex = 0 ∨
      s.nextBlockIndex ≥ s.fields.blockCount ∨ s.rawOffset % env.interval ≠ 0 then
    .error .invalidState
  else
    .ok
      { nextBlockIndex := s.nextBlockIndex
        rawOffset := s.rawOffset
        encodedOffset := s.encodedOffset
        blockChain := s.blockChain
        imagePrefixSha256 := env.sha256 s.imageHash }

/-- `same_descriptor`. -/
def sameDescriptor (a b : BlockDescriptor) : Bool :=
  a.index = b.index ∧ a.rawOffset = b.rawOffset ∧ a.encodedOffset = b.encodedOffset ∧
    a.rawSize = b.rawSize ∧ a.encodedSize = b.encodedSize ∧ a.kind = b.kind ∧
    a.rawSha256.length = 32 ∧ b.rawSha256.length = 32 ∧ a.encodedSha256.length = 32 ∧
    b.encodedSha256.length = 32 ∧ a.rawSha256 = b.rawSha256 ∧
    a.encodedSha256 = b.encodedSha256

/-- `start_block`. -/
def startBlock (s : Stream env) (descriptor : BlockDescriptor) : EspErr × Stream env :=
  match checkBlockDescriptor env s.fields descriptor s.nextBlockIndex s.rawOffset
      s.encodedOffset s.blockChain with
  | .error err => (err, s)
  | .ok nextChain =>
      if descriptor.kind ≠ blockDeflate then
        (.notSupported, s)
      else
        let opened : Stream env :=
          { s with
            block := descriptor
            blockChain := nextChain
            blockEncodedOffset := 0
            blockRawHash := []
            blockEncodedHash := [] }
        let begun := inflaterBegin env s.inflater descriptor.rawSize
        (begun.1, { opened with inflater := begun.2, blockActive := decide (begun.1 = .ok) })

/-- `finish_block`. -/
def finishBlock (s : Stream env) : EspErr × Stream env :=
  if (env.sha256 s.blockRawHash).toList ≠ s.block.rawSha256 ∨
      (env.sha256 s.blockEncodedHash).toList ≠ s.block.encodedSha256 then
    (.invalidCrc, s)
  else
    (.ok,
      { s with
        rawOffset := s.rawOffset + s.block.rawSize
        encodedOffset := s.encodedOffset + s.block.encodedSize
        blockEncodedOffset := 0
        nextBlockIndex := s.nextBlockIndex + 1
        blockActive := false
        inflater := s.inflater.finish })

/-- The part of `keemash_ota_v3_stream_feed` that opens a block or checks that
the chunk belongs to the open one. -/
def openBlock (s : Stream env) (descriptor : BlockDescriptor) (blockEncodedOffset : ℕ) :
    EspErr × Stream env :=
  if s.blockActive = false then
    if blockEncodedOffset ≠ 0 then (.invalidArg, s) else startBlock s descriptor
  else if sameDescriptor s.block descriptor then
    (.ok, s)
  else
    (.invalidArg, s)

/-- The chunk is hashed. -/
def Stream.hashChunk (s : Stream env) (chunk : Bytes) : Stream env :=
  { s with
    blockEncodedHash := s.blockEncodedHash ++ chunk
    payloadHash := s.payloadHash ++ chunk }

/-- The part of `keemash_ota_v3_stream_feed` that inflates a hashed chunk. -/
def takeChunk (outputFn : OutputFn) (s : Stream env) (chunk : Bytes) (final : Bool) :
    EspErr × Stream env :=
  let (err, inflater, s') :=
    inflaterFeed env (streamOutput outputFn) s.inflater chunk final s
  let fed : Stream env := { s' with inflater := inflater }
  if err ≠ .ok then
    (err, fed)
  else
    let counted : Stream env :=
      { fed with blockEncodedOffset := fed.blockEncodedOffset + chunk.length }
    if final then finishBlock counted else (.ok, counted)

/-- The part of `keemash_ota_v3_stream_feed` that checks where the chunk stands
and takes it in. -/
def inflateChunk (outputFn : OutputFn) (s : Stream env) (blockEncodedOffset : ℕ)
    (chunk : Bytes) (final : Bool) : EspErr × Stream env :=
  let room := s.block.encodedSize - s.blockEncodedOffset
  if blockEncodedOffset ≠ s.blockEncodedOffset ∨ chunk.length > room ∨
      final ≠ decide (chunk.length = room) then
    (.invalidSize, s)
  else
    takeChunk outputFn (s.hashChunk chunk) chunk final

/-- A chunk as the caller passes it. -/
structure Chunk where
  descriptor : BlockDescriptor
  offset : ℕ
  bytes : Bytes
  final : Bool
  deriving DecidableEq

/-- The chunk has the place of the last one accepted. -/
def Stream.isRepeat (s : Stream env) (c : Chunk) : Bool :=
  s.lastChunkValid ∧ c.descriptor.index = s.lastChunkIndex ∧ c.offset = s.lastChunkOffset

/-- The chunk is the last one accepted, sent again. -/
def Stream.sameChunk (s : Stream env) (c : Chunk) : Bool :=
  sameDescriptor s.lastChunkBlock c.descriptor ∧ s.lastChunkSize = c.bytes.length ∧
    s.lastChunkFinal = c.final ∧ s.lastChunkHash = env.sha256 c.bytes

/-- `keemash_ota_v3_stream_feed`. -/
def streamFeed (outputFn : OutputFn) (s : Stream env) (c : Chunk) : EspErr × Stream env :=
  if s.failed ∨ s.finished ∨ c.bytes.length = 0 ∨ c.bytes.length > maxChunkBytes then
    (.invalidArg, s)
  else if s.isRepeat c then
    if s.sameChunk c then (.ok, s) else (.invalidCrc, s.fail)
  else
    let (err, opened) := openBlock s c.descriptor c.offset
    if err ≠ .ok then
      (err, opened.fail)
    else
      let (err, fed) := inflateChunk outputFn opened c.offset c.bytes c.final
      if err ≠ .ok then
        (err, fed.fail)
      else
        (.ok,
          { fed with
            lastChunkIndex := c.descriptor.index
            lastChunkBlock := c.descriptor
            lastChunkOffset := c.offset
            lastChunkSize := c.bytes.length
            lastChunkFinal := c.final
            lastChunkHash := env.sha256 c.bytes
            lastChunkValid := true })

/-- `keemash_ota_v3_stream_finish`. -/
def streamFinish (s : Stream env) : EspErr × Stream env :=
  if s.failed ∨ s.finished ∨ s.blockActive ∨ s.nextBlockIndex ≠ s.fields.blockCount ∨
      s.rawOffset ≠ s.fields.rawSize ∨ s.encodedOffset ≠ s.fields.encodedSize then
    (.invalidState, s)
  else if env.sha256 s.imageHash ≠ s.fields.imageSha256 ∨
      (s.payloadHashComplete ∧ env.sha256 s.payloadHash ≠ s.fields.encodedSha256) ∨
      s.blockChain ≠ s.fields.blockTableSha256 then
    (.invalidCrc, s.fail)
  else
    (.ok, { s with finished := true })

end KeemashCore.OtaV3

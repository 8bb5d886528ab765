import KeemashCore.OtaV3.Resume

/-!
# Chunking and retries

Where a block is cut into chunks, and how often a chunk is sent again, does not show in
the stream that has taken the block.  zlib's `inflate` is a streaming function here: it
stops for want of input or of room, and ends with the last byte.
-/

namespace KeemashCore.OtaV3

variable {env : OtaEnv}

/-! ## A streaming inflater -/

/-- What one call of `inflate` does with `k` bytes of `encoded` from the `n`th on, when
`m` bytes of `raw` are out. -/
structure Streaming {State : Type} (encoded raw : Bytes) (after : ℕ → ℕ → State → Prop)
    (n m k room : ℕ) (step : ZStep State) : Prop where
  output : step.produced = (raw.drop m).take step.produced.length
  moved : after (n + step.consumed) (m + step.produced.length) step.stream
  /-- It goes on until the room or the input is used up. -/
  stops : step.produced.length = room ∨ step.consumed = k
  /-- It ends with the last byte. -/
  ended : step.result = .streamEnd →
    n + step.consumed = encoded.length ∧ m + step.produced.length = raw.length
  ends : n + step.consumed = encoded.length → step.produced.length < room →
    step.result = .streamEnd
  sound : step.result ≠ .failed

/-- `inflate` on `encoded`, in whatever pieces it comes; `after n m` are the states in
which `n` bytes are consumed and `m` are out. -/
structure Zlib.Inflates (zlib : Zlib) (encoded raw : Bytes)
    (after : ℕ → ℕ → zlib.State → Prop) : Prop where
  start : after 0 0 zlib.init
  call : ∀ n m s, after n m s → ∀ k room final, n + k ≤ encoded.length → 0 < room →
    Streaming encoded raw after n m k room
      (zlib.inflate s ((encoded.drop n).take k) room final)

section Inflate

variable {encoded raw : Bytes} {after : ℕ → ℕ → env.zlib.State → Prop}

/-- The inflater has consumed `n` bytes of the block and put out `m`. -/
structure Inflater.At (raw : Bytes) (after : ℕ → ℕ → env.zlib.State → Prop)
    (n m : ℕ) (i : Inflater env) : Prop where
  stream : after n m i.stream
  expected : i.expectedRawSize = raw.length
  produced : i.producedRawSize = m
  active : i.active = true

/-- What the loop does with a part of the block: it takes all of it, and the whole block
is out after the last part. -/
structure Feeds (encoded raw : Bytes) (after : ℕ → ℕ → env.zlib.State → Prop)
    (n m k : ℕ) (i : Inflater env) (pieces : List Bytes) : Prop where
  output : pieces.flatten = (raw.drop m).take pieces.flatten.length
  fed : i.At raw after (n + k) (m + pieces.flatten.length)
  whole : n + k = encoded.length → m + pieces.flatten.length = raw.length

/-- The output callback takes every piece. -/
def OutputFn.Accepts (outputFn : OutputFn) : Prop :=
  ∀ sent bytes, outputFn sent bytes = .ok

theorem emitPiece_accepts {outputFn : OutputFn} (haccepts : outputFn.Accepts) (s : Stream env)
    (produced : Bytes) : ∃ pieces, emitPiece (streamOutput outputFn) s produced =
      (.ok, s.emit pieces) ∧ pieces.flatten = produced := by
  obtain ⟨pieces, hemit, hpieces⟩ := emitPiece_emit outputFn s produced
  refine ⟨pieces, ?_, hpieces⟩
  rw [← hemit]
  refine Prod.ext ?_ rfl
  rw [emitPiece]
  split
  · rfl
  · exact haccepts _ _

theorem take_drop_append (raw : Bytes) (m : ℕ) {first rest : Bytes}
    (hfirst : first = (raw.drop m).take first.length)
    (hrest : rest = (raw.drop (m + first.length)).take rest.length) :
    first ++ rest = (raw.drop m).take (first ++ rest).length := by
  rw [List.length_append, List.take_add, ← hfirst, List.drop_drop, ← hrest]

/-- How the loop goes on after a call of `inflate`: it stops when the part is taken. -/
theorem passVerdict_streaming {n m k : ℕ} {step : ZStep env.zlib.State}
    (h : Streaming encoded raw after n m k inflateOutputBytes step)
    (hk : n + k ≤ encoded.length) (hconsumed : step.consumed ≤ k) {rest : Bytes}
    (hrest : rest.length = k - step.consumed) :
    passVerdict env (decide (n + k = encoded.length)) step rest
        (decide (m + step.produced.length = raw.length)) = none ∨
      passVerdict env (decide (n + k = encoded.length)) step rest
          (decide (m + step.produced.length = raw.length)) = some .ok ∧
        step.consumed = k ∧
          (n + k = encoded.length → m + step.produced.length = raw.length) := by
  have hroom : 0 < inflateOutputBytes := by decide
  rw [passVerdict]
  by_cases hend : step.result = .streamEnd
  · obtain ⟨hlast, hwhole⟩ := h.ended hend
    have hall : step.consumed = k := by omega
    have hnil : rest = [] := List.eq_nil_of_length_eq_zero (by omega)
    have hfinal : n + k = encoded.length := by omega
    rw [if_pos hend, hnil, decide_eq_true hfinal, decide_eq_true hwhole]
    exact .inr ⟨rfl, hall, fun _ => hwhole⟩
  rw [if_neg hend, if_neg h.sound]
  -- With room left the part is taken, and it was not the last one.
  have hopen (hlt : step.produced.length < inflateOutputBytes) :
      step.consumed = k ∧ n + k ≠ encoded.length := by
    rcases h.stops with hfull | hall
    · omega
    · refine ⟨hall, fun hfinal => hend (h.ends ?_ hlt)⟩
      rw [hall]
      exact hfinal
  split
  · next hstuck =>
      have hlt : step.produced.length < inflateOutputBytes := by
        rw [hstuck.2]
        exact hroom
      obtain ⟨hall, hmore⟩ := hopen hlt
      rw [decide_eq_false hmore]
      exact .inr ⟨rfl, hall, fun hfinal => absurd hfinal hmore⟩
  split
  · next hnone =>
      have hlt : step.produced.length < inflateOutputBytes := by
        rw [hnone.2.2]
        exact hroom
      obtain ⟨hall, hmore⟩ := hopen hlt
      exact .inr ⟨rfl, hall, fun hfinal => absurd hfinal hmore⟩
  split
  · next hpart =>
      obtain ⟨hmore, hnil, hlength⟩ := hpart
      have hall : step.consumed = k := by
        have hzero := congrArg List.length hnil
        rw [List.length_nil] at hzero
        omega
      refine .inr ⟨rfl, hall, fun hfinal => ?_⟩
      rw [decide_eq_true hfinal] at hmore
      exact absurd hmore (by decide)
  · exact .inl rfl

/-- A turn of the loop on a part of the block. -/
theorem inflaterPass_streaming {outputFn : OutputFn} (haccepts : outputFn.Accepts)
    (h : env.zlib.Inflates encoded raw after) {n m k : ℕ} {i : Inflater env}
    (hi : i.At raw after n m) (hk : n + k ≤ encoded.length) (s : Stream env) :
    ∃ pieces,
      (∃ i', inflaterPass env (streamOutput outputFn) (decide (n + k = encoded.length)) i
          ((encoded.drop n).take k) s = .stop .ok i' (s.emit pieces) ∧
        Feeds encoded raw after n m k i' pieces) ∨
      ∃ i' taken, inflaterPass env (streamOutput outputFn) (decide (n + k = encoded.length)) i
          ((encoded.drop n).take k) s =
            .more i' ((encoded.drop (n + taken)).take (k - taken)) (s.emit pieces) ∧
        taken ≤ k ∧ pieces.flatten = (raw.drop m).take pieces.flatten.length ∧
        i'.At raw after (n + taken) (m + pieces.flatten.length) := by
  have hinput : ((encoded.drop n).take k).length = k := by
    rw [List.length_take, List.length_drop]
    omega
  have hcall := h.call n m i.stream hi.stream k inflateOutputBytes
    (decide (n + k = encoded.length)) hk (by decide)
  have hconsumed := env.zlib.consumed_le i.stream ((encoded.drop n).take k) inflateOutputBytes
    (decide (n + k = encoded.length))
  rw [hinput] at hconsumed
  rw [inflaterPass]
  generalize env.zlib.inflate i.stream ((encoded.drop n).take k) inflateOutputBytes
    (decide (n + k = encoded.length)) = step at hcall hconsumed ⊢
  obtain ⟨pieces, hemit, hpieces⟩ := emitPiece_accepts haccepts s step.produced
  have hfits : ¬step.produced.length > i.expectedRawSize - i.producedRawSize := by
    have hlength := congrArg List.length hcall.output
    rw [List.length_take, List.length_drop] at hlength
    rw [hi.expected, hi.produced]
    omega
  have hrest : ((encoded.drop n).take k).drop step.consumed =
      (encoded.drop (n + step.consumed)).take (k - step.consumed) := by
    rw [List.drop_take, List.drop_drop]
  have hleft : ((encoded.drop (n + step.consumed)).take (k - step.consumed)).length =
      k - step.consumed := by
    rw [List.length_take, List.length_drop]
    omega
  have hoff : Inflater.At raw after (n + step.consumed) (m + pieces.flatten.length)
      { i with
        stream := step.stream
        producedRawSize := i.producedRawSize + step.produced.length } := by
    rw [hpieces]
    exact ⟨hcall.moved, hi.expected, congrArg (· + _) hi.produced, hi.active⟩
  refine ⟨pieces, ?_⟩
  dsimp only
  rw [if_neg hfits, hemit, if_neg (fun herr => herr rfl), hrest, hi.produced, hi.expected]
  rw [hi.produced, hi.expected] at hoff
  rcases passVerdict_streaming hcall hk hconsumed hleft with hnone | ⟨hok, hall, hwhole⟩
  · rw [hnone]
    refine .inr ⟨_, step.consumed, rfl, hconsumed, ?_, hoff⟩
    rw [hpieces]
    exact hcall.output
  · rw [hok]
    refine .inl ⟨_, rfl, ?_, ?_, ?_⟩
    · rw [hpieces]
      exact hcall.output
    · rw [← hall]
      exact hoff
    · rw [hpieces]
      exact hwhole

/-- The loop on a part of the block. -/
theorem inflaterLoop_streaming {outputFn : OutputFn} (haccepts : outputFn.Accepts)
    (h : env.zlib.Inflates encoded raw after) (final : Bool) (i : Inflater env) (input : Bytes)
    (s : Stream env) :
    ∀ {n m k : ℕ}, i.At raw after n m → n + k ≤ encoded.length →
      final = decide (n + k = encoded.length) → input = (encoded.drop n).take k →
      ∃ i' pieces, inflaterLoop env (streamOutput outputFn) final i input s =
          (.ok, i', s.emit pieces) ∧ Feeds encoded raw after n m k i' pieces := by
  fun_induction inflaterLoop env (streamOutput outputFn) final i input s with
  | case1 i input s err i' s' hpass =>
      rintro n m k hi hk rfl rfl
      obtain ⟨pieces, ⟨i'', hstop, hfeeds⟩ | ⟨i'', taken, hmore, -⟩⟩ :=
        inflaterPass_streaming haccepts h hi hk s
      · rw [hpass] at hstop
        obtain ⟨rfl, rfl, rfl⟩ := Pass.stop.inj hstop
        exact ⟨i', pieces, rfl, hfeeds⟩
      · rw [hpass] at hmore
        cases hmore
  | case2 i input s i' rest s' hpass ih =>
      rintro n m k hi hk rfl rfl
      obtain ⟨pieces, ⟨i'', hstop, -⟩ | ⟨i'', taken, hmore, htaken, houtput, hoff⟩⟩ :=
        inflaterPass_streaming haccepts h hi hk s
      · rw [hpass] at hstop
        cases hstop
      · rw [hpass] at hmore
        obtain ⟨rfl, rfl, rfl⟩ := Pass.more.inj hmore
        have hsum : n + taken + (k - taken) = n + k := by omega
        obtain ⟨last, others, hloop, hfeeds⟩ := ih hoff (Nat.le_trans (Nat.le_of_eq hsum) hk)
          (by rw [hsum]) rfl
        refine ⟨last, pieces ++ others, ?_, ?_, ?_, ?_⟩
        · rw [hloop, Stream.emit_emit]
        · rw [List.flatten_append]
          exact take_drop_append raw m houtput hfeeds.output
        · have hfed := hfeeds.fed
          rw [hsum, Nat.add_assoc, ← List.length_append, ← List.flatten_append] at hfed
          exact hfed
        · intro hfinal
          have hwhole := hfeeds.whole (hsum.trans hfinal)
          rw [Nat.add_assoc, ← List.length_append, ← List.flatten_append] at hwhole
          exact hwhole

end Inflate

/-! ## What a stream has to show -/

/-- The offsets, the hash states and the output of a stream: all but the state of the
inflater, what is remembered of the last chunk and where the output was cut. -/
structure StreamView where
  fields : SignedFields
  imageHash : Bytes
  payloadHash : Bytes
  blockRawHash : Bytes
  blockEncodedHash : Bytes
  block : BlockDescriptor
  blockChain : Digest
  rawOffset : ℕ
  encodedOffset : ℕ
  blockEncodedOffset : ℕ
  nextBlockIndex : ℕ
  blockActive : Bool
  failed : Bool
  finished : Bool
  payloadHashComplete : Bool
  output : Bytes

def Stream.view (s : Stream env) : StreamView where
  fields := s.fields
  imageHash := s.imageHash
  payloadHash := s.payloadHash
  blockRawHash := s.blockRawHash
  blockEncodedHash := s.blockEncodedHash
  block := s.block
  blockChain := s.blockChain
  rawOffset := s.rawOffset
  encodedOffset := s.encodedOffset
  blockEncodedOffset := s.blockEncodedOffset
  nextBlockIndex := s.nextBlockIndex
  blockActive := s.blockActive
  failed := s.failed
  finished := s.finished
  payloadHashComplete := s.payloadHashComplete
  output := s.sent.flatten

/-- A stream with `n` bytes of a block taken and `m` put out. -/
def StreamView.midway (o : StreamView) (b : Block) (next : Digest) (n m : ℕ) : StreamView :=
  { o with
    imageHash := o.imageHash ++ b.raw.take m
    payloadHash := o.payloadHash ++ b.encoded.take n
    blockRawHash := b.raw.take m
    blockEncodedHash := b.encoded.take n
    block := b.descriptor
    blockChain := next
    blockEncodedOffset := n
    blockActive := true
    output := o.output ++ b.raw.take m }

/-- A stream that has taken a block. -/
def StreamView.takes (o : StreamView) (b : Block) (next : Digest) : StreamView :=
  { o with
    imageHash := o.imageHash ++ b.raw
    payloadHash := o.payloadHash ++ b.encoded
    blockRawHash := b.raw
    blockEncodedHash := b.encoded
    block := b.descriptor
    blockChain := next
    rawOffset := o.rawOffset + b.descriptor.rawSize
    encodedOffset := o.encodedOffset + b.descriptor.encodedSize
    blockEncodedOffset := 0
    nextBlockIndex := o.nextBlockIndex + 1
    blockActive := false
    output := o.output ++ b.raw }

/-- More of the block is hashed, inflated and counted. -/
theorem view_more {s : Stream env} {o : StreamView} {b : Block} {next : Digest} {n m : ℕ}
    (h : s.view = o.midway b next n m) {chunk : Bytes}
    (hchunk : chunk = (b.encoded.drop n).take chunk.length) {pieces : List Bytes}
    (hpieces : pieces.flatten = (b.raw.drop m).take pieces.flatten.length)
    (i : Inflater env) :
    ({ (s.hashChunk chunk).emit pieces with
        inflater := i
        blockEncodedOffset := s.blockEncodedOffset + chunk.length } : Stream env).view =
      o.midway b next (n + chunk.length) (m + pieces.flatten.length) := by
  have hmore : ({ (s.hashChunk chunk).emit pieces with
      inflater := i
      blockEncodedOffset := s.blockEncodedOffset + chunk.length } : Stream env).view =
        { s.view with
          imageHash := s.view.imageHash ++ pieces.flatten
          payloadHash := s.view.payloadHash ++ chunk
          blockRawHash := s.view.blockRawHash ++ pieces.flatten
          blockEncodedHash := s.view.blockEncodedHash ++ chunk
          blockEncodedOffset := s.view.blockEncodedOffset + chunk.length
          output := s.view.output ++ pieces.flatten } := by
    simp only [Stream.view, Stream.emit, Stream.hashChunk, List.flatten_append]
  have hraw : b.raw.take (m + pieces.flatten.length) = b.raw.take m ++ pieces.flatten := by
    rw [List.take_add, ← hpieces]
  have hencoded : b.encoded.take (n + chunk.length) = b.encoded.take n ++ chunk := by
    rw [List.take_add, ← hchunk]
  rw [hmore, h]
  simp only [StreamView.midway, hraw, hencoded, List.append_assoc]

/-! ## Feeding a part of a block -/

section Feed

variable {s s₀ : Stream env} {b : Block} {next : Digest}
  {after : ℕ → ℕ → env.zlib.State → Prop} {outputFn : OutputFn}

/-- The stream has `n` bytes of the block. -/
structure Midway (s₀ : Stream env) (b : Block) (next : Digest)
    (after : ℕ → ℕ → env.zlib.State → Prop) (n m : ℕ) (s : Stream env) : Prop where
  view : s.view = s₀.view.midway b next n m
  inflater : s.inflater.At b.raw after n m

/-- `finish_block` when all of the block is hashed. -/
theorem finishBlock_midway {n m : ℕ} (h : Midway s₀ b next after n m s)
    (hsealed : b.Sealed env) (hn : n = b.encoded.length) (hm : m = b.raw.length) :
    (finishBlock s).1 = .ok ∧ (finishBlock s).2.view = s₀.view.takes b next := by
  have hraw : s.blockRawHash = b.raw := by
    have hmidway := congrArg StreamView.blockRawHash h.view
    rw [hm] at hmidway
    exact hmidway.trans List.take_length
  have hencoded : s.blockEncodedHash = b.encoded := by
    have hmidway := congrArg StreamView.blockEncodedHash h.view
    rw [hn] at hmidway
    exact hmidway.trans List.take_length
  have hblock : s.block = b.descriptor := congrArg StreamView.block h.view
  have hhashes : ¬((env.sha256 s.blockRawHash).toList ≠ s.block.rawSha256 ∨
      (env.sha256 s.blockEncodedHash).toList ≠ s.block.encodedSha256) := by
    rw [hraw, hencoded, hblock, hsealed.raw_hash, hsealed.encoded_hash]
    simp
  have hfinish : (finishBlock s).2.view =
      { s.view with
        rawOffset := s.view.rawOffset + s.view.block.rawSize
        encodedOffset := s.view.encodedOffset + s.view.block.encodedSize
        blockEncodedOffset := 0
        nextBlockIndex := s.view.nextBlockIndex + 1
        blockActive := false } := by
    rw [finishBlock, if_neg hhashes]
    rfl
  constructor
  · rw [finishBlock, if_neg hhashes]
  · rw [hfinish, h.view, hn, hm]
    simp only [StreamView.midway, StreamView.takes, List.take_length]

/-- A part of the block is taken. -/
theorem inflateChunk_midway {n m : ℕ} (h : Midway s₀ b next after n m s)
    (hinflates : env.zlib.Inflates b.encoded b.raw after) (haccepts : outputFn.Accepts)
    (hsealed : b.Sealed env) {chunk : Bytes} (hlength : n + chunk.length ≤ b.encoded.length)
    (hchunk : chunk = (b.encoded.drop n).take chunk.length) :
    (inflateChunk outputFn s n chunk (decide (n + chunk.length = b.encoded.length))).1 = .ok ∧
      (n + chunk.length = b.encoded.length →
        (inflateChunk outputFn s n chunk
          (decide (n + chunk.length = b.encoded.length))).2.view =
            s₀.view.takes b next) ∧
      (n + chunk.length ≠ b.encoded.length → ∃ m', Midway s₀ b next after (n + chunk.length) m'
        (inflateChunk outputFn s n chunk
          (decide (n + chunk.length = b.encoded.length))).2) := by
  have hblock : s.block = b.descriptor := congrArg StreamView.block h.view
  have hoffset : s.blockEncodedOffset = n := congrArg StreamView.blockEncodedOffset h.view
  have hroom : s.block.encodedSize - s.blockEncodedOffset = b.encoded.length - n := by
    rw [hblock, hoffset, hsealed.encoded_length]
  have hplace : ¬(n ≠ s.blockEncodedOffset ∨
      chunk.length > s.block.encodedSize - s.blockEncodedOffset ∨
      decide (n + chunk.length = b.encoded.length) ≠
        decide (chunk.length = s.block.encodedSize - s.blockEncodedOffset)) := by
    have hsame : decide (n + chunk.length = b.encoded.length) =
        decide (chunk.length = b.encoded.length - n) :=
      decide_eq_decide.2 (by omega)
    rw [hroom, hoffset, hsame]
    rintro (hne | hlong | hdiff)
    · exact hne rfl
    · omega
    · exact hdiff rfl
  obtain ⟨i', pieces, hloop, hfeeds⟩ := inflaterLoop_streaming haccepts hinflates
    (decide (n + chunk.length = b.encoded.length)) s.inflater chunk (s.hashChunk chunk)
    h.inflater hlength rfl hchunk
  have hfeed : inflaterFeed env (streamOutput outputFn) (s.hashChunk chunk).inflater chunk
      (decide (n + chunk.length = b.encoded.length)) (s.hashChunk chunk) =
        (.ok, i', (s.hashChunk chunk).emit pieces) := by
    have hactive : ¬(s.hashChunk chunk).inflater.active = false := by
      have hon : (s.hashChunk chunk).inflater.active = true := h.inflater.active
      rw [hon]
      exact (nomatch ·)
    rw [inflaterFeed, if_neg hactive]
    exact hloop
  have hcounted := view_more h.view hchunk hfeeds.output i'
  rw [inflateChunk]
  rw [if_neg hplace, takeChunk, hfeed]
  dsimp only
  rw [if_neg (fun herr => herr rfl)]
  have hmidway : Midway s₀ b next after (n + chunk.length) (m + pieces.flatten.length)
      { (s.hashChunk chunk).emit pieces with
        inflater := i'
        blockEncodedOffset := s.blockEncodedOffset + chunk.length } :=
    ⟨hcounted, hfeeds.fed⟩
  by_cases hfinal : n + chunk.length = b.encoded.length
  · obtain ⟨hok, htaken⟩ := finishBlock_midway hmidway hsealed hfinal (hfeeds.whole hfinal)
    rw [if_pos (decide_eq_true hfinal)]
    exact ⟨hok, fun _ => htaken, fun hne => absurd hfinal hne⟩
  · rw [if_neg (by rw [decide_eq_false hfinal]; exact Bool.false_ne_true)]
    exact ⟨rfl, fun hall => absurd hall hfinal, fun _ => ⟨_, hmidway⟩⟩

/-- A stream between two blocks, with a descriptor that it accepts. -/
structure Boundary (s : Stream env) (b : Block) (next : Digest) : Prop where
  idle : s.blockActive = false
  failed : s.failed = false
  finished : s.finished = false
  codec : s.fields.codec = codecFullDeflate
  blockSize : s.fields.blockSize = fullBlockSize
  /-- The last chunk was one of an earlier block. -/
  earlier : s.lastChunkValid = true → s.lastChunkIndex < s.nextBlockIndex
  check : checkBlockDescriptor env s.fields b.descriptor s.nextBlockIndex s.rawOffset
    s.encodedOffset s.blockChain = .ok next

/-- A full image has no copied blocks. -/
theorem kind_of_check {fields : SignedFields} {d : BlockDescriptor}
    {index rawOffset encodedOffset : ℕ} {chain : Digest} (hcodec : fields.codec = codecFullDeflate)
    (h : checkBlockDescriptor env fields d index rawOffset encodedOffset chain = .ok next) :
    d.kind = blockDeflate := by
  rw [checkBlockDescriptor] at h
  split at h
  · cases h
  split at h
  · cases h
  split at h
  · cases h
  split at h
  · cases h
  next hcopy =>
    split at h
    · cases h
    next hkind =>
      by_contra hne
      have hbase : d.kind = blockCopyBase := by
        by_contra hno
        exact hkind ⟨hne, hno⟩
      refine hcopy ⟨hbase, .inl ?_⟩
      rw [hcodec]
      decide

theorem openBlock_boundary (h : Boundary s b next) (hsealed : b.Sealed env)
    (hinflates : env.zlib.Inflates b.encoded b.raw after) :
    (openBlock s b.descriptor 0).1 = .ok ∧
      Midway s b next after 0 0 (openBlock s b.descriptor 0).2 := by
  have hchecked := checkBlockDescriptor_ok h.check
  have hkind : ¬b.descriptor.kind ≠ blockDeflate := fun hne => hne (kind_of_check h.codec h.check)
  have hsize : ¬(b.descriptor.rawSize = 0 ∨ b.descriptor.rawSize > fullBlockSize) := by
    have hpos := hchecked.rawSize_pos
    have hle := hchecked.rawSize_le
    rw [h.blockSize] at hle
    omega
  have hbegin : inflaterBegin env s.inflater b.descriptor.rawSize =
      (.ok, { Inflater.idle env with expectedRawSize := b.descriptor.rawSize, active := true }) :=
    if_neg hsize
  rw [openBlock, if_pos h.idle, if_neg (fun hne => hne rfl), startBlock, h.check]
  dsimp only
  rw [if_neg hkind, hbegin]
  refine ⟨rfl, ?_, hinflates.start, hsealed.raw_length.symm, rfl, rfl⟩
  simp only [Stream.view, StreamView.midway, List.take_zero, List.append_nil, decide_true]

theorem sameDescriptor_self {d : BlockDescriptor} (hraw : d.rawSha256.length = 32)
    (hencoded : d.encodedSha256.length = 32) : sameDescriptor d d = true := by
  rw [sameDescriptor, decide_eq_true_eq]
  exact ⟨rfl, rfl, rfl, rfl, rfl, rfl, hraw, hraw, hencoded, hencoded, rfl, rfl⟩

theorem openBlock_midway {n m : ℕ} (h : Midway s₀ b next after n m s)
    (hcheck : Boundary s₀ b next) : openBlock s b.descriptor n = (.ok, s) := by
  have hchecked := checkBlockDescriptor_ok hcheck.check
  have hactive : ¬s.blockActive = false := by
    have hon : s.blockActive = true := congrArg StreamView.blockActive h.view
    rw [hon]
    exact (nomatch ·)
  have hblock : s.block = b.descriptor := congrArg StreamView.block h.view
  rw [openBlock, if_neg hactive, hblock,
    if_pos (sameDescriptor_self hchecked.rawSha256_length hchecked.encodedSha256_length)]

/-- A chunk of the block. -/
def Block.chunk (b : Block) (n : ℕ) (bytes : Bytes) : Chunk where
  descriptor := b.descriptor
  offset := n
  bytes := bytes
  final := decide (n + bytes.length = b.encoded.length)

/-- The stream expects the `n`th byte of the block: it stands before the block, or has
opened it. -/
inductive Expects (s₀ : Stream env) (b : Block) (next : Digest)
    (after : ℕ → ℕ → env.zlib.State → Prop) : ℕ → Stream env → Prop where
  | boundary : Expects s₀ b next after 0 s₀
  | midway {n m : ℕ} {s : Stream env} (h : Midway s₀ b next after n m s)
      (hplace : s.lastChunkOffset < n) : Expects s₀ b next after n s

/-- What a stream that expects a chunk does with it before it is inflated. -/
theorem Expects.opens {n : ℕ} (h : Expects s₀ b next after n s) (hcheck : Boundary s₀ b next)
    (hsealed : b.Sealed env) (hinflates : env.zlib.Inflates b.encoded b.raw after)
    (bytes : Bytes) :
    s.failed = false ∧ s.finished = false ∧ s.isRepeat (b.chunk n bytes) = false ∧
      (openBlock s b.descriptor n).1 = .ok ∧
        ∃ m, Midway s₀ b next after n m (openBlock s b.descriptor n).2 := by
  cases h with
  | boundary =>
      obtain ⟨hok, hmidway⟩ := openBlock_boundary hcheck hsealed hinflates
      refine ⟨hcheck.failed, hcheck.finished, ?_, hok, 0, hmidway⟩
      rw [Stream.isRepeat, decide_eq_false_iff_not]
      rintro ⟨hvalid, hindex, -⟩
      have hearlier := hcheck.earlier hvalid
      have hown : b.descriptor.index = s.nextBlockIndex :=
        (checkBlockDescriptor_ok hcheck.check).index_eq
      have hsame : b.descriptor.index = s.lastChunkIndex := hindex
      omega
  | @midway _ m _ hmidway hplace =>
      have hopens := openBlock_midway hmidway hcheck
      have hfailed : s.failed = s₀.failed := congrArg StreamView.failed hmidway.view
      have hfinished : s.finished = s₀.finished := congrArg StreamView.finished hmidway.view
      refine ⟨hfailed.trans hcheck.failed, hfinished.trans hcheck.finished, ?_, ?_, m, ?_⟩
      · rw [Stream.isRepeat, decide_eq_false_iff_not]
        rintro ⟨-, -, hoffset⟩
        exact Nat.ne_of_gt hplace hoffset
      · rw [hopens]
      · rw [hopens]
        exact hmidway

/-- A chunk that is expected is accepted. -/
theorem Expects.feed {n : ℕ} (h : Expects s₀ b next after n s) (hcheck : Boundary s₀ b next)
    (hsealed : b.Sealed env) (hinflates : env.zlib.Inflates b.encoded b.raw after)
    (haccepts : outputFn.Accepts) {bytes : Bytes} (hpos : 0 < bytes.length)
    (hmax : bytes.length ≤ maxChunkBytes) (hlength : n + bytes.length ≤ b.encoded.length)
    (hbytes : bytes = (b.encoded.drop n).take bytes.length) :
    (streamFeed outputFn s (b.chunk n bytes)).1 = .ok ∧
      (n + bytes.length = b.encoded.length →
        (streamFeed outputFn s (b.chunk n bytes)).2.view = s₀.view.takes b next) ∧
      (n + bytes.length ≠ b.encoded.length →
        Expects s₀ b next after (n + bytes.length)
          (streamFeed outputFn s (b.chunk n bytes)).2) := by
  obtain ⟨hfailed, hfinished, hrepeat, hok, m, hmidway⟩ :=
    h.opens hcheck hsealed hinflates bytes
  obtain ⟨hfed, htaken, hmore⟩ :=
    inflateChunk_midway hmidway hinflates haccepts hsealed hlength hbytes
  have hguard : ¬(s.failed = true ∨ s.finished = true ∨ (b.chunk n bytes).bytes.length = 0 ∨
      (b.chunk n bytes).bytes.length > maxChunkBytes) := by
    rw [hfailed, hfinished]
    rintro (hno | hno | hzero | hlong)
    · cases hno
    · cases hno
    · exact absurd hzero (Nat.ne_of_gt hpos)
    · exact absurd hmax (Nat.not_le_of_gt hlong)
  have hnew : ¬s.isRepeat (b.chunk n bytes) = true := by
    rw [hrepeat]
    exact Bool.false_ne_true
  rw [streamFeed, if_neg hguard, if_neg hnew]
  have hopen : ¬(openBlock s (b.chunk n bytes).descriptor (b.chunk n bytes).offset).1 ≠ .ok :=
    fun hne => hne hok
  have hinflate : ¬(inflateChunk outputFn
      (openBlock s (b.chunk n bytes).descriptor (b.chunk n bytes).offset).2
      (b.chunk n bytes).offset (b.chunk n bytes).bytes (b.chunk n bytes).final).1 ≠ .ok :=
    fun hne => hne hfed
  dsimp only
  rw [if_neg hopen, if_neg hinflate]
  refine ⟨rfl, htaken, fun hpart => ?_⟩
  obtain ⟨m', hmidway'⟩ := hmore hpart
  exact .midway ⟨hmidway'.view, hmidway'.inflater⟩ (Nat.lt_add_of_pos_right hpos)

/-! ## Repetitions -/

theorem openBlock_ok {d : BlockDescriptor} {n : ℕ} (h : (openBlock s d n).1 = .ok) :
    d.rawSha256.length = 32 ∧ d.encodedSha256.length = 32 ∧
      (openBlock s d n).2.failed = s.failed ∧ (openBlock s d n).2.finished = s.finished := by
  rw [openBlock] at h ⊢
  split at h
  · next hidle =>
      split at h
      · cases h
      next hzero =>
        rw [if_pos hidle, if_neg hzero]
        rw [startBlock] at h ⊢
        split at h
        · next err hcheck => exact absurd h (checkBlockDescriptor_error hcheck)
        next next hcheck =>
          have hchecked := checkBlockDescriptor_ok hcheck
          split at h
          · cases h
          next hkind =>
            rw [if_neg hkind]
            exact ⟨hchecked.rawSha256_length, hchecked.encodedSha256_length, rfl, rfl⟩
  next hactive =>
    split at h
    · next hsame =>
        rw [if_neg hactive, if_pos hsame]
        simp only [sameDescriptor, decide_eq_true_eq] at hsame
        exact ⟨hsame.2.2.2.2.2.2.2.1, hsame.2.2.2.2.2.2.2.2.2.1, rfl, rfl⟩
    · cases h

theorem finishBlock_flags (s : Stream env) :
    (finishBlock s).2.failed = s.failed ∧ (finishBlock s).2.finished = s.finished := by
  rw [finishBlock]
  split
  · exact ⟨rfl, rfl⟩
  · exact ⟨rfl, rfl⟩

theorem inflateChunk_flags (outputFn : OutputFn) (s : Stream env) (n : ℕ) (bytes : Bytes)
    (final : Bool) : (inflateChunk outputFn s n bytes final).2.failed = s.failed ∧
      (inflateChunk outputFn s n bytes final).2.finished = s.finished := by
  obtain ⟨pieces, hinflates⟩ := inflaterFeed_inflates outputFn final
    (s.hashChunk bytes).inflater bytes (s.hashChunk bytes)
  have hemitted := hinflates.emitted
  have hfailed := congrArg Stream.failed hemitted
  have hfinished := congrArg Stream.finished hemitted
  rw [inflateChunk]
  split
  · exact ⟨rfl, rfl⟩
  rw [takeChunk]
  dsimp only
  split
  · exact ⟨hfailed, hfinished⟩
  split
  · obtain ⟨hfailed', hfinished'⟩ := finishBlock_flags
      { (inflaterFeed env (streamOutput outputFn) (s.hashChunk bytes).inflater bytes final
          (s.hashChunk bytes)).2.2 with
        inflater := (inflaterFeed env (streamOutput outputFn) (s.hashChunk bytes).inflater bytes
          final (s.hashChunk bytes)).2.1
        blockEncodedOffset := (inflaterFeed env (streamOutput outputFn)
          (s.hashChunk bytes).inflater bytes final
            (s.hashChunk bytes)).2.2.blockEncodedOffset + bytes.length }
    exact ⟨hfailed'.trans hfailed, hfinished'.trans hfinished⟩
  · exact ⟨hfailed, hfinished⟩

/-- The stream goes on after the chunk `c`, and remembers it. -/
structure Recalls (s : Stream env) (c : Chunk) : Prop where
  failed : s.failed = false
  finished : s.finished = false
  valid : s.lastChunkValid = true
  index : s.lastChunkIndex = c.descriptor.index
  offset : s.lastChunkOffset = c.offset
  block : s.lastChunkBlock = c.descriptor
  size : s.lastChunkSize = c.bytes.length
  final : s.lastChunkFinal = c.final
  hash : s.lastChunkHash = env.sha256 c.bytes
  bounds : 0 < c.bytes.length ∧ c.bytes.length ≤ maxChunkBytes
  lengths : c.descriptor.rawSha256.length = 32 ∧ c.descriptor.encodedSha256.length = 32

theorem recalls_of_accepted {c : Chunk} {s' : Stream env}
    (h : streamFeed outputFn s c = (.ok, s')) : Recalls s' c := by
  rw [streamFeed] at h
  split at h
  · cases h
  next hguard =>
    simp only [not_or, Bool.not_eq_true] at hguard
    obtain ⟨hfailed, hfinished, hzero, hmax⟩ := hguard
    have hbounds : 0 < c.bytes.length ∧ c.bytes.length ≤ maxChunkBytes :=
      ⟨Nat.pos_of_ne_zero hzero, Nat.le_of_not_lt hmax⟩
    split at h
    · next hrepeat =>
        split at h
        · next hsame =>
            obtain rfl := (Prod.mk.inj h).2
            simp only [Stream.isRepeat, decide_eq_true_eq] at hrepeat
            simp only [Stream.sameChunk, decide_eq_true_eq] at hsame
            obtain ⟨hblock, hsize, hfinal, hhash⟩ := hsame
            have hlengths := hblock
            simp only [sameDescriptor, decide_eq_true_eq] at hlengths
            exact ⟨hfailed, hfinished, hrepeat.1, hrepeat.2.1.symm, hrepeat.2.2.symm,
              sameDescriptor_eq hblock, hsize, hfinal, hhash, hbounds,
              hlengths.2.2.2.2.2.2.2.1, hlengths.2.2.2.2.2.2.2.2.2.1⟩
        · cases h
    · dsimp only at h
      split at h
      · next herr => exact absurd (Prod.mk.inj h).1 herr
      next hopen =>
        split at h
        · next herr => exact absurd (Prod.mk.inj h).1 herr
        · obtain rfl := (Prod.mk.inj h).2
          obtain ⟨hraw, hencoded, hfailed', hfinished'⟩ := openBlock_ok (not_not.1 hopen)
          obtain ⟨hfailed'', hfinished''⟩ := inflateChunk_flags outputFn
            (openBlock s c.descriptor c.offset).2 c.offset c.bytes c.final
          exact ⟨hfailed''.trans (hfailed'.trans hfailed),
            hfinished''.trans (hfinished'.trans hfinished), rfl, rfl, rfl, rfl, rfl, rfl, rfl,
            hbounds, hraw, hencoded⟩

/-- The chunk that was accepted last is accepted again, and nothing happens. -/
theorem Recalls.repeat {c : Chunk} (h : Recalls s c) : streamFeed outputFn s c = (.ok, s) := by
  have hguard : ¬(s.failed = true ∨ s.finished = true ∨ c.bytes.length = 0 ∨
      c.bytes.length > maxChunkBytes) := by
    rw [h.failed, h.finished]
    rintro (hno | hno | hzero | hlong)
    · cases hno
    · cases hno
    · exact Nat.ne_of_gt h.bounds.1 hzero
    · exact Nat.not_le_of_gt hlong h.bounds.2
  have hrepeat : s.isRepeat c = true := by
    rw [Stream.isRepeat, decide_eq_true_eq]
    exact ⟨h.valid, h.index.symm, h.offset.symm⟩
  have hsame : s.sameChunk c = true := by
    rw [Stream.sameChunk, decide_eq_true_eq, h.block]
    exact ⟨sameDescriptor_self h.lengths.1 h.lengths.2, h.size, h.final, h.hash⟩
  rw [streamFeed, if_neg hguard, if_pos hrepeat, if_pos hsame]

/-- Another chunk in the place of the last one fails the stream. -/
theorem Recalls.clash {c c' : Chunk} (h : Recalls s c)
    (hindex : c'.descriptor.index = c.descriptor.index) (hoffset : c'.offset = c.offset)
    (hpos : 0 < c'.bytes.length) (hmax : c'.bytes.length ≤ maxChunkBytes) (hne : c' ≠ c)
    (hcollision : env.sha256 c'.bytes = env.sha256 c.bytes → c'.bytes = c.bytes) :
    streamFeed outputFn s c' = (.invalidCrc, s.fail) := by
  have hguard : ¬(s.failed = true ∨ s.finished = true ∨ c'.bytes.length = 0 ∨
      c'.bytes.length > maxChunkBytes) := by
    rw [h.failed, h.finished]
    rintro (hno | hno | hzero | hlong)
    · cases hno
    · cases hno
    · exact Nat.ne_of_gt hpos hzero
    · exact Nat.not_le_of_gt hlong hmax
  have hrepeat : s.isRepeat c' = true := by
    rw [Stream.isRepeat, decide_eq_true_eq]
    exact ⟨h.valid, hindex.trans h.index.symm, hoffset.trans h.offset.symm⟩
  have hother : ¬s.sameChunk c' = true := by
    rw [Stream.sameChunk, decide_eq_true_eq, h.block, h.final, h.hash]
    rintro ⟨hblock, -, hfinal, hhash⟩
    refine hne ?_
    obtain ⟨descriptor, offset, bytes, final⟩ := c'
    obtain rfl : c.descriptor = descriptor := sameDescriptor_eq hblock
    obtain rfl : offset = c.offset := hoffset
    obtain rfl : c.final = final := hfinal
    obtain rfl : bytes = c.bytes := hcollision hhash.symm
    rfl
  rw [streamFeed, if_neg hguard, if_pos hrepeat, if_neg hother]

/-- The chunk is sent again any number of times. -/
theorem Recalls.repeats {c : Chunk} (h : Recalls s c) (outputFn : OutputFn) (repeats : ℕ) :
    runStream outputFn s (List.replicate repeats (.feed c)) = s ∧
      ∀ err ∈ results outputFn s (List.replicate repeats (.feed c)), err = .ok := by
  induction repeats with
  | zero => exact ⟨rfl, fun _ hmem => absurd hmem List.not_mem_nil⟩
  | succ repeats ih =>
      have hagain : StreamCall.run outputFn s (.feed c) = (.ok, s) := h.repeat
      rw [List.replicate_succ, results, runStream, List.foldl_cons, hagain]
      refine ⟨ih.1, fun err hmem => ?_⟩
      rcases List.mem_cons.1 hmem with rfl | hrest
      · rfl
      · exact ih.2 err hrest

/-! ## Whole blocks -/

theorem runStream_append (outputFn : OutputFn) (s : Stream env) (calls more : List StreamCall) :
    runStream outputFn s (calls ++ more) =
      runStream outputFn (runStream outputFn s calls) more :=
  List.foldl_append

/-- The calls for the parts of a block from the `n`th byte on, each with the number of
times that it is sent again. -/
def Block.cut (b : Block) : ℕ → List (Bytes × ℕ) → List StreamCall
  | _, [] => []
  | n, (bytes, repeats) :: parts =>
      List.replicate (repeats + 1) (.feed (b.chunk n bytes)) ++ b.cut (n + bytes.length) parts

/-- The parts are chunks and make up the block. -/
structure Block.Parts (b : Block) (parts : List (Bytes × ℕ)) : Prop where
  whole : (parts.map Prod.fst).flatten = b.encoded
  sizes : ∀ part ∈ parts, 0 < part.1.length ∧ part.1.length ≤ maxChunkBytes

theorem Expects.cut (hcheck : Boundary s₀ b next) (hsealed : b.Sealed env)
    (hinflates : env.zlib.Inflates b.encoded b.raw after) (haccepts : outputFn.Accepts)
    {parts : List (Bytes × ℕ)}
    (hsizes : ∀ part ∈ parts, 0 < part.1.length ∧ part.1.length ≤ maxChunkBytes) :
    ∀ {n : ℕ} {s : Stream env}, Expects s₀ b next after n s → n < b.encoded.length →
      (parts.map Prod.fst).flatten = b.encoded.drop n →
      (∀ err ∈ results outputFn s (b.cut n parts), err = .ok) ∧
        (runStream outputFn s (b.cut n parts)).view = s₀.view.takes b next := by
  induction parts with
  | nil =>
      intro n s _ hlt hwhole
      have hlength := congrArg List.length hwhole
      rw [List.map_nil, List.flatten_nil, List.length_nil, List.length_drop] at hlength
      omega
  | cons part parts ih =>
      obtain ⟨bytes, repeats⟩ := part
      intro n s hexpects hlt hwhole
      rw [List.map_cons, List.flatten_cons] at hwhole
      obtain ⟨hpos, hmax⟩ : 0 < bytes.length ∧ bytes.length ≤ maxChunkBytes :=
        hsizes (bytes, repeats) List.mem_cons_self
      have hbytes : bytes = (b.encoded.drop n).take bytes.length := by
        rw [← hwhole, List.take_left]
      have hrest : (parts.map Prod.fst).flatten = b.encoded.drop (n + bytes.length) := by
        rw [← List.drop_drop, ← hwhole, List.drop_left]
      have hlength : n + bytes.length ≤ b.encoded.length := by
        have hsum := congrArg List.length hwhole
        rw [List.length_append, List.length_drop] at hsum
        dsimp only at hsum
        omega
      obtain ⟨hok, htaken, hmore⟩ :=
        hexpects.feed hcheck hsealed hinflates haccepts hpos hmax hlength hbytes
      have hfeed : StreamCall.run outputFn s (.feed (b.chunk n bytes)) =
          (.ok, (streamFeed outputFn s (b.chunk n bytes)).2) :=
        Prod.ext hok rfl
      obtain ⟨hagain, hagainOk⟩ := (recalls_of_accepted hfeed).repeats outputFn repeats
      have hrun : runStream outputFn s
          (List.replicate (repeats + 1) (.feed (b.chunk n bytes))) =
            (streamFeed outputFn s (b.chunk n bytes)).2 := by
        rw [List.replicate_succ, runStream, List.foldl_cons, hfeed]
        exact hagain
      have hresults : ∀ err ∈ results outputFn s
          (List.replicate (repeats + 1) (.feed (b.chunk n bytes))), err = .ok := by
        intro err hmem
        rw [List.replicate_succ, results, hfeed] at hmem
        rcases List.mem_cons.1 hmem with rfl | hlater
        · rfl
        · exact hagainOk err hlater
      have hlast : (∀ err ∈ results outputFn (streamFeed outputFn s (b.chunk n bytes)).2
            (b.cut (n + bytes.length) parts), err = .ok) ∧
          (runStream outputFn (streamFeed outputFn s (b.chunk n bytes)).2
            (b.cut (n + bytes.length) parts)).view = s₀.view.takes b next := by
        by_cases hfinal : n + bytes.length = b.encoded.length
        · have hnone : parts = [] := by
            rw [hfinal, List.drop_length] at hrest
            cases parts with
            | nil => rfl
            | cons other others =>
                have hother := (hsizes other (List.mem_cons_of_mem _ List.mem_cons_self)).1
                rw [List.map_cons, List.flatten_cons] at hrest
                rw [(List.append_eq_nil_iff.1 hrest).1] at hother
                exact absurd hother (Nat.lt_irrefl 0)
          rw [hnone, Block.cut]
          exact ⟨fun _ hmem => absurd hmem List.not_mem_nil, htaken hfinal⟩
        · exact ih (fun part hmem => hsizes part (List.mem_cons_of_mem _ hmem)) (hmore hfinal)
            (Nat.lt_of_le_of_ne hlength hfinal) hrest
      rw [Block.cut, results_append, runStream_append, hrun]
      refine ⟨fun err hmem => ?_, hlast.2⟩
      rcases List.mem_append.1 hmem with hfirst | hlater
      · exact hresults err hfirst
      · exact hlast.1 err hlater

end Feed

/-! ## Started streams -/

/-- A stream that has begun or was resumed, after some calls. -/
def Stream.Started (s : Stream env) : Prop :=
  ∃ (fields : SignedFields) (s₀ : Stream env),
    (streamBegin fields = .ok s₀ ∨
      ∃ point readFn, streamResume fields point readFn = .ok s₀) ∧
    ∃ outputFn calls, s = runStream outputFn s₀ calls

theorem streamResume_fields {fields : SignedFields} {point : ResumePoint} {readFn : ReadFn}
    {s : Stream env} (h : streamResume fields point readFn = .ok s) :
    fields.codec = codecFullDeflate ∧ fields.blockSize = fullBlockSize := by
  rw [streamResume] at h
  split at h
  · cases h
  split at h
  · cases h
  next s' hbegin =>
    obtain ⟨-, hcodec, hsize⟩ := streamBegin_ok hbegin
    exact ⟨hcodec, hsize⟩

/-- A started stream that has not failed has a trail. -/
theorem Stream.Started.trail {s : Stream env} (h : s.Started) (hfailed : s.failed = false) :
    ∃ base fields chunks blocks, fields.codec = codecFullDeflate ∧
      fields.blockSize = fullBlockSize ∧ Trail base fields chunks blocks s ∧
        Remembers chunks s := by
  obtain ⟨fields, s₀, hstart, outputFn, calls, rfl⟩ := h
  have hrun {base : Base} (htrail : Trail base fields [] [] s₀)
      (hlast : s₀.lastChunkValid = false) :
      ∃ blocks, Trail base fields (accepted outputFn s₀ calls) blocks
          (runStream outputFn s₀ calls) ∧
        Remembers (accepted outputFn s₀ calls) (runStream outputFn s₀ calls) := by
    rcases runStream_trail htrail hlast outputFn calls with hno | hyes
    · rw [hfailed] at hno
      cases hno
    · exact hyes
  rcases hstart with hbegin | ⟨point, readFn, hresume⟩
  · obtain ⟨rfl, hcodec, hsize⟩ := streamBegin_ok hbegin
    obtain ⟨blocks, htrail, hlast⟩ := hrun (trail_fresh fields) rfl
    exact ⟨_, fields, _, blocks, hcodec, hsize, htrail, hlast⟩
  · obtain ⟨hcodec, hsize⟩ := streamResume_fields hresume
    obtain ⟨raw, hraw, rfl, hindex, -⟩ := streamResume_ok hresume
    have hlength : raw.length = point.rawOffset := by
      simpa using readBack_length hraw
    obtain ⟨blocks, htrail, hlast⟩ := hrun (trail_resumed fields hindex hlength) rfl
    exact ⟨_, fields, _, blocks, hcodec, hsize, htrail, hlast⟩

theorem Stream.Started.boundary {s : Stream env} (h : s.Started) (hidle : s.blockActive = false)
    (hfailed : s.failed = false) (hfinished : s.finished = false) {b : Block} {next : Digest}
    (hcheck : checkBlockDescriptor env s.fields b.descriptor s.nextBlockIndex s.rawOffset
      s.encodedOffset s.blockChain = .ok next) : Boundary s b next := by
  obtain ⟨base, fields, chunks, blocks, hcodec, hsize, htrail, hlast⟩ := h.trail hfailed
  rw [← htrail.fields_eq] at hcodec hsize
  refine ⟨hidle, hfailed, hfinished, hcodec, hsize, fun hvalid => ?_, hcheck⟩
  obtain ⟨c, hc, hindex, -⟩ := hlast.valid hvalid
  obtain ⟨n, block, hplace, hblock, -⟩ := htrail.owner c (List.mem_of_getLast? hc)
  rw [Stream.parts_idle hidle] at hblock
  have hlt := (List.getElem?_eq_some_iff.1 hblock).1
  rw [hindex, hplace, htrail.index]
  exact Nat.add_lt_add_left hlt _

/-! ## Chunking and retries do not show -/

/-- Between blocks, any partition of the next block is accepted, with any repetitions,
and leaves the stream that any other partition leaves.  A repetition of an accepted
chunk does nothing, and another chunk in its place fails the stream. -/
theorem streamFeed_chunking (env : OtaEnv) :
    (∀ s : Stream env, s.Started → s.blockActive = false → s.failed = false →
      s.finished = false → ∀ (b : Block) (next : Digest), b.Sealed env →
        checkBlockDescriptor env s.fields b.descriptor s.nextBlockIndex s.rawOffset
          s.encodedOffset s.blockChain = .ok next →
        ∀ after, env.zlib.Inflates b.encoded b.raw after →
        ∀ outputFn : OutputFn, outputFn.Accepts →
        ∀ parts, b.Parts parts →
          (∀ err ∈ results outputFn s (b.cut 0 parts), err = .ok) ∧
            (runStream outputFn s (b.cut 0 parts)).view = s.view.takes b next ∧
            ∀ others, b.Parts others →
              (runStream outputFn s (b.cut 0 parts)).view =
                (runStream outputFn s
                  (b.cut 0 (others.map fun part => (part.1, 0)))).view) ∧
    ∀ (outputFn : OutputFn) (s s' : Stream env) (c : Chunk),
      streamFeed outputFn s c = (.ok, s') →
        streamFeed outputFn s' c = (.ok, s') ∧
          ∀ c' : Chunk, c'.descriptor.index = c.descriptor.index → c'.offset = c.offset →
            0 < c'.bytes.length → c'.bytes.length ≤ maxChunkBytes → c' ≠ c →
            (env.sha256 c'.bytes = env.sha256 c.bytes → c'.bytes = c.bytes) →
              streamFeed outputFn s' c' = (.invalidCrc, s'.fail) := by
  constructor
  · intro s hstarted hidle hfailed hfinished b next hsealed hcheck after hinflates outputFn
      haccepts parts hparts
    have hboundary := hstarted.boundary hidle hfailed hfinished hcheck
    have hpos : 0 < b.encoded.length := by
      rw [hsealed.encoded_length]
      exact (checkBlockDescriptor_ok hcheck).deflate_pos (kind_of_check hboundary.codec hcheck)
    have hrun (parts : List (Bytes × ℕ)) (hparts : b.Parts parts) :=
      Expects.cut hboundary hsealed hinflates haccepts hparts.sizes .boundary hpos hparts.whole
    obtain ⟨hok, hview⟩ := hrun parts hparts
    refine ⟨hok, hview, fun others hothers => ?_⟩
    have hplain : b.Parts (others.map fun part => (part.1, 0)) := by
      constructor
      · rw [List.map_map]
        exact hothers.whole
      · intro part hmem
        obtain ⟨other, hother, rfl⟩ := List.mem_map.1 hmem
        exact hothers.sizes other hother
    rw [hview, (hrun _ hplain).2]
  · intro outputFn s s' c hfeed
    have hrecalls := recalls_of_accepted hfeed
    exact ⟨hrecalls.repeat, fun c' hindex hoffset hpos hmax hne hcollision =>
      hrecalls.clash hindex hoffset hpos hmax hne hcollision⟩

/-! ## A stored block in parts -/

/-- Raw inflate of the stored block of the letter in parts; the state counts the bytes
that are consumed. -/
def letterInflate (taken : ℕ) (input : Bytes) (room : ℕ) (final : Bool) : ZStep ℕ :=
  if input = (letterEncoded.drop taken).take input.length ∧ 0 < room then
    { stream := taken + input.length
      consumed := input.length
      produced := if taken < 6 ∧ taken + input.length = 6 then letterRaw else []
      result :=
        if taken + input.length = 6 then .streamEnd
        else if final ∨ input = [] then .bufError
        else .ok }
  else
    { stream := taken
      consumed := 0
      produced := []
      result := .failed }

def letterZlib : Zlib where
  State := ℕ
  init := 0
  inflate := letterInflate
  consumed_le := fun taken input room final => by
    rw [letterInflate]
    split
    · exact Nat.le_refl _
    · exact Nat.zero_le _
  produced_le := fun taken input room final => by
    rw [letterInflate]
    split
    · next hinput =>
        dsimp only
        split
        · exact hinput.2
        · exact Nat.zero_le _
    · exact Nat.zero_le _

/-- The letter is out when all six bytes are consumed. -/
def letterAfter (n m : ℕ) (taken : ℕ) : Prop :=
  taken = n ∧ n ≤ 6 ∧ m = if n = 6 then 1 else 0

/-- What is out after `k` more bytes. -/
theorem letter_out {taken k : ℕ} (h : taken + k ≤ 6) :
    (if taken = 6 then 1 else 0) +
        (if taken < 6 ∧ taken + k = 6 then letterRaw else []).length =
      if taken + k = 6 then 1 else 0 := by
  have hone : letterRaw.length = 1 := rfl
  by_cases hlast : taken + k = 6
  · by_cases hdone : taken = 6
    · rw [if_pos hdone, if_pos hlast, if_neg (fun hboth => Nat.ne_of_lt hboth.1 hdone),
        List.length_nil]
    · have hlt : taken < 6 := by omega
      rw [if_neg hdone, if_pos hlast, if_pos ⟨hlt, hlast⟩, hone]
  · have hmore : taken ≠ 6 := by omega
    rw [if_neg hmore, if_neg hlast, if_neg (fun hboth => hlast hboth.2), List.length_nil]

theorem letterInflate_streaming {taken k : ℕ} (hk : taken + k ≤ 6) {room : ℕ}
    (hroom : 0 < room) (final : Bool) :
    Streaming letterEncoded letterRaw letterAfter taken (if taken = 6 then 1 else 0) k room
      (letterInflate taken ((letterEncoded.drop taken).take k) room final) := by
  have hsix : letterEncoded.length = 6 := rfl
  have hinput : ((letterEncoded.drop taken).take k).length = k := by
    rw [List.length_take, List.length_drop]
    omega
  have hguard : (letterEncoded.drop taken).take k = (letterEncoded.drop taken).take k ∧
      0 < room :=
    ⟨rfl, hroom⟩
  rw [letterInflate, hinput, if_pos hguard]
  constructor
  case output =>
    dsimp only
    by_cases hlast : taken < 6 ∧ taken + k = 6
    · rw [if_pos hlast, if_neg (Nat.ne_of_lt hlast.1)]
      rfl
    · rw [if_neg hlast, List.length_nil, List.take_zero]
  case moved => exact ⟨rfl, hk, letter_out hk⟩
  case stops => exact .inr rfl
  case ended =>
    intro hend
    by_cases hlast : taken + k = 6
    · have hout := letter_out hk
      rw [if_pos hlast] at hout
      exact ⟨hlast, hout⟩
    · dsimp only at hend
      rw [if_neg hlast] at hend
      split at hend
      · cases hend
      · cases hend
  case ends =>
    intro hlast _
    exact if_pos hlast
  case sound =>
    dsimp only
    by_cases hlast : taken + k = 6
    · rw [if_pos hlast]
      exact (nomatch ·)
    · rw [if_neg hlast]
      split
      · exact (nomatch ·)
      · exact (nomatch ·)

theorem letterZlib_inflates : letterZlib.Inflates letterEncoded letterRaw letterAfter where
  start := ⟨rfl, by decide, rfl⟩
  call := by
    rintro n m taken ⟨rfl, -, rfl⟩ k room final hk hroom
    exact letterInflate_streaming hk hroom final

/-- The letter's environment with an inflater that takes the block in parts. -/
def partsEnv : OtaEnv :=
  { letterEnv with zlib := letterZlib }

def partsStart : Stream partsEnv :=
  Stream.fresh partsEnv letterFields

def letterParts : List (Bytes × ℕ) :=
  [([0x01], 1), ([0x01, 0x00], 0), ([0xfe, 0xff, 0x41], 2)]

/-- The image as a block. -/
def letterWhole : Block :=
  ⟨letterBlock, letterRaw, letterEncoded⟩

/-- The image in three chunks, two of them sent again, and then a chunk that clashes. -/
theorem streamFeed_chunking_letter :
    ((∀ err ∈ results (fun _ _ => .ok) partsStart (letterWhole.cut 0 letterParts), err = .ok) ∧
      (runStream (fun _ _ => .ok) partsStart (letterWhole.cut 0 letterParts)).view =
        partsStart.view.takes letterWhole letterChainSha256) ∧
      streamFeed (fun _ _ => .ok)
          (streamFeed (fun _ _ => .ok) partsStart (letterWhole.chunk 0 letterEncoded)).2
          (letterWhole.chunk 0 [0x01]) =
        (.invalidCrc,
          (streamFeed (fun _ _ => .ok) partsStart
            (letterWhole.chunk 0 letterEncoded)).2.fail) := by
  have hstarted : partsStart.Started :=
    ⟨letterFields, partsStart, .inl rfl, fun _ _ => .ok, [], rfl⟩
  have hsealed : letterWhole.Sealed partsEnv :=
    ⟨rfl, rfl, by decide +kernel, by decide +kernel⟩
  have hcheck : checkBlockDescriptor partsEnv partsStart.fields letterWhole.descriptor
      partsStart.nextBlockIndex partsStart.rawOffset partsStart.encodedOffset
        partsStart.blockChain = .ok letterChainSha256 := by
    decide +kernel
  have hfirst : (streamFeed (fun _ _ => .ok) partsStart
      (letterWhole.chunk 0 letterEncoded)).1 = .ok := by
    decide +kernel
  obtain ⟨hok, hview, -⟩ := (streamFeed_chunking partsEnv).1 partsStart hstarted rfl rfl rfl
    letterWhole letterChainSha256 hsealed hcheck letterAfter letterZlib_inflates
    (fun _ _ => .ok) (fun _ _ => rfl) letterParts ⟨rfl, by decide⟩
  refine ⟨⟨hok, hview⟩, ?_⟩
  exact ((streamFeed_chunking partsEnv).2 (fun _ _ => .ok) partsStart _
    (letterWhole.chunk 0 letterEncoded) (Prod.ext hfirst rfl)).2 (letterWhole.chunk 0 [0x01])
      rfl rfl (by decide) (by decide) (by decide) (by decide +kernel)

end KeemashCore.OtaV3

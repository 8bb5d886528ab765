import KeemashCore.OtaV3.Validator

/-!
# Resuming a transfer

A stream rebuilt at a resume point runs in step with the one that was never
interrupted.  `Twin` relates the two: they agree on everything that later chunks
can reach, and the first carries the pieces and the payload from before the
point.  Whatever comes later, a resumed stream that finishes has a trail from
the resume point on.
-/

namespace KeemashCore.OtaV3

variable {env : OtaEnv}

/-! ## Reading back -/

theorem readBack_length {readFn : ReadFn} {offset left : ℕ} {hashed out : Bytes}
    (h : readBack readFn offset left hashed = .ok out) : out.length = hashed.length + left := by
  fun_induction readBack readFn offset left hashed with
  | case1 offset hashed =>
      cases h
      rfl
  | case2 offset left hashed hleft length err herr => cases h
  | case3 offset left hashed hleft length buffer hbuffer ih =>
      have hrest := ih h
      rw [List.length_append, Vector.length_toList] at hrest
      have hle : length ≤ left := Nat.min_le_left _ _
      omega

/-- The flash holds `bytes`. -/
def ReadsBack (readFn : ReadFn) (bytes : Bytes) : Prop :=
  ∀ offset length, offset + length ≤ bytes.length →
    ∃ buffer, readFn offset length = .ok buffer ∧
      buffer.toList = (bytes.drop offset).take length

theorem readBack_eq {readFn : ReadFn} {bytes : Bytes} (h : ReadsBack readFn bytes)
    {offset left : ℕ} (hashed : Bytes) (hle : offset + left ≤ bytes.length) :
    readBack readFn offset left hashed = .ok (hashed ++ (bytes.drop offset).take left) := by
  fun_induction readBack readFn offset left hashed with
  | case1 offset hashed => simp
  | case2 offset left hashed hleft length err herr =>
      have hlength : length ≤ left := Nat.min_le_left _ _
      obtain ⟨buffer, hbuffer, -⟩ := h offset length (by omega)
      rw [herr] at hbuffer
      cases hbuffer
  | case3 offset left hashed hleft length buffer hbuffer ih =>
      have hlength : length ≤ left := Nat.min_le_left _ _
      obtain ⟨buffer', hbuffer', hbytes⟩ := h offset length (by omega)
      obtain rfl : buffer = buffer' := Except.ok.inj (hbuffer.symm.trans hbuffer')
      have hsplit : (bytes.drop offset).take left =
          (bytes.drop offset).take length ++
            (bytes.drop (offset + length)).take (left - length) := by
        rw [← List.drop_drop, ← List.take_add]
        congr 1
        omega
      rw [ih (by omega), hbytes, hsplit, List.append_assoc]

/-! ## The resumed stream -/

/-- The state that `keemash_ota_v3_stream_resume` sets up. -/
def Stream.resumed (fields : SignedFields) (point : ResumePoint) (hashed : Bytes) :
    Stream env :=
  { Stream.fresh env fields with
    imageHash := hashed
    nextBlockIndex := point.nextBlockIndex
    rawOffset := point.rawOffset
    encodedOffset := point.encodedOffset
    blockChain := point.blockChain
    payloadHashComplete := false }

/-- Where a resumed stream starts. -/
def ResumePoint.base (point : ResumePoint) (raw : Bytes) : Base :=
  ⟨point.nextBlockIndex, raw, point.encodedOffset, point.blockChain⟩

/-- What `keemash_ota_v3_stream_resume` has checked. -/
theorem streamResume_ok {fields : SignedFields} {point : ResumePoint} {readFn : ReadFn}
    {s : Stream env} (h : streamResume fields point readFn = .ok s) :
    ∃ raw, readBack readFn 0 point.rawOffset [] = .ok raw ∧ s = Stream.resumed fields point raw ∧
      point.nextBlockIndex ≠ 0 ∧ env.sha256 raw = point.imagePrefixSha256 := by
  simp only [streamResume] at h
  split at h
  · cases h
  · next hshape =>
      split at h
      · cases h
      · next s' hbegin =>
          split at h
          · cases h
          · next raw hraw =>
              split at h
              · cases h
              · next hhash =>
                  simp only [streamBegin] at hbegin
                  split at hbegin
                  · cases hbegin
                  · cases hbegin
                    cases h
                    exact ⟨raw, hraw, rfl, fun hzero => hshape (Or.inl hzero),
                      by simpa using hhash⟩

theorem trail_resumed (fields : SignedFields) {point : ResumePoint} {raw : Bytes}
    (hindex : point.nextBlockIndex ≠ 0) (hraw : raw.length = point.rawOffset) :
    Trail (point.base raw) fields [] [] (Stream.resumed fields point raw : Stream env) where
  fields_eq := rfl
  tiled := fun n b h => by simp at h
  index := rfl
  rawOffset := hraw.symm
  encodedOffset := rfl
  imageHash := (List.append_nil _).symm
  payloadHash := rfl
  complete := (decide_eq_false hindex).symm
  output := rfl
  payload := rfl
  chain := rfl
  heads := rfl
  own := fun n b h => by simp [Stream.parts, Stream.resumed, Stream.fresh] at h
  owner := fun c h => by simp at h
  placed := .nil
  opened := fun h => by simp [Stream.resumed, Stream.fresh] at h

/-- What is known of a resumed stream that has finished: with the bytes read
back, its output is the image. -/
theorem resumed_sound {fields : SignedFields} {point : ResumePoint} {readFn : ReadFn}
    {s₀ : Stream env} (hresume : streamResume fields point readFn = .ok s₀)
    (outputFn : OutputFn) (calls : List StreamCall)
    (hok : (streamFinish (runStream outputFn s₀ calls)).1 = .ok) :
    ∃ raw, readBack readFn 0 point.rawOffset [] = .ok raw ∧
      (raw ++ (runStream outputFn s₀ calls).sent.flatten).length = fields.rawSize ∧
      env.sha256 (raw ++ (runStream outputFn s₀ calls).sent.flatten) = fields.imageSha256 ∧
      chainOf env point.blockChain (headsOf (accepted outputFn s₀ calls)) =
        fields.blockTableSha256 := by
  obtain ⟨raw, hraw, rfl, hindex, -⟩ := streamResume_ok hresume
  have hlength : raw.length = point.rawOffset := by simpa using readBack_length hraw
  refine ⟨raw, hraw, ?_⟩
  obtain ⟨hfailed, hidle, -, hrawOffset, -, himage, -, hchain⟩ := streamFinish_ok hok
  rcases runStream_trail (trail_resumed fields hindex hlength) rfl outputFn calls with
    hno | ⟨blocks, htrail, -⟩
  · rw [hfailed] at hno
    cases hno
  · have hparts := Stream.parts_idle hidle blocks
    have hheads := htrail.heads
    rw [hidle] at hheads
    simp only [Bool.false_eq_true, false_and, if_false, List.append_nil] at hheads
    rw [htrail.fields_eq] at hrawOffset himage hchain
    refine ⟨?_, ?_, ?_⟩
    · rw [htrail.output, hparts, List.length_append, ← hrawOffset]
      exact htrail.rawOffset.symm
    · rw [← himage, htrail.imageHash]
      rfl
    · rw [hheads, ← hchain, htrail.chain, hparts]
      rfl

/-! ## Running in step -/

/-- The interrupted stream `r` and the uninterrupted one `s`, which put out `pieces`
and hashed `payload` before block `index`. -/
structure Twin (index : ℕ) (pieces : List Bytes) (payload : Bytes) (s r : Stream env) :
    Prop where
  fields : s.fields = r.fields
  imageHash : s.imageHash = r.imageHash
  payloadHash : s.payloadHash = payload ++ r.payloadHash
  chain : s.blockChain = r.blockChain
  rawOffset : s.rawOffset = r.rawOffset
  encodedOffset : s.encodedOffset = r.encodedOffset
  nextBlockIndex : s.nextBlockIndex = r.nextBlockIndex
  blockActive : s.blockActive = r.blockActive
  failed : s.failed = r.failed
  finished : s.finished = r.finished
  complete : r.payloadHashComplete = false
  sent : s.sent = pieces ++ r.sent
  opened : r.blockActive = true → s.inflater = r.inflater ∧ s.block = r.block ∧
    s.blockRawHash = r.blockRawHash ∧ s.blockEncodedHash = r.blockEncodedHash ∧
    s.blockEncodedOffset = r.blockEncodedOffset
  isRepeat : ∀ c : Chunk, index ≤ c.descriptor.index → s.isRepeat c = r.isRepeat c
  sameChunk : ∀ c : Chunk, r.isRepeat c = true → s.sameChunk c = r.sameChunk c

section

variable {σ τ : Type} {R : σ → τ → Prop} {f : σ → Bytes → EspErr × σ}
  {g : τ → Bytes → EspErr × τ}

/-- Turns that end alike, with related sinks. -/
inductive Pass.Related (R : σ → τ → Prop) : Pass env σ → Pass env τ → Prop where
  | stop {err : EspErr} {i : Inflater env} {x : σ} {y : τ} (h : R x y) :
      Related R (.stop err i x) (.stop err i y)
  | more {i : Inflater env} {rest : Bytes} {x : σ} {y : τ} (h : R x y) :
      Related R (.more i rest x) (.more i rest y)

/-- Output callbacks that answer alike and keep their sinks related. -/
def OutputsAlike (R : σ → τ → Prop) (f : σ → Bytes → EspErr × σ) (g : τ → Bytes → EspErr × τ) :
    Prop :=
  ∀ x y bytes, R x y → (f x bytes).1 = (g y bytes).1 ∧ R (f x bytes).2 (g y bytes).2

theorem inflaterPass_related (hstep : OutputsAlike R f g) (final : Bool) (i : Inflater env)
    (input : Bytes) {x : σ} {y : τ} (h : R x y) :
    Pass.Related R (inflaterPass env f final i input x) (inflaterPass env g final i input y) := by
  have hemit (produced : Bytes) : (emitPiece f x produced).1 = (emitPiece g y produced).1 ∧
      R (emitPiece f x produced).2 (emitPiece g y produced).2 := by
    by_cases hnil : produced = []
    · simp only [emitPiece, if_pos hnil]
      exact ⟨trivial, h⟩
    · simp only [emitPiece, if_neg hnil]
      exact hstep x y produced h
  obtain ⟨herr, hsink⟩ := hemit
    (env.zlib.inflate i.stream input inflateOutputBytes final).produced
  simp only [inflaterPass, herr]
  split
  · exact .stop h
  · split
    · exact .stop hsink
    · split
      · exact .stop hsink
      · exact .more hsink

/-- Two runs of the inflater whose callbacks answer alike do the same. -/
theorem inflaterLoop_related (hstep : OutputsAlike R f g) (final : Bool) (i : Inflater env)
    (input : Bytes) {x : σ} {y : τ} (h : R x y) :
    (inflaterLoop env f final i input x).1 = (inflaterLoop env g final i input y).1 ∧
      (inflaterLoop env f final i input x).2.1 = (inflaterLoop env g final i input y).2.1 ∧
      R (inflaterLoop env f final i input x).2.2 (inflaterLoop env g final i input y).2.2 := by
  fun_induction inflaterLoop env f final i input x generalizing y with
  | case1 i input x err i' x' hpass =>
      have hrelated := inflaterPass_related hstep final i input h
      rw [hpass] at hrelated
      rw [inflaterLoop]
      generalize inflaterPass env g final i input y = pass at hrelated
      cases hrelated with
      | stop h' => exact ⟨rfl, rfl, h'⟩
  | case2 i input x i' rest x' hpass ih =>
      have hrelated := inflaterPass_related hstep final i input h
      rw [hpass] at hrelated
      rw [inflaterLoop.eq_def env g final i input y]
      generalize inflaterPass env g final i input y = pass at hrelated
      cases hrelated with
      | more h' => exact ih h'

theorem inflaterFeed_related (hstep : OutputsAlike R f g) (final : Bool) (i : Inflater env)
    (encoded : Bytes) {x : σ} {y : τ} (h : R x y) :
    (inflaterFeed env f i encoded final x).1 = (inflaterFeed env g i encoded final y).1 ∧
      (inflaterFeed env f i encoded final x).2.1 = (inflaterFeed env g i encoded final y).2.1 ∧
      R (inflaterFeed env f i encoded final x).2.2
        (inflaterFeed env g i encoded final y).2.2 := by
  by_cases hactive : i.active = false
  · simp only [inflaterFeed, if_pos hactive]
    exact ⟨trivial, trivial, h⟩
  · simp only [inflaterFeed, if_neg hactive]
    exact inflaterLoop_related hstep final i encoded h

end

/-- The output callback of the resumed stream, which goes on after `pieces`. -/
def OutputFn.after (pieces : List Bytes) (outputFn : OutputFn) : OutputFn :=
  fun sent bytes => outputFn (pieces ++ sent) bytes

section

variable {index : ℕ} {pieces : List Bytes} {payload : Bytes} {s r : Stream env}

theorem Twin.fail (h : Twin index pieces payload s r) :
    Twin index pieces payload s.fail r.fail :=
  { h with
    blockActive := rfl
    failed := rfl
    opened := fun hno => nomatch hno
    isRepeat := h.isRepeat
    sameChunk := h.sameChunk }

theorem Twin.outputsAlike (outputFn : OutputFn) :
    OutputsAlike (fun s r : Stream env => Twin index pieces payload s r ∧ r.blockActive = true)
      (streamOutput outputFn) (streamOutput (outputFn.after pieces)) := by
  intro s r bytes hrelated
  obtain ⟨h, hactive⟩ := hrelated
  obtain ⟨hinflater, hblock, hraw, hencoded, hoffset⟩ := h.opened hactive
  refine ⟨?_, { h with
    imageHash := ?_, sent := ?_, opened := fun _ => ⟨hinflater, hblock, ?_, hencoded, hoffset⟩
    isRepeat := h.isRepeat, sameChunk := h.sameChunk }, hactive⟩
  · simp only [streamOutput, OutputFn.after, h.sent]
  · simp only [streamOutput, h.imageHash]
  · simp only [streamOutput, h.sent, List.append_assoc]
  · simp only [streamOutput, hraw]

theorem Twin.startBlock (h : Twin index pieces payload s r) (d : BlockDescriptor) :
    (startBlock s d).1 = (startBlock r d).1 ∧
      Twin index pieces payload (OtaV3.startBlock s d).2 (OtaV3.startBlock r d).2 := by
  simp only [OtaV3.startBlock, h.fields, h.nextBlockIndex, h.rawOffset, h.encodedOffset, h.chain]
  cases checkBlockDescriptor env r.fields d r.nextBlockIndex r.rawOffset r.encodedOffset
      r.blockChain with
  | error err => exact ⟨rfl, h⟩
  | ok next =>
      by_cases hkind : d.kind ≠ blockDeflate
      · simp only [if_pos hkind]
        exact ⟨trivial, h⟩
      · simp only [if_neg hkind]
        by_cases hsize : d.rawSize = 0 ∨ d.rawSize > fullBlockSize
        · simp only [inflaterBegin, if_pos hsize]
          exact ⟨trivial, { h with
            fields := rfl, chain := rfl, rawOffset := rfl, encodedOffset := rfl
            nextBlockIndex := rfl, blockActive := rfl, opened := fun hno => Bool.noConfusion hno
            isRepeat := h.isRepeat, sameChunk := h.sameChunk }⟩
        · simp only [inflaterBegin, if_neg hsize]
          exact ⟨trivial, { h with
            fields := rfl, chain := rfl, rawOffset := rfl, encodedOffset := rfl
            nextBlockIndex := rfl, blockActive := rfl
            opened := fun _ => ⟨rfl, rfl, rfl, rfl, rfl⟩
            isRepeat := h.isRepeat, sameChunk := h.sameChunk }⟩

theorem Twin.openBlock (h : Twin index pieces payload s r) (d : BlockDescriptor)
    (offset : ℕ) :
    (openBlock s d offset).1 = (openBlock r d offset).1 ∧
      Twin index pieces payload (OtaV3.openBlock s d offset).2
        (OtaV3.openBlock r d offset).2 := by
  simp only [OtaV3.openBlock, h.blockActive]
  by_cases hidle : r.blockActive = false
  · simp only [if_pos hidle]
    split
    · exact ⟨rfl, h⟩
    · exact h.startBlock d
  · have hactive : r.blockActive = true := by simpa using hidle
    obtain ⟨-, hblock, -⟩ := h.opened hactive
    simp only [if_neg hidle, hblock]
    split
    · exact ⟨rfl, h⟩
    · exact ⟨rfl, h⟩

/-- A block that has opened is the one of the descriptor, and it is active. -/
theorem openBlock_active {d : BlockDescriptor} {offset : ℕ}
    (hok : (openBlock r d offset).1 = .ok) : (openBlock r d offset).2.blockActive = true := by
  simp only [openBlock] at hok ⊢
  by_cases hidle : r.blockActive = false
  · rw [if_pos hidle] at hok ⊢
    split at hok
    · cases hok
    · next hoffset =>
        rw [if_neg hoffset]
        simp only [startBlock] at hok ⊢
        cases hcheck : checkBlockDescriptor env r.fields d r.nextBlockIndex r.rawOffset
            r.encodedOffset r.blockChain with
        | error err =>
            rw [hcheck] at hok
            exact absurd hok (checkBlockDescriptor_error hcheck)
        | ok next =>
            simp only [hcheck] at hok ⊢
            split at hok
            · cases hok
            · next hkind =>
                rw [if_neg hkind]
                exact decide_eq_true hok
  · rw [if_neg hidle] at hok ⊢
    split at hok
    · next hsame =>
        rw [if_pos hsame]
        simpa using hidle
    · cases hok

theorem Twin.finishBlock (h : Twin index pieces payload s r) (hactive : r.blockActive = true) :
    (finishBlock s).1 = (finishBlock r).1 ∧
      Twin index pieces payload (OtaV3.finishBlock s).2 (OtaV3.finishBlock r).2 := by
  obtain ⟨-, hblock, hraw, hencoded, -⟩ := h.opened hactive
  simp only [OtaV3.finishBlock, hblock, hraw, hencoded]
  split
  · exact ⟨rfl, h⟩
  · refine ⟨rfl, { h with
      rawOffset := ?_, encodedOffset := ?_, nextBlockIndex := ?_, blockActive := rfl
      opened := fun hno => Bool.noConfusion hno
      isRepeat := h.isRepeat, sameChunk := h.sameChunk }⟩
    · simp only [h.rawOffset]
    · simp only [h.encodedOffset]
    · simp only [h.nextBlockIndex]

theorem Twin.hashChunk (h : Twin index pieces payload s r) (chunk : Bytes) :
    Twin index pieces payload (s.hashChunk chunk) (r.hashChunk chunk) :=
  { h with
    payloadHash := by simp only [Stream.hashChunk, h.payloadHash, List.append_assoc]
    opened := fun hactive => by
      obtain ⟨hinflater, hblock, hraw, hencoded, hoffset⟩ := h.opened hactive
      exact ⟨hinflater, hblock, hraw, by simp only [Stream.hashChunk, hencoded], hoffset⟩
    isRepeat := h.isRepeat
    sameChunk := h.sameChunk }

theorem Twin.takeChunk (h : Twin index pieces payload s r) (hactive : r.blockActive = true)
    (outputFn : OutputFn) (chunk : Bytes) (final : Bool) :
    (takeChunk outputFn s chunk final).1 =
        (takeChunk (outputFn.after pieces) r chunk final).1 ∧
      Twin index pieces payload (OtaV3.takeChunk outputFn s chunk final).2
        (OtaV3.takeChunk (outputFn.after pieces) r chunk final).2 := by
  obtain ⟨hinflater, -⟩ := h.opened hactive
  have hrelated := inflaterFeed_related (Twin.outputsAlike outputFn) final r.inflater chunk
    (⟨h, hactive⟩ : _ ∧ _)
  simp only [OtaV3.takeChunk, hinflater]
  cases hs : inflaterFeed env (streamOutput outputFn) r.inflater chunk final s with
  | mk err rest =>
      obtain ⟨i, s'⟩ := rest
      cases hr : inflaterFeed env (streamOutput (outputFn.after pieces)) r.inflater chunk final
          r with
      | mk err' rest' =>
          obtain ⟨i', r'⟩ := rest'
          simp only [hs, hr] at hrelated ⊢
          obtain ⟨rfl, rfl, htwin, hactive'⟩ := hrelated
          obtain ⟨-, hblock', hraw', hencoded', hoffset'⟩ := htwin.opened hactive'
          split
          · exact ⟨rfl, { htwin with
              opened := fun hopen => ⟨rfl, (htwin.opened hopen).2⟩
              isRepeat := htwin.isRepeat
              sameChunk := htwin.sameChunk }⟩
          · have hcounted : Twin index pieces payload
                { s' with
                  inflater := i
                  blockEncodedOffset := s'.blockEncodedOffset + chunk.length }
                { r' with
                  inflater := i
                  blockEncodedOffset := r'.blockEncodedOffset + chunk.length } :=
              { htwin with
                opened := fun _ =>
                  ⟨rfl, hblock', hraw', hencoded', by simp only [hoffset']⟩
                isRepeat := htwin.isRepeat
                sameChunk := htwin.sameChunk }
            split
            · exact hcounted.finishBlock hactive'
            · exact ⟨rfl, hcounted⟩

theorem Twin.inflateChunk (h : Twin index pieces payload s r) (hactive : r.blockActive = true)
    (outputFn : OutputFn) (offset : ℕ) (chunk : Bytes) (final : Bool) :
    (inflateChunk outputFn s offset chunk final).1 =
        (inflateChunk (outputFn.after pieces) r offset chunk final).1 ∧
      Twin index pieces payload (OtaV3.inflateChunk outputFn s offset chunk final).2
        (OtaV3.inflateChunk (outputFn.after pieces) r offset chunk final).2 := by
  obtain ⟨-, hblock, -, -, hoffset⟩ := h.opened hactive
  simp only [OtaV3.inflateChunk, hblock, hoffset]
  split
  · exact ⟨rfl, h⟩
  · exact (h.hashChunk chunk).takeChunk hactive outputFn chunk final

/-- A chunk from the resume point on is treated alike. -/
theorem Twin.streamFeed (h : Twin index pieces payload s r) (outputFn : OutputFn) {c : Chunk}
    (hindex : index ≤ c.descriptor.index) :
    (streamFeed outputFn s c).1 = (streamFeed (outputFn.after pieces) r c).1 ∧
      Twin index pieces payload (OtaV3.streamFeed outputFn s c).2
        (OtaV3.streamFeed (outputFn.after pieces) r c).2 := by
  simp only [OtaV3.streamFeed, h.failed, h.finished, h.isRepeat c hindex]
  split
  · exact ⟨rfl, h⟩
  · split
    · next hplace =>
        rw [h.sameChunk c hplace]
        split
        · exact ⟨rfl, h⟩
        · exact ⟨rfl, h.fail⟩
    · obtain ⟨hopenErr, hopen⟩ := h.openBlock c.descriptor c.offset
      simp only [hopenErr]
      split
      · exact ⟨rfl, hopen.fail⟩
      · next hok =>
          have hactive := openBlock_active (by simpa using hok)
          obtain ⟨hinflateErr, hinflate⟩ :=
            hopen.inflateChunk hactive outputFn c.offset c.bytes c.final
          simp only [hinflateErr]
          split
          · exact ⟨rfl, hinflate.fail⟩
          · exact ⟨rfl, { hinflate with
              opened := hinflate.opened
              isRepeat := fun _ _ => rfl
              sameChunk := fun _ _ => rfl }⟩

theorem Twin.runStream (h : Twin index pieces payload s r) (outputFn : OutputFn)
    (chunks : List Chunk) (hindex : ∀ c ∈ chunks, index ≤ c.descriptor.index) :
    results outputFn s (chunks.map .feed) =
        results (outputFn.after pieces) r (chunks.map .feed) ∧
      Twin index pieces payload (runStream outputFn s (chunks.map .feed))
        (runStream (outputFn.after pieces) r (chunks.map .feed)) := by
  induction chunks generalizing s r with
  | nil => exact ⟨rfl, h⟩
  | cons c chunks ih =>
      obtain ⟨herr, htwin⟩ := h.streamFeed outputFn (hindex c List.mem_cons_self)
      obtain ⟨hresults, hrun⟩ := ih htwin fun c hc => hindex c (List.mem_cons_of_mem _ hc)
      refine ⟨?_, hrun⟩
      simp only [List.map_cons, results, StreamCall.run, herr]
      exact congrArg _ hresults

/-- The two streams finish alike, once the whole payload is known to be the signed
one. -/
theorem Twin.streamFinish (h : Twin index pieces payload s r)
    (hpayload : s.failed = false → s.blockActive = false →
      s.nextBlockIndex = s.fields.blockCount →
      env.sha256 s.payloadHash = s.fields.encodedSha256) :
    (streamFinish s).1 = (streamFinish r).1 := by
  simp only [OtaV3.streamFinish, h.failed, h.finished, h.blockActive, h.nextBlockIndex,
    h.fields, h.rawOffset, h.encodedOffset, h.imageHash, h.chain, h.complete]
  split
  · rfl
  · next hstate =>
      simp only [not_or, Bool.not_eq_true, ne_eq, Decidable.not_not] at hstate
      obtain ⟨hfailed, -, hidle, hcount, -⟩ := hstate
      rw [h.failed, h.blockActive, h.nextBlockIndex, h.fields] at hpayload
      have hpayload := hpayload hfailed hidle hcount
      simp [hpayload, apply_ite Prod.fst]


end

/-! ## Genuine artifacts -/

/-- The blocks of a full-deflate artifact, consistent with its signed fields. -/
structure Genuine (env : OtaEnv) (fields : SignedFields) (artifact : List Block) : Prop where
  codec : fields.codec = codecFullDeflate
  blockSize : fields.blockSize = fullBlockSize
  count : artifact.length = fields.blockCount
  tiled : Tiled env Base.start artifact
  full : ∀ n b, artifact[n]? = some b → n + 1 < artifact.length →
    b.descriptor.rawSize = fields.blockSize
  deflate : ∀ b ∈ artifact, b.descriptor.kind = blockDeflate
  raw_pos : ∀ b ∈ artifact, 0 < b.descriptor.rawSize
  encoded_pos : ∀ b ∈ artifact, 0 < b.descriptor.encodedSize
  raw_length : (rawOf artifact).length = fields.rawSize
  raw_hash : env.sha256 (rawOf artifact) = fields.imageSha256
  encoded_length : (encodedOf artifact).length = fields.encodedSize
  encoded_hash : env.sha256 (encodedOf artifact) = fields.encodedSha256
  chain : chainOf env zeroDigest (descriptorsOf artifact) = fields.blockTableSha256

/-- The chunk is cut from the artifact. -/
def Chunk.Cut (artifact : List Block) (c : Chunk) : Prop :=
  ∃ b ∈ artifact, c.descriptor = b.descriptor ∧ c.bytes <+: b.encoded.drop c.offset

/-- Blocks of one tiling with one index are the same. -/
theorem Tiled.unique {base : Base} {blocks : List Block} (h : Tiled env base blocks) {n : ℕ}
    {b b' : Block} (hb : blocks[n]? = some b) (hb' : b' ∈ blocks)
    (hindex : b'.descriptor.index = base.index + n) : b' = b := by
  obtain ⟨m, hm⟩ := List.getElem?_of_mem hb'
  obtain ⟨-, hplace, -⟩ := h m b' hm
  have hmn : m = n := by omega
  rw [hmn, hb] at hm
  exact (Option.some.inj hm).symm

/-- The accepted chunks of a block are a prefix of its encoded bytes. -/
theorem Placed.cut {artifact : List Block} (htiled : Tiled env Base.start artifact)
    {chunks : List Chunk} (h : Placed chunks) (hcut : ∀ c ∈ chunks, c.Cut artifact) {n : ℕ}
    {b : Block} (hb : artifact[n]? = some b) :
    payloadOf (chunksOf n chunks) <+: b.encoded := by
  induction h with
  | nil => exact List.nil_prefix
  | @snoc chunks c hplaced hoffset ih =>
      have hold := ih fun c' hc' => hcut c' (List.mem_append_left _ hc')
      rw [chunksOf_snoc]
      by_cases hindex : c.descriptor.index = n
      · rw [if_pos hindex, payloadOf_append, payloadOf_singleton]
        obtain ⟨b', hb', hdescriptor, hbytes⟩ := hcut c (by simp)
        obtain rfl : b' = b := htiled.unique hb hb' (by
          rw [← hdescriptor, hindex]
          exact (Nat.zero_add n).symm)
        rw [hoffset, hindex] at hbytes
        obtain ⟨rest, hrest⟩ := hold
        rw [← hrest, List.drop_left] at hbytes
        rw [← hrest]
        exact (List.prefix_append_right_inj _).mpr hbytes
      · rw [if_neg hindex, List.append_nil]
        exact hold

/-- The blocks finished from genuine chunks are the first blocks of the artifact. -/
theorem Trail.genuine {artifact : List Block} (htiled : Tiled env Base.start artifact)
    {fields : SignedFields} {chunks : List Chunk} {blocks : List Block} {s : Stream env}
    (h : Trail Base.start fields chunks blocks s) (hcut : ∀ c ∈ chunks, c.Cut artifact)
    {n : ℕ} {b : Block} (hb : blocks[n]? = some b) :
    ∃ a, artifact[n]? = some a ∧ b.descriptor = a.descriptor ∧ b.encoded = a.encoded := by
  obtain ⟨hsealed, hindex, -⟩ := h.tiled n b hb
  -- The descriptor came in with the first chunk of the block.
  have hhead : b.descriptor ∈ headsOf chunks := by
    rw [h.heads]
    exact List.mem_append_left _
      (List.mem_map_of_mem (List.mem_of_getElem? hb))
  obtain ⟨c, hc, hdescriptor⟩ := List.mem_map.mp hhead
  obtain ⟨a, ha, hca, -⟩ := hcut c (List.mem_of_mem_filter hc)
  have hba : b.descriptor = a.descriptor := hdescriptor.symm.trans hca
  obtain ⟨m, hm⟩ := List.getElem?_of_mem ha
  obtain ⟨hsealed', hindex', -⟩ := htiled m a hm
  have hmn : m = n := by
    rw [hba] at hindex
    omega
  subst hmn
  refine ⟨a, hm, hba, ?_⟩
  have hown : payloadOf (chunksOf m chunks) = b.encoded := by
    have hpart : (s.parts blocks)[m]? = some b := by
      rw [Stream.parts, List.getElem?_append_left (List.getElem?_eq_some_iff.mp hb).1]
      exact hb
    have hzero := h.own m b hpart
    rwa [show Base.start.index + m = m from Nat.zero_add m] at hzero
  have hprefix := h.placed.cut htiled hcut hm
  rw [hown] at hprefix
  refine hprefix.eq_of_length ?_
  rw [hsealed.encoded_length, hsealed'.encoded_length, hba]

/-- So they agree with the artifact in descriptors and encoded bytes. -/
theorem Trail.genuine_take {artifact : List Block} (htiled : Tiled env Base.start artifact)
    {fields : SignedFields} {chunks : List Chunk} {blocks : List Block} {s : Stream env}
    (h : Trail Base.start fields chunks blocks s) (hcut : ∀ c ∈ chunks, c.Cut artifact) :
    descriptorsOf blocks = descriptorsOf (artifact.take blocks.length) ∧
      encodedOf blocks = encodedOf (artifact.take blocks.length) := by
  have hsame {α : Type} (f : Block → α) (hf : ∀ (n : ℕ) (b a : Block), blocks[n]? = some b →
      artifact[n]? = some a → b.descriptor = a.descriptor → b.encoded = a.encoded →
      f b = f a) : blocks.map f = (artifact.take blocks.length).map f := by
    refine List.ext_getElem? fun n => ?_
    rw [List.getElem?_map, List.getElem?_map]
    cases hb : blocks[n]? with
    | none =>
        rw [List.getElem?_eq_none_iff] at hb
        rw [List.getElem?_take, if_neg (by omega)]
    | some b =>
        obtain ⟨a, ha, hd, he⟩ := h.genuine htiled hcut hb
        rw [List.getElem?_take, if_pos (List.getElem?_eq_some_iff.mp hb).1, ha]
        exact congrArg some (hf n b a hb ha hd he)
  refine ⟨hsame Block.descriptor fun _ _ _ _ _ hd _ => hd, ?_⟩
  rw [encodedOf, encodedOf, hsame Block.encoded fun _ _ _ _ _ _ he => he]

/-- An accepted chunk is one of the chunks fed. -/
theorem mem_accepted {outputFn : OutputFn} {s : Stream env} {calls : List StreamCall}
    {c : Chunk} (h : c ∈ accepted outputFn s calls) : .feed c ∈ calls := by
  have hadmit (xs : List Chunk) : ∀ acc, c ∈ xs.foldl admitChunk acc → c ∈ acc ∨ c ∈ xs := by
    induction xs with
    | nil => exact fun acc hc => Or.inl hc
    | cons x xs ih =>
        intro acc hc
        rcases ih _ hc with hacc | hxs
        · rw [admitChunk] at hacc
          split at hacc
          · exact Or.inl hacc
          · rcases List.mem_append.mp hacc with hacc | hx
            · exact Or.inl hacc
            · exact Or.inr (by simp [List.mem_singleton.mp hx])
        · exact Or.inr (List.mem_cons_of_mem _ hxs)
  rcases hadmit _ [] h with hnil | hmem
  · cases hnil
  · obtain ⟨⟨call, err⟩, hzip, hfed⟩ := List.mem_filterMap.mp hmem
    have hcall := (List.of_mem_zip hzip).1
    cases call with
    | feed c' =>
        cases err <;> simp only [fedChunk?, reduceCtorEq, Option.some.injEq] at hfed
        subst hfed
        exact hcall
    | finish => simp [fedChunk?] at hfed

/-! ## Resuming at a checkpoint -/

theorem streamBegin_ok {fields : SignedFields} {s : Stream env}
    (h : streamBegin fields = .ok s) :
    s = Stream.fresh env fields ∧ fields.codec = codecFullDeflate ∧
      fields.blockSize = fullBlockSize := by
  simp only [streamBegin] at h
  split at h
  · cases h
  · next hshape =>
      simp only [not_or, ne_eq, Decidable.not_not] at hshape
      exact ⟨(Except.ok.inj h).symm, hshape.1, hshape.2.1⟩

/-- What `keemash_ota_v3_stream_checkpoint` reports. -/
theorem streamCheckpoint_ok {s : Stream env} {point : ResumePoint}
    (h : streamCheckpoint s = .ok point) :
    s.failed = false ∧ s.finished = false ∧ s.blockActive = false ∧ s.nextBlockIndex ≠ 0 ∧
      s.nextBlockIndex < s.fields.blockCount ∧
      point = ⟨s.nextBlockIndex, s.rawOffset, s.encodedOffset, s.blockChain,
        env.sha256 s.imageHash⟩ := by
  simp only [streamCheckpoint] at h
  split at h
  · cases h
  · next hstate =>
      simp only [not_or, Bool.not_eq_true, Nat.not_le, ge_iff_le] at hstate
      obtain ⟨hfailed, hfinished, hidle, hzero, hcount, -⟩ := hstate
      exact ⟨hfailed, hfinished, hidle, hzero, hcount, (Except.ok.inj h).symm⟩

/-- All blocks of a genuine artifact before its last have the full size. -/
theorem Genuine.rawOf_take {fields : SignedFields} {artifact : List Block}
    (hgenuine : Genuine env fields artifact) {n : ℕ} (h : n < artifact.length) :
    (rawOf (artifact.take n)).length = n * fields.blockSize := by
  induction n with
  | zero => simp [rawOf]
  | succ n ih =>
      have hn : n < artifact.length := by omega
      have hfull := hgenuine.full n artifact[n] (List.getElem?_eq_getElem hn) h
      obtain ⟨hsealed, -⟩ := hgenuine.tiled n artifact[n] (List.getElem?_eq_getElem hn)
      rw [List.take_succ_eq_append_getElem hn, rawOf, List.map_append, List.flatten_append,
        List.length_append]
      have hold := ih hn
      rw [rawOf] at hold
      rw [hold]
      simp [hsealed.raw_length, hfull, Nat.add_mul]

/-- A genuine artifact goes on after each of its boundaries. -/
theorem Genuine.lt_of_take {fields : SignedFields} {artifact : List Block}
    (hgenuine : Genuine env fields artifact) {n : ℕ} (h : n < artifact.length) :
    (rawOf (artifact.take n)).length < fields.rawSize ∧
      (encodedOf (artifact.take n)).length < fields.encodedSize := by
  have hmem : artifact[n] ∈ artifact := List.getElem_mem h
  have hraw := hgenuine.raw_pos _ hmem
  have hencoded := hgenuine.encoded_pos _ hmem
  obtain ⟨hsealed, -⟩ := hgenuine.tiled n artifact[n] (List.getElem?_eq_getElem h)
  have hsplit : artifact = artifact.take n ++ artifact[n] :: artifact.drop (n + 1) := by
    rw [← List.drop_eq_getElem_cons h, List.take_append_drop]
  have hrawLength := hgenuine.raw_length
  have hencodedLength := hgenuine.encoded_length
  rw [hsplit] at hrawLength hencodedLength
  simp only [rawOf, encodedOf, List.map_append, List.map_cons, List.flatten_append,
    List.flatten_cons, List.length_append, hsealed.raw_length, hsealed.encoded_length]
    at hrawLength hencodedLength
  simp only [rawOf, encodedOf]
  constructor <;> omega

/-- The first block of a genuine artifact has encoded bytes. -/
theorem Genuine.encodedOf_take_ne {fields : SignedFields} {artifact : List Block}
    (hgenuine : Genuine env fields artifact) {n : ℕ} (hpos : n ≠ 0) (h : n ≤ artifact.length) :
    (encodedOf (artifact.take n)).length ≠ 0 := by
  intro hnone
  have hfirst : 0 < artifact.length := Nat.lt_of_lt_of_le (Nat.pos_of_ne_zero hpos) h
  obtain ⟨hsealed, -⟩ := hgenuine.tiled 0 artifact[0] (List.getElem?_eq_getElem hfirst)
  have hencoded := hgenuine.encoded_pos _ (List.getElem_mem hfirst)
  have hmem : artifact[0].encoded ∈ (artifact.take n).map Block.encoded := by
    refine List.mem_map_of_mem (List.mem_take_iff_getElem.mpr ⟨0, ?_, rfl⟩)
    omega
  have hle := (List.sublist_flatten_of_mem hmem).length_le
  rw [encodedOf] at hnone
  rw [hnone, hsealed.encoded_length] at hle
  exact Nat.not_lt.mpr hle hencoded

/-- At a block boundary of a genuine artifact the offsets are those that a resume
accepts. -/
theorem Genuine.boundary {fields : SignedFields} {artifact : List Block}
    (hgenuine : Genuine env fields artifact) {chunks : List Chunk} {blocks : List Block}
    {s : Stream env} (h : Trail Base.start fields chunks blocks s)
    (hcut : ∀ c ∈ chunks, c.Cut artifact) (hzero : s.nextBlockIndex ≠ 0)
    (hcount : s.nextBlockIndex < fields.blockCount) :
    s.nextBlockIndex * fields.blockSize = s.rawOffset ∧ s.rawOffset < fields.rawSize ∧
      s.encodedOffset ≠ 0 ∧ s.encodedOffset < fields.encodedSize := by
  obtain ⟨hdescriptors, hencoded⟩ := h.genuine_take hgenuine.tiled hcut
  have hindex : s.nextBlockIndex = blocks.length := h.index.trans (Nat.zero_add _)
  have hlt : blocks.length < artifact.length := by
    rw [hgenuine.count]
    omega
  have hraw : s.rawOffset = (rawOf blocks).length := h.rawOffset.trans (Nat.zero_add _)
  have hencodedOffset : s.encodedOffset = (encodedOf blocks).length :=
    h.encodedOffset.trans (Nat.zero_add _)
  -- Both lengths are sums over the same descriptors.
  have hrawTake : (rawOf blocks).length = (rawOf (artifact.take blocks.length)).length := by
    have hleft := h.tiled.sum_rawSize blocks.length
    have hright := hgenuine.tiled.sum_rawSize blocks.length
    rw [List.take_length] at hleft
    rw [← hleft, ← hright, hdescriptors]
    simp [descriptorsOf, List.map_take, List.take_take]
  obtain ⟨hrawLt, hencodedLt⟩ := hgenuine.lt_of_take hlt
  rw [hraw, hrawTake, hencodedOffset, hencoded, hindex]
  exact ⟨(hgenuine.rawOf_take hlt).symm, hrawLt,
    hgenuine.encodedOf_take_ne (hindex ▸ hzero) (Nat.le_of_lt hlt), hencodedLt⟩

/-- The stream that goes on and the one rebuilt at its boundary run in step. -/
theorem twin_resumed {fields : SignedFields} {chunks : List Chunk} {blocks : List Block}
    {s : Stream env} (h : Trail Base.start fields chunks blocks s) (hlast : Remembers chunks s)
    {point : ResumePoint} (hpoint : streamCheckpoint s = .ok point) :
    Twin point.nextBlockIndex s.sent s.payloadHash s
      (Stream.resumed fields point s.sent.flatten) := by
  obtain ⟨hfailed, hfinished, hidle, -, -, rfl⟩ := streamCheckpoint_ok hpoint
  have hnew (c : Chunk) (hindex : s.nextBlockIndex ≤ c.descriptor.index) :
      s.isRepeat c = false := by
    rw [Stream.isRepeat, decide_eq_false_iff_not]
    intro hplace
    obtain ⟨hvalid, hsame, -⟩ := hplace
    obtain ⟨last, hmem, hlastIndex, -⟩ := hlast.valid hvalid
    obtain ⟨n, b, hn, hb, -⟩ := h.owner last (List.mem_of_getLast? hmem)
    rw [Stream.parts_idle hidle] at hb
    have hlt := (List.getElem?_eq_some_iff.mp hb).1
    have hcount := h.index
    omega
  exact {
    fields := h.fields_eq
    imageHash := h.imageHash
    payloadHash := (List.append_nil _).symm
    chain := rfl
    rawOffset := rfl
    encodedOffset := rfl
    nextBlockIndex := rfl
    blockActive := hidle
    failed := hfailed
    finished := hfinished
    complete := rfl
    sent := (List.append_nil _).symm
    opened := fun hactive => Bool.noConfusion hactive
    isRepeat := hnew
    sameChunk := fun c hplace => by simp [Stream.isRepeat, Stream.resumed, Stream.fresh] at hplace }

/-- A checkpoint of a genuine transfer is accepted when the flash holds the output
so far. -/
theorem Genuine.resumes {fields : SignedFields} {artifact : List Block}
    (hgenuine : Genuine env fields artifact)
    (hbegin : streamBegin fields = .ok (Stream.fresh env fields)) {chunks : List Chunk}
    {blocks : List Block} {s : Stream env} (h : Trail Base.start fields chunks blocks s)
    (hcut : ∀ c ∈ chunks, c.Cut artifact) {point : ResumePoint}
    (hpoint : streamCheckpoint s = .ok point) {readFn : ReadFn}
    (hread : ReadsBack readFn s.sent.flatten) :
    streamResume fields point readFn =
      .ok (Stream.resumed fields point s.sent.flatten : Stream env) := by
  obtain ⟨-, -, hidle, hzero, hcount, rfl⟩ := streamCheckpoint_ok hpoint
  rw [h.fields_eq] at hcount
  obtain ⟨hraw, hrawLt, hencodedZero, hencodedLt⟩ := hgenuine.boundary h hcut hzero hcount
  have hlength : s.rawOffset = s.sent.flatten.length := by
    rw [h.rawOffset, h.output, Stream.parts_idle hidle]
    exact Nat.zero_add _
  have hback : readBack readFn 0 s.rawOffset [] = .ok s.sent.flatten := by
    rw [readBack_eq hread [] (by omega), List.nil_append, List.drop_zero, hlength,
      List.take_length]
  have himage : env.sha256 s.sent.flatten = env.sha256 s.imageHash := by
    rw [h.imageHash]
    rfl
  have hshape : ¬(s.nextBlockIndex = 0 ∨ s.nextBlockIndex ≥ fields.blockCount ∨
      s.nextBlockIndex * fields.blockSize ≠ s.rawOffset ∨ s.rawOffset ≥ fields.rawSize ∨
      s.encodedOffset = 0 ∨ s.encodedOffset ≥ fields.encodedSize) := by
    omega
  rw [streamResume, if_neg hshape, hbegin]
  simp only [hback, himage, ne_eq, not_true_eq_false, if_false]
  rfl

/-- A finished transfer of genuine chunks has hashed the signed payload. -/
theorem Genuine.payload {fields : SignedFields} {artifact : List Block}
    (hgenuine : Genuine env fields artifact) {chunks : List Chunk} {blocks : List Block}
    {s : Stream env} (h : Trail Base.start fields chunks blocks s)
    (hcut : ∀ c ∈ chunks, c.Cut artifact) (hidle : s.blockActive = false)
    (hcount : s.nextBlockIndex = fields.blockCount) :
    env.sha256 s.payloadHash = fields.encodedSha256 := by
  have hlength : blocks.length = artifact.length := by
    have hindex := h.index
    rw [hgenuine.count, ← hcount, hindex]
    exact (Nat.zero_add _).symm
  obtain ⟨-, hencoded⟩ := h.genuine_take hgenuine.tiled hcut
  rw [hlength, List.take_length] at hencoded
  rw [h.payloadHash, h.payload, Stream.parts_idle hidle, hencoded]
  exact hgenuine.encoded_hash

/-- At every checkpoint of a genuine transfer the stream can be rebuilt, and what
it does from there on is what the uninterrupted one does. -/
theorem streamResume_twin {fields : SignedFields} {artifact : List Block}
    (hgenuine : Genuine env fields artifact) {s₀ : Stream env}
    (hbegin : streamBegin fields = .ok s₀) (outputFn : OutputFn) {before : List Chunk}
    (hbefore : ∀ c ∈ before, c.Cut artifact) {point : ResumePoint}
    (hpoint : streamCheckpoint (runStream outputFn s₀ (before.map .feed)) = .ok point)
    {readFn : ReadFn}
    (hread : ReadsBack readFn (runStream outputFn s₀ (before.map .feed)).sent.flatten) :
    ∃ r₀ : Stream env, streamResume fields point readFn = .ok r₀ ∧ ∀ rest : List Chunk,
      (∀ c ∈ rest, c.Cut artifact ∧ point.nextBlockIndex ≤ c.descriptor.index) →
        let s := runStream outputFn s₀ (before.map .feed)
        let s' := runStream outputFn s (rest.map .feed)
        let r' := runStream (outputFn.after s.sent) r₀ (rest.map .feed)
        s'.sent = s.sent ++ r'.sent ∧
          results outputFn s (rest.map .feed) =
            results (outputFn.after s.sent) r₀ (rest.map .feed) ∧
          (streamFinish s').1 = (streamFinish r').1 := by
  obtain ⟨rfl, hcodec, hblockSize⟩ := streamBegin_ok hbegin
  have hrun (calls : List Chunk) (hcalls : ∀ c ∈ calls, c.Cut artifact) :
      ∀ c ∈ accepted outputFn (Stream.fresh env fields) (calls.map .feed), c.Cut artifact := by
    intro c hc
    obtain ⟨c', hc', heq⟩ := List.mem_map.mp (mem_accepted hc)
    cases heq
    exact hcalls c hc'
  have hfresh : Trail Base.start fields [] [] (Stream.fresh env fields) := trail_fresh fields
  have htrail (calls : List StreamCall) := runStream_trail hfresh rfl outputFn calls
  obtain ⟨hfailed, -⟩ := streamCheckpoint_ok hpoint
  rcases htrail (before.map .feed) with hno | ⟨blocks, hhere, hlast⟩
  · rw [hfailed] at hno
    cases hno
  · have htwin := twin_resumed hhere hlast hpoint
    refine ⟨Stream.resumed fields point
      (runStream outputFn (Stream.fresh env fields) (before.map .feed)).sent.flatten, ?_, ?_⟩
    · exact hgenuine.resumes hbegin hhere (hrun before hbefore) hpoint hread
    · intro rest hrest
      obtain ⟨hresults, htwin'⟩ := htwin.runStream outputFn rest fun c hc => (hrest c hc).2
      refine ⟨htwin'.sent, hresults, htwin'.streamFinish ?_⟩
      -- The uninterrupted stream is one run over all the chunks.
      have hjoin : runStream outputFn (runStream outputFn (Stream.fresh env fields)
          (before.map .feed)) (rest.map .feed) =
          runStream outputFn (Stream.fresh env fields) ((before ++ rest).map .feed) := by
        rw [List.map_append, runStream, runStream, runStream, List.foldl_append]
      rw [hjoin]
      intro hgoing hclosed hfull
      rcases htrail ((before ++ rest).map .feed) with hno | ⟨blocks', hthere, -⟩
      · rw [hgoing] at hno
        cases hno
      · rw [hthere.fields_eq] at hfull ⊢
        refine hgenuine.payload hthere (hrun (before ++ rest) ?_) hclosed hfull
        intro c hc
        rcases List.mem_append.mp hc with hold | hnew
        · exact hbefore c hold
        · exact (hrest c hnew).1

/-- A resume is equivalent to an uninterrupted transfer, and a resumed stream that
finishes, on whatever input, completes the image from the resume point. -/
theorem streamResume_equivalent (env : OtaEnv) :
    (∀ (fields : SignedFields) (artifact : List Block), Genuine env fields artifact →
      ∀ s₀ : Stream env, streamBegin fields = .ok s₀ →
        ∀ (outputFn : OutputFn) (before : List Chunk), (∀ c ∈ before, c.Cut artifact) →
          ∀ (point : ResumePoint) (readFn : ReadFn),
            streamCheckpoint (runStream outputFn s₀ (before.map .feed)) = .ok point →
            ReadsBack readFn (runStream outputFn s₀ (before.map .feed)).sent.flatten →
            ∃ r₀ : Stream env, streamResume fields point readFn = .ok r₀ ∧
              ∀ rest : List Chunk,
                (∀ c ∈ rest, c.Cut artifact ∧ point.nextBlockIndex ≤ c.descriptor.index) →
                let s := runStream outputFn s₀ (before.map .feed)
                let s' := runStream outputFn s (rest.map .feed)
                let r' := runStream (outputFn.after s.sent) r₀ (rest.map .feed)
                s'.sent = s.sent ++ r'.sent ∧
                  results outputFn s (rest.map .feed) =
                    results (outputFn.after s.sent) r₀ (rest.map .feed) ∧
                  (streamFinish s').1 = (streamFinish r').1) ∧
    (∀ (fields : SignedFields) (point : ResumePoint) (readFn : ReadFn) (s₀ : Stream env),
      streamResume fields point readFn = .ok s₀ →
        ∀ (outputFn : OutputFn) (calls : List StreamCall),
          (streamFinish (runStream outputFn s₀ calls)).1 = .ok →
          ∃ raw, readBack readFn 0 point.rawOffset [] = .ok raw ∧
            (raw ++ (runStream outputFn s₀ calls).sent.flatten).length = fields.rawSize ∧
            env.sha256 (raw ++ (runStream outputFn s₀ calls).sent.flatten) =
              fields.imageSha256 ∧
            chainOf env point.blockChain (headsOf (accepted outputFn s₀ calls)) =
              fields.blockTableSha256) := by
  constructor
  · intro fields artifact hgenuine s₀ hbegin outputFn before hbefore point readFn hpoint hread
    exact streamResume_twin hgenuine hbegin outputFn hbefore hpoint hread
  · intro fields point readFn s₀ hresume outputFn calls hok
    exact resumed_sound hresume outputFn calls hok

/-! ## A block of zeros and a letter -/

def zerosRaw : Bytes := List.replicate 16384 0

theorem length_zerosRaw : zerosRaw.length = 16384 :=
  List.length_replicate

/-- The zeros as zlib deflates them. -/
def zerosEncoded : Bytes :=
  [0xed, 0xc1, 0x31, 0x01, 0x00, 0x00, 0x00, 0xc2, 0xa0, 0xf5, 0x4f, 0x6d, 0x0c, 0x1f, 0xa0,
    0x00, 0x00, 0x00, 0x00, 0x00, 0x00, 0x00, 0x00, 0x00, 0x00, 0x00, 0x00, 0x00, 0x00, 0x00,
    0x80, 0xb7, 0x01]

/-- What zlib consumes for each 2048 of the zeros. -/
def zerosConsumed : List ℕ := [18, 2, 2, 2, 2, 2, 2, 3]

/-- Raw inflate of the two blocks; the state counts the pieces of the zeros. -/
def pairInflate (pieces : ℕ) (input : Bytes) (room : ℕ) (final : Bool) : ZStep ℕ :=
  match zerosConsumed[pieces]? with
  | some consumed =>
      if final ∧ input = zerosEncoded.drop (zerosConsumed.take pieces).sum ∧ 2048 ≤ room ∧
          consumed ≤ input.length then
        ⟨pieces + 1, consumed, List.replicate 2048 0,
          if pieces = 7 then .streamEnd else .bufError⟩
      else
        let step := storedInflate input room final
        ⟨pieces, step.consumed, step.produced, step.result⟩
  | none => ⟨pieces, 0, [], .failed⟩

def pairZlib : Zlib where
  State := ℕ
  init := 0
  inflate := pairInflate
  consumed_le := fun pieces input room final => by
    simp only [pairInflate]
    split
    · split
      · next h => exact h.2.2.2
      · exact storedZlib.consumed_le () input room final
    · exact Nat.zero_le _
  produced_le := fun pieces input room final => by
    simp only [pairInflate]
    split
    · split
      · next h =>
          rw [List.length_replicate]
          exact h.2.2.1
      · exact storedZlib.produced_le () input room final
    · exact Nat.zero_le _

def zerosRawSha256 : Digest :=
  #v[79, 231, 181, 154, 246, 222, 59, 102, 91, 103, 120, 140, 194, 249, 152, 146,
    171, 130, 126, 250, 227, 164, 103, 52, 43, 59, 180, 227, 188, 142, 91, 254]

def zerosEncodedSha256 : Digest :=
  #v[53, 164, 242, 191, 3, 102, 71, 128, 104, 47, 76, 149, 126, 22, 104, 230,
    197, 162, 103, 28, 15, 10, 178, 143, 18, 154, 82, 158, 87, 226, 71, 180]

def zerosChainSha256 : Digest :=
  #v[5, 77, 13, 121, 147, 215, 130, 235, 243, 160, 174, 22, 27, 193, 165, 186,
    91, 103, 205, 53, 63, 233, 187, 9, 248, 30, 2, 183, 60, 46, 42, 232]

def pairChainSha256 : Digest :=
  #v[208, 188, 240, 180, 243, 73, 122, 196, 13, 122, 113, 128, 13, 181, 212, 65,
    188, 143, 213, 47, 155, 122, 246, 188, 8, 10, 37, 20, 248, 129, 223, 152]

def pairRawSha256 : Digest :=
  #v[126, 27, 18, 190, 29, 171, 11, 215, 206, 130, 10, 200, 20, 246, 194, 231,
    248, 203, 17, 159, 11, 243, 163, 190, 40, 207, 30, 9, 21, 3, 68, 91]

def pairEncodedSha256 : Digest :=
  #v[139, 132, 236, 168, 202, 36, 37, 122, 138, 193, 165, 198, 80, 186, 101, 199,
    217, 101, 180, 203, 242, 255, 0, 208, 182, 130, 13, 137, 48, 70, 178, 189]

def zerosBlock : BlockDescriptor where
  index := 0
  rawOffset := 0
  rawSize := 16384
  encodedOffset := 0
  encodedSize := 33
  kind := blockDeflate
  rawSha256 := zerosRawSha256.toList
  encodedSha256 := zerosEncodedSha256.toList

def tailBlock : BlockDescriptor :=
  { letterBlock with index := 1, rawOffset := 16384, encodedOffset := 33 }

/-- The bytes that the hash chain covers at a descriptor. -/
def chained (chain : Digest) (d : BlockDescriptor) : Bytes :=
  chain.toList ++ encodeVarint (protoDescriptor d).length ++ protoDescriptor d

/-- SHA-256 on the inputs that the image needs; the raw ones are told apart by
where they end. -/
def pairSha256 (bytes : Bytes) : Digest :=
  if bytes = letterRaw then letterRawSha256
  else if bytes = letterEncoded then letterEncodedSha256
  else if bytes = zerosEncoded then zerosEncodedSha256
  else if bytes = zerosEncoded ++ letterEncoded then pairEncodedSha256
  else if bytes = chained zeroDigest zerosBlock then zerosChainSha256
  else if bytes = chained zerosChainSha256 tailBlock then pairChainSha256
  else match bytes.drop 16383 with
    | [0] => zerosRawSha256
    | [0, 0x41] => pairRawSha256
    | _ => zeroDigest

def pairEnv : OtaEnv where
  interval := 16384
  interval_pos := by decide
  interval_aligned := by decide
  deltaExperimental := false
  sha256 := pairSha256
  encodeDescriptor := protoDescriptor
  decodeSignedFields := fun _ => none
  publicKey := .error .notSupported
  importKey := fun _ => false
  verifyHash := fun _ _ _ => false
  zlib := pairZlib

def pairFields : SignedFields :=
  { letterFields with
    rawSize := 16385
    encodedSize := 39
    requiredAppSlotSize := 16385
    blockCount := 2
    imageSha256 := pairRawSha256
    encodedSha256 := pairEncodedSha256
    blockTableSha256 := pairChainSha256 }

def pairArtifact : List Block :=
  [⟨zerosBlock, zerosRaw, zerosEncoded⟩, ⟨tailBlock, letterRaw, letterEncoded⟩]

def zerosChunk : Chunk := ⟨zerosBlock, 0, zerosEncoded, true⟩

def tailChunk : Chunk := ⟨tailBlock, 0, letterEncoded, true⟩

def pairPoint : ResumePoint := ⟨1, 16384, 33, zerosChainSha256, zerosRawSha256⟩

/-- A flash that holds exactly `bytes`. -/
def flashRead (bytes : Bytes) : ReadFn := fun offset length =>
  if h : ((bytes.drop offset).take length).length = length then
    .ok ⟨((bytes.drop offset).take length).toArray, h⟩
  else
    .error .invalidSize

theorem readsBack_flashRead (bytes : Bytes) : ReadsBack (flashRead bytes) bytes := by
  intro offset length hle
  have hlength : ((bytes.drop offset).take length).length = length := by
    rw [List.length_take, List.length_drop]
    omega
  rw [flashRead, dif_pos hlength]
  exact ⟨_, rfl, rfl⟩

/-- The stream after the block of zeros. -/
def pairStream : Stream pairEnv :=
  runStream (fun _ _ => .ok) (Stream.fresh pairEnv pairFields) [.feed zerosChunk]

theorem genuine_pair : Genuine pairEnv pairFields pairArtifact where
  codec := rfl
  blockSize := rfl
  count := rfl
  tiled := by
    intro n b hb
    match n, hb with
    | 0, hb =>
        obtain rfl := Option.some.inj hb
        exact ⟨⟨length_zerosRaw, rfl, by decide +kernel, by decide +kernel⟩, rfl, rfl, rfl⟩
    | 1, hb =>
        obtain rfl := Option.some.inj hb
        refine ⟨⟨rfl, rfl, by decide +kernel, by decide +kernel⟩, rfl, ?_, rfl⟩
        simp [pairArtifact, rawOf, length_zerosRaw, tailBlock, Base.start]
  full := by
    intro n b hb hlast
    obtain rfl : n = 0 := by
      have htwo : pairArtifact.length = 2 := rfl
      omega
    obtain rfl := Option.some.inj hb
    rfl
  deflate := by decide
  raw_pos := by decide
  encoded_pos := by decide
  raw_length := by simp [pairArtifact, rawOf, length_zerosRaw, letterRaw, pairFields]
  raw_hash := by decide +kernel
  encoded_length := rfl
  encoded_hash := by decide +kernel
  chain := by decide +kernel

theorem pairStream_run :
    streamCheckpoint pairStream = .ok pairPoint ∧
      (streamFinish (runStream (fun _ _ => .ok) pairStream [.feed tailChunk])).1 = .ok := by
  decide +kernel

/-- The transfer is resumed after the zeros and finishes with the image. -/
theorem streamResume_equivalent_pair :
    ∃ r₀ : Stream pairEnv,
      streamResume pairFields pairPoint (flashRead pairStream.sent.flatten) = .ok r₀ ∧
        (streamFinish (runStream (fun _ _ => .ok) r₀ [.feed tailChunk])).1 = .ok ∧
        ∃ raw, pairSha256 (raw ++
          (runStream (fun _ _ => .ok) r₀ [.feed tailChunk]).sent.flatten) = pairRawSha256 := by
  obtain ⟨hpoint, hfinish⟩ := pairStream_run
  have hcut : ∀ c ∈ [zerosChunk], c.Cut pairArtifact := by
    intro c hc
    obtain rfl := List.mem_singleton.mp hc
    exact ⟨_, List.mem_cons_self, rfl, List.prefix_rfl⟩
  have hrest : ∀ c ∈ [tailChunk],
      c.Cut pairArtifact ∧ pairPoint.nextBlockIndex ≤ c.descriptor.index := by
    intro c hc
    obtain rfl := List.mem_singleton.mp hc
    exact ⟨⟨_, List.mem_cons_of_mem _ List.mem_cons_self, rfl, List.prefix_rfl⟩,
      Nat.le_refl 1⟩
  obtain ⟨r₀, hresume, htwin⟩ := (streamResume_equivalent pairEnv).1 pairFields pairArtifact
    genuine_pair _ rfl (fun _ _ => .ok) [zerosChunk] hcut pairPoint _ hpoint
    (readsBack_flashRead pairStream.sent.flatten)
  obtain ⟨-, -, hsame⟩ := htwin [tailChunk] hrest
  have hok : (streamFinish (runStream (fun _ _ => .ok) r₀ [.feed tailChunk])).1 = .ok :=
    hsame.symm.trans hfinish
  obtain ⟨raw, -, -, himage, -⟩ := (streamResume_equivalent pairEnv).2 pairFields pairPoint _ r₀
    hresume (fun _ _ => .ok) [.feed tailChunk] hok
  exact ⟨r₀, hresume, hok, raw, himage⟩

end KeemashCore.OtaV3

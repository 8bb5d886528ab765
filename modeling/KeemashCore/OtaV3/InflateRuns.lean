import KeemashCore.OtaV3.Chunking

/-!
# What has been inflated

A stream that takes the chunks of a block has run zlib's `inflate` on them from the start,
and a block that it finishes is one that `inflate` ends.  `Zlib.Run` are the calls of
`inflate` since `inflateInit2`; `Underway` ties an open block to them.
-/

namespace KeemashCore.OtaV3

/-! ## Calls of `inflate` -/

/-- Calls of `inflate` that did not end or fail: the bytes they consumed and produced, and
the stream they left. -/
inductive Zlib.Run (zlib : Zlib) : Bytes → Bytes → zlib.State → Prop where
  | init : Zlib.Run zlib [] [] zlib.init
  | call {consumed produced : Bytes} {s : zlib.State} (h : Zlib.Run zlib consumed produced s)
      (input : Bytes) {room : ℕ} (hroom : 0 < room) (final : Bool)
      (hgoes : (zlib.inflate s input room final).result ≠ .streamEnd ∧
        (zlib.inflate s input room final).result ≠ .failed) :
      Zlib.Run zlib (consumed ++ input.take (zlib.inflate s input room final).consumed)
        (produced ++ (zlib.inflate s input room final).produced)
        (zlib.inflate s input room final).stream

/-- A call of `inflate` ends the stream after all of `encoded`, with `raw` put out. -/
def Zlib.Ends (zlib : Zlib) (encoded raw : Bytes) : Prop :=
  ∃ consumed produced s input room final, zlib.Run consumed produced s ∧ 0 < room ∧
    (zlib.inflate s input room final).result = .streamEnd ∧
    encoded = consumed ++ input.take (zlib.inflate s input room final).consumed ∧
    raw = produced ++ (zlib.inflate s input room final).produced

/-- `inflate` stops when the input or the room is used up, unless it ends or fails. -/
def Zlib.Greedy (zlib : Zlib) : Prop :=
  ∀ s input room final, (zlib.inflate s input room final).result ≠ .streamEnd →
    (zlib.inflate s input room final).result ≠ .failed →
    (zlib.inflate s input room final).consumed = input.length ∨
      (zlib.inflate s input room final).produced.length = room

variable {env : OtaEnv}

/-! ## The loop -/

theorem passVerdict_goes_on {final complete : Bool} {step : ZStep env.zlib.State} {rest : Bytes}
    (h : passVerdict env final step rest complete = none) :
    step.result ≠ .streamEnd ∧ step.result ≠ .failed := by
  rw [passVerdict] at h
  split at h
  · cases h
  next hend =>
    split at h
    · cases h
    next hfailed => exact ⟨hend, hfailed⟩

/-- How a pass ends well: the stream has ended with the last byte of the block, or a part
that is not the last one is used up. -/
theorem passVerdict_ends {final complete : Bool} {step : ZStep env.zlib.State} {rest : Bytes}
    (h : passVerdict env final step rest complete = some .ok) :
    (final = true ∧ step.result = .streamEnd ∧ rest = [] ∧ complete = true) ∨
      (final = false ∧ step.result ≠ .streamEnd ∧ step.result ≠ .failed ∧
        (rest = [] ∨ (step.consumed = 0 ∧ step.produced = []))) := by
  rw [passVerdict] at h
  split at h
  · next hend =>
      split at h
      · cases h
      next hwhole =>
        simp only [not_or, Bool.not_eq_true, Bool.not_eq_false', ne_eq,
          Decidable.not_not] at hwhole
        exact .inl ⟨hwhole.1, hend, hwhole.2.1, hwhole.2.2⟩
  next hend =>
    split at h
    · cases h
    next hfailed =>
      split at h
      · next hstuck =>
          cases final with
          | true => cases h
          | false => exact .inr ⟨rfl, hend, hfailed, .inr hstuck⟩
      split at h
      · next hpart =>
          have hopen : final = false := by simpa using hpart.1
          exact .inr ⟨hopen, hend, hfailed, .inl hpart.2.1⟩
      split at h
      · next hpart =>
          have hopen : final = false := by simpa using hpart.1
          exact .inr ⟨hopen, hend, hfailed, .inl hpart.2.1⟩
      · cases h

/-- What the loop has done with a part of a block when it returns well. -/
structure Inflated (consumed produced : Bytes) (final : Bool) (input : Bytes)
    (i i' : Inflater env) (pieces : List Bytes) : Prop where
  expected : i'.expectedRawSize = i.expectedRawSize
  size : i'.producedRawSize = i.producedRawSize + pieces.flatten.length
  active : i'.active = i.active
  run : final = false →
    env.zlib.Run (consumed ++ input) (produced ++ pieces.flatten) i'.stream
  ends : final = true → env.zlib.Ends (consumed ++ input) (produced ++ pieces.flatten) ∧
    i'.producedRawSize = i'.expectedRawSize

theorem inflaterLoop_inflated (hgreedy : env.zlib.Greedy) (outputFn : OutputFn) (final : Bool)
    (i : Inflater env) (input : Bytes) (s : Stream env) :
    ∀ {consumed produced : Bytes}, env.zlib.Run consumed produced i.stream →
      (inflaterLoop env (streamOutput outputFn) final i input s).1 = .ok →
      ∃ pieces, (inflaterLoop env (streamOutput outputFn) final i input s).2.2 =
          s.emit pieces ∧
        Inflated consumed produced final input i
          (inflaterLoop env (streamOutput outputFn) final i input s).2.1 pieces := by
  fun_induction inflaterLoop env (streamOutput outputFn) final i input s with
  | case1 i input s err i' s' hpass =>
      rintro consumed produced hrun hok
      dsimp only at hok ⊢
      subst hok
      simp only [inflaterPass] at hpass
      obtain ⟨pieces, hemit, hpieces⟩ := emitPiece_emit outputFn s
        (env.zlib.inflate i.stream input inflateOutputBytes final).produced
      split at hpass
      · cases hpass
      split at hpass
      · next herr => exact absurd (Pass.stop.inj hpass).1 herr
      split at hpass
      · next hverdict =>
          obtain ⟨rfl, rfl, rfl⟩ := Pass.stop.inj hpass
          refine ⟨pieces, hemit, rfl, by rw [hpieces], rfl, fun hopen => ?_, fun hfinal => ?_⟩
          · rcases passVerdict_ends hverdict with ⟨hno, -⟩ | ⟨-, hend, hfailed, hused⟩
            · rw [hopen] at hno
              cases hno
            · have hall : input.take
                  (env.zlib.inflate i.stream input inflateOutputBytes final).consumed = input := by
                rcases hused with hnil | ⟨-, hnone⟩
                · exact List.take_of_length_le (List.drop_eq_nil_iff.mp hnil)
                · rcases hgreedy _ _ _ _ hend hfailed with hlength | hroom
                  · rw [hlength, List.take_length]
                  · rw [hnone] at hroom
                    cases hroom
              have hcall := hrun.call input (by decide : 0 < inflateOutputBytes) final
                ⟨hend, hfailed⟩
              rw [hall] at hcall
              rw [hpieces]
              exact hcall
          · rcases passVerdict_ends hverdict with ⟨-, hend, hnil, hcomplete⟩ | ⟨hno, -⟩
            · have hall : input.take
                  (env.zlib.inflate i.stream input inflateOutputBytes final).consumed = input :=
                List.take_of_length_le (List.drop_eq_nil_iff.mp hnil)
              refine ⟨⟨consumed, produced, i.stream, input, inflateOutputBytes, final, hrun,
                by decide, hend, by rw [hall], by rw [hpieces]⟩, of_decide_eq_true hcomplete⟩
            · rw [hfinal] at hno
              cases hno
      · cases hpass
  | case2 i input s i' rest s' hpass ih =>
      rintro consumed produced hrun hok
      simp only [inflaterPass] at hpass
      obtain ⟨pieces, hemit, hpieces⟩ := emitPiece_emit outputFn s
        (env.zlib.inflate i.stream input inflateOutputBytes final).produced
      split at hpass
      · cases hpass
      split at hpass
      · cases hpass
      split at hpass
      · cases hpass
      next hverdict =>
        obtain ⟨rfl, rfl, rfl⟩ := Pass.more.inj hpass
        have hcall := hrun.call input (by decide : 0 < inflateOutputBytes) final
          (passVerdict_goes_on hverdict)
        obtain ⟨more, hmore, hinflated⟩ := ih hcall hok
        have hinput (n : ℕ) : consumed ++ input.take n ++ input.drop n = consumed ++ input := by
          rw [List.append_assoc, List.take_append_drop]
        have houtput : produced ++
            (env.zlib.inflate i.stream input inflateOutputBytes final).produced ++ more.flatten =
              produced ++ (pieces ++ more).flatten := by
          rw [List.flatten_append, hpieces, List.append_assoc]
        refine ⟨pieces ++ more, ?_, hinflated.expected, ?_, hinflated.active,
          fun hopen => ?_, fun hfinal => ?_⟩
        · rw [hmore, hemit, Stream.emit_emit]
        · rw [hinflated.size, List.flatten_append, List.length_append, hpieces, Nat.add_assoc]
        · have hrest := hinflated.run hopen
          rwa [hinput, houtput] at hrest
        · have hrest := hinflated.ends hfinal
          rwa [hinput, houtput] at hrest

/-! ## An open block -/

/-- The stream has opened a block that it met in the state `s₀`, and has taken `encoded` of
it, which inflates to `raw`. -/
structure Underway (s₀ : Stream env) (d : BlockDescriptor) (next : Digest)
    (encoded raw : Bytes) (s : Stream env) : Prop where
  view : s.view = s₀.view.midway ⟨d, raw, encoded⟩ next encoded.length raw.length
  run : env.zlib.Run encoded raw s.inflater.stream
  expected : s.inflater.expectedRawSize = d.rawSize
  produced : s.inflater.producedRawSize = raw.length
  active : s.inflater.active = true
  room : encoded.length ≤ d.encodedSize

/-- A block that the stream has taken: its descriptor was the one expected, its bytes match
it, and they are what `inflate` makes of the chunks. -/
structure Admitted (s₀ : Stream env) (b : Block) (next : Digest) : Prop where
  check : checkBlockDescriptor env s₀.fields b.descriptor s₀.nextBlockIndex s₀.rawOffset
    s₀.encodedOffset s₀.blockChain = .ok next
  kind : b.descriptor.kind = blockDeflate
  sealed : b.Sealed env
  ends : env.zlib.Ends b.encoded b.raw

section Block

variable {s s₀ : Stream env} {d : BlockDescriptor} {next : Digest} {encoded raw : Bytes}
  {outputFn : OutputFn}

theorem openBlock_underway (hidle : s₀.blockActive = false) {n : ℕ}
    (hok : (openBlock s₀ d n).1 = .ok) :
    ∃ next, checkBlockDescriptor env s₀.fields d s₀.nextBlockIndex s₀.rawOffset
        s₀.encodedOffset s₀.blockChain = .ok next ∧ d.kind = blockDeflate ∧
      Underway s₀ d next [] [] (openBlock s₀ d n).2 := by
  rw [openBlock, if_pos hidle] at hok ⊢
  split at hok
  · cases hok
  next hn =>
    rw [if_neg hn]
    rw [startBlock] at hok ⊢
    cases hcheck : checkBlockDescriptor env s₀.fields d s₀.nextBlockIndex s₀.rawOffset
        s₀.encodedOffset s₀.blockChain with
    | error err =>
        rw [hcheck] at hok
        exact absurd hok (checkBlockDescriptor_error hcheck)
    | ok next =>
        rw [hcheck] at hok
        dsimp only at hok ⊢
        by_cases hkind : d.kind ≠ blockDeflate
        · rw [if_pos hkind] at hok
          cases hok
        rw [if_neg hkind] at hok ⊢
        dsimp only at hok
        by_cases hsize : d.rawSize = 0 ∨ d.rawSize > fullBlockSize
        · rw [inflaterBegin, if_pos hsize] at hok
          cases hok
        rw [inflaterBegin, if_neg hsize]
        refine ⟨next, rfl, not_not.mp hkind, ?_, .init, rfl, rfl, rfl, Nat.zero_le _⟩
        simp only [Stream.view, StreamView.midway, List.length_nil, List.take_nil,
          List.append_nil, decide_true]

/-- The next chunk of an open block. -/
theorem Underway.chunk (hgreedy : env.zlib.Greedy) (h : Underway s₀ d next encoded raw s)
    {n : ℕ} {bytes : Bytes} {final : Bool}
    (hok : (inflateChunk outputFn s n bytes final).1 = .ok) :
    ∃ raw', n = encoded.length ∧ (final = decide (encoded.length + bytes.length = d.encodedSize)) ∧
      (final = false → Underway s₀ d next (encoded ++ bytes) raw'
        (inflateChunk outputFn s n bytes final).2) ∧
      (final = true → Block.Sealed env ⟨d, raw', encoded ++ bytes⟩ ∧
        env.zlib.Ends (encoded ++ bytes) raw' ∧
        (inflateChunk outputFn s n bytes final).2.view =
          s₀.view.takes ⟨d, raw', encoded ++ bytes⟩ next) := by
  have hblock : s.block = d := congrArg StreamView.block h.view
  have hoffset : s.blockEncodedOffset = encoded.length :=
    congrArg StreamView.blockEncodedOffset h.view
  rw [inflateChunk] at hok ⊢
  split at hok
  · cases hok
  next hplace =>
    rw [if_neg hplace]
    simp only [not_or, ne_eq, Decidable.not_not, Nat.not_lt] at hplace
    obtain ⟨hn, hroom, hfinal⟩ := hplace
    rw [hoffset] at hn
    rw [hblock, hoffset] at hroom hfinal
    have hon : (s.hashChunk bytes).inflater.active = true := h.active
    have hactive : ¬(s.hashChunk bytes).inflater.active = false := by
      rw [hon]
      exact Bool.true_eq_false.mp
    rw [takeChunk, inflaterFeed, if_neg hactive] at hok ⊢
    dsimp only at hok ⊢
    split at hok
    · next herr => exact absurd hok herr
    next hfed =>
      rw [if_neg hfed]
      obtain ⟨pieces, hemit, hinflated⟩ := inflaterLoop_inflated hgreedy outputFn final
        (s.hashChunk bytes).inflater bytes (s.hashChunk bytes) h.run (not_not.mp hfed)
      rw [hemit] at hok ⊢
      generalize (inflaterLoop env (streamOutput outputFn) final (s.hashChunk bytes).inflater
        bytes (s.hashChunk bytes)).2.1 = i' at hinflated hok ⊢
      have hview : ({ (s.hashChunk bytes).emit pieces with
          inflater := i'
          blockEncodedOffset := ((s.hashChunk bytes).emit pieces).blockEncodedOffset +
            bytes.length } : Stream env).view =
          s₀.view.midway ⟨d, raw ++ pieces.flatten, encoded ++ bytes⟩ next
            (encoded ++ bytes).length (raw ++ pieces.flatten).length := by
        have hmore : ({ (s.hashChunk bytes).emit pieces with
            inflater := i'
            blockEncodedOffset := ((s.hashChunk bytes).emit pieces).blockEncodedOffset +
              bytes.length } : Stream env).view =
            { s.view with
              imageHash := s.view.imageHash ++ pieces.flatten
              payloadHash := s.view.payloadHash ++ bytes
              blockRawHash := s.view.blockRawHash ++ pieces.flatten
              blockEncodedHash := s.view.blockEncodedHash ++ bytes
              blockEncodedOffset := s.view.blockEncodedOffset + bytes.length
              output := s.view.output ++ pieces.flatten } := by
          simp only [Stream.view, Stream.emit, Stream.hashChunk, List.flatten_append]
        rw [hmore, h.view]
        simp only [StreamView.midway, List.take_length]
        simp only [List.append_assoc, List.length_append]
      have hsize : i'.producedRawSize = (raw ++ pieces.flatten).length := by
        have hproduced : (s.hashChunk bytes).inflater.producedRawSize = raw.length := h.produced
        rw [hinflated.size, hproduced, List.length_append]
      have hexpected : i'.expectedRawSize = d.rawSize := hinflated.expected.trans h.expected
      have hlimit := h.room
      refine ⟨raw ++ pieces.flatten, hn, ?_, fun hopen => ?_, fun hend => ?_⟩
      · rw [hfinal]
        exact decide_eq_decide.mpr (by omega)
      · rw [if_neg (by rw [hopen]; exact Bool.false_ne_true)]
        exact ⟨hview, hinflated.run hopen, hexpected, hsize,
          hinflated.active.trans h.active, by rw [List.length_append]; omega⟩
      · rw [if_pos hend] at hok ⊢
        obtain ⟨hends, hcomplete⟩ := hinflated.ends hend
        rw [finishBlock] at hok ⊢
        split at hok
        · cases hok
        next hhashes =>
          rw [if_neg hhashes]
          simp only [not_or, ne_eq, Decidable.not_not] at hhashes
          obtain ⟨hraw, hencoded⟩ := hhashes
          have hblock' := congrArg StreamView.block hview
          have hraw' := (congrArg StreamView.blockRawHash hview).trans List.take_length
          have hencoded' := (congrArg StreamView.blockEncodedHash hview).trans List.take_length
          refine ⟨⟨?_, ?_, ?_, ?_⟩, hends, ?_⟩
          · exact hsize.symm.trans (hcomplete.trans hexpected)
          · rw [hend] at hfinal
            have hall := of_decide_eq_true hfinal.symm
            change (encoded ++ bytes).length = d.encodedSize
            rw [List.length_append]
            omega
          · rw [← hraw']
            exact hraw.trans (congrArg BlockDescriptor.rawSha256 hblock')
          · rw [← hencoded']
            exact hencoded.trans (congrArg BlockDescriptor.encodedSha256 hblock')
          · have htaken := congrArg (fun o : StreamView =>
              { o with
                rawOffset := o.rawOffset + o.block.rawSize
                encodedOffset := o.encodedOffset + o.block.encodedSize
                blockEncodedOffset := 0
                nextBlockIndex := o.nextBlockIndex + 1
                blockActive := false }) hview
            refine htaken.trans ?_
            simp only [StreamView.midway, StreamView.takes, List.take_length]

end Block

end KeemashCore.OtaV3

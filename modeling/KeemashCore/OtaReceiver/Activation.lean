import KeemashCore.OtaReceiver.Basic

/-!
# What the receiver selects for boot

The trace tells which session each call of `esp_ota_set_boot_partition` ends, and
what was written in it.  The image is what the session announced, byte for byte,
and an image begun by a v2 PREPARE has the digest of an accepted COMMIT, as long
as no v1 packet takes part in a v2 session.
-/

namespace KeemashCore.OtaReceiver

open MeshNode (ascii)
open OtaV3 (Bytes Digest zeroDigest Partition)

/-! ## Sessions in the trace -/

/-- The offset and the bytes of a write. -/
def RxEffect.write? : RxEffect → Option (U32 × Bytes)
  | .wrote offset bytes => some (offset, bytes)
  | _ => none

/-- The writes of a part of the trace. -/
def writesOf (effects : List RxEffect) : List (U32 × Bytes) :=
  effects.filterMap RxEffect.write?

/-- The bytes written in a part of the trace. -/
def bytesOf (effects : List RxEffect) : Bytes :=
  (writesOf effects).flatMap Prod.snd

/-- Every write starts where the ones before it end. -/
def Contiguous (effects : List RxEffect) : Prop :=
  ∀ before offset bytes after, writesOf effects = before ++ (offset, bytes) :: after →
    offset.toNat = (before.flatMap Prod.snd).length

/-- The effects of a session up to its activation. -/
structure ActivationSafe (env : RxEnv) (session : Session) (effects : List RxEffect) :
    Prop where
  contiguous : Contiguous effects
  total : (bytesOf effects).length = session.imageSize.toNat
  verified : session.v2 = true → ∃ digest, RxEffect.committed session.opId digest ∈ effects ∧
    digest ≠ zeroDigest ∧ env.sha256 (bytesOf effects) = digest ∧
      (session.sha256 ≠ zeroDigest → session.sha256 = digest)

/-- No session is begun in a part of the trace. -/
def NoBegin (effects : List RxEffect) : Prop :=
  ∀ session, RxEffect.begun session ∉ effects

/-- Every call of `esp_ota_set_boot_partition` ends a session, on whose partition it
is called and which wrote what it should. -/
def ActivationsSafe (env : RxEnv) (trace : List RxEffect) : Prop :=
  ∀ before partition after, trace = before ++ .setBoot partition :: after →
    ∃ earlier session effects, before = earlier ++ .begun session :: effects ∧
      NoBegin effects ∧ partition = some session.partition ∧
        ActivationSafe env session effects

/-- An effect that neither begins nor serves nor ends a session. -/
def RxEffect.quiet : RxEffect → Bool
  | .status _ _ _ _ _ _ => true
  | .statusV2 _ _ _ _ _ _ => true
  | .committed _ _ => true
  | _ => false

theorem writesOf_snoc (effects : List RxEffect) (effect : RxEffect) :
    writesOf (effects ++ [effect]) = writesOf effects ++ effect.write?.toList := by
  rw [writesOf, List.filterMap_append]
  cases effect <;> rfl

theorem bytesOf_wrote (effects : List RxEffect) (offset : U32) (bytes : Bytes) :
    bytesOf (effects ++ [.wrote offset bytes]) = bytesOf effects ++ bytes := by
  simp [bytesOf, writesOf_snoc, RxEffect.write?]

theorem writesOf_quiet (effects : List RxEffect) {effect : RxEffect}
    (h : effect.quiet = true) : writesOf (effects ++ [effect]) = writesOf effects := by
  have hnone : effect.write? = none := by
    cases effect <;> first | rfl | cases h
  rw [writesOf_snoc, hnone, Option.toList_none, List.append_nil]

theorem NoBegin.snoc {effects : List RxEffect} (h : NoBegin effects) {effect : RxEffect}
    (hne : ∀ session, effect ≠ .begun session) : NoBegin (effects ++ [effect]) := by
  intro session hmem
  rcases List.mem_append.mp hmem with hmem | hmem
  · exact h session hmem
  · exact hne session (List.mem_singleton.mp hmem).symm

theorem Contiguous.wrote {effects : List RxEffect} (h : Contiguous effects) {offset : U32}
    (hoffset : offset.toNat = (bytesOf effects).length) (bytes : Bytes) :
    Contiguous (effects ++ [.wrote offset bytes]) := by
  intro before offset' bytes' after hsplit
  rw [writesOf_snoc, RxEffect.write?, Option.toList_some] at hsplit
  rcases List.eq_nil_or_concat after with rfl | ⟨after', last, rfl⟩
  · obtain ⟨hbefore, hlast⟩ := List.append_inj' hsplit rfl
    cases hlast
    rw [hoffset, bytesOf, hbefore]
  · rw [List.concat_eq_append, ← List.cons_append, ← List.append_assoc] at hsplit
    obtain ⟨hbefore, -⟩ := List.append_inj' hsplit rfl
    exact h before offset' bytes' after' hbefore

/-- Only a call of `esp_ota_set_boot_partition` has to be answered for. -/
theorem ActivationsSafe.snoc {env : RxEnv} {trace : List RxEffect}
    (h : ActivationsSafe env trace) {effect : RxEffect}
    (hne : ∀ partition, effect ≠ .setBoot partition) :
    ActivationsSafe env (trace ++ [effect]) := by
  intro before partition after hsplit
  rcases List.eq_nil_or_concat after with rfl | ⟨after', last, rfl⟩
  · obtain ⟨-, hlast⟩ := List.append_inj' hsplit rfl
    exact absurd (List.cons.inj hlast).1 (hne partition)
  · rw [List.concat_eq_append, ← List.cons_append, ← List.append_assoc] at hsplit
    obtain ⟨htrace, -⟩ := List.append_inj' hsplit rfl
    exact h before partition after' htrace

theorem ActivationsSafe.setBoot {env : RxEnv} {trace earlier effects : List RxEffect}
    (h : ActivationsSafe env trace) {session : Session}
    (htrace : trace = earlier ++ .begun session :: effects) (hnone : NoBegin effects)
    (hsafe : ActivationSafe env session effects) :
    ActivationsSafe env (trace ++ [.setBoot (some session.partition)]) := by
  intro before partition after hsplit
  rcases List.eq_nil_or_concat after with rfl | ⟨after', last, rfl⟩
  · obtain ⟨hbefore, hlast⟩ := List.append_inj' hsplit rfl
    cases hlast
    exact ⟨earlier, session, effects, hbefore.symm.trans htrace, hnone, rfl, hsafe⟩
  · rw [List.concat_eq_append, ← List.cons_append, ← List.append_assoc] at hsplit
    obtain ⟨htrace', -⟩ := List.append_inj' hsplit rfl
    exact h before partition after' htrace'

/-! ## The record and its session -/

/-- The record of a session that has begun and has had these effects. -/
structure Serves (ota : OtaState) (session : Session) (effects : List RxEffect) : Prop where
  handle : ota.handle = some ⟨session.partition, bytesOf effects⟩
  partition : ota.partition = some session.partition
  imageSize : ota.imageSize = session.imageSize
  contiguous : Contiguous effects
  written : ota.written.toNat = (bytesOf effects).length
  size_lt : session.partition.size < 2 ^ 32
  v2 : ota.v2Active = session.v2
  opId : session.v2 = true → ota.opId = session.opId
  /-- Every byte of a v2 session went into its hash. -/
  hashed : session.v2 = true → ota.shaCtx = some (bytesOf effects)
  sha256 : session.v2 = true → ota.sha256 = session.sha256

/-- The trace is safe so far, and an active record serves the last session in it. -/
structure Sound (env : RxEnv) (ota : OtaState) (trace : List RxEffect) : Prop where
  activations : ActivationsSafe env trace
  session : ota.active = true → ∃ earlier session effects,
    trace = earlier ++ .begun session :: effects ∧ NoBegin effects ∧
      Serves ota session effects

def OtaRx.Sound (env : RxEnv) (r : OtaRx) : Prop :=
  OtaReceiver.Sound env r.ota r.trace

variable {env : RxEnv}

theorem Sound.idle {ota ota' : OtaState} {trace : List RxEffect} (h : Sound env ota trace)
    (hidle : ota'.active = false) : Sound env ota' trace where
  activations := h.activations
  session := fun hactive => by
    rw [hidle] at hactive
    cases hactive

theorem Serves.quiet {ota : OtaState} {session : Session} {effects : List RxEffect}
    (h : Serves ota session effects) {effect : RxEffect} (hquiet : effect.quiet = true) :
    Serves ota session (effects ++ [effect]) := by
  have hwrites := writesOf_quiet effects hquiet
  have hbytes : bytesOf (effects ++ [effect]) = bytesOf effects := by
    rw [bytesOf, hwrites, bytesOf]
  refine ⟨?_, h.partition, h.imageSize, ?_, ?_, h.size_lt, h.v2, h.opId, ?_, h.sha256⟩
  · rw [hbytes]
    exact h.handle
  · intro before offset bytes after hsplit
    rw [hwrites] at hsplit
    exact h.contiguous before offset bytes after hsplit
  · rw [hbytes]
    exact h.written
  · rw [hbytes]
    exact h.hashed

theorem Sound.quiet {ota : OtaState} {trace : List RxEffect} (h : Sound env ota trace)
    {effect : RxEffect} (hquiet : effect.quiet = true) :
    Sound env ota (trace ++ [effect]) where
  activations := by
    refine h.activations.snoc ?_
    rintro partition rfl
    cases hquiet
  session := by
    intro hactive
    obtain ⟨earlier, session, effects, rfl, hnone, hserves⟩ := h.session hactive
    refine ⟨earlier, session, effects ++ [effect], by simp, hnone.snoc ?_,
      hserves.quiet hquiet⟩
    rintro session' rfl
    cases hquiet

/-! ## Assignments that leave the session as it is -/

section Assignments

variable {r : OtaRx} (h : r.Sound env)
include h

theorem OtaRx.Sound.status (op : Op) (code : StatusCode) (seq : BitVec 16) (offset total : U32)
    (message : Bytes) : (r.sendStatus op code seq offset total message).Sound env :=
  Sound.quiet h rfl

theorem OtaRx.Sound.statusV2 (op : V2Op) (code : StatusCode) (opId offset total : U32)
    (message : Bytes) : (r.sendStatusV2 op code opId offset total message).Sound env :=
  Sound.quiet h rfl

theorem OtaRx.Sound.clear : (r.setOta OtaState.zero).Sound env :=
  Sound.idle h rfl

theorem OtaRx.Sound.touch (now : U32) : (r.touch now).Sound env where
  activations := h.activations
  session := by
    intro hactive
    obtain ⟨earlier, session, effects, htrace, hnone, hserves⟩ := h.session hactive
    exact ⟨earlier, session, effects, htrace, hnone, hserves.handle, hserves.partition,
      hserves.imageSize, hserves.contiguous, hserves.written, hserves.size_lt, hserves.v2,
      hserves.opId, hserves.hashed, hserves.sha256⟩

theorem OtaRx.Sound.finishStaleAbort (now : U32) : (r.finishStaleAbort env now).Sound env := by
  rw [OtaRx.finishStaleAbort]
  split
  · exact h
  · dsimp only
    split
    · exact OtaRx.Sound.clear (OtaRx.Sound.statusV2 h _ _ _ _ _ _)
    · exact OtaRx.Sound.clear (OtaRx.Sound.status h _ _ _ _ _ _)

end Assignments

/-! ## Beginning a session -/

/-- A session that has just begun. -/
theorem Sound.begun {ota ota' : OtaState} {trace : List RxEffect} (h : Sound env ota trace)
    {session : Session} (hsize : session.partition.size < 2 ^ 32)
    (hhandle : ota'.handle = some ⟨session.partition, []⟩)
    (hpartition : ota'.partition = some session.partition)
    (himage : ota'.imageSize = session.imageSize) (hwritten : ota'.written = 0)
    (hv2 : ota'.v2Active = session.v2)
    (hserves : session.v2 = true → ota'.opId = session.opId ∧ ota'.shaCtx = some [] ∧
      ota'.sha256 = session.sha256) :
    Sound env ota' (trace ++ [.begun session]) where
  activations := by
    refine h.activations.snoc ?_
    rintro partition hno
    cases hno
  session := by
    intro hactive
    refine ⟨trace, session, [], rfl, fun _ => List.not_mem_nil, hhandle, hpartition, himage,
      ?_, ?_, hsize, hv2, fun h => (hserves h).1, fun h => (hserves h).2.1,
      fun h => (hserves h).2.2⟩
    · intro before offset bytes after hsplit
      simp [writesOf] at hsplit
    · rw [hwritten]
      rfl

theorem handleBegin_sound {r : OtaRx} (h : r.Sound env) (p : BeginPacket)
    (answers : RxAnswers) : (handleBegin env r p answers).1.Sound env := by
  have hfresh := h.finishStaleAbort answers.now
  rw [handleBegin]
  split
  · exact h.status _ _ _ _ _ _
  · dsimp only
    split
    · split
      · split
        · exact (hfresh.touch _).status _ _ _ _ _ _
        · exact hfresh.status _ _ _ _ _ _
      · exact hfresh.status _ _ _ _ _ _
    · split
      · exact hfresh.status _ _ _ _ _ _
      · split
        · exact hfresh.status _ _ _ _ _ _
        · split
          · exact hfresh.status _ _ _ _ _ _
          · next partition hpartition =>
              split
              · exact hfresh.status _ _ _ _ _ _
              · split
                · exact hfresh.status _ _ _ _ _ _
                · refine OtaRx.Sound.status ?_ _ _ _ _ _ _
                  exact Sound.begun hfresh (env.size_lt partition hpartition) rfl rfl rfl rfl
                    rfl (fun hno => (nomatch hno))

theorem handleV2Prepare_sound {r : OtaRx} (h : r.Sound env) (c : V2Common)
    (answers : RxAnswers) : (handleV2Prepare env r c answers).1.Sound env := by
  have hfresh := h.finishStaleAbort answers.now
  rw [handleV2Prepare]
  split
  · exact h.statusV2 _ _ _ _ _ _
  · dsimp only
    split
    · split
      · split
        · exact (hfresh.touch _).statusV2 _ _ _ _ _ _
        · exact hfresh.statusV2 _ _ _ _ _ _
      · exact hfresh.statusV2 _ _ _ _ _ _
    · split
      · exact hfresh.statusV2 _ _ _ _ _ _
      · split
        · exact hfresh.statusV2 _ _ _ _ _ _
        · split
          · exact hfresh.statusV2 _ _ _ _ _ _
          · next partition hpartition =>
              split
              · exact hfresh.statusV2 _ _ _ _ _ _
              · split
                · exact hfresh.statusV2 _ _ _ _ _ _
                · have hsize := env.size_lt partition hpartition
                  split
                  · refine OtaRx.Sound.statusV2 ?_ _ _ _ _ _ _
                    refine ⟨hfresh.activations.snoc ?_, fun hno => (nomatch hno)⟩
                    rintro partition' hno
                    cases hno
                  · refine OtaRx.Sound.statusV2 ?_ _ _ _ _ _ _
                    refine Sound.begun hfresh hsize rfl rfl rfl rfl rfl
                      (fun _ => ⟨rfl, rfl, ?_⟩)
                    simp only [OtaRx.hashStart, OtaRx.openV2, OtaRx.setOta, OtaRx.emit,
                      OtaRx.noteAbortReason, OtaState.zero]
                    split
                    · next hzero => exact hzero.symm
                    · rfl

/-! ## Writing -/

theorem Handle.write_ok {handle : Handle} {bytes : Bytes} {answer : EspErr}
    (h : (handle.write bytes answer).1 = .ok) :
    answer = .ok ∧ handle.content.length + bytes.length ≤ handle.partition.size ∧
      (handle.write bytes answer).2 = { handle with content := handle.content ++ bytes } := by
  rw [Handle.write] at h ⊢
  split at h
  · next hanswer => exact absurd h hanswer
  · next hanswer =>
      split at h
      · cases h
      · next hfits =>
          rw [if_neg hanswer, if_neg hfits]
          exact ⟨not_not.mp hanswer, Nat.not_lt.mp hfits, rfl⟩

/-- One more write of the session that the record serves. -/
theorem Sound.wrote {ota ota' : OtaState} {trace : List RxEffect} (h : Sound env ota trace)
    (hactive : ota.active = true) {handle : Handle} (hhandle : ota.handle = some handle)
    {offset len : U32} {bytes : Bytes} {answer : EspErr}
    (hoffset : offset = ota.written) (hlen : bytes.length = len.toNat)
    (hwrite : (handle.write bytes answer).1 = .ok)
    (hhandle' : ota'.handle = some (handle.write bytes answer).2)
    (hwritten : ota'.written = ota.written + len)
    (hsame : ota'.partition = ota.partition ∧ ota'.imageSize = ota.imageSize ∧
      ota'.v2Active = ota.v2Active ∧ ota'.opId = ota.opId ∧ ota'.sha256 = ota.sha256)
    (hhash : ota.v2Active = true → ∀ hashed, ota.shaCtx = some hashed →
      ota'.shaCtx = some (hashed ++ bytes)) :
    Sound env ota' (trace ++ [.wrote offset bytes]) := by
  refine ⟨h.activations.snoc (fun partition hno => (nomatch hno)), fun _ => ?_⟩
  obtain ⟨earlier, session, effects, rfl, hnone, hserves⟩ := h.session hactive
  obtain ⟨hpartition, himage, hv2, hopId, hsha⟩ := hsame
  have hheld : handle = ⟨session.partition, bytesOf effects⟩ :=
    Option.some.inj (hhandle.symm.trans hserves.handle)
  obtain ⟨-, hfits, hresult⟩ := Handle.write_ok hwrite
  rw [hheld] at hfits hresult
  have hroom : (bytesOf effects).length + bytes.length < 2 ^ 32 :=
    lt_of_le_of_lt hfits hserves.size_lt
  have hstart : offset.toNat = (bytesOf effects).length := by
    rw [hoffset, hserves.written]
  have hbytes := bytesOf_wrote effects offset bytes
  refine ⟨earlier, session, effects ++ [.wrote offset bytes], by simp,
    hnone.snoc (fun _ hno => (nomatch hno)), ?_, hpartition.trans hserves.partition,
    himage.trans hserves.imageSize, hserves.contiguous.wrote hstart bytes, ?_,
    hserves.size_lt, hv2.trans hserves.v2, fun hsession => hopId.trans (hserves.opId hsession),
    fun hsession => ?_, fun hsession => hsha.trans (hserves.sha256 hsession)⟩
  · rw [hhandle', hheld, hresult, hbytes]
  · rw [hwritten, BitVec.toNat_add, hserves.written, ← hlen, Nat.mod_eq_of_lt hroom, hbytes,
      List.length_append]
  · rw [hbytes]
    exact hhash (hserves.v2.trans hsession) _ (hserves.hashed hsession)

/-- A v1 packet that would serve a v2 session: a DATA packet that goes into its image
or an END packet that activates it. -/
def OtaRx.crosses (env : RxEnv) (r : OtaRx) : RxEvent → Bool
  | .v1 (.data p) answers =>
      let ota := (r.finishStaleAbort env answers.now).ota
      ota.active && ota.v2Active && p.len ≠ 0 && decide (p.len.toNat ≤ otaChunkMax) &&
        decide (p.len.toNat ≤ p.data.length) && p.offset == ota.written &&
        decide (p.offset + p.len.setWidth 32 ≤ ota.imageSize) && answers.otaWrite == .ok
  | .v1 (.finish p) answers =>
      let ota := (r.finishStaleAbort env answers.now).ota
      !(r.rebootPending && p.seq == r.rebootEndSeq && p.imageSize == r.rebootTotal) &&
        ota.active && ota.v2Active && p.imageSize == ota.imageSize &&
        ota.written == ota.imageSize && answers.otaEnd == .ok
  | _ => false

theorem handleData_sound {r : OtaRx} (h : r.Sound env) (p : DataPacket) (answers : RxAnswers)
    (hcross : r.crosses env (.v1 (.data p) answers) = false) :
    (handleData env r p answers).1.Sound env := by
  have hfresh := h.finishStaleAbort answers.now
  simp only [OtaRx.crosses] at hcross
  rw [handleData]
  generalize r.finishStaleAbort env answers.now = r' at hfresh hcross ⊢
  dsimp only
  split
  · next handle hactive hhandle =>
      split
      · exact hfresh.status _ _ _ _ _ _
      · next hchunk =>
          split
          · split
            · exact (hfresh.touch _).status _ _ _ _ _ _
            · exact hfresh.status _ _ _ _ _ _
          · next hplace =>
              split
              · exact OtaRx.Sound.clear (OtaRx.Sound.status hfresh _ _ _ _ _ _)
              · next hwrite =>
                  push Not at hchunk hplace hwrite
                  refine OtaRx.Sound.status ?_ _ _ _ _ _ _
                  have hlen : (p.data.take p.len.toNat).length =
                      (p.len.setWidth 32 : U32).toNat := by
                    rw [List.length_take, Nat.min_eq_left hchunk.2.2,
                      BitVec.toNat_setWidth_of_le (by decide)]
                  refine Sound.wrote hfresh hactive hhandle hplace.1 hlen hwrite rfl rfl
                    ⟨rfl, rfl, rfl, rfl, rfl⟩ ?_
                  -- A v2 session would have been crossed.
                  intro hv2
                  obtain ⟨hplace, hfits⟩ := hplace
                  simp only [hactive, hv2, hchunk, hplace, (Handle.write_ok hwrite).1] at hcross
                  rw [hplace] at hfits
                  have hovershoot : ¬p.len = 0 →
                      r'.ota.imageSize < r'.ota.written + p.len.setWidth 32 := by
                    simpa using hcross
                  exact absurd (hovershoot hchunk.1) hfits
  · exact hfresh.status _ _ _ _ _ _

theorem hashUpdate_ok {shaCtx : Option Bytes} {hashed bytes : Bytes} {answer : EspErr}
    (hctx : shaCtx = some hashed) (h : (hashUpdate shaCtx bytes answer).1 = .ok) :
    (hashUpdate shaCtx bytes answer).2 = some (hashed ++ bytes) := by
  subst hctx
  rw [hashUpdate] at h ⊢
  split
  · next hempty =>
      rw [if_pos hempty] at h
      cases h
  · next hempty =>
      rw [if_neg hempty] at h
      exact if_pos h

theorem handleV2Data_sound {r : OtaRx} (h : r.Sound env) (c : V2Common) (data : Bytes)
    (answers : RxAnswers) : (handleV2Data env r c data answers).1.Sound env := by
  have hfresh := h.finishStaleAbort answers.now
  rw [handleV2Data]
  generalize r.finishStaleAbort env answers.now = r' at hfresh ⊢
  dsimp only
  split
  · next handle hactive hhandle =>
      split
      · exact hfresh.statusV2 _ _ _ _ _ _
      · split
        · exact hfresh.statusV2 _ _ _ _ _ _
        · next hchunk =>
            split
            · split
              · exact (hfresh.touch _).statusV2 _ _ _ _ _ _
              · exact hfresh.statusV2 _ _ _ _ _ _
            · next hplace =>
                push Not at hchunk hplace
                have hlen : (data.take c.len.toNat).length = c.len.toNat := by
                  rw [List.length_take, Nat.min_eq_left hchunk.2.2.1]
                by_cases hwrite : (handle.write (data.take c.len.toNat) answers.otaWrite).1 = .ok
                · simp only [hwrite, ↓reduceIte]
                  have hgone : Sound env OtaState.zero
                      (r'.trace ++ [.wrote c.offset (data.take c.len.toNat)]) :=
                    ⟨hfresh.activations.snoc (fun _ hno => (nomatch hno)),
                      fun hno => (nomatch hno)⟩
                  split
                  · exact hgone.quiet rfl
                  · next hhash =>
                      refine OtaRx.Sound.statusV2 ?_ _ _ _ _ _ _
                      refine Sound.wrote hfresh hactive hhandle hplace hlen hwrite rfl rfl
                        ⟨rfl, rfl, rfl, rfl, rfl⟩ ?_
                      intro _ hashed hctx
                      exact hashUpdate_ok hctx (not_not.mp hhash)
                · simp only [hwrite, ↓reduceIte]
                  split
                  · exact OtaRx.Sound.clear (OtaRx.Sound.statusV2 hfresh _ _ _ _ _ _)
                  · next hno => exact absurd hwrite (by simpa using hno)
  · exact hfresh.statusV2 _ _ _ _ _ _

/-! ## Ending a session -/

/-- The image is complete and may be activated unless a v2 digest is missing. -/
theorem Sound.activation {ota : OtaState} {trace : List RxEffect} (h : Sound env ota trace)
    (hactive : ota.active = true) (htotal : ota.written = ota.imageSize)
    (hverified : ∀ session effects, session.v2 = true → Serves ota session effects →
      (∃ earlier, trace = earlier ++ .begun session :: effects) →
      ∃ digest, RxEffect.committed session.opId digest ∈ effects ∧ digest ≠ zeroDigest ∧
        env.sha256 (bytesOf effects) = digest ∧
          (session.sha256 ≠ zeroDigest → session.sha256 = digest)) :
    ActivationsSafe env (trace ++ [.setBoot ota.partition]) := by
  obtain ⟨earlier, session, effects, htrace, hnone, hserves⟩ := h.session hactive
  rw [hserves.partition]
  refine h.activations.setBoot htrace hnone ⟨hserves.contiguous, ?_, fun hv2 => ?_⟩
  · rw [← hserves.written, htotal, hserves.imageSize]
  · exact hverified session effects hv2 hserves ⟨earlier, htrace⟩

theorem sound_activated {ota : OtaState} {trace : List RxEffect}
    (h : ActivationsSafe env trace) (hidle : ota.active = false) : Sound env ota trace :=
  ⟨h, fun hactive => by
    rw [hidle] at hactive
    cases hactive⟩

theorem handleEnd_sound {r : OtaRx} (h : r.Sound env) (p : EndPacket) (answers : RxAnswers)
    (hcross : r.crosses env (.v1 (.finish p) answers) = false) :
    (handleEnd env r p answers).1.Sound env := by
  have hfresh := h.finishStaleAbort answers.now
  simp only [OtaRx.crosses] at hcross
  rw [handleEnd]
  split
  · exact h.status _ _ _ _ _ _
  · next hpending =>
      generalize r.finishStaleAbort env answers.now = r' at hfresh hcross ⊢
      dsimp only
      split
      · exact hfresh.status _ _ _ _ _ _
      · next hactive =>
          split
          · exact OtaRx.Sound.clear (OtaRx.Sound.status hfresh _ _ _ _ _ _)
          · next hsize =>
              split
              · exact OtaRx.Sound.clear (OtaRx.Sound.status hfresh _ _ _ _ _ _)
              · next hend =>
                  push Not at hsize
                  have hactive' : r'.ota.active = true := by simpa using hactive
                  -- A v2 session would have been crossed.
                  have hv1 : r'.ota.v2Active = false := by
                    have hnew : (r.rebootPending && p.seq == r.rebootEndSeq &&
                        p.imageSize == r.rebootTotal) = false := by
                      rw [Bool.eq_false_iff]
                      simpa [and_assoc] using hpending
                    rw [hnew] at hcross
                    simpa [hactive', hsize, not_not.mp hend] using hcross
                  have hsafe := hfresh.activation hactive' hsize.2
                    (fun session effects hv2 hserves _ => by
                      rw [← hserves.v2, hv1] at hv2
                      cases hv2)
                  have hgone : Sound env OtaState.zero
                      (r'.trace ++ [.setBoot r'.ota.partition]) := sound_activated hsafe rfl
                  split
                  · exact hgone.quiet rfl
                  · exact hgone.quiet rfl

theorem OtaRx.Sound.refuseCommit {r : OtaRx} (h : r.Sound env) (c : V2Common)
    (message reason : Bytes) : (r.refuseCommit c message reason).Sound env :=
  OtaRx.Sound.clear (OtaRx.Sound.statusV2 h _ _ _ _ _ _)

theorem hashFinishAndCheck_ok {shaCtx : Option Bytes} {expected : Digest} {answer : EspErr}
    (h : hashFinishAndCheck env shaCtx expected answer = .ok) :
    ∃ hashed, shaCtx = some hashed ∧ env.sha256 hashed = expected := by
  unfold hashFinishAndCheck at h
  split at h
  · cases h
  · next hashed =>
      refine ⟨hashed, rfl, ?_⟩
      split at h
      · cases h
      · split at h
        · next hsame => exact hsame
        · cases h

/-- The last effect of the trace is one of the session's unless it began it. -/
theorem mem_of_snoc {trace earlier effects : List RxEffect} {last first : RxEffect}
    (h : trace ++ [last] = earlier ++ first :: effects) (hne : last ≠ first) :
    last ∈ effects := by
  rcases List.eq_nil_or_concat effects with rfl | ⟨effects', last', rfl⟩
  · obtain ⟨-, hlast⟩ := List.append_inj' h rfl
    exact absurd (List.cons.inj hlast).1 hne
  · rw [List.concat_eq_append, ← List.cons_append, ← List.append_assoc] at h
    obtain ⟨-, hlast⟩ := List.append_inj' h rfl
    rw [(List.cons.inj hlast).1]
    simp

theorem handleV2Commit_sound {r : OtaRx} (h : r.Sound env) (c : V2Common)
    (answers : RxAnswers) : (handleV2Commit env r c answers).1.Sound env := by
  have hfresh := h.finishStaleAbort answers.now
  rw [handleV2Commit]
  split
  · exact h.statusV2 _ _ _ _ _ _
  · generalize r.finishStaleAbort env answers.now = r' at hfresh ⊢
    dsimp only
    split
    · exact hfresh.statusV2 _ _ _ _ _ _
    · next hsession =>
        split
        · exact hfresh.refuseCommit _ _ _
        · next hsize =>
            split
            · exact hfresh.refuseCommit _ _ _
            · next hdigest =>
                split
                · exact hfresh.refuseCommit _ _ _
                · next hprepared =>
                    split
                    · exact hfresh.refuseCommit _ _ _
                    · next hhash =>
                        push Not at hsession hsize hprepared hhash
                        have hcommitted : Sound env r'.ota
                            (r'.trace ++ [.committed c.opId c.sha256]) := hfresh.quiet rfl
                        split
                        · have hkept : (r'.emit (.committed c.opId c.sha256)).Sound env :=
                            hcommitted
                          exact hkept.refuseCommit _ _ _
                        · have hactive : r'.ota.active = true := by simpa using hsession.1
                          have hsafe := hcommitted.activation hactive hsize.2 ?_
                          · have hgone : Sound env OtaState.zero
                                (r'.trace ++ [.committed c.opId c.sha256] ++
                                  [.setBoot r'.ota.partition]) := sound_activated hsafe rfl
                            split
                            · exact hgone.quiet rfl
                            · exact hgone.quiet rfl
                          · rintro session effects hv2 hserves ⟨earlier, hlast⟩
                            obtain ⟨hashed, hctx, hsame⟩ := hashFinishAndCheck_ok hhash
                            have hbytes : hashed = bytesOf effects :=
                              Option.some.inj (hctx.symm.trans (hserves.hashed hv2))
                            refine ⟨c.sha256, ?_, hdigest, hbytes ▸ hsame, fun hgiven => ?_⟩
                            · rw [← hserves.opId hv2, ← hsession.2.2]
                              exact mem_of_snoc hlast (fun hno => (nomatch hno))
                            · rw [← hserves.sha256 hv2] at hgiven ⊢
                              exact (hprepared hgiven).symm

theorem handleAbort_sound {r : OtaRx} (h : r.Sound env) (p : AbortPacket) :
    (handleAbort r p).1.Sound env := by
  rw [handleAbort]
  split
  · exact h.status _ _ _ _ _ _
  · have hgone : ((r.finishAbort).noteAbortReason (ascii "v1 abort")).Sound env := h.clear
    exact hgone.status _ _ _ _ _ _

theorem handleV2Abort_sound {r : OtaRx} (h : r.Sound env) (c : V2Common) :
    (handleV2Abort r c).1.Sound env := by
  rw [handleV2Abort]
  split
  · exact h.statusV2 _ _ _ _ _ _
  · split
    · exact h.statusV2 _ _ _ _ _ _
    · have hgone : ((r.noteAbortReason (ascii "v2 abort")).finishAbort).Sound env := h.clear
      exact hgone.statusV2 _ _ _ _ _ _

/-! ## Runs -/

theorem step_sound {r : OtaRx} (h : r.Sound env) (event : RxEvent)
    (hcross : r.crosses env event = false) : (r.step env event).Sound env := by
  cases event with
  | v1 packet answers =>
      cases packet with
      | begin p => exact handleBegin_sound h p answers
      | data p => exact handleData_sound h p answers hcross
      | finish p => exact handleEnd_sound h p answers hcross
      | abort p => exact handleAbort_sound h p
      | other err => exact h
  | v2 payload answers =>
      cases payload with
      | prepare c => exact handleV2Prepare_sound h c answers
      | data c bytes => exact handleV2Data_sound h c bytes answers
      | commit c => exact handleV2Commit_sound h c answers
      | abort c => exact handleV2Abort_sound h c
      | other err => exact h
  | watchdog now => exact h.finishStaleAbort now
  | restart => exact Sound.idle h rfl

/-- No v1 packet of the run serves a v2 session. -/
def OtaRx.keepsApart (env : RxEnv) (r : OtaRx) : List RxEvent → Bool
  | [] => true
  | event :: events => !r.crosses env event && (r.step env event).keepsApart env events

theorem run_sound {r : OtaRx} (h : r.Sound env) (events : List RxEvent)
    (hapart : r.keepsApart env events = true) : (r.run env events).Sound env := by
  induction events generalizing r with
  | nil => exact h
  | cons event events ih =>
      rw [OtaRx.keepsApart, Bool.and_eq_true, Bool.not_eq_true'] at hapart
      exact ih (step_sound h event hapart.1) hapart.2

theorem boot_sound : OtaRx.boot.Sound env where
  activations := by
    intro before partition after hsplit
    simp [OtaRx.boot] at hsplit
  session := fun hno => (nomatch hno)

/-- In every run in which no v1 packet serves a v2 session, every activation ends a
session that wrote the announced image, and a v2 session's image has the digest of
the COMMIT. -/
theorem run_activationsSafe (env : RxEnv) (events : List RxEvent)
    (hapart : OtaRx.boot.keepsApart env events = true) :
    ActivationsSafe env (OtaRx.boot.run env events).trace :=
  (run_sound boot_sound events hapart).activations

/-! ## Small runs -/

/-- The SHA-256 digest of the bytes `1` and `2`. -/
def oneTwoSha256 : Digest :=
  #v[161, 40, 113, 254, 226, 16, 251, 134, 25, 41, 30, 174, 161, 148, 88, 28,
    189, 37, 49, 228, 178, 55, 89, 210, 37, 246, 128, 105, 35, 246, 50, 34]

/-- The SHA-256 digest of the byte `2`. -/
def twoSha256 : Digest :=
  #v[219, 193, 180, 201, 0, 255, 228, 141, 87, 91, 93, 165, 198, 56, 4, 1,
    37, 246, 93, 176, 254, 62, 36, 73, 75, 118, 234, 152, 100, 87, 217, 134]

/-- The SHA-256 digest of two bytes `9`. -/
def nineNineSha256 : Digest :=
  #v[49, 96, 148, 38, 41, 115, 37, 189, 178, 140, 134, 171, 60, 238, 237, 74,
    60, 67, 137, 102, 115, 63, 214, 27, 138, 234, 0, 238, 139, 35, 183, 188]

def spareSlot : Partition where
  label := ascii "ota_1"
  size := 4096
  label_fits := by decide +kernel
  label_text := by decide +kernel

/-- A device whose project is called `p`, with SHA-256 on the inputs of the runs. -/
def smallRxEnv : RxEnv where
  sha256 := fun bytes =>
    if bytes = [1, 2] then oneTwoSha256
    else if bytes = [2] then twoSha256
    else if bytes = [9, 9] then nineNineSha256
    else zeroDigest
  project := ascii "p"
  nextUpdatePartition := some spareSlot
  size_lt := by
    intro p hp
    cases hp
    decide
  tickRateHz := 100
  errToName := fun _ => []

/-- Every call of the platform succeeds, at tick `0`. -/
def allOk : RxAnswers where
  now := 0
  otaBegin := .ok
  otaWrite := .ok
  otaEnd := .ok
  setBoot := .ok
  hashStart := .ok
  hashUpdate := .ok
  hashFinish := .ok

/-- A v2 payload of operation `7` for an image of two bytes. -/
def twoBytes (offset len : U32) (sha256 : Digest) : V2Common where
  opId := 7
  imageSize := 2
  offset := offset
  len := len
  projectName := ascii "p"
  sha256 := sha256

def v2Run : List RxEvent :=
  [.v2 (.prepare (twoBytes 0 1024 oneTwoSha256)) allOk,
    .v2 (.data (twoBytes 0 2 zeroDigest) [1, 2]) allOk,
    .v2 (.commit (twoBytes 0 0 oneTwoSha256)) allOk]

theorem run_activationsSafe_v2Run :
    RxEffect.setBoot (some spareSlot) ∈ (OtaRx.boot.run smallRxEnv v2Run).trace ∧
      ActivationsSafe smallRxEnv (OtaRx.boot.run smallRxEnv v2Run).trace :=
  ⟨by decide +kernel, run_activationsSafe smallRxEnv v2Run (by decide +kernel)⟩

/-- A v1 END packet closes a v2 session, so its digest is never checked. -/
def endRun : List RxEvent :=
  [.v2 (.prepare (twoBytes 0 1024 oneTwoSha256)) allOk,
    .v2 (.data (twoBytes 0 2 zeroDigest) [9, 9]) allOk,
    .v1 (.finish ⟨1, 2⟩) allOk]

/-- A v1 DATA packet writes into a v2 session, and only the rest is hashed. -/
def dataRun : List RxEvent :=
  [.v2 (.prepare (twoBytes 0 1024 zeroDigest)) allOk,
    .v1 (.data ⟨1, 1, 0, [1]⟩) allOk,
    .v2 (.data (twoBytes 1 1 zeroDigest) [2]) allOk,
    .v2 (.commit (twoBytes 0 0 twoSha256)) allOk]

/-- What a safe trace says of an activation that ends a v2 session, if that is the
first session in it. -/
theorem ActivationsSafe.digest {trace effects after : List RxEffect} {session : Session}
    {partition : Option Partition} (h : ActivationsSafe env trace)
    (htrace : trace = (.begun session :: effects) ++ .setBoot partition :: after)
    (hv2 : session.v2 = true) (honly : NoBegin effects) :
    ∃ digest, RxEffect.committed session.opId digest ∈ effects ∧
      env.sha256 (bytesOf effects) = digest := by
  obtain ⟨earlier, session', effects', hsplit, -, -, hsafe⟩ := h _ partition after htrace
  cases earlier with
  | nil =>
      obtain ⟨hfirst, rfl⟩ := List.cons.inj hsplit
      cases hfirst
      obtain ⟨digest, hmem, -, hsame, -⟩ := hsafe.verified hv2
      exact ⟨digest, hmem, hsame⟩
  | cons head earlier =>
      obtain ⟨-, htail⟩ := List.cons.inj hsplit
      exact absurd (htail ▸ List.mem_append_right _ List.mem_cons_self) (honly session')

/-- The session of both runs. -/
def twoBytesSession (sha256 : Digest) : Session :=
  ⟨true, 7, 2, sha256, spareSlot⟩

/-- Both ways in which a v1 packet spoils a v2 session. -/
theorem run_activations_unsafe :
    ¬ActivationsSafe smallRxEnv (OtaRx.boot.run smallRxEnv endRun).trace ∧
      ¬ActivationsSafe smallRxEnv (OtaRx.boot.run smallRxEnv dataRun).trace := by
  constructor
  · intro h
    let effects : List RxEffect :=
      [.statusV2 .prepare .ok 7 0 2 (ascii "ota_1"), .wrote 0 [9, 9],
        .statusV2 .data .ok 7 2 2 (ascii "chunk OK")]
    have hend := h.digest
      (by decide +kernel : _ = (.begun (twoBytesSession oneTwoSha256) :: effects) ++
        .setBoot (some spareSlot) :: [.status .finish .ok 1 2 2 (ascii "OTA OK rebooting")])
      rfl (fun session => by simp [effects])
    obtain ⟨digest, hmem, -⟩ := hend
    simp [effects] at hmem
  · intro h
    let effects : List RxEffect :=
      [.statusV2 .prepare .ok 7 0 2 (ascii "ota_1"), .wrote 0 [1],
        .status .data .ok 1 1 2 (ascii "chunk OK"), .wrote 1 [2],
        .statusV2 .data .ok 7 2 2 (ascii "chunk OK"), .committed 7 twoSha256]
    have hdata := h.digest
      (by decide +kernel : _ = (.begun (twoBytesSession zeroDigest) :: effects) ++
        .setBoot (some spareSlot) ::
          [.statusV2 .commit .ok 7 2 2 (ascii "OTA OK rebooting")])
      rfl (fun session => by simp [effects])
    obtain ⟨digest, hmem, hsame⟩ := hdata
    have hdigest : (twoBytesSession zeroDigest).opId = 7 ∧ digest = twoSha256 := by
      simpa [effects] using hmem
    rw [hdigest.2] at hsame
    exact absurd hsame (by decide +kernel)

end KeemashCore.OtaReceiver

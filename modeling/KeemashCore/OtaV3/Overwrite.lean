import KeemashCore.OtaV3.Abort
import KeemashCore.Trace.Basic

/-!
# Which key a write replaces

A generation is followed by the next one, zero left out.  That keeps the parity at one
place: the generation after `0xffffffff` is again odd, so its record goes to the key that
holds the latest one, and a write cut short there leaves the journal with the record
before.
-/

namespace KeemashCore.OtaV3

variable {env : JournalEnv}

/-! ## Generations -/

/-- The generation that `write_record` gives the record after one of generation `g`. -/
def afterGeneration (g : U32) : U32 :=
  if g + 1 = 0 then 1 else g + 1

/-- A record of generation `old` is the one before a record of generation `g`: `write_record`
numbers `g` after `old`, or has replaced the record between them. -/
def Precedes (old g : U32) : Prop :=
  afterGeneration old = g ∨ Follows old g

theorem afterGeneration_of_ne {g : U32} (h : g ≠ 0xffffffff) : afterGeneration g = g + 1 := by
  rw [afterGeneration, if_neg]
  bv_omega

/-- One number is later than another by a few steps. -/
def FewAfter (a b : U32) : Prop :=
  0 < (a - b).toNat ∧ (a - b).toNat ≤ 5

theorem FewAfter.newer {a b : U32} (h : FewAfter a b) :
    OtaV3.newer a b = true ∧ OtaV3.newer b a = false := by
  obtain ⟨hpos, hle⟩ := h
  have hback : (b - a).toNat = 2 ^ 32 - (a - b).toNat := by
    bv_omega
  rw [OtaV3.newer, OtaV3.newer, decide_eq_true_iff, decide_eq_false_iff_not,
    BitVec.toInt_eq_toNat_cond, BitVec.toInt_eq_toNat_cond, hback]
  constructor
  · rw [if_pos (by omega)]
    omega
  · rw [if_neg (by omega)]
    omega

theorem FewAfter.ne {a b : U32} (h : FewAfter a b) : a ≠ b := by
  rintro rfl
  have hpos := h.1
  rw [BitVec.sub_self] at hpos
  exact Nat.lt_irrefl 0 hpos

theorem afterGeneration_sub (g : U32) :
    0 < (afterGeneration g - g).toNat ∧ (afterGeneration g - g).toNat ≤ 2 := by
  rw [afterGeneration]
  by_cases h : g + 1 = 0
  · rw [if_pos h]
    bv_omega
  · rw [if_neg h]
    bv_omega

theorem fewAfter_afterGeneration (g : U32) : FewAfter (afterGeneration g) g := by
  have h := afterGeneration_sub g
  exact ⟨h.1, by omega⟩

theorem Precedes.sub {old g : U32} (h : Precedes old g) :
    0 < (g - old).toNat ∧ (g - old).toNat ≤ 3 := by
  rcases h with rfl | rfl | ⟨rfl, rfl⟩
  · have h := afterGeneration_sub old
    omega
  · bv_omega
  · decide

theorem Precedes.fewAfter {old g : U32} (h : Precedes old g) : FewAfter g old := by
  have hsub := h.sub
  exact ⟨hsub.1, by omega⟩

theorem Precedes.fewAfter_next {old g : U32} (h : Precedes old g) :
    FewAfter (afterGeneration g) old := by
  have hsub := h.sub
  have hafter := afterGeneration_sub g
  have hsum : (afterGeneration g - old).toNat =
      (afterGeneration g - g).toNat + (g - old).toNat := by
    bv_omega
  rw [FewAfter, hsum]
  omega

/-- The next generation has the other parity, but for the one after `0xffffffff`. -/
theorem checkpointKey_afterGeneration (g : U32) :
    checkpointKey (afterGeneration g) ≠ checkpointKey g ↔ g ≠ 0xffffffff := by
  by_cases h : g = 0xffffffff
  · rw [h]
    decide
  · rw [afterGeneration_of_ne h, checkpointKey_eq, checkpointKey_eq]
    have hadd : (g + 1).toNat = g.toNat + 1 := by
      bv_omega
    rw [hadd]
    split_ifs with h₁ h₂ h₂
    · omega
    · exact iff_of_true (by decide) h
    · exact iff_of_true (by decide) h
    · omega

/-! ## The two keys -/

/-- A key holds the latest record, and the other one the record before it, if any. -/
structure TwoKeys (env : JournalEnv) (nvs : Nvs) (key : NvsKey) (latest : StoredCheckpoint) :
    Prop where
  read : readRecord env nvs key = some latest
  before : ∀ other old, other ≠ key → readRecord env nvs other = some old →
    Precedes old.generation latest.generation

/-- The key that the next `write_record` stores its record under. -/
def targetKey (env : JournalEnv) (nvs : Nvs) : NvsKey :=
  checkpointKey (nextGeneration env nvs)

theorem eq_of_ne_of_ne {a b c : NvsKey} (hab : a ≠ b) (hcb : c ≠ b) : a = c := by
  cases a <;> cases b <;> cases c <;> first | rfl | exact absurd rfl hab | exact absurd rfl hcb

namespace TwoKeys

variable {nvs : Nvs} {key : NvsKey} {latest : StoredCheckpoint}

theorem latestRecord (h : TwoKeys env nvs key latest) :
    OtaV3.latestRecord env nvs = some latest :=
  latestRecord_of_newer h.read fun other old hne hold =>
    (h.before other old hne hold).fewAfter.newer

theorem nextGeneration (h : TwoKeys env nvs key latest) :
    OtaV3.nextGeneration env nvs = afterGeneration latest.generation := by
  simp only [OtaV3.nextGeneration, h.latestRecord]
  rfl

/-- The next write goes to the other key unless it comes round while the latest record lies
under the key of its generation. -/
theorem targetKey_ne_iff (h : TwoKeys env nvs key latest) :
    targetKey env nvs ≠ key ↔
      (checkpointKey latest.generation = key ↔ latest.generation ≠ 0xffffffff) := by
  have hparity := checkpointKey_afterGeneration latest.generation
  rw [targetKey, h.nextGeneration]
  by_cases hkey : checkpointKey latest.generation = key
  · rw [← hkey, hparity]
    rw [eq_self_iff_true, true_iff]
  · rw [iff_false_left hkey, not_not, ← not_iff_not, ← ne_eq, ← hparity, not_not]
    constructor
    · intro heq hsame
      exact hkey (hsame.symm.trans heq)
    · intro hne
      exact eq_of_ne_of_ne hne fun heq => hkey heq.symm

/-- Once a write has completed, its record is the latest. -/
theorem write_done (h : TwoKeys env nvs key latest) {checkpoint : Option Checkpoint}
    (hstore : Storable env checkpoint) :
    OtaV3.latestRecord env (writeRecord env nvs checkpoint .done).2 =
      some (freshRecord env nvs checkpoint) := by
  have hvalid := @recordValid_freshRecord env nvs _ hstore
  have hgeneration : (freshRecord env nvs checkpoint).generation =
      afterGeneration latest.generation := h.nextGeneration
  have htarget : checkpointKey (freshRecord env nvs checkpoint).generation = targetKey env nvs :=
    rfl
  apply @latestRecord_of_newer env _ (targetKey env nvs)
  · rw [writeRecord, htarget, readRecord_set, if_pos rfl, Option.filter_some, if_pos hvalid]
  · intro other old hne hold
    rw [writeRecord, htarget, readRecord_set, if_neg hne] at hold
    rw [hgeneration]
    by_cases hkey : other = key
    · rw [hkey, h.read] at hold
      rw [← Option.some.inj hold]
      exact (fewAfter_afterGeneration latest.generation).newer
    · exact (h.before other old hkey hold).fewAfter_next.newer

/-- A write cut short leaves the latest record alone exactly if it went to the other key. -/
theorem write_torn_iff (h : TwoKeys env nvs key latest) (checkpoint : Option Checkpoint)
    (left : Option StoredCheckpoint) (invalid : left.filter (recordValid env) = none) :
    OtaV3.latestRecord env (writeRecord env nvs checkpoint (.torn left invalid)).2 =
      some latest ↔ targetKey env nvs ≠ key := by
  have hread : ∀ other, readRecord env
      (writeRecord env nvs checkpoint (.torn left invalid)).2 other =
        if other = targetKey env nvs then none else readRecord env nvs other := by
    intro other
    rw [writeRecord, readRecord_set, invalid]
    rfl
  constructor
  · intro hlatest htarget
    obtain ⟨other, hother⟩ := latestRecord_mem hlatest
    rw [hread] at hother
    by_cases hne : other = targetKey env nvs
    · rw [if_pos hne] at hother
      exact absurd hother (Option.some_ne_none latest).symm
    · rw [if_neg hne] at hother
      rw [htarget] at hne
      exact (h.before other latest hne hother).fewAfter.ne rfl
  · intro htarget
    apply @latestRecord_of_newer env _ key
    · rw [hread, if_neg htarget.symm]
      exact h.read
    · intro other old hne hold
      rw [hread, if_pos (eq_of_ne_of_ne hne htarget)] at hold
      exact absurd hold (Option.some_ne_none old).symm

end TwoKeys

/-! ## Runs -/

/-- What the calls leave behind, and the record of the last write that completed. -/
structure JournalRun (env : JournalEnv) where
  nvs : Nvs
  completed : Option StoredCheckpoint

namespace JournalRun

def empty : JournalRun env where
  nvs := Nvs.empty
  completed := none

def step (s : JournalRun env) (call : JournalCall env) : JournalRun env where
  nvs := (call.run s.nvs).2
  completed :=
    match call.completed with
    | some checkpoint => some (freshRecord env s.nvs checkpoint)
    | none => s.completed

/-- The journal shows the record of the last write that completed. -/
def Intact (s : JournalRun env) : Prop :=
  latestRecord env s.nvs = s.completed

/-- A write cut short does not meet a latest record of generation `0xffffffff`. -/
def Spares (s : JournalRun env) (call : JournalCall env) : Prop :=
  call.writes = true → call.completed = none →
    ∀ record, s.completed = some record → record.generation ≠ 0xffffffff

end JournalRun

theorem Paired.follows_either {nvs : Nvs} (h : Paired env nvs) {key other : NvsKey}
    {first second : StoredCheckpoint} (hne : other ≠ key)
    (hfirst : readRecord env nvs key = some first)
    (hsecond : readRecord env nvs other = some second) :
    Follows first.generation second.generation ∨ Follows second.generation first.generation := by
  cases key with
  | v3a =>
      cases other with
      | v3a => exact absurd rfl hne
      | v3b => exact h.follows first second hfirst hsecond
  | v3b =>
      cases other with
      | v3a => exact (h.follows second first hsecond hfirst).symm
      | v3b => exact absurd rfl hne

/-- Records that lie in order under their keys are a latest one and the one before it. -/
theorem Paired.twoKeys {nvs : Nvs} (h : Paired env nvs) {latest : StoredCheckpoint}
    (hlatest : latestRecord env nvs = some latest) :
    TwoKeys env nvs (checkpointKey latest.generation) latest := by
  obtain ⟨key, hread⟩ := latestRecord_mem hlatest
  rw [h.key key latest hread]
  refine ⟨hread, ?_⟩
  intro other old hne hold
  rcases h.follows_either hne hread hold with hafter | hbefore
  · have hnewer : FewAfter old.generation latest.generation := Precedes.fewAfter (.inr hafter)
    have hshown : latestRecord env nvs = some old := by
      apply latestRecord_of_newer hold
      intro third record hthird hrecord
      rw [eq_of_ne_of_ne hthird hne.symm, hread] at hrecord
      rw [← Option.some.inj hrecord]
      exact hnewer.newer
    rw [hlatest] at hshown
    rw [Option.some.inj hshown] at hnewer
    exact absurd rfl hnewer.ne
  · exact .inr hbefore

/-- A journal that shows nothing keeps showing nothing after a write cut short. -/
theorem latestRecord_torn_none {nvs : Nvs} (hnone : latestRecord env nvs = none)
    (checkpoint : Option Checkpoint) (left : Option StoredCheckpoint)
    (invalid : left.filter (recordValid env) = none) :
    latestRecord env (writeRecord env nvs checkpoint (.torn left invalid)).2 = none := by
  have hread : ∀ key, readRecord env
      (writeRecord env nvs checkpoint (.torn left invalid)).2 key = none := by
    intro key
    rw [writeRecord, readRecord_set, invalid, latestRecord_none hnone key, ite_self]
  rw [latestRecord, hread, hread]

/-- What a call does to the journal. -/
theorem JournalCall.run_cases (nvs : Nvs) (call : JournalCall env) :
    (call.completed = none ∧ call.writes = false ∧ (call.run nvs).2 = nvs) ∨
      (∃ checkpoint, Storable env checkpoint ∧ call.completed = some checkpoint ∧
        (call.run nvs).2 = (writeRecord env nvs checkpoint .done).2) ∨
      ∃ checkpoint left invalid, Storable env checkpoint ∧ call.completed = none ∧
        call.writes = true ∧
        (call.run nvs).2 = (writeRecord env nvs checkpoint (.torn left invalid)).2 := by
  cases call with
  | clear write =>
      have hstore : Storable env none := fun _ h => nomatch h
      cases write with
      | done => exact .inr (.inl ⟨none, hstore, rfl, rfl⟩)
      | torn left invalid => exact .inr (.inr ⟨none, left, invalid, hstore, rfl, rfl, rfl⟩)
      | refused error isError => exact .inl ⟨rfl, rfl, rfl⟩
  | save checkpoint write =>
      by_cases hreject : saveRejects env checkpoint = true
      · left
        cases write <;>
          simp [JournalCall.completed, JournalCall.writes, JournalCall.run, checkpointSave,
            hreject]
      · have hstore : Storable env (some checkpoint) := by
          rintro cp ⟨⟩
          exact Bool.eq_false_iff.2 hreject
        have hrun : ∀ write, (JournalCall.save checkpoint write).run nvs =
            writeRecord env nvs (some checkpoint) write := by
          intro write
          rw [JournalCall.run, checkpointSave, if_neg hreject]
        rw [hrun]
        cases write with
        | done =>
            refine .inr (.inl ⟨some checkpoint, hstore, ?_, rfl⟩)
            rw [JournalCall.completed, if_neg hreject]
        | torn left invalid =>
            refine .inr (.inr ⟨some checkpoint, left, invalid, hstore, rfl, ?_, rfl⟩)
            simp [JournalCall.writes, hreject]
        | refused error isError => exact .inl ⟨rfl, rfl, rfl⟩

namespace JournalRun

theorem paired_step {s : JournalRun env} (h : Paired env s.nvs) (call : JournalCall env) :
    Paired env (s.step call).nvs := by
  rw [step]
  obtain ⟨-, -, heq⟩ | ⟨checkpoint, hstore, -, heq⟩ |
    ⟨checkpoint, left, invalid, hstore, -, -, heq⟩ := call.run_cases s.nvs
  · rw [heq]
    exact h
  · rw [heq]
    exact h.write hstore .done
  · rw [heq]
    exact h.write hstore (.torn left invalid)

/-- A call leaves the journal showing the last completed record exactly if no write cut
short meets the last generation. -/
theorem intact_step_iff {s : JournalRun env} (h : Paired env s.nvs) (hs : s.Intact)
    (call : JournalCall env) : (s.step call).Intact ↔ s.Spares call := by
  rw [Intact] at hs
  rw [Intact, Spares, step]
  obtain ⟨hnone, hwrites, heq⟩ | ⟨checkpoint, hstore, hdone, heq⟩ |
    ⟨checkpoint, left, invalid, hstore, hnone, hwrites, heq⟩ := call.run_cases s.nvs
  · rw [heq, hnone, hwrites]
    exact iff_of_true hs fun h => Bool.noConfusion h
  · rw [heq, hdone]
    exact iff_of_true (h.latest_write hstore) fun _ h => by cases h
  · rw [heq, hnone, hwrites]
    simp only [forall_const]
    cases hlatest : s.completed with
    | none =>
        rw [hlatest] at hs
        exact iff_of_true (latestRecord_torn_none hs checkpoint left invalid)
          fun _ h => by cases h
    | some latest =>
        rw [hlatest] at hs
        have htwo := h.twoKeys hs
        rw [htwo.write_torn_iff, htwo.targetKey_ne_iff, eq_self_iff_true, true_iff]
        constructor
        · rintro hne record ⟨⟩
          exact hne
        · intro hall
          exact hall latest rfl

/-- The same along a run. -/
theorem always_intact_iff {s : JournalRun env} (h : Paired env s.nvs) (hs : s.Intact)
    (calls : List (JournalCall env)) :
    Trace.Always step (fun s call => (s.step call).Intact) s calls ↔
      Trace.Always step Spares s calls := by
  induction calls generalizing s with
  | nil => exact Iff.rfl
  | cons call calls ih =>
      rw [Trace.Always, Trace.Always, intact_step_iff h hs call]
      apply and_congr_right
      intro hspares
      exact ih (paired_step h call) ((intact_step_iff h hs call).2 hspares)

end JournalRun

/-- Where one key holds the latest record and the other the one before it, an unreadable one
or none, the next write goes to the other key, and cut short leaves the latest record to be
shown, exactly if the latest record lies under the key of its generation and is not of the
last one (or lies under the wrong key and is).  A write that completes is always shown.
From an empty journal the last completed record is shown after every call exactly if no
write cut short meets the last generation. -/
theorem latest_spared_iff (env : JournalEnv) :
    (∀ nvs key latest, TwoKeys env nvs key latest →
      (targetKey env nvs ≠ key ↔
        (checkpointKey latest.generation = key ↔ latest.generation ≠ 0xffffffff)) ∧
      (∀ checkpoint, Storable env checkpoint →
        latestRecord env (writeRecord env nvs checkpoint .done).2 =
          some (freshRecord env nvs checkpoint)) ∧
      ∀ checkpoint left invalid,
        latestRecord env (writeRecord env nvs checkpoint (.torn left invalid)).2 =
            some latest ↔
          (checkpointKey latest.generation = key ↔ latest.generation ≠ 0xffffffff)) ∧
    ∀ calls : List (JournalCall env),
      Trace.Always JournalRun.step (fun s call => (s.step call).Intact) .empty calls ↔
        Trace.Always JournalRun.step JournalRun.Spares .empty calls := by
  constructor
  · intro nvs key latest h
    refine ⟨h.targetKey_ne_iff, ?_, ?_⟩
    · intro checkpoint hstore
      exact h.write_done hstore
    · intro checkpoint left invalid
      rw [h.write_torn_iff, h.targetKey_ne_iff]
  · intro calls
    exact JournalRun.always_intact_iff (s := .empty) paired_empty rfl calls

/-! ## The last generation -/

/-- The record of a transfer to `ota_1` with a generation. -/
def recordOf (generation : U32) : StoredCheckpoint :=
  let body : StoredBody :=
    { magic := checkpointMagic
      version := checkpointVersion
      tombstone := 0
      generation := generation
      checkpoint := fourBlocks }
  { body with crc32 := deviceJournal.crc32 body }

theorem recordValid_recordOf {generation : U32} (h : generation ≠ 0) :
    recordValid deviceJournal (recordOf generation) = true := by
  have hsave : saveRejects deviceJournal fourBlocks = false := by decide
  exact recordValid_of_accepted rfl rfl rfl h rfl hsave

/-- The last two records before the generation comes round. -/
def lastTwo : Nvs := fun key =>
  match key with
  | .v3a => some (recordOf 0xffffffff)
  | .v3b => some (recordOf 0xfffffffe)

theorem readRecord_lastTwo (key : NvsKey) : readRecord deviceJournal lastTwo key = lastTwo key := by
  cases key with
  | v3a =>
      exact Option.filter_eq_some_iff.2 ⟨rfl, recordValid_recordOf (by decide)⟩
  | v3b =>
      exact Option.filter_eq_some_iff.2 ⟨rfl, recordValid_recordOf (by decide)⟩

theorem twoKeys_lastTwo : TwoKeys deviceJournal lastTwo .v3a (recordOf 0xffffffff) := by
  refine ⟨readRecord_lastTwo .v3a, ?_⟩
  intro other old hne hold
  cases other with
  | v3a => exact absurd rfl hne
  | v3b =>
      rw [readRecord_lastTwo] at hold
      rw [← Option.some.inj hold]
      exact .inl (by decide)

/-- The write after generation `0xffffffff` goes to the key of that generation, and cut short
it takes the latest record along. -/
theorem last_generation_overwritten :
    TwoKeys deviceJournal lastTwo .v3a (recordOf 0xffffffff) ∧
      targetKey deviceJournal lastTwo = .v3a ∧
      latestRecord deviceJournal
        (writeRecord deviceJournal lastTwo (some fourBlocks) (.torn none rfl)).2 ≠
          some (recordOf 0xffffffff) := by
  have htwo := twoKeys_lastTwo
  have htarget : targetKey deviceJournal lastTwo = .v3a := by
    rw [targetKey, htwo.nextGeneration]
    decide
  refine ⟨htwo, htarget, ?_⟩
  rw [ne_eq, htwo.write_torn_iff, not_not]
  exact htarget

end KeemashCore.OtaV3

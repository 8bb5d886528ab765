import KeemashCore.WeeklySchedule.Basic
import Mathlib.Data.Nat.Notation

/-!
# The stage is transactional

A configuration becomes active as a whole: its points are those received last since
one `stage_begin`, and a call that fails changes nothing but the stage and the last
error.
-/

namespace KeemashCore.WeeklySchedule

/-! ## Runs -/

/-- A call of another task. -/
inductive Call where
  | stageBegin (locked : Bool) (now generation : U32) (count : BitVec 8)
      (enabled persistenceEnabled : Bool)
  | stagePoint (locked : Bool) (now generation : U32) (index : BitVec 8) (point : Point)
  | stageCommit (locked : Bool) (now generation : U32) (nvs : NvsResults)

def Schedule.call (options : Options) (s : Schedule) : Call → EspErr × Schedule × List Effect
  | .stageBegin locked now generation count enabled persistenceEnabled =>
      s.stageBegin locked now generation count enabled persistenceEnabled
  | .stagePoint locked now generation index point =>
      s.stagePoint options locked now generation index point
  | .stageCommit locked now generation nvs =>
      s.stageCommit options locked now generation nvs

/-- A call, or a section of the task. -/
inductive Action where
  | call (c : Call)
  | sample (now : U32) (epoch : Option ℤ)
  | recordApplyResult (generation : U32) (index : BitVec 8) (catchUp : Bool) (dayKey : U32)
      (error : EspErr) (now : U32)
  | markRun (generation : U32) (index : BitVec 8) (dayKey : U32)
  | dropCatchUp (generation : U32)

/-- The schedule, and what has happened to its stage. -/
structure System where
  schedule : Schedule
  log : List Effect

def System.step (options : Options) (s : System) : Action → System
  | .call c =>
      let r := s.schedule.call options c
      { schedule := r.2.1, log := s.log ++ r.2.2 }
  | .sample now epoch => { s with schedule := (s.schedule.sample options now epoch).2 }
  | .recordApplyResult generation index catchUp dayKey error now =>
      { s with
        schedule := s.schedule.recordApplyResult generation index catchUp dayKey error now }
  | .markRun generation index dayKey =>
      { s with schedule := s.schedule.markRun generation index dayKey }
  | .dropCatchUp generation => { s with schedule := s.schedule.dropCatchUp generation }

/-- The system when the task starts. -/
def System.start (loaded : Config) : System where
  schedule := .start loaded
  log := []

def System.run (options : Options) (s : System) (actions : List Action) : System :=
  actions.foldl (System.step options) s

/-! ## What was received -/

def receivedAt (i : ℕ) : Effect → Option Point
  | .received _ index point => if index.toNat = i then some point else none
  | _ => none

/-- The last point that was received for an index. -/
def lastReceived (effects : List Effect) (i : ℕ) : Option Point :=
  (effects.filterMap (receivedAt i)).getLast?

/-- `config` is valid and was committed, and nothing has been committed since; its points
are the last ones received for it, and all were received after its `stage_begin`. -/
def CommittedFrom (options : Options) (log : List Effect) (config : Config) : Prop :=
  ConfigValid options config ∧ ∃ before received after,
    log = before ++
      .began config.generation config.count config.enabled config.persistenceEnabled ::
        (received ++ .committed config :: after) ∧
    (∀ effect ∈ received, ∃ index point, effect = .received config.generation index point) ∧
    (∀ i < config.count.toNat, lastReceived received i = some (config.point i)) ∧
    ∀ other, Effect.committed other ∉ after

theorem lastReceived_snoc (effects : List Effect) (generation : U32) (index : BitVec 8)
    (point : Point) (i : ℕ) :
    lastReceived (effects ++ [.received generation index point]) i =
      if index.toNat = i then some point else lastReceived effects i := by
  rw [lastReceived, List.filterMap_append]
  by_cases hindex : index.toNat = i
  · rw [if_pos hindex]
    simp only [List.filterMap_cons, receivedAt, if_pos hindex, List.filterMap_nil,
      List.getLast?_concat]
  · rw [if_neg hindex]
    simp only [List.filterMap_cons, receivedAt, if_neg hindex, List.filterMap_nil,
      List.append_nil, lastReceived]

theorem CommittedFrom.append {options : Options} {log : List Effect} {config : Config}
    (h : CommittedFrom options log config) {effects : List Effect}
    (heffects : ∀ other, Effect.committed other ∉ effects) :
    CommittedFrom options (log ++ effects) config := by
  obtain ⟨hvalid, before, received, after, rfl, hreceived, hpoints, hlast⟩ := h
  refine ⟨hvalid, before, received, after ++ effects, ?_, hreceived, hpoints, ?_⟩
  · simp only [List.append_assoc, List.cons_append]
  · intro other hmem
    rcases List.mem_append.1 hmem with hafter | hnew
    · exact hlast other hafter
    · exact heffects other hnew

/-! ## What a call does -/

/-- The parts of the schedule that the task works with. -/
structure Unchanged (s s' : Schedule) : Prop where
  config : s'.config = s.config
  lastRunDay : s'.lastRunDay = s.lastRunDay
  catchUpPending : s'.catchUpPending = s.catchUpPending
  retryPending : s'.retryPending = s.retryPending
  retryGeneration : s'.retryGeneration = s.retryGeneration
  retryDayKey : s'.retryDayKey = s.retryDayKey
  nextRetryMs : s'.nextRetryMs = s.nextRetryMs
  retryIndex : s'.retryIndex = s.retryIndex
  lastApplyValid : s'.lastApplyValid = s.lastApplyValid
  lastApplyIndex : s'.lastApplyIndex = s.lastApplyIndex
  lastApplyKind : s'.lastApplyKind = s.lastApplyKind
  lastApplyMs : s'.lastApplyMs = s.lastApplyMs

theorem Unchanged.refl (s : Schedule) : Unchanged s s := by
  constructor <;> rfl

section Calls

variable (options : Options) (s : Schedule)

theorem expireStage_cases (now : U32) :
    s.expireStage options now = s ∨ s.expireStage options now = { s with stage := .zero } := by
  rw [Schedule.expireStage]
  split
  · exact .inr rfl
  · exact .inl rfl

theorem expireStage_unchanged (now : U32) : Unchanged s (s.expireStage options now) := by
  rcases expireStage_cases options s now with heq | heq
  · rw [heq]
    exact .refl s
  · rw [heq]
    constructor <;> rfl

theorem expireStage_stage (now : U32) :
    (s.expireStage options now).stage = s.stage ∨
      (s.expireStage options now).stage = .zero := by
  rcases expireStage_cases options s now with heq | heq
  · exact .inl (by rw [heq])
  · exact .inr (by rw [heq])

/-- A stage that is active after `expire_stage_locked` is the one before. -/
theorem expireStage_of_active {now : U32}
    (h : (s.expireStage options now).stage.active = true) :
    s.expireStage options now = s := by
  rcases expireStage_cases options s now with heq | heq
  · exact heq
  · rw [heq] at h
    cases h

/-- A call that fails: it may drop the stage. -/
structure Rejects (r : EspErr × Schedule × List Effect) : Prop where
  err : r.1 ≠ .ok
  effects : r.2.2 = []
  unchanged : Unchanged s r.2.1
  stage : r.2.1.stage = s.stage ∨ r.2.1.stage = .zero

theorem rejects_of_ne {err : EspErr} (herr : err ≠ .ok) : Rejects s (err, s, []) where
  err := herr
  effects := rfl
  unchanged := .refl s
  stage := .inl rfl

theorem rejects_expired {err : EspErr} (herr : err ≠ .ok) (now : U32) :
    Rejects s (err, s.expireStage options now, []) where
  err := herr
  effects := rfl
  unchanged := expireStage_unchanged options s now
  stage := expireStage_stage options s now

theorem stageBegin_cases (locked : Bool) (now generation : U32) (count : BitVec 8)
    (enabled persistenceEnabled : Bool) :
    Rejects s (s.stageBegin locked now generation count enabled persistenceEnabled) ∨
      count.toNat ≤ maxPoints ∧
        s.stageBegin locked now generation count enabled persistenceEnabled =
          (.ok,
            { s with
              stage :=
                { active := true
                  startedMs := now
                  receivedMask := 0
                  config :=
                    { Config.zero with
                      generation := generation
                      count := count
                      enabled := enabled
                      persistenceEnabled := persistenceEnabled } } },
            [.began generation count enabled persistenceEnabled]) := by
  rw [Schedule.stageBegin]
  split
  · exact .inl (rejects_of_ne s (nomatch ·))
  next hargs =>
    split
    · exact .inl (rejects_of_ne s (nomatch ·))
    · exact .inr ⟨Nat.le_of_not_lt (not_or.1 hargs).2, rfl⟩

theorem stagePoint_cases (locked : Bool) (now generation : U32) (index : BitVec 8)
    (point : Point) :
    Rejects s (s.stagePoint options locked now generation index point) ∨
      s.stage.active = true ∧ s.stage.config.generation = generation ∧
        index < s.stage.config.count ∧
        s.stagePoint options locked now generation index point =
          (.ok, { s with stage := s.stage.receive index point },
            [.received generation index point]) := by
  rw [Schedule.stagePoint]
  split
  · exact .inl (rejects_of_ne s (nomatch ·))
  split
  · exact .inl (rejects_of_ne s (nomatch ·))
  dsimp only
  split
  · exact .inl (@rejects_expired options s .invalidState (nomatch ·) now)
  next hstage =>
    obtain ⟨hactive, hgeneration, hindex⟩ :
        ¬(s.expireStage options now).stage.active = false ∧
          ¬(s.expireStage options now).stage.config.generation ≠ generation ∧
          ¬index ≥ (s.expireStage options now).stage.config.count := by
      rw [← not_or, ← not_or]
      exact hstage
    rw [Bool.not_eq_false] at hactive
    rw [expireStage_of_active options s hactive] at *
    exact .inr ⟨hactive, not_not.1 hgeneration, BitVec.not_le.1 hindex, rfl⟩

theorem stageCommit_cases (locked : Bool) (now generation : U32) (nvs : NvsResults) :
    Rejects s (s.stageCommit options locked now generation nvs) ∨
      s.stage.active = true ∧ s.stage.receivedMask = expectedMask s.stage.config.count ∧
        ConfigValid options s.stage.config ∧
        s.stageCommit options locked now generation nvs =
          (.ok, s.activate s.stage.config, [.committed s.stage.config]) := by
  rw [Schedule.stageCommit]
  split
  · exact .inl (rejects_of_ne s (nomatch ·))
  dsimp only
  split
  · exact .inl (@rejects_expired options s .invalidState (nomatch ·) now)
  next hstage =>
    obtain ⟨hactive, -, hmask, hvalid⟩ :
        ¬(s.expireStage options now).stage.active = false ∧
          ¬(s.expireStage options now).stage.config.generation ≠ generation ∧
          ¬(s.expireStage options now).stage.receivedMask ≠
            expectedMask (s.expireStage options now).stage.config.count ∧
          ¬¬ConfigValid options (s.expireStage options now).stage.config := by
      rw [← not_or, ← not_or, ← not_or]
      exact hstage
    rw [Bool.not_eq_false] at hactive
    rw [expireStage_of_active options s hactive] at *
    split
    · next herr =>
        refine .inl ⟨herr, rfl, ?_, .inl rfl⟩
        constructor <;> rfl
    · exact .inr ⟨hactive, not_not.1 hmask, not_not.1 hvalid, rfl⟩

end Calls

/-- A call that fails changes no part that the task works with. -/
theorem call_unchanged (options : Options) (s : Schedule) (c : Call)
    (h : (s.call options c).1 ≠ .ok) : Unchanged s (s.call options c).2.1 := by
  cases c with
  | stageBegin locked now generation count enabled persistenceEnabled =>
      rw [Schedule.call] at *
      rcases stageBegin_cases s locked now generation count enabled persistenceEnabled with
        hrejects | ⟨-, heq⟩
      · exact hrejects.unchanged
      · rw [heq] at h
        exact absurd rfl h
  | stagePoint locked now generation index point =>
      rw [Schedule.call] at *
      rcases stagePoint_cases options s locked now generation index point with
        hrejects | ⟨-, -, -, heq⟩
      · exact hrejects.unchanged
      · rw [heq] at h
        exact absurd rfl h
  | stageCommit locked now generation nvs =>
      rw [Schedule.call] at *
      rcases stageCommit_cases options s locked now generation nvs with
        hrejects | ⟨-, -, -, heq⟩
      · exact hrejects.unchanged
      · rw [heq] at h
        exact absurd rfl h

/-! ## The stage and what was received for it -/

/-- The points of the stage are those received last, where the mask has a bit. -/
structure Collects (stage : Stage) (received : List Effect) : Prop where
  count : stage.config.count.toNat ≤ maxPoints
  generation : ∀ effect ∈ received, ∃ index point,
    effect = .received stage.config.generation index point
  parts : ∀ i < maxPoints, lastReceived received i =
    if stage.receivedMask.getLsbD i then some (stage.config.point i) else none

/-- `expected` has a bit for every index below the count. -/
theorem getLsbD_expectedMask {count : BitVec 8} (hcount : count.toNat ≤ maxPoints) {i : ℕ}
    (hi : i < count.toNat) : (expectedMask count).getLsbD i = true := by
  have hall : ∀ n < 9, ∀ i < n, (expectedMask (BitVec.ofNat 8 n)).getLsbD i = true := by
    decide
  have hbit := hall count.toNat (Nat.lt_succ_of_le hcount) i hi
  rwa [BitVec.ofNat_toNat, BitVec.setWidth_eq] at hbit

theorem point_receive (stage : Stage) (index : BitVec 8) (point : Point) {i : ℕ}
    (hi : i < maxPoints) : (stage.receive index point).config.point i =
      if index.toNat = i then point else stage.config.point i := by
  simp only [Stage.receive, Config.point, Vector.getElem?_setIfInBounds]
  by_cases hindex : index.toNat = i
  · rw [if_pos hindex, if_pos hindex, if_pos (hindex ▸ hi), Option.getD_some]
  · rw [if_neg hindex, if_neg hindex]

theorem mask_receive (stage : Stage) (index : BitVec 8) (point : Point) {i : ℕ}
    (hi : i < maxPoints) : (stage.receive index point).receivedMask.getLsbD i =
      if index.toNat = i then true else stage.receivedMask.getLsbD i := by
  have hbit : (1#8 <<< index.toNat).getLsbD i = decide (index.toNat = i) := by
    have htwo : 1#8 <<< index.toNat = BitVec.twoPow 8 index.toNat := rfl
    rw [htwo, BitVec.getLsbD_twoPow]
    by_cases hindex : index.toNat = i
    · have hlt : index.toNat < 8 := hindex ▸ hi
      rw [decide_eq_true hlt, Bool.true_and]
    · rw [decide_eq_false hindex, Bool.and_false]
  have hor : (stage.receive index point).receivedMask =
      stage.receivedMask ||| (1#8 <<< index.toNat) := rfl
  rw [hor, BitVec.getLsbD_or, hbit]
  by_cases hindex : index.toNat = i
  · rw [if_pos hindex, decide_eq_true hindex, Bool.or_true]
  · rw [if_neg hindex, decide_eq_false hindex, Bool.or_false]

/-- A point for the stage. -/
theorem Collects.receive {stage : Stage} {received : List Effect} (h : Collects stage received)
    (index : BitVec 8) (point : Point) :
    Collects (stage.receive index point)
      (received ++ [.received stage.config.generation index point]) where
  count := h.count
  generation := by
    intro effect hmem
    rcases List.mem_append.1 hmem with hold | hnew
    · exact h.generation effect hold
    · exact ⟨index, point, List.mem_singleton.1 hnew⟩
  parts := by
    intro i hi
    rw [lastReceived_snoc, mask_receive stage index point hi, point_receive stage index point hi]
    by_cases hindex : index.toNat = i
    · rw [if_pos hindex, if_pos hindex, if_pos hindex, if_pos rfl]
    · rw [if_neg hindex, if_neg hindex, if_neg hindex]
      exact h.parts i hi

/-- The state of the stage, and where the configuration has come from. -/
structure Staged (options : Options) (loaded : Config) (s : System) : Prop where
  stage : s.schedule.stage.active = true → ∃ before received,
    s.log = before ++
      .began s.schedule.stage.config.generation s.schedule.stage.config.count
        s.schedule.stage.config.enabled s.schedule.stage.config.persistenceEnabled ::
          received ∧
    Collects s.schedule.stage received
  config : s.schedule.config = loaded ∨ CommittedFrom options s.log s.schedule.config

section Staged

variable {options : Options} {loaded : Config} {s : System}

theorem staged_start (options : Options) (loaded : Config) :
    Staged options loaded (.start loaded) where
  stage := (nomatch ·)
  config := .inl rfl

/-- A step that leaves the configuration and at most drops the stage. -/
theorem Staged.keep (h : Staged options loaded s) {schedule : Schedule}
    (hconfig : schedule.config = s.schedule.config)
    (hstage : schedule.stage = s.schedule.stage ∨ schedule.stage = .zero) :
    Staged options loaded { schedule := schedule, log := s.log } where
  stage := by
    intro hactive
    rcases hstage with hsame | hzero
    · dsimp only at hactive ⊢
      rw [hsame] at hactive ⊢
      exact h.stage hactive
    · dsimp only at hactive
      rw [hzero] at hactive
      cases hactive
  config := by
    dsimp only
    rw [hconfig]
    exact h.config

theorem Staged.reject (h : Staged options loaded s) {r : EspErr × Schedule × List Effect}
    (hr : Rejects s.schedule r) :
    Staged options loaded { schedule := r.2.1, log := s.log ++ r.2.2 } := by
  rw [hr.effects, List.append_nil]
  exact h.keep hr.unchanged.config hr.stage

theorem Staged.stageBegin (h : Staged options loaded s) (now generation : U32)
    {count : BitVec 8} (hcount : count.toNat ≤ maxPoints) (enabled persistenceEnabled : Bool) :
    Staged options loaded
      { schedule :=
          { s.schedule with
            stage :=
              { active := true
                startedMs := now
                receivedMask := 0
                config :=
                  { Config.zero with
                    generation := generation
                    count := count
                    enabled := enabled
                    persistenceEnabled := persistenceEnabled } } }
        log := s.log ++ [.began generation count enabled persistenceEnabled] } where
  stage := by
    intro _
    refine ⟨s.log, [], rfl, hcount, fun _ hmem => absurd hmem List.not_mem_nil, ?_⟩
    intro i _
    have hbit : (0#8).getLsbD i = false := BitVec.getLsbD_zero
    exact (if_neg (hbit ▸ Bool.false_ne_true)).symm
  config := by
    rcases h.config with hloaded | hcommitted
    · exact .inl hloaded
    · exact .inr (hcommitted.append fun _ hmem => nomatch List.mem_singleton.1 hmem)

theorem Staged.stagePoint (h : Staged options loaded s)
    (hactive : s.schedule.stage.active = true) (index : BitVec 8) (point : Point) :
    Staged options loaded
      { schedule := { s.schedule with stage := s.schedule.stage.receive index point }
        log := s.log ++ [.received s.schedule.stage.config.generation index point] } where
  stage := by
    intro _
    obtain ⟨before, received, hlog, hcollects⟩ := h.stage hactive
    refine ⟨before, received ++ [.received s.schedule.stage.config.generation index point], ?_,
      hcollects.receive index point⟩
    dsimp only
    rw [hlog, List.append_assoc]
    rfl
  config := by
    rcases h.config with hloaded | hcommitted
    · exact .inl hloaded
    · exact .inr (hcommitted.append fun _ hmem => nomatch List.mem_singleton.1 hmem)

/-- A stage that is complete becomes the configuration. -/
theorem Staged.stageCommit (h : Staged options loaded s)
    (hactive : s.schedule.stage.active = true)
    (hmask : s.schedule.stage.receivedMask = expectedMask s.schedule.stage.config.count)
    (hvalid : ConfigValid options s.schedule.stage.config) :
    Staged options loaded
      { schedule := s.schedule.activate s.schedule.stage.config
        log := s.log ++ [.committed s.schedule.stage.config] } where
  stage := (nomatch ·)
  config := by
    obtain ⟨before, received, hlog, hcollects⟩ := h.stage hactive
    refine .inr ⟨hvalid, before, received, [], ?_, hcollects.generation, ?_,
      fun _ => List.not_mem_nil⟩
    · dsimp only
      rw [hlog, List.append_assoc]
      rfl
    · intro i hi
      have hpart := hcollects.parts i (Nat.lt_of_lt_of_le hi hcollects.count)
      rw [hmask, if_pos (getLsbD_expectedMask hcollects.count hi)] at hpart
      exact hpart

theorem sample_keep (schedule : Schedule) (now : U32) (epoch : Option ℤ) :
    (schedule.sample options now epoch).2.config = schedule.config ∧
      ((schedule.sample options now epoch).2.stage = schedule.stage ∨
        (schedule.sample options now epoch).2.stage = .zero) := by
  have hconfig := (expireStage_unchanged options schedule now).config
  have hstage := expireStage_stage options schedule now
  have hclock : ∀ (s : Schedule) (epoch : ℤ), (s.sampleClock now epoch).2.config = s.config ∧
      (s.sampleClock now epoch).2.stage = s.stage := by
    intro s epoch
    rw [Schedule.sampleClock]
    dsimp only
    split
    · exact ⟨rfl, rfl⟩
    · exact ⟨rfl, rfl⟩
  cases epoch with
  | none =>
      simp only [Schedule.sample]
      split
      · exact ⟨hconfig, hstage⟩
      · exact ⟨hconfig, hstage⟩
  | some epoch =>
      obtain ⟨hconfig', hstage'⟩ := hclock (schedule.expireStage options now) epoch
      rw [← hconfig'] at hconfig
      rw [← hstage'] at hstage
      simp only [Schedule.sample]
      split
      · exact ⟨hconfig, hstage⟩
      · exact ⟨hconfig, hstage⟩

theorem recordApplyResult_keep (schedule : Schedule) (generation : U32) (index : BitVec 8)
    (catchUp : Bool) (dayKey : U32) (error : EspErr) (now : U32) :
    (schedule.recordApplyResult generation index catchUp dayKey error now).config =
        schedule.config ∧
      (schedule.recordApplyResult generation index catchUp dayKey error now).stage =
        schedule.stage := by
  rw [Schedule.recordApplyResult]
  split
  · exact ⟨rfl, rfl⟩
  split
  · dsimp only
    split
    · exact ⟨rfl, rfl⟩
    · exact ⟨rfl, rfl⟩
  · dsimp only
    split
    · exact ⟨rfl, rfl⟩
    · exact ⟨rfl, rfl⟩

theorem Staged.call (h : Staged options loaded s) (c : Call) :
    Staged options loaded (s.step options (.call c)) := by
  cases c with
  | stageBegin locked now generation count enabled persistenceEnabled =>
      simp only [System.step, Schedule.call]
      rcases stageBegin_cases s.schedule locked now generation count enabled
        persistenceEnabled with hrejects | ⟨hcount, heq⟩
      · exact h.reject hrejects
      · rw [heq]
        exact h.stageBegin now generation hcount enabled persistenceEnabled
  | stagePoint locked now generation index point =>
      simp only [System.step, Schedule.call]
      rcases stagePoint_cases options s.schedule locked now generation index point with
        hrejects | ⟨hactive, rfl, -, heq⟩
      · exact h.reject hrejects
      · rw [heq]
        exact h.stagePoint hactive index point
  | stageCommit locked now generation nvs =>
      simp only [System.step, Schedule.call]
      rcases stageCommit_cases options s.schedule locked now generation nvs with
        hrejects | ⟨hactive, hmask, hvalid, heq⟩
      · exact h.reject hrejects
      · rw [heq]
        exact h.stageCommit hactive hmask hvalid

theorem Staged.step (h : Staged options loaded s) (action : Action) :
    Staged options loaded (s.step options action) := by
  cases action with
  | call c => exact h.call c
  | sample now epoch =>
      obtain ⟨hconfig, hstage⟩ := @sample_keep options s.schedule now epoch
      exact h.keep hconfig hstage
  | recordApplyResult generation index catchUp dayKey error now =>
      obtain ⟨hconfig, hstage⟩ :=
        recordApplyResult_keep s.schedule generation index catchUp dayKey error now
      exact h.keep hconfig (.inl hstage)
  | markRun generation index dayKey =>
      simp only [System.step, Schedule.markRun]
      split
      · exact h.keep rfl (.inl rfl)
      · exact h
  | dropCatchUp generation =>
      simp only [System.step, Schedule.dropCatchUp]
      split
      · exact h.keep rfl (.inl rfl)
      · exact h

theorem Staged.run (h : Staged options loaded s) (actions : List Action) :
    Staged options loaded (s.run options actions) := by
  induction actions generalizing s with
  | nil => exact h
  | cons action actions ih => exact ih (h.step action)

end Staged

/-- In every run the configuration is the one loaded at the start or was committed from
one stage that was complete, and a call that fails changes nothing that the task works
with. -/
theorem staging_transactional (options : Options) (loaded : Config) (actions : List Action) :
    let s := (System.start loaded).run options actions
    (s.schedule.config = loaded ∨ CommittedFrom options s.log s.schedule.config) ∧
      ∀ c : Call, (s.schedule.call options c).1 ≠ .ok →
        Unchanged s.schedule (s.schedule.call options c).2.1 := by
  intro s
  exact ⟨((staged_start options loaded).run actions).config, call_unchanged options s.schedule⟩

end KeemashCore.WeeklySchedule

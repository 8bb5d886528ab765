import KeemashCore.WeeklySchedule.LocalTime

/-!
# Results and the configuration they came from

The task records the result of a callback only if the generation of its copy of the
configuration is still the active one.  A commit that lands inside a tick and carries that
same generation gets past this check.  If no commit does, every result is recorded against
the configuration whose point was applied.
-/

namespace KeemashCore.WeeklySchedule

/-! ## What the steps change -/

/-- A call either leaves alone what the task works with, or it commits. -/
theorem call_cases (options : Options) (s : Schedule) (c : Call) :
    (Unchanged s (s.call options c).2.1 ∧ committedIn (s.call options c).2.2 = []) ∨
      ∃ config, ConfigValid options config ∧ (s.call options c).2.1 = s.activate config ∧
        committedIn (s.call options c).2.2 = [config] := by
  cases c with
  | stageBegin locked now generation count enabled persistenceEnabled =>
      left
      rw [Schedule.call]
      rcases stageBegin_cases s locked now generation count enabled persistenceEnabled with
        hrejects | ⟨-, heq⟩
      · exact ⟨hrejects.unchanged, by rw [hrejects.effects]; rfl⟩
      · rw [heq]
        exact ⟨by constructor <;> rfl, rfl⟩
  | stagePoint locked now generation index point =>
      left
      rw [Schedule.call]
      rcases stagePoint_cases options s locked now generation index point with
        hrejects | ⟨-, -, -, heq⟩
      · exact ⟨hrejects.unchanged, by rw [hrejects.effects]; rfl⟩
      · rw [heq]
        exact ⟨by constructor <;> rfl, rfl⟩
  | stageCommit locked now generation nvs =>
      rw [Schedule.call]
      rcases stageCommit_cases options s locked now generation nvs with
        hrejects | ⟨-, -, hvalid, heq⟩
      · exact Or.inl ⟨hrejects.unchanged, by rw [hrejects.effects]; rfl⟩
      · rw [heq]
        exact Or.inr ⟨s.stage.config, hvalid, rfl, rfl⟩

theorem sample_config (options : Options) (s : Schedule) (now : U32) (epoch : Option ℤ) :
    (s.sample options now epoch).1.config = s.config ∧
      (s.sample options now epoch).2.config = s.config := by
  have hexpire := (expireStage_unchanged options s now).config
  cases epoch with
  | none =>
      simp only [Schedule.sample]
      refine ⟨hexpire, ?_⟩
      split
      · exact hexpire
      · exact hexpire
  | some epoch =>
      have hclock : ((s.expireStage options now).sampleClock now epoch).2.config = s.config := by
        rw [Schedule.sampleClock]
        dsimp only
        split
        · exact hexpire
        · exact hexpire
      simp only [Schedule.sample]
      refine ⟨hclock, ?_⟩
      split
      · exact hclock
      · exact hclock

section Record

variable {s : Schedule} {generation : U32} {index : BitVec 8} {dayKey now : U32}
  {error : EspErr}

/-- A result for another generation is dropped. -/
theorem recordApplyResult_of_ne (hne : s.config.generation ≠ generation) (catchUp : Bool) :
    s.recordApplyResult generation index catchUp dayKey error now = s := by
  rw [Schedule.recordApplyResult, if_pos hne]

theorem recordApplyResult_ok (heq : s.config.generation = generation) :
    s.recordApplyResult generation index false dayKey .ok now =
      { s with
        lastError := .ok
        lastApplyValid := true
        lastApplyIndex := index
        lastApplyKind := .scheduled
        lastApplyMs := now
        nextRetryMs := 0
        lastRunDay := s.lastRunDay.setIfInBounds index.toNat dayKey
        retryPending := false } := by
  rw [Schedule.recordApplyResult, if_neg (not_not.2 heq), if_pos rfl]
  rfl

theorem recordApplyResult_failed (heq : s.config.generation = generation)
    (herror : error ≠ .ok) :
    s.recordApplyResult generation index false dayKey error now =
      { s with
        lastError := error
        nextRetryMs := now + applyRetryMs
        retryPending := true
        retryGeneration := generation
        retryIndex := index
        retryDayKey := dayKey } := by
  rw [Schedule.recordApplyResult, if_neg (not_not.2 heq), if_neg herror]
  rfl

theorem recordApplyResult_catchUp_ok (heq : s.config.generation = generation) :
    s.recordApplyResult generation index true dayKey .ok now =
      { s with
        lastError := .ok
        lastApplyValid := true
        lastApplyIndex := index
        lastApplyKind := .catchUp
        lastApplyMs := now
        nextRetryMs := 0
        catchUpPending := false } := by
  rw [Schedule.recordApplyResult, if_neg (not_not.2 heq), if_pos rfl]
  rfl

theorem recordApplyResult_catchUp_failed (heq : s.config.generation = generation)
    (herror : error ≠ .ok) :
    s.recordApplyResult generation index true dayKey error now =
      { s with
        lastError := error
        nextRetryMs := now + applyRetryMs } := by
  rw [Schedule.recordApplyResult, if_neg (not_not.2 heq), if_neg herror]
  rfl

end Record

theorem recordApplyResult_config (s : Schedule) (generation : U32) (index : BitVec 8)
    (catchUp : Bool) (dayKey : U32) (error : EspErr) (now : U32) :
    (s.recordApplyResult generation index catchUp dayKey error now).config = s.config := by
  by_cases heq : s.config.generation = generation
  · by_cases herror : error = .ok
    · subst herror
      cases catchUp with
      | false => rw [recordApplyResult_ok heq]
      | true => rw [recordApplyResult_catchUp_ok heq]
    · cases catchUp with
      | false => rw [recordApplyResult_failed heq herror]
      | true => rw [recordApplyResult_catchUp_failed heq herror]
  · rw [recordApplyResult_of_ne heq]

theorem markRun_config (s : Schedule) (generation : U32) (index : BitVec 8) (dayKey : U32) :
    (s.markRun generation index dayKey).config = s.config := by
  rw [Schedule.markRun]
  split
  · rfl
  · rfl

theorem dropCatchUp_config (s : Schedule) (generation : U32) :
    (s.dropCatchUp generation).config = s.config := by
  rw [Schedule.dropCatchUp]
  split
  · rfl
  · rfl

/-! ## Results that are recorded -/

/-- Nothing that the task records is different. -/
structure SameRecords (s s' : Schedule) : Prop where
  lastRunDay : s'.lastRunDay = s.lastRunDay
  catchUpPending : s'.catchUpPending = s.catchUpPending
  retryPending : s'.retryPending = s.retryPending
  retryGeneration : s'.retryGeneration = s.retryGeneration
  retryIndex : s'.retryIndex = s.retryIndex
  retryDayKey : s'.retryDayKey = s.retryDayKey
  nextRetryMs : s'.nextRetryMs = s.nextRetryMs
  lastApplyValid : s'.lastApplyValid = s.lastApplyValid
  lastApplyIndex : s'.lastApplyIndex = s.lastApplyIndex
  lastApplyKind : s'.lastApplyKind = s.lastApplyKind
  lastApplyMs : s'.lastApplyMs = s.lastApplyMs

theorem SameRecords.refl (s : Schedule) : SameRecords s s := by
  constructor <;> rfl

/-- The last callback returned `error` for the application, with a point of the copy. -/
def Machine.Returned (m : Machine) (a : Application) (error : EspErr) : Prop :=
  m.applied.head? = some
    { config := m.task.config
      version := m.task.version
      application := a
      error := error }

/-- The copy of the task is the active configuration, from the same commit. -/
def Machine.OwnsConfig (m : Machine) : Prop :=
  m.task.version = m.version ∧ m.task.config = m.schedule.config

instance (m : Machine) : Decidable m.OwnsConfig :=
  inferInstanceAs (Decidable (_ ∧ _))

/-- What the next step of the task records is the result of the last callback, which was
given a point of the active configuration. -/
def Machine.RecordsOwn (m : Machine) : Input → Prop
  | .run error =>
      SameRecords m.schedule (m.advance error).schedule ∨
        (m.OwnsConfig ∧
          (∀ a error, m.task.phase = .record a error → m.Returned a error) ∧
          ∀ a, m.task.phase = .mark a → m.Returned a .ok)
  | _ => True

/-- A commit inside a tick does not carry the generation of the tick's copy. -/
def Machine.CommitsApart (options : Options) (m : Machine) : Input → Prop
  | .call c => ¬m.task.Idle →
      ∀ config ∈ committedIn (m.schedule.call options c).2.2,
        config.generation ≠ m.task.config.generation
  | _ => True

/-- The copy is the active configuration, or its generation shows that it is not. -/
structure Machine.Coherent (m : Machine) : Prop where
  own : m.task.Idle ∨ m.OwnsConfig ∨ m.schedule.config.generation ≠ m.task.config.generation
  record : ∀ a error, m.task.phase = .record a error → m.Returned a error
  mark : ∀ a, m.task.phase = .mark a → m.Returned a .ok

theorem start_coherent (loaded : Config) : (Machine.start loaded).Coherent := by
  constructor
  · exact Or.inl ⟨rfl, rfl⟩
  · intro a error h
    exact Phase.noConfusion h
  · intro a h
    exact Phase.noConfusion h

section Steps

variable {options : Options} {localtime : ℤ → Option Tm} {m : Machine}

theorem Machine.Coherent.call (h : m.Coherent) {c : Call}
    (hapart : m.CommitsApart options (.call c)) : (m.call options c).Coherent := by
  rcases call_cases options m.schedule c with ⟨hsame, hnone⟩ | ⟨config, -, heq, hcommit⟩
  · constructor
    · rcases h.own with hidle | ⟨hversion, hconfig⟩ | hother
      · exact Or.inl hidle
      · refine Or.inr (Or.inl ⟨?_, ?_⟩)
        · rw [Machine.call, hnone]
          exact hversion
        · exact hconfig.trans hsame.config.symm
      · right
        right
        exact fun hgeneration => hother ((congrArg _ hsame.config.symm).trans hgeneration)
    · exact h.record
    · exact h.mark
  · constructor
    · by_cases hidle : m.task.Idle
      · exact Or.inl hidle
      · have hne := hapart hidle config (by rw [hcommit]; exact List.mem_singleton_self config)
        right
        right
        rw [Machine.call, heq]
        exact hne
    · exact h.record
    · exact h.mark

theorem Machine.Coherent.tick (h : m.Coherent) (now : U32) (time : ℤ) :
    (m.tick options localtime now time).Coherent := by
  have hsample := sample_config options m.schedule now
  rw [Machine.tick]
  split
  · constructor
    · rcases h.own with hidle | ⟨hversion, hconfig⟩ | hother
      · exact Or.inl hidle
      · exact Or.inr (Or.inl ⟨hversion, hconfig.trans (hsample none).2.symm⟩)
      · right
        right
        exact fun hgeneration =>
          hother ((congrArg _ (hsample none).2.symm).trans hgeneration)
    · exact h.record
    · exact h.mark
  · constructor
    · exact Or.inr (Or.inl ⟨rfl, (hsample (some time)).1.trans (hsample (some time)).2.symm⟩)
    · intro a error hphase
      exact Phase.noConfusion hphase
    · intro a hphase
      exact Phase.noConfusion hphase

/-- A section that leaves the configuration and the copy alone. -/
theorem Machine.Coherent.own_of_eq {m' : Machine} (h : m.Coherent) (hbusy : ¬m.task.Idle)
    (hversion : m'.version = m.version) (htask : m'.task.version = m.task.version)
    (hcopy : m'.task.config = m.task.config)
    (hconfig : m'.schedule.config = m.schedule.config) :
    m'.task.Idle ∨ m'.OwnsConfig ∨
      m'.schedule.config.generation ≠ m'.task.config.generation := by
  right
  rcases h.own with hidle | ⟨hsame, hsameConfig⟩ | hother
  · exact absurd hidle hbusy
  · left
    refine ⟨?_, ?_⟩
    · rw [hversion, htask]
      exact hsame
    · rw [hcopy, hconfig]
      exact hsameConfig
  · right
    rw [hcopy, hconfig]
    exact hother

theorem Machine.Coherent.startJob (h : m.Coherent) {job : Job} {jobs : List Job}
    (hjobs : m.task.jobs = job :: jobs) : (m.startJob job jobs).Coherent := by
  have hbusy : ¬m.task.Idle := by
    intro hidle
    rw [hidle.1] at hjobs
    exact nomatch hjobs
  cases job with
  | catchUp a =>
      constructor
      · exact h.own_of_eq hbusy rfl rfl rfl rfl
      · intro a error hphase
        exact Phase.noConfusion hphase
      · intro a hphase
        exact Phase.noConfusion hphase
  | dropCatchUp =>
      constructor
      · exact h.own_of_eq hbusy rfl rfl rfl (dropCatchUp_config _ _)
      · intro a error hphase
        exact Phase.noConfusion hphase
      · intro a hphase
        exact Phase.noConfusion hphase
  | pendingRetry =>
      rw [Machine.startJob]
      split
      all_goals
        constructor
        · exact h.own_of_eq hbusy rfl rfl rfl rfl
        · intro a error hphase
          exact Phase.noConfusion hphase
        · intro a hphase
          exact Phase.noConfusion hphase
  | scheduled a =>
      rw [Machine.startJob]
      split
      all_goals
        constructor
        · exact h.own_of_eq hbusy rfl rfl rfl rfl
        · intro a error hphase
          exact Phase.noConfusion hphase
        · intro a hphase
          exact Phase.noConfusion hphase

theorem Machine.Coherent.advance (h : m.Coherent) (error : EspErr) :
    (m.advance error).Coherent := by
  rw [Machine.advance]
  cases hphase : m.task.phase with
  | apply a =>
      have hbusy : ¬m.task.Idle := fun hidle => Phase.noConfusion (hphase.symm.trans hidle.2)
      constructor
      · exact h.own_of_eq hbusy rfl rfl rfl rfl
      · intro b error hrecord
        cases hrecord
        rfl
      · intro b hmark
        exact Phase.noConfusion hmark
  | record a error =>
      have hbusy : ¬m.task.Idle := fun hidle => Phase.noConfusion (hphase.symm.trans hidle.2)
      constructor
      · exact h.own_of_eq hbusy rfl rfl rfl (recordApplyResult_config _ _ _ _ _ _ _)
      · intro b error hrecord
        simp only [Machine.record] at hrecord
        split at hrecord
        · exact Phase.noConfusion hrecord
        · exact Phase.noConfusion hrecord
      · intro b hmark
        simp only [Machine.record] at hmark
        split at hmark
        · next hok =>
            cases hmark
            simp only [Bool.and_eq_true, decide_eq_true_eq] at hok
            obtain ⟨-, rfl⟩ := hok
            exact h.record a .ok hphase
        · exact Phase.noConfusion hmark
  | mark a =>
      have hbusy : ¬m.task.Idle := fun hidle => Phase.noConfusion (hphase.symm.trans hidle.2)
      constructor
      · exact h.own_of_eq hbusy rfl rfl rfl (markRun_config _ _ _ _)
      · intro b error hrecord
        exact Phase.noConfusion hrecord
      · intro b hmark
        exact Phase.noConfusion hmark
  | ready =>
      cases hjobs : m.task.jobs with
      | nil => exact h
      | cons job jobs => exact h.startJob hjobs

theorem Machine.Coherent.step (h : m.Coherent) {input : Input}
    (hapart : m.CommitsApart options input) : (m.step options localtime input).Coherent := by
  cases input with
  | call c => exact h.call hapart
  | tick now time =>
      rw [Machine.step]
      split
      · exact h.tick now time
      · exact h
  | run error => exact h.advance error

/-- A result is dropped if the generation of the copy is not the active one. -/
theorem sameRecords_of_generation_ne
    (hne : m.schedule.config.generation ≠ m.task.config.generation) (error : EspErr) :
    SameRecords m.schedule (m.advance error).schedule := by
  have hsame := SameRecords.refl m.schedule
  rw [Machine.advance]
  cases m.task.phase with
  | apply a => exact hsame
  | record a error =>
      simp only [Machine.record, Schedule.recordApplyResult, if_pos hne]
      exact hsame
  | mark a =>
      simp only [Machine.markStep, Schedule.markRun, if_neg hne]
      exact hsame
  | ready =>
      cases m.task.jobs with
      | nil => exact hsame
      | cons job jobs =>
          cases job with
          | catchUp a => exact hsame
          | dropCatchUp =>
              simp only [Machine.startJob, Schedule.dropCatchUp, if_neg hne]
              exact hsame
          | pendingRetry =>
              simp only [Machine.startJob]
              split
              · exact hsame
              · exact hsame
          | scheduled a =>
              simp only [Machine.startJob]
              split
              · exact hsame
              · exact hsame

theorem Machine.Coherent.recordsOwn (h : m.Coherent) (input : Input) : m.RecordsOwn input := by
  cases input with
  | call c => exact True.intro
  | tick now time => exact True.intro
  | run error =>
      rcases h.own with ⟨hjobs, hphase⟩ | hown | hne
      · left
        rw [Machine.advance, hphase, hjobs]
        exact SameRecords.refl _
      · exact Or.inr ⟨hown, h.record, h.mark⟩
      · exact Or.inl (sameRecords_of_generation_ne hne error)

end Steps

/-- If no commit inside a tick carries the generation of the tick's copy, every result is
recorded against the configuration it came from. -/
theorem recordsOwn_of_commitsApart (options : Options) (localtime : ℤ → Option Tm)
    (loaded : Config) {inputs : List Input}
    (hapart : Trace.Always (Machine.step options localtime)
      (Machine.CommitsApart options) (.start loaded) inputs) :
    Trace.Always (Machine.step options localtime) Machine.RecordsOwn (.start loaded) inputs := by
  apply hapart.of_invariant (start_coherent loaded)
  · intro m input hcoherent hinput
    exact hcoherent.step hinput
  · intro m input hcoherent _
    exact hcoherent.recordsOwn input

/-! ## A commit with the same generation -/

/-- Every day at one minute. -/
def dailyPoint (minute : BitVec 16) (action : BitVec 8) : Point where
  enabled := true
  minuteOfDay := minute
  action := action
  daysMask := allDays

/-- An enabled configuration with one point. -/
def onePoint (generation : U32) (point : Point) : Config where
  generation := generation
  enabled := true
  persistenceEnabled := false
  count := 1
  points := Vector.replicate maxPoints point

/-- Ten in the morning of the sixth of January 2020, a Monday. -/
def tenOClock : ℤ := 1578304800

def nvsOk : NvsResults where
  opened := .ok
  setBlob := .ok
  eraseKey := some .ok
  committed := .ok

/-- A new configuration with one point. -/
def commitOne (generation : U32) (point : Point) : List Input :=
  [.call (.stageBegin true 100 generation 1 true false),
    .call (.stagePoint true 100 generation 0 point),
    .call (.stageCommit true 100 generation nvsOk)]

/-- The point of ten o'clock is applied in a catch-up; while the callback runs, the point is
moved to eleven o'clock under the same generation. -/
def sameGenerationRun : List Input :=
  [.tick 100 tenOClock, .run .ok, .run .ok] ++ commitOne 7 (dailyPoint 660 0)

def sameGenerationMachine : Machine :=
  .runFrom anyAction (fixedOffset 0) (onePoint 7 (dailyPoint 600 1)) sameGenerationRun

/-- The result of the old point is recorded for the new one: it is no longer pending, and
then it is marked as run on this day. -/
theorem sameGenerationRun_records :
    ¬Trace.Always (Machine.step anyAction (fixedOffset 0)) Machine.RecordsOwn
        (.start (onePoint 7 (dailyPoint 600 1))) (sameGenerationRun ++ [.run .ok, .run .ok]) ∧
      sameGenerationMachine.task.config.point 0 = dailyPoint 600 1 ∧
      sameGenerationMachine.schedule.config.point 0 = dailyPoint 660 0 ∧
      sameGenerationMachine.schedule.lastRunDay[0] = 0xffffffff ∧
      ((sameGenerationMachine.advance .ok).advance .ok).schedule.lastRunDay[0] =
        dayKey (localDay 0 tenOClock) := by
  have hold : sameGenerationMachine.task.config.point 0 = dailyPoint 600 1 := by decide +kernel
  have hnew : sameGenerationMachine.schedule.config.point 0 = dailyPoint 660 0 := by
    decide +kernel
  have hbefore : sameGenerationMachine.schedule.catchUpPending = true := by decide +kernel
  have hafter : (sameGenerationMachine.advance .ok).schedule.catchUpPending = false := by
    decide +kernel
  refine ⟨fun halways => ?_, hold, hnew, by decide +kernel, by decide +kernel⟩
  rcases halways.at with hsame | hown
  · exact absurd (hafter.symm.trans (hsame.catchUpPending.trans hbefore)) (by decide)
  · have hpoint := congrArg (Config.point · 0) hown.1.2
    exact absurd (hold.symm.trans (hpoint.trans hnew)) (by decide)

/-- With another generation the result is dropped. -/
theorem recordsOwn_of_commitsApart_commitOne :
    Trace.Always (Machine.step anyAction (fixedOffset 0)) Machine.RecordsOwn
      (.start (onePoint 7 (dailyPoint 600 1)))
      ([.tick 100 tenOClock, .run .ok, .run .ok] ++ commitOne 8 (dailyPoint 660 0) ++
        [.run .ok, .run .ok]) := by
  apply recordsOwn_of_commitsApart anyAction (fixedOffset 0) (onePoint 7 (dailyPoint 600 1))
  refine ⟨True.intro, True.intro, True.intro, ?_, ?_, ?_, True.intro, True.intro, True.intro⟩
  all_goals
    intro _
    decide +kernel

end KeemashCore.WeeklySchedule

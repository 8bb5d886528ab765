import KeemashCore.WeeklySchedule.Visits

/-!
# A point succeeds once a day

While the wall clock does not go back, a tick visits minutes in the order of time.  Each
point has a front, a day that its past successes do not exceed and its visits to come do not
fall below.  A success of a day is either before the front or is the last one marked, and
the retry record is for a day after all successes of its point.
-/

namespace KeemashCore.WeeklySchedule

/-! ## What the sections keep -/

/-- The clock is as before. -/
structure ClockKept (s s' : Schedule) : Prop where
  lastClockValid : s'.lastClockValid = s.lastClockValid
  lastWallEpoch : s'.lastWallEpoch = s.lastWallEpoch
  lastSampleMs : s'.lastSampleMs = s.lastSampleMs

theorem ClockKept.refl (s : Schedule) : ClockKept s s := by
  constructor <;> rfl

theorem expireStage_clockKept (options : Options) (s : Schedule) (now : U32) :
    ClockKept s (s.expireStage options now) := by
  rcases expireStage_cases options s now with heq | heq
  · rw [heq]
    exact ClockKept.refl s
  · rw [heq]
    constructor <;> rfl

theorem call_clockKept (options : Options) (s : Schedule) (c : Call) :
    ClockKept s (s.call options c).2.1 := by
  have hsame := ClockKept.refl s
  cases c with
  | stageBegin locked now generation count enabled persistenceEnabled =>
      simp only [Schedule.call, Schedule.stageBegin]
      split
      · exact hsame
      split
      · exact hsame
      · exact ⟨hsame.1, hsame.2, hsame.3⟩
  | stagePoint locked now generation index point =>
      have hexpire := expireStage_clockKept options s now
      simp only [Schedule.call, Schedule.stagePoint]
      split
      · exact hsame
      split
      · exact hsame
      split
      · exact hexpire
      · exact ⟨hexpire.1, hexpire.2, hexpire.3⟩
  | stageCommit locked now generation nvs =>
      have hexpire := expireStage_clockKept options s now
      simp only [Schedule.call, Schedule.stageCommit]
      split
      · exact hsame
      split
      · exact hexpire
      split
      · exact ⟨hexpire.1, hexpire.2, hexpire.3⟩
      · exact ⟨hexpire.1, hexpire.2, hexpire.3⟩

/-- The first section of a tick touches the clock and what is pending. -/
structure Sampled (s s' : Schedule) : Prop where
  config : s'.config = s.config
  lastRunDay : s'.lastRunDay = s.lastRunDay
  retryPending : s'.retryPending = true → s.retryPending = true
  retryGeneration : s'.retryGeneration = s.retryGeneration
  retryIndex : s'.retryIndex = s.retryIndex
  retryDayKey : s'.retryDayKey = s.retryDayKey
  lastApplyValid : s'.lastApplyValid = s.lastApplyValid
  lastApplyIndex : s'.lastApplyIndex = s.lastApplyIndex

theorem sample_none (options : Options) (s : Schedule) (now : U32) :
    Sampled s (s.sample options now none).2 ∧
      (s.sample options now none).2.lastWallEpoch = s.lastWallEpoch := by
  rcases expireStage_cases options s now with heq | heq
  · simp only [Schedule.sample, heq, Option.isSome_none, Bool.and_false, Bool.false_and,
      Bool.false_eq_true, if_false]
    exact ⟨by constructor <;> first | rfl | exact id, True.intro⟩
  · simp only [Schedule.sample, heq, Option.isSome_none, Bool.and_false, Bool.false_and,
      Bool.false_eq_true, if_false]
    exact ⟨by constructor <;> first | rfl | exact id, True.intro⟩

/-- The pending parts are dropped if the clock is new or has jumped. -/
theorem sampleClock_sampled (s : Schedule) (now : U32) (epoch : ℤ) :
    Sampled s (s.sampleClock now epoch).2 ∧
      (s.sampleClock now epoch).2.lastWallEpoch = epoch := by
  simp only [Schedule.sampleClock]
  split
  · exact ⟨by constructor <;> first | rfl | exact fun h => Bool.noConfusion h, True.intro⟩
  · exact ⟨by constructor <;> first | rfl | exact id, True.intro⟩

theorem sample_some (options : Options) (s : Schedule) (now : U32) (epoch : ℤ) :
    Sampled s (s.sample options now (some epoch)).2 ∧
      (s.sample options now (some epoch)).2.lastWallEpoch = epoch ∧
      (s.sample options now (some epoch)).1.previousEpoch = s.lastWallEpoch ∧
      ((s.sample options now (some epoch)).1.continuous = true →
        s.lastClockValid = true ∧
          clockIsContinuous s.lastWallEpoch epoch s.lastSampleMs now = true) := by
  have hstage : Sampled s (s.expireStage options now) := by
    rcases expireStage_cases options s now with heq | heq <;> rw [heq]
    · constructor <;> first | rfl | exact id
    · constructor <;> first | rfl | exact id
  obtain ⟨hvalid, hwall, hms⟩ := expireStage_clockKept options s now
  obtain ⟨hclock, hepoch⟩ := sampleClock_sampled (s.expireStage options now) now epoch
  have hboth : Sampled s ((s.expireStage options now).sampleClock now epoch).2 := by
    constructor
    · exact hclock.config.trans hstage.config
    · exact hclock.lastRunDay.trans hstage.lastRunDay
    · exact fun h => hstage.retryPending (hclock.retryPending h)
    · exact hclock.retryGeneration.trans hstage.retryGeneration
    · exact hclock.retryIndex.trans hstage.retryIndex
    · exact hclock.retryDayKey.trans hstage.retryDayKey
    · exact hclock.lastApplyValid.trans hstage.lastApplyValid
    · exact hclock.lastApplyIndex.trans hstage.lastApplyIndex
  refine ⟨?_, ?_, hwall, ?_⟩
  · simp only [Schedule.sample]
    split
    · exact ⟨hboth.config, hboth.lastRunDay, hboth.retryPending, hboth.retryGeneration,
        hboth.retryIndex, hboth.retryDayKey, hboth.lastApplyValid, hboth.lastApplyIndex⟩
    · exact hboth
  · simp only [Schedule.sample]
    split
    · exact hepoch
    · exact hepoch
  · intro hcontinuous
    have hboth : (s.expireStage options now).lastClockValid = true ∧
        clockIsContinuous (s.expireStage options now).lastWallEpoch epoch
          (s.expireStage options now).lastSampleMs now = true :=
      Bool.and_eq_true_iff.1 hcontinuous
    rwa [hvalid, hwall, hms] at hboth

/-! ## Successes -/

/-- The local day that an application is for. -/
def Application.day (offset : ℤ) (a : Application) : ℤ :=
  localDay offset a.epoch

/-- A scheduled callback for a point of this generation returned `ESP_OK`. -/
def Applied.Succeeded (c : Applied) (generation : U32) (index : BitVec 8) : Prop :=
  c.config.generation = generation ∧ c.application.index = index ∧
    c.application.catchUp = false ∧ c.error = .ok

instance (c : Applied) (generation : U32) (index : BitVec 8) :
    Decidable (c.Succeeded generation index) :=
  inferInstanceAs (Decidable (_ ∧ _))

/-- The scheduled callbacks for a point and a day that returned `ESP_OK`. -/
def Machine.successes (offset : ℤ) (m : Machine) (generation : U32) (index : BitVec 8)
    (day : ℤ) : List Applied :=
  m.applied.filter fun c =>
    decide (c.Succeeded generation index ∧ c.application.day offset = day)

/-- The generations that have been in use. -/
def Machine.used (loaded : Config) (m : Machine) : List U32 :=
  loaded.generation :: m.committed.map Config.generation

/-- A commit uses a new generation, and a valid sample of the wall clock is not before the
last one. -/
def Machine.FreshForward (options : Options) (localtime : ℤ → Option Tm) (loaded : Config)
    (m : Machine) : Input → Prop
  | .call c => ∀ config ∈ committedIn (m.schedule.call options c).2.2,
      config.generation ∉ m.used loaded
  | .tick _ time => clockSnapshot localtime time ≠ none → m.schedule.lastWallEpoch ≤ time
  | .run _ => True

/-- The callbacks whose results have been recorded or dropped. -/
def Machine.handled (m : Machine) : List Applied :=
  match m.task.phase with
  | .record _ _ => m.applied.tail
  | _ => m.applied

/-- The application whose callback runs or has just returned. -/
def Phase.Applying (phase : Phase) (a : Application) : Prop :=
  phase = .apply a ∨ ∃ error, phase = .record a error

def Machine.markOf (m : Machine) (index : BitVec 8) : U32 :=
  m.schedule.lastRunDay[index.toNat]?.getD 0

def Machine.today (offset : ℤ) (m : Machine) : ℤ :=
  localDay offset m.schedule.lastWallEpoch

/-- Two jobs for points, in the order of their days. -/
def InDayOrder (offset : ℤ) (job other : Job) : Prop :=
  ∀ a b, job = .scheduled a → other = .scheduled b → a.day offset ≤ b.day offset

/-- The state of the machine between the past and the visits to come. -/
structure Front (offset : ℤ) (loaded : Config) (m : Machine) (front : BitVec 8 → ℤ) :
    Prop where
  counts : m.schedule.config.count.toNat ≤ maxPoints ∧ m.task.config.count.toNat ≤ maxPoints
  used : m.schedule.config.generation ∈ m.used loaded ∧
    m.task.config.generation ∈ m.used loaded ∧
    ∀ c ∈ m.applied, c.config.generation ∈ m.used loaded
  returned : ∀ a error, m.task.phase = .record a error → m.Returned a error
  front_le : ∀ index, front index ≤ m.today offset
  jobs : ∀ b, Job.scheduled b ∈ m.task.jobs → b.catchUp = false ∧
    b.index.toNat < maxPoints ∧ b.dayKey = dayKey (b.day offset) ∧
    front b.index ≤ b.day offset ∧ b.day offset ≤ m.today offset
  sorted : m.task.jobs.Pairwise (InDayOrder offset)
  past : ∀ c ∈ m.handled, ∀ index, c.Succeeded m.schedule.config.generation index →
    c.application.day offset ≤ front index ∧
      (m.markOf index = dayKey (c.application.day offset) ∨
        c.application.day offset < front index)
  retry : m.schedule.retryPending = true →
    m.schedule.retryGeneration = m.schedule.config.generation ∧
    m.schedule.retryDayKey = dayKey (localDay offset m.retryEpoch) ∧
    localDay offset m.retryEpoch ≤ front m.schedule.retryIndex ∧
    ∀ c ∈ m.handled, c.Succeeded m.schedule.config.generation m.schedule.retryIndex →
      c.application.day offset < localDay offset m.retryEpoch
  current : ∀ a, m.task.phase.Applying a → a.catchUp = false →
    m.task.config.generation = m.schedule.config.generation →
    a.index.toNat < maxPoints ∧ a.dayKey = dayKey (a.day offset) ∧
    a.day offset ≤ front a.index ∧
    ∀ c ∈ m.handled, c.Succeeded m.schedule.config.generation a.index →
      c.application.day offset < a.day offset
  catchUpJobs : ∀ a, Job.catchUp a ∈ m.task.jobs → a.catchUp = true
  catchUps : ∀ a, (Job.catchUp a ∈ m.task.jobs ∨ m.task.phase.Applying a ∨
      m.task.phase = .mark a) → a.catchUp = true → a.mark = true →
    a.index.toNat < maxPoints ∧ a.dayKey = dayKey (m.today offset) ∧
    ∀ b, Job.scheduled b ∈ m.task.jobs → b.index = a.index → b.day offset = m.today offset
  marking : ∀ a, m.task.phase = .mark a → a.catchUp = true ∧ a.mark = true
  inFlight : ∀ a, m.task.phase = .apply a → a.catchUp = false →
    ∀ c ∈ m.applied, c.Succeeded m.task.config.generation a.index →
      c.application.day offset ≠ a.day offset
  once : m.applied.Pairwise fun c other =>
    ∀ generation index, c.Succeeded generation index → other.Succeeded generation index →
      c.application.day offset ≠ other.application.day offset

theorem start_front (offset : ℤ) {options : Options} {loaded : Config}
    (hloaded : ConfigValid options loaded) :
    Front offset loaded (.start loaded) (fun _ => localDay offset 0) := by
  have hmem : loaded.generation ∈ (Machine.start loaded).used loaded := List.mem_cons_self
  constructor
  · exact ⟨hloaded.2.1, hloaded.2.1⟩
  · exact ⟨hmem, hmem, fun c hc => absurd hc List.not_mem_nil⟩
  · intro a error h
    exact Phase.noConfusion h
  · intro index
    exact le_refl _
  · intro b hb
    exact absurd hb List.not_mem_nil
  · exact List.Pairwise.nil
  · intro c hc
    exact absurd hc List.not_mem_nil
  · intro h
    exact Bool.noConfusion h
  · rintro a (h | ⟨error, h⟩)
    · exact Phase.noConfusion h
    · exact Phase.noConfusion h
  · intro a h
    exact absurd h List.not_mem_nil
  · rintro a (h | (h | ⟨error, h⟩) | h)
    · exact absurd h List.not_mem_nil
    · exact Phase.noConfusion h
    · exact Phase.noConfusion h
    · exact Phase.noConfusion h
  · intro a h
    exact Phase.noConfusion h
  · intro a h
    exact Phase.noConfusion h
  · exact List.Pairwise.nil

/-! ## The steps -/

section Steps

variable {offset : ℤ} {loaded : Config} {options : Options} {m : Machine}
  {front : BitVec 8 → ℤ}

theorem Front.call (h : Front offset loaded m front) {c : Call}
    (hfresh : m.FreshForward options (fixedOffset offset) loaded (.call c)) :
    Front offset loaded (m.call options c) front := by
  have hwall : (m.call options c).today offset = m.today offset :=
    congrArg (localDay offset) (call_clockKept options m.schedule c).lastWallEpoch
  rcases call_cases options m.schedule c with ⟨hsame, hnone⟩ | ⟨config, hvalid, heq, hcommit⟩
  · have hused : (m.call options c).used loaded = m.used loaded := by
      simp only [Machine.used, Machine.call, hnone, List.nil_append]
    have hgeneration : (m.call options c).schedule.config.generation =
        m.schedule.config.generation := congrArg Config.generation hsame.config
    have hmark : ∀ index, (m.call options c).markOf index = m.markOf index := fun index =>
      congrArg (fun days : Vector U32 maxPoints => days[index.toNat]?.getD 0) hsame.lastRunDay
    constructor
    · exact ⟨(congrArg (fun config : Config => config.count.toNat) hsame.config).trans_le
        h.counts.1, h.counts.2⟩
    · rw [hused, hgeneration]
      exact h.used
    · exact h.returned
    · rw [hwall]
      exact h.front_le
    · rw [hwall]
      exact h.jobs
    · exact h.sorted
    · intro d hd index hsucceeded
      rw [hmark]
      rw [hgeneration] at hsucceeded
      exact h.past d hd index hsucceeded
    · intro hpending
      have hretry := h.retry (hsame.retryPending.symm.trans hpending)
      rw [hgeneration]
      have hindex : (m.call options c).schedule.retryIndex = m.schedule.retryIndex :=
        hsame.retryIndex
      rw [hindex]
      exact ⟨hsame.retryGeneration.trans hretry.1, hsame.retryDayKey.trans hretry.2.1,
        hretry.2.2⟩
    · rw [hgeneration]
      exact h.current
    · exact h.catchUpJobs
    · rw [hwall]
      exact h.catchUps
    · exact h.marking
    · exact h.inFlight
    · exact h.once
  · have hnew : config.generation ∉ m.used loaded :=
      hfresh config (by rw [hcommit]; exact List.mem_singleton_self config)
    have hschedule : (m.call options c).schedule = m.schedule.activate config := heq
    have hgeneration : (m.call options c).schedule.config.generation = config.generation := by
      rw [hschedule]
      rfl
    have hused : (m.call options c).used loaded =
        loaded.generation :: config.generation :: m.committed.map Config.generation := by
      simp only [Machine.used, Machine.call, hcommit, List.cons_append, List.nil_append,
        List.map_cons]
    have hkeep : ∀ generation ∈ m.used loaded, generation ∈ (m.call options c).used loaded := by
      intro generation hmem
      rw [hused]
      rcases List.mem_cons.1 hmem with rfl | hmem
      · exact List.mem_cons_self
      · exact List.mem_cons_of_mem _ (List.mem_cons_of_mem _ hmem)
    -- Nothing has happened yet under the new generation.
    have hunused : ∀ d ∈ m.applied, ∀ index, ¬d.Succeeded config.generation index := by
      rintro d hd index ⟨hsame, -⟩
      exact hnew (hsame ▸ h.used.2.2 d hd)
    have hhandled : ∀ d ∈ m.handled, d ∈ m.applied := by
      intro d hd
      rw [Machine.handled] at hd
      split at hd
      · exact List.mem_of_mem_tail hd
      · exact hd
    constructor
    · rw [hschedule]
      exact ⟨hvalid.2.1, h.counts.2⟩
    · refine ⟨?_, hkeep _ h.used.2.1, fun d hd => hkeep _ (h.used.2.2 d hd)⟩
      rw [hgeneration, hused]
      exact List.mem_cons_of_mem _ List.mem_cons_self
    · exact h.returned
    · rw [hwall]
      exact h.front_le
    · rw [hwall]
      exact h.jobs
    · exact h.sorted
    · intro d hd index hsucceeded
      rw [hgeneration] at hsucceeded
      exact absurd hsucceeded (hunused d (hhandled d hd) index)
    · intro hpending
      rw [hschedule] at hpending
      exact Bool.noConfusion hpending
    · intro a _ _ hsame
      rw [hgeneration] at hsame
      exact absurd (hsame ▸ h.used.2.1) hnew
    · exact h.catchUpJobs
    · rw [hwall]
      exact h.catchUps
    · exact h.marking
    · exact h.inFlight
    · exact h.once

/-- The jobs of a tick follow the visits. -/
theorem tickJobs_inDayOrder {sample : Sample} {tm : Tm} {epoch : ℤ}
    (hlocal : fixedOffset offset epoch = some tm) :
    (tickJobs options (fixedOffset offset) sample tm epoch).Pairwise (InDayOrder offset) := by
  by_cases henabled : sample.config.enabled = true
  · have hfirst : ∀ job ∈ firstJobs options sample tm epoch, ∀ a, job ≠ .scheduled a := by
      intro job hjob a
      rw [firstJobs] at hjob
      split at hjob
      · rw [List.mem_singleton, catchUpJob] at hjob
        split at hjob
        · rw [hjob]
          exact fun h => Job.noConfusion h
        · rw [hjob]
          exact fun h => Job.noConfusion h
      · exact absurd hjob List.not_mem_nil
    have hvisits : ((visits sample epoch).flatMap
        (jobsAt (fixedOffset offset) sample.config)).Pairwise (InDayOrder offset) := by
      rw [List.pairwise_flatMap]
      constructor
      · intro e _
        apply List.Pairwise.imp_of_mem _ (List.pairwise_of_forall (R := fun _ _ => True)
          fun _ _ => True.intro)
        intro job other hjob hother _ a b ha hb
        obtain ⟨_, i, -, -, hi⟩ := exists_of_mem_jobsAt hjob
        obtain ⟨_, j, -, -, hj⟩ := exists_of_mem_jobsAt hother
        rw [ha] at hi
        rw [hb] at hj
        cases hi
        cases hj
        exact le_refl _
      · refine (visits_sorted sample epoch).imp ?_
        intro e e' hle job hjob other hother a b ha hb
        obtain ⟨_, i, -, -, hi⟩ := exists_of_mem_jobsAt hjob
        obtain ⟨_, j, -, -, hj⟩ := exists_of_mem_jobsAt hother
        rw [ha] at hi
        rw [hb] at hj
        cases hi
        cases hj
        exact localDay_mono hle
    rw [tickJobs_eq henabled hlocal, List.pairwise_append, List.pairwise_cons]
    refine ⟨?_, ⟨fun job _ a b ha => Job.noConfusion ha, hvisits⟩, ?_⟩
    · apply List.Pairwise.imp_of_mem _ (List.pairwise_of_forall (R := fun _ _ => True)
        fun _ _ => True.intro)
      intro job other hjob _ _ a b ha
      exact absurd ha (hfirst job hjob a)
    · intro job hjob other _ a b ha
      exact absurd ha (hfirst job hjob a)
  · rw [tickJobs, Bool.eq_false_iff.2 henabled]
    exact List.Pairwise.nil

/-- In a continuous tick, a visit in the minute of the sample is on its day. -/
theorem localDay_of_localMinute_eq {s : Schedule} {now : U32} {epoch e : ℤ} {tm tm' : Tm}
    (he : e ∈ visits (s.sample options now (some epoch)).1 epoch)
    (hlocal : fixedOffset offset epoch = some tm) (hlocal' : fixedOffset offset e = some tm')
    (hminute : localMinute tm' = localMinute tm) :
    localDay offset e = localDay offset epoch := by
  obtain ⟨-, -, hprevious, hcontinuous⟩ := sample_some options s now epoch
  rw [visits, List.mem_append, List.mem_singleton] at he
  rcases he with he | rfl
  · split at he
    · next hcheck =>
        rw [Bool.and_eq_true, decide_eq_true_eq] at hcheck
        obtain ⟨-, hclock⟩ := hcontinuous hcheck.1
        obtain ⟨hlt, hle⟩ := crossedBoundaries_lt he
        rw [clockIsContinuous, decide_eq_true_eq] at hclock
        have hlimit : clockContinuityLimitSec = 120 := rfl
        rw [hprevious] at hlt
        have hday := localMinutes_eq hlocal
        have hday' := localMinutes_eq hlocal'
        rw [hminute] at hday'
        rw [localMinutes] at hday hday'
        omega
    · exact absurd he List.not_mem_nil
  · rfl

theorem Front.tick (h : Front offset loaded m front) (hidle : m.task.Idle) {now : U32}
    {time : ℤ}
    (hforward : m.FreshForward options (fixedOffset offset) loaded (.tick now time)) :
    ∃ front', Front offset loaded (m.tick options (fixedOffset offset) now time) front' := by
  have hhandled : m.handled = m.applied := by rw [Machine.handled, hidle.2]
  rw [Machine.tick]
  cases hclock : clockSnapshot (fixedOffset offset) time with
  | none =>
      refine ⟨front, ?_⟩
      obtain ⟨hsampled, hwall⟩ := sample_none options m.schedule now
      have htoday : localDay offset (m.schedule.sample options now none).2.lastWallEpoch =
          m.today offset := congrArg (localDay offset) hwall
      have hgeneration := congrArg Config.generation hsampled.config
      constructor
      · exact ⟨(congrArg (fun config : Config => config.count.toNat)
          hsampled.config).trans_le h.counts.1, h.counts.2⟩
      · exact ⟨hgeneration.symm ▸ h.used.1, h.used.2⟩
      · exact h.returned
      · intro index
        exact (h.front_le index).trans_eq htoday.symm
      · intro b hb
        exact absurd (hidle.1 ▸ hb) List.not_mem_nil
      · exact h.sorted
      · intro c hc index hsucceeded
        simp only [hgeneration] at hsucceeded
        have hpast := h.past c hc index hsucceeded
        simp only [Machine.markOf, hsampled.lastRunDay] at hpast ⊢
        exact hpast
      · intro hpending
        have hretry := h.retry (hsampled.retryPending hpending)
        simp only [hgeneration, hsampled.retryGeneration, hsampled.retryIndex,
          hsampled.retryDayKey]
        exact hretry
      · intro a ha
        rcases ha with ha | ⟨error, ha⟩
        · exact Phase.noConfusion (hidle.2.symm.trans ha)
        · exact Phase.noConfusion (hidle.2.symm.trans ha)
      · exact h.catchUpJobs
      · rintro a (ha | (ha | ⟨error, ha⟩) | ha)
        · exact absurd (hidle.1 ▸ ha) List.not_mem_nil
        · exact Phase.noConfusion (hidle.2.symm.trans ha)
        · exact Phase.noConfusion (hidle.2.symm.trans ha)
        · exact Phase.noConfusion (hidle.2.symm.trans ha)
      · exact h.marking
      · exact h.inFlight
      · exact h.once
  | some tm =>
      have hle : m.schedule.lastWallEpoch ≤ time :=
        hforward (by rw [hclock]; exact Option.some_ne_none _)
      have hlocal : fixedOffset offset time = some tm := clockSnapshot_eq_some hclock
      obtain ⟨hsampled, hwall, hprevious, -⟩ := sample_some options m.schedule now time
      have hgeneration := congrArg Config.generation hsampled.config
      have hconfig := (sample_config options m.schedule now (some time)).1
      have htoday : localDay offset (m.schedule.sample options now (some time)).2.lastWallEpoch =
          localDay offset time := congrArg (localDay offset) hwall
      have hindex : ∀ i < m.schedule.config.count.toNat, (BitVec.ofNat 8 i).toNat = i := by
        intro i hi
        have hmax : maxPoints = 8 := rfl
        have hcount := h.counts.1
        rw [BitVec.toNat_ofNat]
        omega
      refine ⟨fun _ => m.today offset, ?_⟩
      constructor
      · constructor
        · exact (congrArg (fun config : Config => config.count.toNat)
            hsampled.config).trans_le h.counts.1
        · exact (congrArg (fun config : Config => config.count.toNat) hconfig).trans_le
            h.counts.1
      · exact ⟨hgeneration.symm ▸ h.used.1,
          (congrArg Config.generation hconfig).symm ▸ h.used.1, h.used.2.2⟩
      · intro a error hphase
        exact Phase.noConfusion hphase
      · intro index
        exact (localDay_mono hle).trans_eq htoday.symm
      · intro b hb
        obtain ⟨e, he, tm', i, hlocal', hdue, rfl⟩ := scheduled_mem_tickJobs hlocal hb
        rw [hconfig] at hdue
        refine ⟨rfl, ?_, localDayKey_fixedOffset hlocal', ?_, ?_⟩
        · rw [dueApplication, hindex i hdue.1]
          exact Nat.lt_of_lt_of_le hdue.1 h.counts.1
        · have hge := visits_ge he (hprevious.trans_le hle)
          rw [hprevious] at hge
          exact localDay_mono hge
        · exact (localDay_mono (visits_le he)).trans_eq htoday.symm
      · exact tickJobs_inDayOrder hlocal
      · intro c hc index hsucceeded
        simp only [hgeneration] at hsucceeded
        obtain ⟨hday, hmark⟩ := h.past c (hhandled ▸ hc) index hsucceeded
        have hfront := h.front_le index
        refine ⟨hday.trans hfront, ?_⟩
        simp only [Machine.markOf, hsampled.lastRunDay] at hmark ⊢
        exact hmark.imp_right fun hlt => lt_of_lt_of_le hlt hfront
      · intro hpending
        have hretry := h.retry (hsampled.retryPending hpending)
        simp only [hgeneration, hsampled.retryGeneration, hsampled.retryIndex,
          hsampled.retryDayKey]
        rw [hhandled] at hretry
        exact ⟨hretry.1, hretry.2.1, hretry.2.2.1.trans (h.front_le _), hretry.2.2.2⟩
      · intro a ha
        rcases ha with ha | ⟨error, ha⟩
        · exact Phase.noConfusion ha
        · exact Phase.noConfusion ha
      · intro a ha
        obtain ⟨heq, -⟩ := catchUp_mem_tickJobs hlocal ha
        rw [heq]
      · rintro a (ha | (ha | ⟨error, ha⟩) | ha) _ hmarked
        · obtain ⟨heq, hne⟩ := catchUp_mem_tickJobs hlocal ha
          subst heq
          have hmax := latestPointIndex_lt (hconfig ▸ h.counts.1) hne
          refine ⟨?_, ?_, ?_⟩
          · rw [hconfig] at hmax ⊢
            exact Nat.lt_of_lt_of_le hmax h.counts.1
          · rw [Machine.today, htoday]
            exact localDayKey_fixedOffset hlocal
          · intro b hb hsame
            obtain ⟨e, he, tm', i, hlocal', hdue, rfl⟩ := scheduled_mem_tickJobs hlocal hb
            have hi : i = (latestPointIndex (m.schedule.sample options now (some time)).1.config
                (weekdayIndex tm).toNat (localMinute tm)).toNat := by
              have hvalue := congrArg BitVec.toNat hsame
              rw [hconfig] at hdue
              rwa [dueApplication, hindex i hdue.1] at hvalue
            rw [beq_iff_eq, ← hi, hdue.2.2] at hmarked
            rw [Machine.today, htoday]
            exact localDay_of_localMinute_eq he hlocal hlocal' hmarked
        · exact Phase.noConfusion ha
        · exact Phase.noConfusion ha
        · exact Phase.noConfusion ha
      · intro a ha
        exact Phase.noConfusion ha
      · intro a ha
        exact Phase.noConfusion ha
      · exact h.once

/-- The task between two jobs. -/
def Machine.withJobs (m : Machine) (jobs : List Job) : Machine :=
  { m with task := { m.task with jobs := jobs, phase := .ready } }

/-- The task before a callback. -/
def Machine.entering (m : Machine) (a : Application) : Machine :=
  { m with task := { m.task with phase := .apply a } }

theorem Front.withJobs (h : Front offset loaded m front) (hhandled : m.handled = m.applied)
    {jobs : List Job} (hjobs : jobs.Sublist m.task.jobs) :
    Front offset loaded (m.withJobs jobs) front := by
  have hmem : ∀ b ∈ jobs, b ∈ m.task.jobs := fun b hb => hjobs.subset hb
  constructor
  · exact h.counts
  · exact h.used
  · intro a error hphase
    exact Phase.noConfusion hphase
  · exact h.front_le
  · intro b hb
    exact h.jobs b (hmem _ hb)
  · exact h.sorted.sublist hjobs
  · have hpast := h.past
    rw [hhandled] at hpast
    exact hpast
  · have hretry := h.retry
    rw [hhandled] at hretry
    exact hretry
  · rintro a (ha | ⟨error, ha⟩)
    · exact Phase.noConfusion ha
    · exact Phase.noConfusion ha
  · intro a ha
    exact h.catchUpJobs a (hmem _ ha)
  · rintro a (ha | (ha | ⟨error, ha⟩) | ha) hcatchUp hmark
    · obtain ⟨hindex, hkey, hsame⟩ := h.catchUps a (Or.inl (hmem _ ha)) hcatchUp hmark
      exact ⟨hindex, hkey, fun b hb => hsame b (hmem _ hb)⟩
    · exact Phase.noConfusion ha
    · exact Phase.noConfusion ha
    · exact Phase.noConfusion ha
  · intro a ha
    exact Phase.noConfusion ha
  · intro a ha
    exact Phase.noConfusion ha
  · exact h.once

/-- The front of one point moves up to a day that its visits do not fall below. -/
theorem Front.raise (h : Front offset loaded m front) (hready : m.task.phase = .ready)
    {index : BitVec 8} {day : ℤ} (hfront : front index ≤ day) (htoday : day ≤ m.today offset)
    (hjobs : ∀ b, Job.scheduled b ∈ m.task.jobs → b.index = index → day ≤ b.day offset) :
    Front offset loaded m (Function.update front index day) := by
  have hge : ∀ i, front i ≤ Function.update front index day i := by
    intro i
    by_cases hi : i = index
    · subst hi
      rw [Function.update_self]
      exact hfront
    · rw [Function.update_of_ne hi]
  constructor
  · exact h.counts
  · exact h.used
  · exact h.returned
  · intro i
    by_cases hi : i = index
    · rw [hi, Function.update_self]
      exact htoday
    · rw [Function.update_of_ne hi]
      exact h.front_le i
  · intro b hb
    obtain ⟨hscheduled, hmax, hkey, hday, hlast⟩ := h.jobs b hb
    refine ⟨hscheduled, hmax, hkey, ?_, hlast⟩
    by_cases hi : b.index = index
    · rw [hi, Function.update_self]
      exact hjobs b hb hi
    · rw [Function.update_of_ne hi]
      exact hday
  · exact h.sorted
  · intro c hc i hsucceeded
    obtain ⟨hday, hmark⟩ := h.past c hc i hsucceeded
    exact ⟨hday.trans (hge i), hmark.imp_right fun hlt => lt_of_lt_of_le hlt (hge i)⟩
  · intro hpending
    obtain ⟨hgeneration, hkey, hday, hafter⟩ := h.retry hpending
    exact ⟨hgeneration, hkey, hday.trans (hge _), hafter⟩
  · rintro a (ha | ⟨error, ha⟩)
    · exact nomatch hready.symm.trans ha
    · exact nomatch hready.symm.trans ha
  · exact h.catchUpJobs
  · exact h.catchUps
  · exact h.marking
  · exact h.inFlight
  · exact h.once

/-- The task enters a callback; a scheduled one is for a day after all successes. -/
theorem Front.entering (h : Front offset loaded m front) (hready : m.task.phase = .ready)
    {a : Application}
    (hscheduled : a.catchUp = false →
      m.task.config.generation = m.schedule.config.generation ∧
      a.index.toNat < maxPoints ∧ a.dayKey = dayKey (a.day offset) ∧
      a.day offset ≤ front a.index ∧
      ∀ c ∈ m.handled, c.Succeeded m.schedule.config.generation a.index →
        c.application.day offset < a.day offset)
    (hcatchUp : a.catchUp = true → a.mark = true →
      a.index.toNat < maxPoints ∧ a.dayKey = dayKey (m.today offset) ∧
      ∀ b, Job.scheduled b ∈ m.task.jobs → b.index = a.index →
        b.day offset = m.today offset) :
    Front offset loaded (m.entering a) front := by
  have hhandled : m.handled = m.applied := by rw [Machine.handled, hready]
  rw [hhandled] at hscheduled
  constructor
  · exact h.counts
  · exact h.used
  · intro b error hphase
    exact Phase.noConfusion hphase
  · exact h.front_le
  · exact h.jobs
  · exact h.sorted
  · have hpast := h.past
    rw [hhandled] at hpast
    exact hpast
  · have hretry := h.retry
    rw [hhandled] at hretry
    exact hretry
  · rintro b (hb | ⟨error, hb⟩) hkind _
    · cases hb
      exact (hscheduled hkind).2
    · exact Phase.noConfusion hb
  · exact h.catchUpJobs
  · rintro b (hb | (hb | ⟨error, hb⟩) | hb) hkind hmark
    · exact h.catchUps b (Or.inl hb) hkind hmark
    · cases hb
      exact hcatchUp hkind hmark
    · exact Phase.noConfusion hb
    · exact Phase.noConfusion hb
  · intro b hb
    exact Phase.noConfusion hb
  · intro b hb hkind c hc hsucceeded
    cases hb
    obtain ⟨hgeneration, -, -, -, hafter⟩ := hscheduled hkind
    have hsame : c.Succeeded m.schedule.config.generation a.index := hgeneration ▸ hsucceeded
    exact ne_of_lt (hafter c hc hsame)
  · exact h.once

theorem Front.startJob (h : Front offset loaded m front) (hready : m.task.phase = .ready)
    {job : Job} {jobs : List Job} (hjobs : m.task.jobs = job :: jobs) :
    ∃ front', Front offset loaded (m.startJob job jobs) front' := by
  have hhandled : m.handled = m.applied := by rw [Machine.handled, hready]
  have hrest : Front offset loaded (m.withJobs jobs) front :=
    h.withJobs hhandled (hjobs ▸ List.sublist_cons_self job jobs)
  have hmem : job ∈ m.task.jobs := by rw [hjobs]; exact List.mem_cons_self
  cases job with
  | catchUp a =>
      refine ⟨front, hrest.entering rfl ?_ ?_⟩
      · intro hkind
        exact absurd ((h.catchUpJobs a hmem).symm.trans hkind) (by decide)
      · intro hkind hmark
        obtain ⟨hindex, hkey, hsame⟩ := h.catchUps a (Or.inl hmem) hkind hmark
        refine ⟨hindex, hkey, fun b hb => hsame b ?_⟩
        rw [hjobs]
        exact List.mem_cons_of_mem _ hb
  | dropCatchUp =>
      refine ⟨front, ?_⟩
      rw [Machine.startJob, Schedule.dropCatchUp]
      split
      · exact ⟨hrest.counts, hrest.used, hrest.returned, hrest.front_le, hrest.jobs,
          hrest.sorted, hrest.past, hrest.retry, hrest.current, hrest.catchUpJobs,
          hrest.catchUps, hrest.marking, hrest.inFlight, hrest.once⟩
      · exact hrest
  | pendingRetry =>
      refine ⟨front, ?_⟩
      rw [Machine.startJob]
      split
      · next hretries =>
          simp only [Schedule.retries, Bool.and_eq_true, beq_iff_eq, decide_eq_true_eq]
            at hretries
          obtain ⟨⟨⟨hpending, hgeneration⟩, hindex⟩, -⟩ := hretries
          obtain ⟨hown, hkey, hday, hafter⟩ := hrest.retry hpending
          refine hrest.entering rfl ?_ ?_
          · intro _
            refine ⟨hgeneration.symm.trans hown, ?_, hkey, hday, hafter⟩
            exact Nat.lt_of_lt_of_le (BitVec.lt_def.1 hindex) h.counts.2
          · intro hkind
            exact Bool.noConfusion hkind
      · exact hrest
  | scheduled a =>
      rw [Machine.startJob]
      split
      · next hexecutes =>
          simp only [Schedule.executes, Bool.and_eq_true, beq_iff_eq, bne_iff_ne]
            at hexecutes
          obtain ⟨⟨hgeneration, hmark⟩, -⟩ := hexecutes
          obtain ⟨hkind, hindex, hkey, hday, hlast⟩ := h.jobs a hmem
          have hafter : ∀ b, Job.scheduled b ∈ jobs → b.index = a.index →
              a.day offset ≤ b.day offset := by
            intro b hb _
            have hsorted := h.sorted
            rw [hjobs, List.pairwise_cons] at hsorted
            exact hsorted.1 _ hb a b rfl rfl
          refine ⟨Function.update front a.index (a.day offset), ?_⟩
          refine (hrest.raise rfl hday hlast hafter).entering rfl ?_ ?_
          · intro _
            refine ⟨hgeneration.symm, hindex, hkey, ?_, ?_⟩
            · rw [Function.update_self]
            · intro c hc hsucceeded
              obtain ⟨hbefore, hmarked⟩ := hrest.past c hc a.index hsucceeded
              rcases hmarked with hmarked | hlt
              · have hne : c.application.day offset ≠ a.day offset := by
                  intro hsame
                  rw [hsame, ← hkey] at hmarked
                  exact hmark hmarked
                exact lt_of_le_of_ne (hbefore.trans hday) hne
              · exact lt_of_lt_of_le hlt hday
          · intro hcatchUp
            exact absurd (hkind.symm.trans hcatchUp) (by decide)
      · exact ⟨front, hrest⟩

theorem Front.callback (h : Front offset loaded m front) {a : Application}
    (hphase : m.task.phase = .apply a) (error : EspErr) :
    Front offset loaded (m.callback a error) front := by
  have hhandled : m.handled = m.applied := by rw [Machine.handled, hphase]
  constructor
  · exact h.counts
  · refine ⟨h.used.1, h.used.2.1, fun c hc => ?_⟩
    rcases List.mem_cons.1 hc with rfl | hc
    · exact h.used.2.1
    · exact h.used.2.2 c hc
  · intro b other hrecord
    cases hrecord
    rfl
  · exact h.front_le
  · exact h.jobs
  · exact h.sorted
  · have hpast := h.past
    rw [hhandled] at hpast
    exact hpast
  · have hretry := h.retry
    rw [hhandled] at hretry
    exact hretry
  · rintro b (hb | ⟨other, hb⟩) hkind hsame
    · exact Phase.noConfusion hb
    · cases hb
      have hcurrent := h.current a (Or.inl hphase) hkind hsame
      rw [hhandled] at hcurrent
      exact hcurrent
  · exact h.catchUpJobs
  · rintro b (hb | (hb | ⟨other, hb⟩) | hb) hkind hmark
    · exact h.catchUps b (Or.inl hb) hkind hmark
    · exact Phase.noConfusion hb
    · cases hb
      exact h.catchUps a (Or.inr (Or.inl (Or.inl hphase))) hkind hmark
    · exact Phase.noConfusion hb
  · intro b hb
    exact Phase.noConfusion hb
  · intro b hb
    exact Phase.noConfusion hb
  · refine List.Pairwise.cons ?_ h.once
    rintro c hc generation index ⟨rfl, rfl, hkind, -⟩ hsucceeded
    exact (h.inFlight a hphase hkind c hc hsucceeded).symm

/-- The task leaves a callback with the result recorded in `s`. -/
theorem Front.leaving (h : Front offset loaded m front) {phase : Phase} {s : Schedule}
    {retryEpoch : ℤ} (hconfig : s.config = m.schedule.config)
    (hwall : s.lastWallEpoch = m.schedule.lastWallEpoch)
    (hphase : phase = .ready ∨ ∃ a, phase = .mark a ∧ m.task.phase.Applying a ∧
      a.catchUp = true ∧ a.mark = true)
    (hpast : ∀ c ∈ m.applied, ∀ index, c.Succeeded m.schedule.config.generation index →
      c.application.day offset ≤ front index ∧
        (s.lastRunDay[index.toNat]?.getD 0 = dayKey (c.application.day offset) ∨
          c.application.day offset < front index))
    (hretry : s.retryPending = true →
      s.retryGeneration = m.schedule.config.generation ∧
      s.retryDayKey = dayKey (localDay offset retryEpoch) ∧
      localDay offset retryEpoch ≤ front s.retryIndex ∧
      ∀ c ∈ m.applied, c.Succeeded m.schedule.config.generation s.retryIndex →
        c.application.day offset < localDay offset retryEpoch) :
    Front offset loaded
      { m with
        schedule := s
        task := { m.task with phase := phase }
        retryEpoch := retryEpoch } front := by
  have hgeneration := congrArg Config.generation hconfig
  have htoday : localDay offset s.lastWallEpoch = m.today offset :=
    congrArg (localDay offset) hwall
  have hnot : ∀ a, ¬phase.Applying a := by
    rintro a (ha | ⟨error, ha⟩)
    · rcases hphase with hready | ⟨b, hmark, -⟩
      · exact nomatch hready.symm.trans ha
      · exact nomatch hmark.symm.trans ha
    · rcases hphase with hready | ⟨b, hmark, -⟩
      · exact nomatch hready.symm.trans ha
      · exact nomatch hmark.symm.trans ha
  have hhandled : ∀ (schedule : Schedule) (epoch : ℤ), Machine.handled
      { m with
        schedule := schedule
        task := { m.task with phase := phase }
        retryEpoch := epoch } = m.applied := by
    intro schedule epoch
    rcases hphase with rfl | ⟨b, rfl, -⟩
    · rfl
    · rfl
  constructor
  · exact ⟨(congrArg (fun config : Config => config.count.toNat) hconfig).trans_le h.counts.1,
      h.counts.2⟩
  · exact ⟨hgeneration.symm ▸ h.used.1, h.used.2⟩
  · intro a error hrecord
    exact absurd (Or.inr ⟨error, hrecord⟩) (hnot a)
  · intro index
    exact (h.front_le index).trans_eq htoday.symm
  · intro b hb
    obtain ⟨hkind, hmax, hkey, hday, hlast⟩ := h.jobs b hb
    exact ⟨hkind, hmax, hkey, hday, hlast.trans_eq htoday.symm⟩
  · exact h.sorted
  · rw [hhandled]
    simp only [hgeneration]
    exact hpast
  · rw [hhandled]
    simp only [hgeneration]
    exact hretry
  · intro a ha
    exact absurd ha (hnot a)
  · exact h.catchUpJobs
  · rintro a (ha | ha | ha) hkind hmark
    · rw [Machine.today, htoday]
      exact h.catchUps a (Or.inl ha) hkind hmark
    · exact absurd ha (hnot a)
    · rcases hphase with hready | ⟨b, hphase, happlying, -⟩
      · exact nomatch hready.symm.trans ha
      · have hab : b = a := by
          have hphases := hphase.symm.trans ha
          cases hphases
          rfl
        rw [Machine.today, htoday]
        exact h.catchUps a (Or.inr (Or.inl (hab ▸ happlying))) hkind hmark
  · intro a ha
    rcases hphase with hready | ⟨b, hphase, -, hmarks⟩
    · exact nomatch hready.symm.trans ha
    · have hphases := hphase.symm.trans ha
      cases hphases
      exact hmarks
  · intro a ha
    exact absurd (Or.inl ha) (hnot a)
  · exact h.once

theorem Front.record (h : Front offset loaded m front) {a : Application} {error : EspErr}
    (hphase : m.task.phase = .record a error) :
    Front offset loaded (m.record a error) front := by
  have happlying : m.task.phase.Applying a := Or.inr ⟨error, hphase⟩
  have hhandled : m.handled = m.applied.tail := by rw [Machine.handled, hphase]
  obtain ⟨rest, happlied⟩ := List.head?_eq_some_iff.1 (h.returned a error hphase)
  have htail : m.handled = rest := by rw [hhandled, happlied, List.tail_cons]
  have hpast := h.past
  have hretry := h.retry
  rw [htail] at hpast hretry
  -- Where the callback is no success under the active generation, it adds nothing.
  have hquiet : (∀ index, ¬Applied.Succeeded
      { config := m.task.config
        version := m.task.version
        application := a
        error := error } m.schedule.config.generation index) →
      ∀ index, ∀ c ∈ m.applied, c.Succeeded m.schedule.config.generation index → c ∈ rest := by
    intro hnone index c hc hsucceeded
    rw [happlied] at hc
    rcases List.mem_cons.1 hc with rfl | hc
    · exact absurd hsucceeded (hnone index)
    · exact hc
  have hnext : (if a.catchUp && a.mark && decide (error = .ok) then Phase.mark a else .ready) =
      .ready ∨ ∃ b, (if a.catchUp && a.mark && decide (error = .ok) then Phase.mark a
        else .ready) = .mark b ∧ m.task.phase.Applying b ∧ b.catchUp = true ∧ b.mark = true := by
    split
    · next hmark =>
        rw [Bool.and_eq_true, Bool.and_eq_true] at hmark
        exact Or.inr ⟨a, rfl, happlying, hmark.1⟩
    · exact Or.inl rfl
  have hkeep : (∀ index, ∀ c ∈ m.applied,
      c.Succeeded m.schedule.config.generation index → c ∈ rest) →
      m.schedule.retryPending = true →
      m.schedule.retryGeneration = m.schedule.config.generation ∧
      m.schedule.retryDayKey = dayKey (localDay offset m.retryEpoch) ∧
      localDay offset m.retryEpoch ≤ front m.schedule.retryIndex ∧
      ∀ c ∈ m.applied, c.Succeeded m.schedule.config.generation m.schedule.retryIndex →
        c.application.day offset < localDay offset m.retryEpoch := by
    intro hin hpending
    obtain ⟨hown, hkey, hday, hafter⟩ := hretry hpending
    exact ⟨hown, hkey, hday, fun c hc hsucceeded =>
      hafter c (hin _ c hc hsucceeded) hsucceeded⟩
  by_cases hgeneration : m.schedule.config.generation = m.task.config.generation
  · cases hkind : a.catchUp with
    | true =>
        have hin := hquiet fun index hsucceeded =>
          absurd (hkind.symm.trans hsucceeded.2.2.1) (by decide)
        have hcatchUp : ¬(m.schedule.config.generation = m.task.config.generation ∧
            error ≠ .ok ∧ a.catchUp = false) := by
          rintro ⟨-, -, hfalse⟩
          exact absurd (hkind.symm.trans hfalse) (by decide)
        rw [Machine.record, if_neg hcatchUp, hkind]
        rw [hkind] at hnext
        by_cases hok : error = .ok
        · subst hok
          rw [recordApplyResult_catchUp_ok hgeneration]
          exact h.leaving rfl rfl hnext
            (fun c hc index hsucceeded =>
              hpast c (hin index c hc hsucceeded) index hsucceeded) (hkeep hin)
        · rw [recordApplyResult_catchUp_failed hgeneration hok]
          exact h.leaving rfl rfl hnext
            (fun c hc index hsucceeded =>
              hpast c (hin index c hc hsucceeded) index hsucceeded) (hkeep hin)
    | false =>
        obtain ⟨hindex, hkey, hday, hafter⟩ := h.current a happlying hkind hgeneration.symm
        rw [htail] at hafter
        rw [Machine.record, hkind]
        rw [hkind] at hnext
        by_cases hok : error = .ok
        · subst hok
          rw [recordApplyResult_ok hgeneration]
          refine h.leaving rfl rfl hnext ?_ (fun h => Bool.noConfusion h)
          intro c hc index hsucceeded
          simp only [Vector.getElem?_setIfInBounds]
          rw [happlied] at hc
          by_cases hsame : a.index = index
          · subst hsame
            rw [if_pos rfl, if_pos hindex, Option.getD_some, hkey]
            rcases List.mem_cons.1 hc with rfl | hc
            · exact ⟨hday, Or.inl rfl⟩
            · have hbefore := hafter c hc hsucceeded
              exact ⟨hbefore.le.trans hday, Or.inr (lt_of_lt_of_le hbefore hday)⟩
          · have hne : a.index.toNat ≠ index.toNat := fun h => hsame (BitVec.eq_of_toNat_eq h)
            rw [if_neg hne]
            rcases List.mem_cons.1 hc with rfl | hc
            · exact absurd hsucceeded.2.1 hsame
            · exact hpast c hc index hsucceeded
        · have hin := hquiet fun index hsucceeded => absurd hsucceeded.2.2.2 hok
          have hepoch : m.schedule.config.generation = m.task.config.generation ∧
              error ≠ .ok ∧ false = false := ⟨hgeneration, hok, rfl⟩
          rw [recordApplyResult_failed hgeneration hok, if_pos hepoch]
          refine h.leaving rfl rfl hnext
            (fun c hc index hsucceeded =>
              hpast c (hin index c hc hsucceeded) index hsucceeded) ?_
          intro _
          exact ⟨hgeneration.symm, hkey, hday, fun c hc hsucceeded =>
            hafter c (hin _ c hc hsucceeded) hsucceeded⟩
  · have hin := hquiet fun index hsucceeded => absurd hsucceeded.1.symm hgeneration
    have hother : ¬(m.schedule.config.generation = m.task.config.generation ∧
        error ≠ .ok ∧ a.catchUp = false) := fun h => hgeneration h.1
    rw [Machine.record, if_neg hother, recordApplyResult_of_ne hgeneration]
    exact h.leaving rfl rfl hnext
      (fun c hc index hsucceeded => hpast c (hin index c hc hsucceeded) index hsucceeded)
      (hkeep hin)

/-- A catch-up marks the day of the sample; the visits of its point are on that day. -/
theorem Front.markStep (h : Front offset loaded m front) {a : Application}
    (hphase : m.task.phase = .mark a) :
    ∃ front', Front offset loaded (m.markStep a) front' := by
  have hhandled : m.handled = m.applied := by rw [Machine.handled, hphase]
  have hready := h.withJobs hhandled (List.Sublist.refl m.task.jobs)
  rw [Machine.markStep, Schedule.markRun]
  by_cases hgeneration : m.schedule.config.generation = m.task.config.generation
  · obtain ⟨hkind, hmark⟩ := h.marking a hphase
    obtain ⟨hindex, hkey, hsame⟩ := h.catchUps a (Or.inr (Or.inr hphase)) hkind hmark
    have hraised := hready.raise rfl (h.front_le a.index) le_rfl
      fun b hb heq => (hsame b hb heq).ge
    rw [if_pos hgeneration]
    refine ⟨Function.update front a.index (m.today offset),
      hraised.leaving rfl rfl (Or.inl rfl) ?_ hraised.retry⟩
    intro c hc index hsucceeded
    obtain ⟨hday, hmarked⟩ := hraised.past c hc index hsucceeded
    refine ⟨hday, ?_⟩
    simp only [Vector.getElem?_setIfInBounds]
    by_cases heq : a.index = index
    · subst heq
      rw [if_pos rfl, if_pos hindex, Option.getD_some, hkey]
      rw [Function.update_self] at hday ⊢
      rcases lt_or_eq_of_le hday with hlt | htoday
      · exact Or.inr hlt
      · exact Or.inl (congrArg dayKey htoday.symm)
    · have hne : a.index.toNat ≠ index.toNat := fun h => heq (BitVec.eq_of_toNat_eq h)
      rw [if_neg hne]
      exact hmarked
  · rw [if_neg hgeneration]
    exact ⟨front, hready⟩

theorem Front.step (h : Front offset loaded m front) {input : Input}
    (hfresh : m.FreshForward options (fixedOffset offset) loaded input) :
    ∃ front', Front offset loaded (m.step options (fixedOffset offset) input) front' := by
  cases input with
  | call c => exact ⟨front, h.call hfresh⟩
  | tick now time =>
      rw [Machine.step]
      split
      · next hidle => exact h.tick hidle hfresh
      · exact ⟨front, h⟩
  | run error =>
      rw [Machine.step, Machine.advance]
      cases hphase : m.task.phase with
      | apply a => exact ⟨front, h.callback hphase error⟩
      | record a error => exact ⟨front, h.record hphase⟩
      | mark a => exact h.markStep hphase
      | ready =>
          cases hjobs : m.task.jobs with
          | nil => exact ⟨front, h⟩
          | cons job jobs => exact h.startJob hphase hjobs

end Steps

/-- Of callbacks that are all for different days, at most one is for a given day. -/
theorem length_successes_le {offset : ℤ} {loaded : Config} {m : Machine}
    {front : BitVec 8 → ℤ} (h : Front offset loaded m front) (generation : U32)
    (index : BitVec 8) (day : ℤ) :
    (m.successes offset generation index day).length ≤ 1 := by
  have hpairwise := h.once.filter (fun c =>
    decide (c.Succeeded generation index ∧ c.application.day offset = day))
  have hmem : ∀ c ∈ m.successes offset generation index day,
      c.Succeeded generation index ∧ c.application.day offset = day := by
    intro c hc
    exact of_decide_eq_true (List.mem_filter.1 hc).2
  change (m.successes offset generation index day).Pairwise _ at hpairwise
  cases hlist : m.successes offset generation index day with
  | nil => exact Nat.zero_le 1
  | cons c rest =>
      cases rest with
      | nil => exact le_refl 1
      | cons other rest =>
          rw [hlist] at hpairwise hmem
          obtain ⟨hc, hday⟩ := hmem c List.mem_cons_self
          obtain ⟨hother, hday'⟩ := hmem other (List.mem_cons_of_mem _ List.mem_cons_self)
          have hne := (List.pairwise_cons.1 hpairwise).1 other List.mem_cons_self
          exact absurd (hday.trans hday'.symm) (hne generation index hc hother)

/-- In a run in which the wall clock does not go back and every commit has a new generation,
a point of a configuration succeeds at most once for each local day. -/
theorem length_successes_runFrom_le (offset : ℤ) {options : Options} {loaded : Config}
    (hloaded : ConfigValid options loaded) {inputs : List Input}
    (hfresh : Trace.Always (Machine.step options (fixedOffset offset))
      (Machine.FreshForward options (fixedOffset offset) loaded) (.start loaded) inputs)
    (generation : U32) (index : BitVec 8) (day : ℤ) :
    ((Machine.runFrom options (fixedOffset offset) loaded inputs).successes offset
      generation index day).length ≤ 1 := by
  have hfront : ∃ front,
      Front offset loaded (Machine.runFrom options (fixedOffset offset) loaded inputs) front := by
    apply hfresh.invariant fun m => ∃ front, Front offset loaded m front
    · exact ⟨_, start_front offset hloaded⟩
    · rintro m input ⟨front, hfront⟩ hinput
      exact hfront.step hinput
  obtain ⟨front, hfront⟩ := hfront
  exact length_successes_le hfront generation index day

/-- A tick before ten o'clock with its catch-up, and one after it, in which the point runs. -/
def tenOClockRun : List Input :=
  [.tick 70000 (tenOClock - 30), .run .ok, .run .ok, .run .ok, .run .ok,
    .tick 120000 (tenOClock + 20), .run .ok, .run .ok, .run .ok, .run .ok, .run .ok]

/-- In the second tick the point succeeds, and the visit of the current minute passes it by. -/
theorem length_successes_runFrom_le_tenOClockRun :
    ((Machine.runFrom anyAction (fixedOffset 0) (onePoint 7 (dailyPoint 600 1))
      tenOClockRun).successes 0 7 0 (localDay 0 tenOClock)).length ≤ 1 := by
  have hvalid : ConfigValid anyAction (onePoint 7 (dailyPoint 600 1)) := by decide +kernel
  apply length_successes_runFrom_le 0 hvalid
  refine ⟨?_, True.intro, True.intro, True.intro, True.intro, ?_, True.intro, True.intro,
    True.intro, True.intro, True.intro, True.intro⟩
  all_goals
    intro _
    decide +kernel

end KeemashCore.WeeklySchedule

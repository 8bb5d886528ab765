import KeemashCore.WeeklySchedule.LatestPoint

/-!
# The schedule follows its latest point

If all callbacks succeed and commits come between ticks, the point that was applied last is
the latest point, after every tick, unless a tick passes the latest point by because it is
already marked for its day.  That happens when the clock goes back over a point that has run
and the catch-up applies an older one, and when a catch-up has marked the point of the
current minute before a crossed minute applies another.
-/

namespace KeemashCore.WeeklySchedule

/-! ## The latest point and the last success -/

/-- `latest_point_index` at the time of the last sample. -/
def Machine.latest (offset : ℤ) (m : Machine) : BitVec 8 :=
  match fixedOffset offset m.schedule.lastWallEpoch with
  | some tm => latestPointIndex m.schedule.config (weekdayIndex tm).toNat (localMinute tm)
  | none => noIndex

/-- The most recent callback that succeeded was for this point of the active
configuration. -/
def Machine.LastSucceeded (m : Machine) (index : BitVec 8) : Prop :=
  ∃ c ∈ m.applied.find? (fun c => decide (c.error = .ok)),
    c.application.index = index ∧ c.version = m.version ∧ c.config = m.schedule.config

instance (m : Machine) (index : BitVec 8) : Decidable (m.LastSucceeded index) :=
  inferInstanceAs (Decidable (∃ c ∈ _, _ ∧ _))

/-- After a tick with a valid clock, the latest point was applied last. -/
def Machine.Follows (offset : ℤ) (m : Machine) : Prop :=
  m.task.Idle → m.schedule.lastClockValid = true → m.task.version = m.version →
    m.schedule.config.enabled = true → m.latest offset ≠ noIndex →
    m.LastSucceeded (m.latest offset)

/-- Commits come between ticks, and callbacks succeed. -/
def Machine.Serves (options : Options) (m : Machine) : Input → Prop
  | .call c => ¬m.task.Idle → committedIn (m.schedule.call options c).2.2 = []
  | .tick _ _ => True
  | .run error => error = .ok

instance (options : Options) (m : Machine) (input : Input) :
    Decidable (m.Serves options input) :=
  match input with
  | .call _ => inferInstanceAs (Decidable (_ → _ = []))
  | .tick _ _ => isTrue True.intro
  | .run _ => inferInstanceAs (Decidable (_ = _))

/-- The point that the task comes to in its next step. -/
def Machine.comesTo (m : Machine) : Option Application :=
  match m.task.phase, m.task.jobs with
  | .ready, .scheduled a :: _ => some a
  | _, _ => none

/-- The task does not come to the latest point while that is marked for its day and another
point was applied last. -/
def Machine.Unblocked (offset : ℤ) (m : Machine) : Input → Prop
  | .run _ => ∀ a ∈ m.comesTo, a.index = m.latest offset → m.markOf a.index = a.dayKey →
      m.schedule.lastApplyIndex = a.index
  | _ => True

instance (offset : ℤ) (m : Machine) (input : Input) : Decidable (m.Unblocked offset input) :=
  match input with
  | .call _ => isTrue True.intro
  | .tick _ _ => isTrue True.intro
  | .run _ => inferInstanceAs (Decidable (∀ a ∈ _, _ → _ → _))

/-! ## The jobs that are left -/

/-- The last scheduled job, if there is one, is for the point. -/
def Ends (index : BitVec 8) : List Job → Prop
  | [] => True
  | job :: jobs =>
      (∀ b, job = .scheduled b → b.index = index ∨ ∃ b', Job.scheduled b' ∈ jobs) ∧
        Ends index jobs

theorem ends_append {index : BitVec 8} {jobs more : List Job}
    (hjobs : ∀ b, Job.scheduled b ∈ jobs → b.index = index ∨ ∃ b', Job.scheduled b' ∈ more)
    (hmore : Ends index more) : Ends index (jobs ++ more) := by
  induction jobs with
  | nil => exact hmore
  | cons job jobs ih =>
      refine ⟨fun b hb => ?_, ih fun b hb => hjobs b (List.mem_cons_of_mem _ hb)⟩
      subst hb
      exact (hjobs b List.mem_cons_self).imp_right fun ⟨b', hb'⟩ =>
        ⟨b', List.mem_append_right _ hb'⟩

/-- What is left leads to the latest point. -/
def Machine.Leads (index : BitVec 8) (m : Machine) : Prop :=
  (∃ b, Job.scheduled b ∈ m.task.jobs) ∨
    (∃ a, Job.catchUp a ∈ m.task.jobs) ∨
    (∃ a, m.task.phase.Applying a ∧ a.index = index) ∨
    ((∀ a, ¬m.task.phase.Applying a) ∧ m.schedule.lastApplyIndex = index)

/-- The invariant of a run in which commits come between ticks and callbacks succeed. -/
structure Following (options : Options) (offset : ℤ) (m : Machine) : Prop where
  valid : ConfigValid options m.schedule.config
  epoch : m.schedule.lastClockValid = true → validEpoch < m.schedule.lastWallEpoch
  quiet : m.schedule.retryPending = false ∧ m.schedule.nextRetryMs = 0
  results : ∀ a error, m.task.phase = .record a error → error = .ok ∧ m.Returned a error
  version : m.task.version ≤ m.version
  busy : ¬m.task.Idle → m.OwnsConfig ∧ m.schedule.config.enabled = true
  last : (∀ a error, m.task.phase ≠ .record a error) →
    m.schedule.lastApplyIndex ≠ noIndex → m.LastSucceeded m.schedule.lastApplyIndex
  pending : m.schedule.catchUpPending = true → m.schedule.config.enabled = true
  settled : m.task.Idle → m.schedule.lastClockValid = true → m.task.version = m.version →
    m.schedule.catchUpPending = false
  catchUp : ¬m.task.Idle → m.schedule.catchUpPending = true →
    (∃ a, Job.catchUp a ∈ m.task.jobs) ∨ Job.dropCatchUp ∈ m.task.jobs ∨
      ∃ a, m.task.phase.Applying a ∧ a.catchUp = true
  catchUpJobs : ∀ a, Job.catchUp a ∈ m.task.jobs →
    a.catchUp = true ∧ a.index = m.latest offset
  idle : m.task.Idle → m.schedule.lastClockValid = true → m.schedule.config.enabled = true →
    m.schedule.catchUpPending = false → m.latest offset ≠ noIndex →
    m.schedule.lastApplyIndex = m.latest offset
  jobs : ¬m.task.Idle → m.latest offset ≠ noIndex →
    Ends (m.latest offset) m.task.jobs ∧ m.Leads (m.latest offset)

theorem start_following (options : Options) (offset : ℤ) {loaded : Config}
    (hloaded : ConfigValid options loaded) : Following options offset (.start loaded) := by
  constructor
  · exact hloaded
  · intro h
    exact Bool.noConfusion h
  · exact ⟨rfl, rfl⟩
  · intro a error h
    exact Phase.noConfusion h
  · exact le_refl 0
  · intro h
    exact absurd ⟨rfl, rfl⟩ h
  · intro _ h
    exact absurd rfl h
  · exact id
  · intro _ h
    exact Bool.noConfusion h
  · intro h
    exact absurd ⟨rfl, rfl⟩ h
  · intro a h
    exact absurd h List.not_mem_nil
  · intro _ h
    exact Bool.noConfusion h
  · intro h
    exact absurd ⟨rfl, rfl⟩ h

section Steps

variable {options : Options} {offset : ℤ} {m : Machine}

theorem latest_congr {m' : Machine} (hconfig : m'.schedule.config = m.schedule.config)
    (hwall : m'.schedule.lastWallEpoch = m.schedule.lastWallEpoch) :
    m'.latest offset = m.latest offset := by
  rw [Machine.latest, Machine.latest, hconfig, hwall]

theorem LastSucceeded.congr {m' : Machine} {index : BitVec 8} (h : m.LastSucceeded index)
    (happlied : m'.applied = m.applied) (hversion : m'.version = m.version)
    (hconfig : m'.schedule.config = m.schedule.config) : m'.LastSucceeded index := by
  rw [Machine.LastSucceeded, happlied, hversion, hconfig]
  exact h

theorem Following.call (h : Following options offset m) {c : Call}
    (hserves : m.Serves options (.call c)) : Following options offset (m.call options c) := by
  have hclock := call_clockKept options m.schedule c
  rcases call_cases options m.schedule c with ⟨hsame, hnone⟩ | ⟨config, hvalid, heq, hcommit⟩
  · have hlatest : (m.call options c).latest offset = m.latest offset :=
      latest_congr hsame.config hclock.lastWallEpoch
    have hversion : (m.call options c).version = m.version := by
      rw [Machine.call, hnone]
      rfl
    have hconfig : (m.call options c).schedule.config = m.schedule.config := hsame.config
    have hindex : (m.call options c).schedule.lastApplyIndex = m.schedule.lastApplyIndex :=
      hsame.lastApplyIndex
    have hpending : (m.call options c).schedule.catchUpPending = m.schedule.catchUpPending :=
      hsame.catchUpPending
    have hvalidClock : (m.call options c).schedule.lastClockValid =
        m.schedule.lastClockValid := hclock.lastClockValid
    constructor
    · rw [hconfig]
      exact h.valid
    · intro hvalid
      exact lt_of_lt_of_eq (h.epoch (hvalidClock.symm.trans hvalid)) hclock.lastWallEpoch.symm
    · exact ⟨hsame.retryPending.trans h.quiet.1, hsame.nextRetryMs.trans h.quiet.2⟩
    · exact h.results
    · rw [hversion]
      exact h.version
    · intro hbusy
      obtain ⟨⟨hown, hcopy⟩, henabled⟩ := h.busy hbusy
      exact ⟨⟨hown.trans hversion.symm, hcopy.trans hconfig.symm⟩, hconfig ▸ henabled⟩
    · intro hphase hne
      rw [hindex] at hne ⊢
      exact LastSucceeded.congr (h.last hphase hne) rfl hversion hconfig
    · rw [hpending, hconfig]
      exact h.pending
    · rw [hpending, hvalidClock, hversion]
      exact h.settled
    · rw [hpending]
      exact h.catchUp
    · rw [hlatest]
      exact h.catchUpJobs
    · rw [hvalidClock, hconfig, hpending, hlatest, hindex]
      exact h.idle
    · intro hbusy hne
      rw [hlatest] at hne ⊢
      obtain ⟨hends, hleads⟩ := h.jobs hbusy hne
      refine ⟨hends, ?_⟩
      rw [Machine.Leads, hindex]
      exact hleads
  · have hidle : m.task.Idle := by
      by_contra hbusy
      cases (hserves hbusy).symm.trans hcommit
    have hschedule : (m.call options c).schedule = m.schedule.activate config := heq
    have hversion : (m.call options c).version = m.version + 1 := by
      rw [Machine.call, hcommit]
      rfl
    constructor
    · rw [hschedule]
      exact hvalid
    · intro hvalidClock
      exact lt_of_lt_of_eq (h.epoch (hclock.lastClockValid.symm.trans hvalidClock))
        hclock.lastWallEpoch.symm
    · rw [hschedule]
      exact ⟨rfl, rfl⟩
    · exact h.results
    · exact h.version.trans (by rw [hversion]; exact Nat.le_succ _)
    · intro hbusy
      exact absurd hidle hbusy
    · intro _ hne
      rw [hschedule] at hne
      exact absurd rfl hne
    · rw [hschedule]
      exact id
    · intro _ _ hsame
      have hle := h.version
      have heq : m.task.version = m.version + 1 := hsame.trans hversion
      omega
    · intro hbusy
      exact absurd hidle hbusy
    · intro a ha
      exact absurd (hidle.1 ▸ ha) List.not_mem_nil
    · intro _ _ henabled hnot
      rw [hschedule] at henabled hnot
      exact absurd (henabled.symm.trans hnot) (by decide)
    · intro hbusy
      exact absurd hidle hbusy

/-! ## The tick -/

/-- The first section of a tick, when nothing is waiting for a retry. -/
structure Samples (s s' : Schedule) (sample : Sample) (now : U32) (epoch : ℤ) : Prop where
  config : s'.config = s.config
  copy : sample.config = s.config
  lastClockValid : s'.lastClockValid = true
  lastWallEpoch : s'.lastWallEpoch = epoch
  quiet : s'.retryPending = false ∧ s'.nextRetryMs = 0
  lastApplyIndex : s'.lastApplyIndex = s.lastApplyIndex
  previousEpoch : sample.previousEpoch = s.lastWallEpoch
  catchUp : sample.catchUp = (s'.catchUpPending && s.config.enabled)
  continuous : sample.continuous = true → s'.catchUpPending = s.catchUpPending ∧
    s.lastClockValid = true ∧
    clockIsContinuous s.lastWallEpoch epoch s.lastSampleMs now = true
  jump : sample.continuous = false → s'.catchUpPending = s.config.enabled

theorem sample_samples (hready : options.catchUpOnClockReady = true) {s : Schedule}
    (hquiet : s.retryPending = false ∧ s.nextRetryMs = 0) (now : U32) (epoch : ℤ) :
    Samples s (s.sample options now (some epoch)).2 (s.sample options now (some epoch)).1
      now epoch := by
  obtain ⟨hsampled, hwall, hprevious, hcontinuous⟩ := sample_some options s now epoch
  have hexpire := expireStage_unchanged options s now
  have hconfig := sample_config options s now (some epoch)
  -- The section without its last conditional.
  have hlast : (s.sample options now (some epoch)).2 =
      ((s.expireStage options now).sampleClock now epoch).2 := by
    simp only [Schedule.sample, hready, Bool.not_true, Bool.and_false, Bool.false_eq_true,
      if_false]
  have hcopy : ((s.expireStage options now).sampleClock now epoch).2.config = s.config := by
    rw [← hlast]
    exact hconfig.2
  have hnext : ((s.expireStage options now).sampleClock now epoch).2.nextRetryMs = 0 := by
    simp only [Schedule.sampleClock]
    split
    · rfl
    · exact hexpire.nextRetryMs.trans hquiet.2
  constructor
  · exact hconfig.2
  · exact hconfig.1
  · rw [hlast]
    rfl
  · exact hwall
  · constructor
    · by_contra hpending
      rw [Bool.not_eq_false] at hpending
      exact absurd ((hsampled.retryPending hpending).symm.trans hquiet.1) (by decide)
    · rw [hlast]
      exact hnext
  · exact hsampled.lastApplyIndex
  · exact hprevious
  · rw [hlast]
    simp only [Schedule.sample, hcopy, hnext, Option.isSome_some, Bool.and_true, beq_self_eq_true,
      Bool.true_or]
  · intro h
    refine ⟨?_, hcontinuous h⟩
    rw [hlast, sampleClock_of_continuous h]
    exact hexpire.catchUpPending
  · intro h
    have hflag : (s.expireStage options now).sampleClock now epoch =
        (false, ((s.expireStage options now).sampleClock now epoch).2) :=
      Prod.ext h rfl
    have hjump : ((s.expireStage options now).lastClockValid &&
        clockIsContinuous (s.expireStage options now).lastWallEpoch epoch
          (s.expireStage options now).lastSampleMs now) = false := h
    rw [hlast, Schedule.sampleClock, hjump, Bool.not_false, Bool.or_true, if_pos rfl]
    exact congrArg Config.enabled hexpire.config

/-! ## The jobs of a tick -/

section Jobs

variable {sample : Sample} {epoch : ℤ} {tm : Tm}

/-- The last point that the visits come to is the latest point. -/
theorem ends_visits (hvalid : ConfigValid options sample.config)
    (hpos : sample.continuous = true → 0 ≤ sample.previousEpoch)
    (hlimit : ∀ e ∈ visits sample epoch, epoch - e ≤ 120)
    (htm : fixedOffset offset epoch = some tm) {before after : List ℤ}
    (hsplit : visits sample epoch = before ++ after) :
    Ends (latestPointIndex sample.config (weekdayIndex tm).toNat (localMinute tm))
      (after.flatMap (jobsAt (fixedOffset offset) sample.config)) := by
  induction after generalizing before with
  | nil => exact True.intro
  | cons e after ih =>
      rw [List.flatMap_cons]
      apply ends_append
      · intro b hb
        by_cases hmore : ∃ b', Job.scheduled b' ∈
            after.flatMap (jobsAt (fixedOffset offset) sample.config)
        · exact Or.inr hmore
        · left
          obtain ⟨tm', i, htm', hdue, heq⟩ := exists_of_mem_jobsAt hb
          cases heq
          have he : e ∈ visits sample epoch := by
            rw [hsplit]
            exact List.mem_append_right _ List.mem_cons_self
          refine (latestPointIndex_of_visit hvalid hpos hlimit htm he htm' hdue ?_).symm
          -- The visits after this one have no point, and the others come before it.
          intro e' he' hlater tm'' htm'' j hdue'
          have hsorted := visits_sorted sample epoch
          rw [hsplit] at he' hsorted
          rw [List.pairwise_append] at hsorted
          have hafter : e' ∈ after := by
            rw [List.mem_append, List.mem_cons] at he'
            rcases he' with hbefore | rfl | hafter
            · exact absurd (hsorted.2.2 e' hbefore e List.mem_cons_self) (not_le.2 hlater)
            · exact absurd hlater (lt_irrefl _)
            · exact hafter
          apply hmore
          refine ⟨dueApplication tm'' e' j, List.mem_flatMap.2 ⟨e', hafter, ?_⟩⟩
          rw [jobsAt, htm'']
          exact scheduled_mem_minuteJobs.2 ⟨j, hdue', rfl⟩
      · apply ih
        rw [hsplit, List.append_cons]

/-- The last point that a tick comes to is the latest point. -/
theorem ends_tickJobs (hvalid : ConfigValid options sample.config)
    (henabled : sample.config.enabled = true)
    (hpos : sample.continuous = true → 0 ≤ sample.previousEpoch)
    (hlimit : ∀ e ∈ visits sample epoch, epoch - e ≤ 120)
    (htm : fixedOffset offset epoch = some tm) :
    Ends (latestPointIndex sample.config (weekdayIndex tm).toNat (localMinute tm))
      (tickJobs options (fixedOffset offset) sample tm epoch) := by
  rw [tickJobs_eq henabled htm]
  apply ends_append
  · intro b hb
    rw [firstJobs] at hb
    split at hb
    · rw [List.mem_singleton, catchUpJob] at hb
      split at hb
      · exact Job.noConfusion hb
      · exact Job.noConfusion hb
    · exact absurd hb List.not_mem_nil
  · refine ⟨fun b hb => Job.noConfusion hb, ?_⟩
    exact ends_visits hvalid hpos hlimit htm (List.nil_append _).symm

end Jobs

/-- A continuous clock has gone on for at most two minutes. -/
theorem le_of_clockIsContinuous {previous epoch : ℤ} {previousMs now : U32}
    (h : clockIsContinuous previous epoch previousMs now = true) :
    previous ≤ epoch ∧ epoch - previous ≤ 120 := by
  rw [clockIsContinuous, decide_eq_true_eq] at h
  have hlimit : clockContinuityLimitSec = 120 := rfl
  omega

theorem Following.tick_none (h : Following options offset m) (hidle : m.task.Idle) (now : U32) :
    Following options offset
      { m with schedule := (m.schedule.sample options now none).2 } := by
  have hconfig := (sample_config options m.schedule now none).2
  have hkept := sample_none_retryKept options m.schedule now
  have hindex := (sample_none options m.schedule now).1.lastApplyIndex
  have hexpire := expireStage_unchanged options m.schedule now
  have hinvalid : (m.schedule.sample options now none).2.lastClockValid = false := by
    simp only [Schedule.sample, Option.isSome_none, Bool.and_false, Bool.false_and,
      Bool.false_eq_true, if_false]
  have hpending : (m.schedule.sample options now none).2.catchUpPending =
      m.schedule.catchUpPending := by
    simp only [Schedule.sample, Option.isSome_none, Bool.and_false, Bool.false_and,
      Bool.false_eq_true, if_false]
    exact hexpire.catchUpPending
  constructor
  · rw [hconfig]
    exact h.valid
  · intro hclock
    exact absurd (hclock.symm.trans hinvalid) (by decide)
  · exact ⟨hkept.retryPending.trans h.quiet.1, hkept.nextRetryMs.trans h.quiet.2⟩
  · exact h.results
  · exact h.version
  · intro hbusy
    exact absurd hidle hbusy
  · intro hphase hne
    dsimp only at hne ⊢
    rw [hindex] at hne ⊢
    exact LastSucceeded.congr (h.last hphase hne) rfl rfl hconfig
  · rw [hconfig, hpending]
    exact h.pending
  · intro _ hclock
    exact absurd (hclock.symm.trans hinvalid) (by decide)
  · intro hbusy
    exact absurd hidle hbusy
  · intro a ha
    exact absurd (hidle.1 ▸ ha) List.not_mem_nil
  · intro _ hclock
    exact absurd (hclock.symm.trans hinvalid) (by decide)
  · intro hbusy
    exact absurd hidle hbusy

theorem visits_near {sample : Sample} {epoch : ℤ}
    (hnear : sample.continuous = true →
      sample.previousEpoch ≤ epoch ∧ epoch - sample.previousEpoch ≤ 120) :
    ∀ e ∈ visits sample epoch, epoch - e ≤ 120 := by
  intro e he
  cases hcontinuous : sample.continuous with
  | true =>
      obtain ⟨hforward, hlimit⟩ := hnear hcontinuous
      have hge := visits_ge he hforward
      omega
  | false =>
      rw [visits, hcontinuous, Bool.false_and, if_neg (by decide), List.nil_append,
        List.mem_singleton] at he
      omega

theorem Following.tick_some (hready : options.catchUpOnClockReady = true)
    (h : Following options offset m) (hidle : m.task.Idle) (now : U32) {time : ℤ} {tm : Tm}
    (htime : validEpoch < time) (htm : fixedOffset offset time = some tm) {m' : Machine}
    (heq : m' =
      { m with
        schedule := (m.schedule.sample options now (some time)).2
        task :=
          { config := (m.schedule.sample options now (some time)).1.config
            version := m.version
            now := now
            jobs := tickJobs options (fixedOffset offset)
              (m.schedule.sample options now (some time)).1 tm time
            phase := .ready } }) :
    Following options offset m' := by
  have hsamples := sample_samples hready h.quiet now time
  generalize hsample : (m.schedule.sample options now (some time)).1 = sample at hsamples heq
  generalize hschedule : (m.schedule.sample options now (some time)).2 = s' at hsamples heq
  subst heq
  have hcopy := hsamples.copy
  have hlatest : Machine.latest offset
      { m with
        schedule := s'
        task :=
          { config := sample.config
            version := m.version
            now := now
            jobs := tickJobs options (fixedOffset offset) sample tm time
            phase := .ready } } =
      latestPointIndex sample.config (weekdayIndex tm).toNat (localMinute tm) := by
    rw [Machine.latest]
    simp only [hsamples.lastWallEpoch, htm, hsamples.config, hcopy]
  have hvalid : ConfigValid options sample.config := by
    rw [hcopy]
    exact h.valid
  have hpos : sample.continuous = true → 0 ≤ sample.previousEpoch := by
    intro hcontinuous
    have hepoch := h.epoch (hsamples.continuous hcontinuous).2.1
    rw [hsamples.previousEpoch]
    exact (lt_trans (by decide) hepoch).le
  have hnear : sample.continuous = true →
      sample.previousEpoch ≤ time ∧ time - sample.previousEpoch ≤ 120 := by
    intro hcontinuous
    rw [hsamples.previousEpoch]
    exact le_of_clockIsContinuous (hsamples.continuous hcontinuous).2.2
  have hpending : s'.catchUpPending = true → s'.config.enabled = true := by
    intro hcatchUp
    rw [hsamples.config]
    cases hcontinuous : sample.continuous with
    | true => exact h.pending ((hsamples.continuous hcontinuous).1.symm.trans hcatchUp)
    | false => exact (hsamples.jump hcontinuous).symm.trans hcatchUp
  -- A tick with the configuration enabled has jobs.
  have hbusy : ∀ {P : Prop}, s'.config.enabled = true →
      tickJobs options (fixedOffset offset) sample tm time = [] → P := by
    intro P henabled hnil
    rw [tickJobs_eq (by rw [hcopy, ← hsamples.config]; exact henabled) htm] at hnil
    exact absurd (List.append_eq_nil_iff.1 hnil).2 (List.cons_ne_nil _ _)
  have henabled : ¬tickJobs options (fixedOffset offset) sample tm time = [] →
      sample.config.enabled = true := by
    intro hjobs
    by_contra hnot
    exact hjobs (tickJobs_of_not_enabled hnot)
  have hfirst : s'.catchUpPending = true → sample.config.enabled = true →
      firstJobs options sample tm time = [catchUpJob sample.config tm time] := by
    intro hcatchUp hon
    rw [firstJobs, hready, Bool.and_true, hsamples.catchUp, hcatchUp, ← hcopy, hon, Bool.and_true,
      if_pos rfl]
  constructor
  · exact hsamples.config.symm ▸ h.valid
  · intro _
    exact htime.trans_eq hsamples.lastWallEpoch.symm
  · exact hsamples.quiet
  · intro a error hphase
    exact Phase.noConfusion hphase
  · exact le_refl _
  · intro hjobs
    refine ⟨⟨rfl, hcopy.trans hsamples.config.symm⟩, ?_⟩
    rw [hsamples.config, ← hcopy]
    exact henabled fun hnil => hjobs ⟨hnil, rfl⟩
  · intro _ hne
    dsimp only at hne ⊢
    rw [hsamples.lastApplyIndex] at hne ⊢
    refine LastSucceeded.congr (h.last ?_ hne) rfl rfl hsamples.config
    intro a error hphase
    exact Phase.noConfusion (hidle.2.symm.trans hphase)
  · exact hpending
  · intro hnone _ _
    by_contra hcatchUp
    rw [Bool.not_eq_false] at hcatchUp
    exact hbusy (hpending hcatchUp) hnone.1
  · intro hjobs hcatchUp
    have hon := henabled fun hnil => hjobs ⟨hnil, rfl⟩
    have hjob : catchUpJob sample.config tm time ∈
        tickJobs options (fixedOffset offset) sample tm time := by
      rw [tickJobs_eq hon htm, hfirst hcatchUp hon]
      exact List.mem_append_left _ (List.mem_singleton_self _)
    rw [catchUpJob] at hjob
    split at hjob
    · exact Or.inl ⟨_, hjob⟩
    · exact Or.inr (Or.inl hjob)
  · intro a ha
    obtain ⟨rfl, -⟩ := catchUp_mem_tickJobs htm ha
    exact ⟨rfl, hlatest.symm⟩
  · intro hnone _ hon
    exact hbusy hon hnone.1
  · intro hjobs hne
    rw [hlatest] at hne ⊢
    have hon := henabled fun hnil => hjobs ⟨hnil, rfl⟩
    refine ⟨ends_tickJobs hvalid hon hpos (visits_near hnear) htm, ?_⟩
    by_cases hscheduled : ∃ b, Job.scheduled b ∈
        tickJobs options (fixedOffset offset) sample tm time
    · exact Or.inl hscheduled
    · cases hcatchUp : s'.catchUpPending with
      | true =>
          right
          left
          have hjob : catchUpJob sample.config tm time ∈
              tickJobs options (fixedOffset offset) sample tm time := by
            rw [tickJobs_eq hon htm, hfirst hcatchUp hon]
            exact List.mem_append_left _ (List.mem_singleton_self _)
          rw [catchUpJob, if_pos hne] at hjob
          exact ⟨_, hjob⟩
      | false =>
          -- The clock has gone on, and no point has become due.
          right
          right
          right
          have hcontinuous : sample.continuous = true := by
            by_contra hjump
            rw [Bool.not_eq_true] at hjump
            have hflag := hsamples.jump hjump
            rw [← hcopy, hon, hcatchUp] at hflag
            exact Bool.noConfusion hflag
          obtain ⟨hkept, hclock, -⟩ := hsamples.continuous hcontinuous
          obtain ⟨hforward, hlimit⟩ := hnear hcontinuous
          cases htm' : fixedOffset offset sample.previousEpoch with
          | none => cases htm'
          | some tm' =>
              have hsame := latestPointIndex_of_quiet hvalid hcontinuous (hpos hcontinuous)
                hforward hlimit htm htm' (fun e he tm'' htm'' j hdue => hscheduled ?_) hne
              · have hbefore : m.latest offset =
                    latestPointIndex sample.config (weekdayIndex tm').toNat
                      (localMinute tm') := by
                  rw [Machine.latest]
                  simp only [← hsamples.previousEpoch, htm', hcopy]
                have hidleIndex := h.idle hidle hclock (hcopy ▸ hon)
                  (hkept.symm.trans hcatchUp) (by rw [hbefore, hsame]; exact hne)
                refine ⟨?_, ?_⟩
                · rintro a (ha | ⟨error, ha⟩)
                  · exact Phase.noConfusion ha
                  · exact Phase.noConfusion ha
                · exact hsamples.lastApplyIndex.trans
                    (hidleIndex.trans (hbefore.trans hsame))
              · refine ⟨dueApplication tm'' e j, ?_⟩
                rw [tickJobs_eq hon htm]
                apply List.mem_append_right
                apply List.mem_cons_of_mem
                refine List.mem_flatMap.2 ⟨e, he, ?_⟩
                rw [jobsAt, htm'']
                exact scheduled_mem_minuteJobs.2 ⟨j, hdue, rfl⟩

/-! ## The steps of the task -/

/-- The step is one inside a tick. -/
structure Proceeds (m m' : Machine) : Prop where
  config : m'.schedule.config = m.schedule.config
  version : m'.version = m.version
  copy : m'.task.config = m.task.config
  copyVersion : m'.task.version = m.task.version
  lastClockValid : m'.schedule.lastClockValid = m.schedule.lastClockValid
  lastWallEpoch : m'.schedule.lastWallEpoch = m.schedule.lastWallEpoch

/-- What a step inside a tick has to show. -/
theorem Following.proceed (h : Following options offset m) (hbusy : ¬m.task.Idle)
    {m' : Machine} (hstep : Proceeds m m')
    (hquiet : m'.schedule.retryPending = false ∧ m'.schedule.nextRetryMs = 0)
    (hresults : ∀ a error, m'.task.phase = .record a error → error = .ok ∧ m'.Returned a error)
    (hlast : (∀ a error, m'.task.phase ≠ .record a error) →
      m'.schedule.lastApplyIndex ≠ noIndex → m'.LastSucceeded m'.schedule.lastApplyIndex)
    (hpending : m'.schedule.catchUpPending = true → m.schedule.catchUpPending = true ∧
      ((∃ a, Job.catchUp a ∈ m'.task.jobs) ∨ Job.dropCatchUp ∈ m'.task.jobs ∨
        ∃ a, m'.task.phase.Applying a ∧ a.catchUp = true))
    (hjobs : ∀ job ∈ m'.task.jobs, job ∈ m.task.jobs)
    (hleads : m.latest offset ≠ noIndex →
      Ends (m.latest offset) m'.task.jobs ∧ m'.Leads (m.latest offset)) :
    Following options offset m' := by
  have hlatest : m'.latest offset = m.latest offset :=
    latest_congr hstep.config hstep.lastWallEpoch
  obtain ⟨⟨hversion, hcopy⟩, henabled⟩ := h.busy hbusy
  have hready : m'.task.Idle → ∀ a, ¬m'.task.phase.Applying a := by
    rintro hidle a (ha | ⟨error, ha⟩)
    · exact nomatch hidle.2.symm.trans ha
    · exact nomatch hidle.2.symm.trans ha
  have hnone : m'.task.Idle → ∀ job, job ∉ m'.task.jobs := by
    intro hidle job hjob
    exact absurd (hidle.1 ▸ hjob) List.not_mem_nil
  constructor
  · rw [hstep.config]
    exact h.valid
  · rw [hstep.lastClockValid, hstep.lastWallEpoch]
    exact h.epoch
  · exact hquiet
  · exact hresults
  · rw [hstep.copyVersion, hstep.version]
    exact h.version
  · intro _
    refine ⟨⟨?_, ?_⟩, ?_⟩
    · rw [hstep.copyVersion, hstep.version]
      exact hversion
    · rw [hstep.copy, hstep.config]
      exact hcopy
    · rw [hstep.config]
      exact henabled
  · exact hlast
  · intro hcatchUp
    rw [hstep.config]
    exact h.pending (hpending hcatchUp).1
  · intro hidle _ _
    by_contra hcatchUp
    rw [Bool.not_eq_false] at hcatchUp
    rcases (hpending hcatchUp).2 with ⟨a, ha⟩ | hdrop | ⟨a, ha, -⟩
    · exact hnone hidle _ ha
    · exact hnone hidle _ hdrop
    · exact hready hidle a ha
  · intro _ hcatchUp
    exact (hpending hcatchUp).2
  · intro a ha
    rw [hlatest]
    exact h.catchUpJobs a (hjobs _ ha)
  · intro hidle _ _ _ hne
    rw [hlatest] at hne ⊢
    rcases (hleads hne).2 with ⟨b, hb⟩ | ⟨a, ha⟩ | ⟨a, ha, -⟩ | ⟨-, hindex⟩
    · exact absurd hb (hnone hidle _)
    · exact absurd ha (hnone hidle _)
    · exact absurd ha (hready hidle a)
    · exact hindex
  · intro _ hne
    rw [hlatest] at hne ⊢
    exact hleads hne

theorem Following.callback (h : Following options offset m) {a : Application}
    (hphase : m.task.phase = .apply a) : Following options offset (m.callback a .ok) := by
  have hbusy : ¬m.task.Idle := fun hidle => nomatch hidle.2.symm.trans hphase
  have happlying : ∀ b, m.task.phase.Applying b ↔ (m.callback a .ok).task.phase.Applying b := by
    intro b
    constructor
    · rintro (hb | ⟨error, hb⟩)
      · cases hphase.symm.trans hb
        exact Or.inr ⟨.ok, rfl⟩
      · exact nomatch hphase.symm.trans hb
    · rintro (hb | ⟨error, hb⟩)
      · exact Phase.noConfusion hb
      · cases hb
        exact Or.inl hphase
  apply h.proceed hbusy
  · constructor <;> rfl
  · exact h.quiet
  · intro b error hb
    cases hb
    exact ⟨rfl, rfl⟩
  · intro hno
    exact absurd rfl (hno a .ok)
  · intro hcatchUp
    refine ⟨hcatchUp, ?_⟩
    exact (h.catchUp hbusy hcatchUp).imp_right fun hrest =>
      hrest.imp_right fun ⟨b, hb, hkind⟩ => ⟨b, (happlying b).1 hb, hkind⟩
  · exact fun _ hjob => hjob
  · intro hne
    obtain ⟨hends, hleads⟩ := h.jobs hbusy hne
    refine ⟨hends, ?_⟩
    rcases hleads with hscheduled | hcatchUp | ⟨b, hb, hindex⟩ | ⟨hno, -⟩
    · exact Or.inl hscheduled
    · exact Or.inr (Or.inl hcatchUp)
    · exact Or.inr (Or.inr (Or.inl ⟨b, (happlying b).1 hb, hindex⟩))
    · exact absurd (Or.inl hphase) (hno a)

/-- The result of a callback that has just returned is the last success. -/
theorem Machine.Returned.lastSucceeded {a : Application} (h : m.Returned a .ok)
    (hown : m.OwnsConfig) : m.LastSucceeded a.index := by
  rw [Machine.Returned, List.head?_eq_some_iff] at h
  obtain ⟨older, happlied⟩ := h
  have hfind : m.applied.find? (fun c => decide (c.error = .ok)) = some
      { config := m.task.config
        version := m.task.version
        application := a
        error := .ok } := by
    rw [happlied]
    rfl
  exact ⟨_, hfind, rfl, hown.1, hown.2⟩

theorem Following.record (h : Following options offset m) {a : Application} {error : EspErr}
    (hphase : m.task.phase = .record a error) :
    Following options offset (m.record a error) := by
  have hbusy : ¬m.task.Idle := fun hidle => Phase.noConfusion (hidle.2.symm.trans hphase)
  obtain ⟨rfl, hreturned⟩ := h.results a error hphase
  obtain ⟨hown, -⟩ := h.busy hbusy
  have hgeneration : m.schedule.config.generation = m.task.config.generation := by
    rw [hown.2]
  have hsucceeded := hreturned.lastSucceeded hown
  have hconfig : (m.record a .ok).schedule.config = m.schedule.config :=
    recordApplyResult_config _ _ _ _ _ _ _
  -- The parts of the schedule that matter, for both kinds of callbacks.
  have hschedule : (m.record a .ok).schedule.lastApplyIndex = a.index ∧
      (m.record a .ok).schedule.nextRetryMs = 0 ∧
      (m.record a .ok).schedule.retryPending = false ∧
      (m.record a .ok).schedule.lastClockValid = m.schedule.lastClockValid ∧
      (m.record a .ok).schedule.lastWallEpoch = m.schedule.lastWallEpoch ∧
      ((m.record a .ok).schedule.catchUpPending = true →
        m.schedule.catchUpPending = true ∧ a.catchUp = false) := by
    rw [Machine.record]
    cases hkind : a.catchUp with
    | true =>
        rw [recordApplyResult_catchUp_ok hgeneration]
        exact ⟨rfl, rfl, h.quiet.1, rfl, rfl, fun hcatchUp => Bool.noConfusion hcatchUp⟩
    | false =>
        rw [recordApplyResult_ok hgeneration]
        exact ⟨rfl, rfl, rfl, rfl, rfl, fun hcatchUp => ⟨hcatchUp, rfl⟩⟩
  obtain ⟨hindex, hnext, hretry, hclock, hwall, hcatchUp⟩ := hschedule
  have hno : ∀ b, ¬(m.record a .ok).task.phase.Applying b := by
    intro b
    simp only [Machine.record]
    rintro (hb | ⟨error, hb⟩)
    · split at hb
      · exact Phase.noConfusion hb
      · exact Phase.noConfusion hb
    · split at hb
      · exact Phase.noConfusion hb
      · exact Phase.noConfusion hb
  have happlying : ∀ b, m.task.phase.Applying b → b = a := by
    rintro b (hb | ⟨error, hb⟩)
    · exact Phase.noConfusion (hphase.symm.trans hb)
    · cases hphase.symm.trans hb
      rfl
  apply h.proceed hbusy
  · exact ⟨hconfig, rfl, rfl, rfl, hclock, hwall⟩
  · exact ⟨hretry, hnext⟩
  · intro b error hb
    exact absurd (Or.inr ⟨error, hb⟩) (hno b)
  · intro _ _
    rw [hindex]
    exact LastSucceeded.congr hsucceeded rfl rfl hconfig
  · intro hpending
    obtain ⟨hbefore, hkind⟩ := hcatchUp hpending
    refine ⟨hbefore, ?_⟩
    rcases h.catchUp hbusy hbefore with hjob | hdrop | ⟨b, hb, hb'⟩
    · exact Or.inl hjob
    · exact Or.inr (Or.inl hdrop)
    · rw [happlying b hb, hkind] at hb'
      exact Bool.noConfusion hb'
  · exact fun _ hjob => hjob
  · intro hne
    obtain ⟨hends, hleads⟩ := h.jobs hbusy hne
    refine ⟨hends, ?_⟩
    rcases hleads with hscheduled | hjob | ⟨b, hb, hlatest⟩ | ⟨hnone, -⟩
    · exact Or.inl hscheduled
    · exact Or.inr (Or.inl hjob)
    · rw [happlying b hb] at hlatest
      exact Or.inr (Or.inr (Or.inr ⟨hno, hindex.trans hlatest⟩))
    · exact absurd (Or.inr ⟨.ok, hphase⟩) (hnone a)

theorem Following.markStep (h : Following options offset m) {a : Application}
    (hphase : m.task.phase = .mark a) : Following options offset (m.markStep a) := by
  have hbusy : ¬m.task.Idle := fun hidle => Phase.noConfusion (hidle.2.symm.trans hphase)
  have hmark : ∀ (P : Schedule → Prop), P m.schedule →
      P { m.schedule with
        lastRunDay := m.schedule.lastRunDay.setIfInBounds a.index.toNat a.dayKey } →
      P (m.markStep a).schedule := by
    intro P hsame hset
    simp only [Machine.markStep, Schedule.markRun]
    split
    · exact hset
    · exact hsame
  have hno : ∀ b, ¬m.task.phase.Applying b := by
    rintro b (hb | ⟨error, hb⟩)
    · exact Phase.noConfusion (hphase.symm.trans hb)
    · exact Phase.noConfusion (hphase.symm.trans hb)
  have hno' : ∀ b, ¬(m.markStep a).task.phase.Applying b := by
    rintro b (hb | ⟨error, hb⟩)
    · exact Phase.noConfusion hb
    · exact Phase.noConfusion hb
  have hconfig : (m.markStep a).schedule.config = m.schedule.config := markRun_config _ _ _ _
  have hindex : (m.markStep a).schedule.lastApplyIndex = m.schedule.lastApplyIndex :=
    hmark (fun s => s.lastApplyIndex = m.schedule.lastApplyIndex) rfl rfl
  have hflag : (m.markStep a).schedule.catchUpPending = m.schedule.catchUpPending :=
    hmark (fun s => s.catchUpPending = m.schedule.catchUpPending) rfl rfl
  apply h.proceed hbusy
  · refine ⟨hconfig, rfl, rfl, rfl, ?_, ?_⟩
    · exact hmark (fun s => s.lastClockValid = m.schedule.lastClockValid) rfl rfl
    · exact hmark (fun s => s.lastWallEpoch = m.schedule.lastWallEpoch) rfl rfl
  · exact hmark (fun s => s.retryPending = false ∧ s.nextRetryMs = 0) h.quiet h.quiet
  · intro b error hb
    exact Phase.noConfusion hb
  · intro _ hne
    rw [hindex] at hne ⊢
    refine LastSucceeded.congr (h.last ?_ hne) rfl rfl hconfig
    intro b error hb
    exact Phase.noConfusion (hphase.symm.trans hb)
  · rw [hflag]
    intro hcatchUp
    refine ⟨hcatchUp, ?_⟩
    rcases h.catchUp hbusy hcatchUp with hjob | hdrop | ⟨b, hb, -⟩
    · exact Or.inl hjob
    · exact Or.inr (Or.inl hdrop)
    · exact absurd hb (hno b)
  · exact fun _ hjob => hjob
  · intro hne
    obtain ⟨hends, hleads⟩ := h.jobs hbusy hne
    refine ⟨hends, ?_⟩
    rcases hleads with hscheduled | hjob | ⟨b, hb, -⟩ | ⟨-, hlatest⟩
    · exact Or.inl hscheduled
    · exact Or.inr (Or.inl hjob)
    · exact absurd hb (hno b)
    · exact Or.inr (Or.inr (Or.inr ⟨hno', hindex.trans hlatest⟩))

theorem Following.startJob (h : Following options offset m)
    (hready : m.task.phase = .ready) {job : Job} {jobs : List Job}
    (hjobs : m.task.jobs = job :: jobs)
    (hunblocked : ∀ a, job = .scheduled a → a.index = m.latest offset →
      m.markOf a.index = a.dayKey → m.schedule.lastApplyIndex = a.index) :
    Following options offset (m.startJob job jobs) := by
  have hbusy : ¬m.task.Idle := fun hidle => nomatch hidle.1.symm.trans hjobs
  obtain ⟨hown, -⟩ := h.busy hbusy
  have hgeneration : m.schedule.config.generation = m.task.config.generation := by
    rw [hown.2]
  have hlast : m.schedule.lastApplyIndex ≠ noIndex →
      m.LastSucceeded m.schedule.lastApplyIndex := by
    apply h.last
    intro a error hphase
    exact nomatch hready.symm.trans hphase
  have hmem : ∀ other ∈ jobs, other ∈ m.task.jobs := by
    intro other hother
    rw [hjobs]
    exact List.mem_cons_of_mem _ hother
  have hno : ∀ b, ¬m.task.phase.Applying b := by
    rintro b (hb | ⟨error, hb⟩)
    · exact nomatch hready.symm.trans hb
    · exact nomatch hready.symm.trans hb
  have hends : m.latest offset ≠ noIndex → Ends (m.latest offset) (job :: jobs) := by
    intro hne
    rw [← hjobs]
    exact (h.jobs hbusy hne).1
  have hpending : m.schedule.catchUpPending = true →
      (∃ b, Job.catchUp b ∈ m.task.jobs) ∨ Job.dropCatchUp ∈ m.task.jobs := by
    intro hcatchUp
    rcases h.catchUp hbusy hcatchUp with hjob | hdrop | ⟨b, hb, -⟩
    · exact Or.inl hjob
    · exact Or.inr hdrop
    · exact absurd hb (hno b)
  -- A point whose callback is about to be called.
  have hentering : ∀ a : Application,
      ((∃ b, Job.catchUp b ∈ m.task.jobs) ∨ Job.dropCatchUp ∈ m.task.jobs →
        (∃ b, Job.catchUp b ∈ jobs) ∨ Job.dropCatchUp ∈ jobs ∨ a.catchUp = true) →
      (m.latest offset ≠ noIndex → (∃ b, Job.scheduled b ∈ jobs) ∨ a.index = m.latest offset) →
      Following options offset
        { m with task := { m.task with jobs := jobs, phase := .apply a } } := by
    intro a hkind hindex
    apply h.proceed hbusy
    · constructor <;> rfl
    · exact h.quiet
    · intro b error hb
      exact Phase.noConfusion hb
    · intro _ hne
      exact LastSucceeded.congr (hlast hne) rfl rfl rfl
    · intro hcatchUp
      refine ⟨hcatchUp, ?_⟩
      exact (hkind (hpending hcatchUp)).imp_right fun hrest =>
        hrest.imp_right fun hkind => ⟨a, Or.inl rfl, hkind⟩
    · exact hmem
    · intro hne
      refine ⟨(hends hne).2, ?_⟩
      rcases hindex hne with hscheduled | hlatest
      · exact Or.inl hscheduled
      · exact Or.inr (Or.inr (Or.inl ⟨a, Or.inl rfl, hlatest⟩))
  -- A job that calls no callback.
  have hleaving : ∀ s : Schedule, s.config = m.schedule.config →
      s.lastClockValid = m.schedule.lastClockValid →
      s.lastWallEpoch = m.schedule.lastWallEpoch →
      s.retryPending = false ∧ s.nextRetryMs = 0 →
      s.lastApplyIndex = m.schedule.lastApplyIndex →
      (s.catchUpPending = true → m.schedule.catchUpPending = true ∧
        ((∃ b, Job.catchUp b ∈ jobs) ∨ Job.dropCatchUp ∈ jobs)) →
      (m.latest offset ≠ noIndex → (∃ b, Job.scheduled b ∈ jobs) ∨
        (∃ b, Job.catchUp b ∈ jobs) ∨ m.schedule.lastApplyIndex = m.latest offset) →
      Following options offset
        { m with schedule := s, task := { m.task with jobs := jobs, phase := .ready } } := by
    intro s hconfig hclock hwall hquiet hindex hcatchUp hleads
    have hno' : ∀ b, ¬Phase.ready.Applying b := by
      rintro b (hb | ⟨error, hb⟩)
      · exact Phase.noConfusion hb
      · exact Phase.noConfusion hb
    apply h.proceed hbusy
    · exact ⟨hconfig, rfl, rfl, rfl, hclock, hwall⟩
    · exact hquiet
    · intro b error hb
      exact Phase.noConfusion hb
    · intro _ hne
      dsimp only at hne ⊢
      rw [hindex] at hne ⊢
      exact LastSucceeded.congr (hlast hne) rfl rfl hconfig
    · intro hflag
      obtain ⟨hbefore, hjob⟩ := hcatchUp hflag
      exact ⟨hbefore, hjob.imp_right Or.inl⟩
    · exact hmem
    · intro hne
      refine ⟨(hends hne).2, ?_⟩
      rcases hleads hne with hscheduled | hjob | hlatest
      · exact Or.inl hscheduled
      · exact Or.inr (Or.inl hjob)
      · exact Or.inr (Or.inr (Or.inr ⟨hno', hindex.trans hlatest⟩))
  -- What led to the latest point, if it was not the job itself.
  have hleads : (∀ b, job ≠ .scheduled b) → (∀ b, job ≠ .catchUp b) →
      m.latest offset ≠ noIndex → (∃ b, Job.scheduled b ∈ jobs) ∨
        (∃ b, Job.catchUp b ∈ jobs) ∨ m.schedule.lastApplyIndex = m.latest offset := by
    intro hnot hnot' hne
    have hleads := (h.jobs hbusy hne).2
    rw [Machine.Leads, hjobs] at hleads
    rcases hleads with ⟨b, hb⟩ | ⟨b, hb⟩ | ⟨b, hb, -⟩ | ⟨-, hlatest⟩
    · rcases List.mem_cons.1 hb with hb | hb
      · exact absurd hb.symm (hnot b)
      · exact Or.inl ⟨b, hb⟩
    · rcases List.mem_cons.1 hb with hb | hb
      · exact absurd hb.symm (hnot' b)
      · exact Or.inr (Or.inl ⟨b, hb⟩)
    · exact absurd hb (hno b)
    · exact Or.inr (Or.inr hlatest)
  have hcatchUps : (∀ b, job ≠ .catchUp b) → job ≠ .dropCatchUp →
      (∃ b, Job.catchUp b ∈ m.task.jobs) ∨ Job.dropCatchUp ∈ m.task.jobs →
      (∃ b, Job.catchUp b ∈ jobs) ∨ Job.dropCatchUp ∈ jobs := by
    intro hnot hnot' hjob
    rw [hjobs] at hjob
    rcases hjob with ⟨b, hb⟩ | hb
    · rcases List.mem_cons.1 hb with hb | hb
      · exact absurd hb.symm (hnot b)
      · exact Or.inl ⟨b, hb⟩
    · rcases List.mem_cons.1 hb with hb | hb
      · exact absurd hb.symm hnot'
      · exact Or.inr hb
  cases job with
  | catchUp a =>
      obtain ⟨hkind, hindex⟩ := h.catchUpJobs a (by rw [hjobs]; exact List.mem_cons_self)
      apply hentering
      · intro _
        exact Or.inr (Or.inr hkind)
      · intro _
        exact Or.inr hindex
  | dropCatchUp =>
      have hdrop : m.schedule.dropCatchUp m.task.config.generation =
          { m.schedule with
            catchUpPending := false
            nextRetryMs := 0 } := by
        rw [Schedule.dropCatchUp, if_pos hgeneration]
      simp only [Machine.startJob]
      rw [hdrop]
      apply hleaving
      · rfl
      · rfl
      · rfl
      · exact ⟨h.quiet.1, rfl⟩
      · rfl
      · intro hcatchUp
        exact Bool.noConfusion hcatchUp
      · exact hleads (fun _ => Job.noConfusion) fun _ => Job.noConfusion
  | pendingRetry =>
      have hretries : m.schedule.retries m.task.config m.task.now = false := by
        rw [Schedule.retries, h.quiet.1]
        rfl
      simp only [Machine.startJob, hretries, Bool.false_eq_true, if_false]
      apply hleaving
      · rfl
      · rfl
      · rfl
      · exact h.quiet
      · rfl
      · intro hcatchUp
        refine ⟨hcatchUp, ?_⟩
        exact hcatchUps (fun _ => Job.noConfusion) Job.noConfusion (hpending hcatchUp)
      · exact hleads (fun _ => Job.noConfusion) fun _ => Job.noConfusion
  | scheduled a =>
      have hnext : m.latest offset ≠ noIndex →
          (∃ b, Job.scheduled b ∈ jobs) ∨ a.index = m.latest offset := by
        intro hne
        exact ((hends hne).1 a rfl).symm
      rw [Machine.startJob]
      split
      · apply hentering
        · intro hjob
          exact (hcatchUps (fun _ => Job.noConfusion) Job.noConfusion hjob).imp_right Or.inl
        · exact hnext
      · next hskips =>
          -- Nothing but the mark keeps the task from the point.
          have hmark : m.markOf a.index = a.dayKey := by
            by_contra hmark
            apply hskips
            have hne : (m.schedule.lastRunDay[a.index.toNat]?.getD 0 != a.dayKey) = true :=
              bne_iff_ne.2 hmark
            rw [Schedule.executes, hgeneration, hne, h.quiet.1]
            simp
          apply hleaving
          · rfl
          · rfl
          · rfl
          · exact h.quiet
          · rfl
          · intro hcatchUp
            refine ⟨hcatchUp, ?_⟩
            exact hcatchUps (fun _ => Job.noConfusion) Job.noConfusion (hpending hcatchUp)
          · intro hne
            rcases hnext hne with hscheduled | hindex
            · exact Or.inl hscheduled
            · exact Or.inr (Or.inr ((hunblocked a rfl hindex hmark).trans hindex))

theorem Following.step (hready : options.catchUpOnClockReady = true)
    (h : Following options offset m) {input : Input} (hserves : m.Serves options input)
    (hunblocked : m.Unblocked offset input) :
    Following options offset (m.step options (fixedOffset offset) input) := by
  cases input with
  | call c => exact h.call hserves
  | tick now time =>
      rw [Machine.step]
      split
      · next hidle =>
          rw [Machine.tick]
          cases hclock : clockSnapshot (fixedOffset offset) time with
          | none => exact h.tick_none hidle now
          | some tm =>
              exact h.tick_some hready hidle now (lt_of_clockSnapshot hclock)
                (clockSnapshot_eq_some hclock) rfl
      · exact h
  | run error =>
      obtain rfl : error = .ok := hserves
      rw [Machine.step, Machine.advance]
      cases hphase : m.task.phase with
      | apply a => exact h.callback hphase
      | record a error => exact h.record hphase
      | mark a => exact h.markStep hphase
      | ready =>
          cases hjobs : m.task.jobs with
          | nil => exact h
          | cons job jobs =>
              apply h.startJob hphase hjobs
              rintro a rfl hindex hmark
              refine hunblocked a ?_ hindex hmark
              rw [Machine.comesTo, hphase, hjobs]
              rfl

end Steps

theorem Following.follows {options : Options} {offset : ℤ} {m : Machine}
    (h : Following options offset m) : m.Follows offset := by
  intro hidle hclock hversion henabled hne
  have hindex := h.idle hidle hclock henabled (h.settled hidle hclock hversion) hne
  rw [← hindex]
  apply h.last
  · intro a error hphase
    exact nomatch hidle.2.symm.trans hphase
  · rw [hindex]
    exact hne

/-! ## The run -/

/-- If commits come between ticks and callbacks succeed, and no tick passes the latest point
by, then after every tick with a valid clock the latest point was applied last. -/
theorem follows_latest_point (offset : ℤ) {options : Options} {loaded : Config}
    {inputs : List Input} (hloaded : ConfigValid options loaded)
    (hready : options.catchUpOnClockReady = true)
    (hrun : Trace.Always (Machine.step options (fixedOffset offset))
      (fun m input => m.Serves options input ∧ m.Unblocked offset input)
      (.start loaded) inputs) :
    (Machine.runFrom options (fixedOffset offset) loaded inputs).Follows offset := by
  have hfollowing := hrun.invariant (Following options offset)
    (start_following options offset hloaded)
    fun m input hm hinput => hm.step hready hinput.1 hinput.2
  exact hfollowing.follows

/-! ## A clock that goes back over a point -/

/-- Every day at ten o'clock, and an hour earlier. -/
def earlierPoint : Config where
  generation := 7
  enabled := true
  persistenceEnabled := false
  count := 2
  points := (Vector.replicate maxPoints (dailyPoint 600 1)).set 1 (dailyPoint 540 0)
    one_lt_maxPoints

/-- The point of nine o'clock is caught up, and the point of ten o'clock runs. -/
def forthRun : List Input :=
  [.tick 70000 (tenOClock - 30)] ++ List.replicate 5 (.run .ok) ++
    [.tick 158000 (tenOClock + 58)] ++ List.replicate 6 (.run .ok)

/-- The clock goes back to 9:59:30, and the point of nine o'clock is caught up again. -/
def backRun : List Input :=
  forthRun ++ [.tick 159000 (tenOClock - 30)] ++ List.replicate 5 (.run .ok)

/-- It is 10:00:58 again. -/
def againRun : List Input :=
  backRun ++ [.tick 247000 (tenOClock + 58)] ++ List.replicate 4 (.run .ok)

def againMachine : Machine :=
  .runFrom anyAction (fixedOffset 0) earlierPoint againRun

/-- The point of ten o'clock is marked, so the point of nine o'clock remains the last one. -/
theorem follows_not_againRun :
    ConfigValid anyAction earlierPoint ∧
      Trace.Always (Machine.step anyAction (fixedOffset 0)) (Machine.Serves anyAction)
        (.start earlierPoint) againRun ∧
      againMachine.latest 0 = 0 ∧ ¬againMachine.LastSucceeded 0 ∧
      ¬againMachine.Follows 0 := by
  have hstate : againMachine.task.Idle ∧ againMachine.schedule.lastClockValid = true ∧
      againMachine.task.version = againMachine.version ∧
      againMachine.schedule.config.enabled = true ∧ againMachine.latest 0 = 0 ∧
      ¬againMachine.LastSucceeded 0 := by decide +kernel
  obtain ⟨hidle, hclock, hversion, henabled, hlatest, hlast⟩ := hstate
  refine ⟨by decide +kernel, by decide +kernel, hlatest, hlast, fun hfollows => hlast ?_⟩
  have hsucceeded := hfollows hidle hclock hversion henabled (by rw [hlatest]; decide)
  rw [hlatest] at hsucceeded
  exact hsucceeded

/-- Before the clock comes to ten o'clock again, the last point is the latest one. -/
theorem follows_latest_point_backRun :
    (Machine.runFrom anyAction (fixedOffset 0) earlierPoint backRun).LastSucceeded 1 := by
  have hlatest : (Machine.runFrom anyAction (fixedOffset 0) earlierPoint backRun).latest 0 = 1 := by
    decide +kernel
  have hfollows := @follows_latest_point 0 anyAction earlierPoint backRun (by decide +kernel) rfl (by decide +kernel) (by decide +kernel)
    (by decide +kernel) (by decide +kernel) (by decide +kernel) (by rw [hlatest]; decide)
  rw [hlatest] at hfollows
  exact hfollows

end KeemashCore.WeeklySchedule

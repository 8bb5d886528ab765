import KeemashCore.WeeklySchedule.OncePerDay

/-!
# The pending retry

There is one retry record for all points.  A scheduled callback that fails sets it, and it
stays set for that point and day as long as no other scheduled result is recorded: the
success of another point clears it, and a later failure replaces it.  The deadline of the
retry is shared with the catch-up.
-/

namespace KeemashCore.WeeklySchedule

/-! ## What the first section keeps -/

/-- The retry record and its deadline are as before. -/
structure RetryKept (s s' : Schedule) : Prop where
  retryPending : s'.retryPending = s.retryPending
  retryGeneration : s'.retryGeneration = s.retryGeneration
  retryIndex : s'.retryIndex = s.retryIndex
  retryDayKey : s'.retryDayKey = s.retryDayKey
  nextRetryMs : s'.nextRetryMs = s.nextRetryMs

theorem RetryKept.refl (s : Schedule) : RetryKept s s := by
  constructor <;> rfl

theorem Unchanged.retryKept {s s' : Schedule} (h : Unchanged s s') : RetryKept s s' :=
  ⟨h.retryPending, h.retryGeneration, h.retryIndex, h.retryDayKey, h.nextRetryMs⟩

theorem expireStage_retryKept (options : Options) (s : Schedule) (now : U32) :
    RetryKept s (s.expireStage options now) :=
  (expireStage_unchanged options s now).retryKept

theorem sample_none_retryKept (options : Options) (s : Schedule) (now : U32) :
    RetryKept s (s.sample options now none).2 := by
  have hexpire := expireStage_retryKept options s now
  simp only [Schedule.sample]
  split
  · exact ⟨hexpire.1, hexpire.2, hexpire.3, hexpire.4, hexpire.5⟩
  · exact ⟨hexpire.1, hexpire.2, hexpire.3, hexpire.4, hexpire.5⟩

theorem RetryKept.trans {s mid s' : Schedule} (h : RetryKept s mid) (h' : RetryKept mid s') :
    RetryKept s s' :=
  ⟨h'.1.trans h.1, h'.2.trans h.2, h'.3.trans h.3, h'.4.trans h.4, h'.5.trans h.5⟩

/-- A sample of a clock that goes on changes nothing but the clock. -/
theorem sampleClock_of_continuous {s : Schedule} {now : U32} {epoch : ℤ}
    (h : (s.sampleClock now epoch).1 = true) :
    (s.sampleClock now epoch).2 =
      { s with
        lastClockValid := true
        lastWallEpoch := epoch
        lastSampleMs := now } := by
  have hcontinuous : (s.lastClockValid &&
      clockIsContinuous s.lastWallEpoch epoch s.lastSampleMs now) = true := h
  have hvalid := (Bool.and_eq_true_iff.1 hcontinuous).1
  rw [Schedule.sampleClock, hcontinuous, hvalid]
  rfl

theorem sample_continuous_retryKept (options : Options) (s : Schedule) (now : U32) (epoch : ℤ)
    (h : (s.sample options now (some epoch)).1.continuous = true) :
    RetryKept s (s.sample options now (some epoch)).2 := by
  have hclock : RetryKept (s.expireStage options now)
      ((s.expireStage options now).sampleClock now epoch).2 := by
    rw [sampleClock_of_continuous h]
    constructor <;> rfl
  have hboth := (expireStage_retryKept options s now).trans hclock
  simp only [Schedule.sample]
  split
  · exact ⟨hboth.1, hboth.2, hboth.3, hboth.4, hboth.5⟩
  · exact hboth

/-- The deadline 0 is reached in the first half of the range of the uptime. -/
theorem deadlineReached_zero {now : U32} (h : now.toNat < 2 ^ 31) :
    deadlineReached now 0 = true := by
  rw [deadlineReached, decide_eq_true_eq, show (0 : U32) = 0#32 from rfl, BitVec.sub_zero,
    BitVec.toInt_eq_toNat_of_lt]
  · exact Int.natCast_nonneg _
  · omega

/-! ## The window of a retry -/

section Window

variable (options : Options) (localtime : ℤ → Option Tm) (index : BitVec 8) (dayKey : U32)

/-- The retry of the point is not over: no commit, no jump of the clock, and no scheduled
success of the point. -/
def Machine.NotYetOver (m : Machine) : Input → Prop
  | .call c => committedIn (m.schedule.call options c).2.2 = []
  | .tick now time => m.task.Idle → clockSnapshot localtime time ≠ none →
      (m.schedule.sample options now (some time)).1.continuous = true
  | .run _ => ∀ b error, m.task.phase = .record b error → b.catchUp = false →
      b.index = index → error ≠ .ok

/-- The scheduled results are for the point and the day of the retry, and a catch-up leaves
a deadline that is reached. -/
def Machine.OnlyRetried (m : Machine) : Input → Prop
  | .run _ =>
      (∀ b error, m.task.phase = .record b error →
        (b.catchUp = false → b.index = index ∧ b.dayKey = dayKey) ∧
        (b.catchUp = true → error = .ok ∧ m.task.now.toNat < 2 ^ 31)) ∧
      (m.task.phase = .ready → m.task.jobs.head? = some .dropCatchUp →
        m.task.now.toNat < 2 ^ 31)
  | _ => True

/-- A condition on the result that the task is about to record. -/
instance {phase : Phase} {P : Application → EspErr → Prop}
    [∀ b error, Decidable (P b error)] :
    Decidable (∀ b error, phase = .record b error → P b error) :=
  match phase with
  | .record b error =>
      decidable_of_iff (P b error)
        ⟨fun h _ _ heq => by cases heq; exact h, fun h => h b error rfl⟩
  | .ready => isTrue fun _ _ heq => Phase.noConfusion heq
  | .apply _ => isTrue fun _ _ heq => Phase.noConfusion heq
  | .mark _ => isTrue fun _ _ heq => Phase.noConfusion heq

instance (m : Machine) (input : Input) :
    Decidable (m.NotYetOver options localtime index input) :=
  match input with
  | .call _ => inferInstanceAs (Decidable (_ = []))
  | .tick _ _ => inferInstanceAs (Decidable (_ → _ ≠ none → _ = true))
  | .run _ => inferInstanceAs (Decidable (∀ b error, _ = Phase.record b error → _))

instance (m : Machine) (input : Input) : Decidable (m.OnlyRetried index dayKey input) :=
  match input with
  | .call _ => inferInstanceAs (Decidable True)
  | .tick _ _ => inferInstanceAs (Decidable True)
  | .run _ =>
      inferInstanceAs (Decidable ((∀ b error, _ = Phase.record b error → _) ∧ (_ → _ → _ < _)))

/-- The retry record is set for the point and the day. -/
def Schedule.RetryFor (s : Schedule) (generation : U32) : Prop :=
  s.retryPending = true ∧ s.retryGeneration = generation ∧ s.retryIndex = index ∧
    s.retryDayKey = dayKey

instance (s : Schedule) (generation : U32) :
    Decidable (s.RetryFor index dayKey generation) :=
  inferInstanceAs (Decidable (_ ∧ _))

/-- A scheduled callback for the point and the day. -/
def Applied.Attempts (c : Applied) : Prop :=
  c.application.index = index ∧ c.application.catchUp = false ∧ c.application.dayKey = dayKey

/-- The machine while the retry is pending. -/
structure Machine.Retrying (config : Config) (m : Machine) : Prop where
  retryFor : m.schedule.RetryFor index dayKey config.generation
  active : m.schedule.config = config
  copy : ¬m.task.Idle → m.task.config = config

end Window

section Steps

variable {options : Options} {localtime : ℤ → Option Tm} {index : BitVec 8} {dayKey : U32}
  {config : Config} {m : Machine}

theorem RetryKept.retryFor {s s' : Schedule} (h : RetryKept s s') {generation : U32}
    (hretry : s.RetryFor index dayKey generation) : s'.RetryFor index dayKey generation :=
  ⟨h.retryPending.trans hretry.1, h.retryGeneration.trans hretry.2.1,
    h.retryIndex.trans hretry.2.2.1, h.retryDayKey.trans hretry.2.2.2⟩

/-- What the sections of a task other than a scheduled result do to the retry record. -/
theorem Machine.Retrying.startJob (h : m.Retrying index dayKey config) {job : Job}
    {jobs : List Job} (hjobs : m.task.jobs = job :: jobs) :
    (m.startJob job jobs).Retrying index dayKey config := by
  have hbusy : ¬m.task.Idle := fun hidle => nomatch hidle.1.symm.trans hjobs
  have hcopy := h.copy hbusy
  cases job with
  | catchUp a => exact ⟨h.retryFor, h.active, fun _ => hcopy⟩
  | dropCatchUp =>
      refine ⟨?_, (dropCatchUp_config _ _).trans h.active, fun _ => hcopy⟩
      simp only [Machine.startJob, Schedule.dropCatchUp]
      split
      · exact h.retryFor
      · exact h.retryFor
  | pendingRetry =>
      rw [Machine.startJob]
      split
      · exact ⟨h.retryFor, h.active, fun _ => hcopy⟩
      · exact ⟨h.retryFor, h.active, fun _ => hcopy⟩
  | scheduled a =>
      rw [Machine.startJob]
      split
      · exact ⟨h.retryFor, h.active, fun _ => hcopy⟩
      · exact ⟨h.retryFor, h.active, fun _ => hcopy⟩

theorem Machine.Retrying.record (h : m.Retrying index dayKey config) {b : Application}
    {error : EspErr} (hphase : m.task.phase = .record b error)
    (hover : b.catchUp = false → b.index = index → error ≠ .ok)
    (hsame : b.catchUp = false → b.index = index ∧ b.dayKey = dayKey) :
    (m.record b error).Retrying index dayKey config := by
  have hbusy : ¬m.task.Idle := fun hidle => nomatch hidle.2.symm.trans hphase
  have hcopy := h.copy hbusy
  have hgeneration : m.schedule.config.generation = m.task.config.generation := by
    rw [h.active, hcopy]
  refine ⟨?_, (recordApplyResult_config _ _ _ _ _ _ _).trans h.active, fun _ => hcopy⟩
  rw [Machine.record]
  cases hkind : b.catchUp with
  | true =>
      by_cases hok : error = .ok
      · subst hok
        rw [recordApplyResult_catchUp_ok hgeneration]
        exact h.retryFor
      · rw [recordApplyResult_catchUp_failed hgeneration hok]
        exact ⟨h.retryFor.1, h.retryFor.2.1, h.retryFor.2.2.1, h.retryFor.2.2.2⟩
  | false =>
      obtain ⟨hindex, hkey⟩ := hsame hkind
      rw [recordApplyResult_failed hgeneration (hover hkind hindex)]
      exact ⟨rfl, congrArg Config.generation hcopy, hindex, hkey⟩

theorem Machine.Retrying.step (h : m.Retrying index dayKey config) {input : Input}
    (hover : m.NotYetOver options localtime index input)
    (honly : m.OnlyRetried index dayKey input) :
    (m.step options localtime input).Retrying index dayKey config := by
  cases input with
  | call c =>
      rcases call_cases options m.schedule c with ⟨hsame, -⟩ | ⟨other, -, -, hcommit⟩
      · exact ⟨hsame.retryKept.retryFor h.retryFor, hsame.config.trans h.active, h.copy⟩
      · cases hover.symm.trans hcommit
  | tick now time =>
      rw [Machine.step]
      split
      · next hidle =>
          rw [Machine.tick]
          cases hclock : clockSnapshot localtime time with
          | none =>
              refine ⟨(sample_none_retryKept options m.schedule now).retryFor h.retryFor,
                (sample_config options m.schedule now none).2.trans h.active, h.copy⟩
          | some tm =>
              have hcontinuous := hover hidle (by rw [hclock]; exact Option.some_ne_none _)
              have hconfig := sample_config options m.schedule now (some time)
              exact ⟨(sample_continuous_retryKept options m.schedule now time
                hcontinuous).retryFor h.retryFor, hconfig.2.trans h.active,
                fun _ => hconfig.1.trans h.active⟩
      · exact h
  | run error =>
      rw [Machine.step, Machine.advance]
      cases hphase : m.task.phase with
      | apply b =>
          have hbusy : ¬m.task.Idle := fun hidle => Phase.noConfusion (hidle.2.symm.trans hphase)
          exact ⟨h.retryFor, h.active, fun _ => h.copy hbusy⟩
      | record b error =>
          exact h.record hphase (hover b error hphase) (honly.1 b error hphase).1
      | mark b =>
          have hbusy : ¬m.task.Idle := fun hidle => Phase.noConfusion (hidle.2.symm.trans hphase)
          refine ⟨?_, (markRun_config _ _ _ _).trans h.active, fun _ => h.copy hbusy⟩
          simp only [Machine.markStep, Schedule.markRun]
          split
          · exact h.retryFor
          · exact h.retryFor
      | ready =>
          cases hjobs : m.task.jobs with
          | nil => exact h
          | cons job jobs => exact h.startJob hjobs

end Steps

/-! ## The attempts of a tick -/

/-- A job calls no callback when it starts. -/
theorem startJob_applied (m : Machine) (job : Job) (jobs : List Job) :
    (m.startJob job jobs).applied = m.applied := by
  cases job with
  | catchUp a => rfl
  | dropCatchUp => rfl
  | pendingRetry =>
      rw [Machine.startJob]
      split
      · rfl
      · rfl
  | scheduled a =>
      rw [Machine.startJob]
      split
      · rfl
      · rfl

/-- A job of the catch-up. -/
def Job.IsCatchUp (job : Job) : Prop :=
  job = .dropCatchUp ∨ ∃ a, job = .catchUp a ∧ a.catchUp = true

/-- The callback has been called since `old`, or it is about to be, or the task is at the
catch-up and will find the deadline of the retry reached. -/
def Machine.Attempting (index : BitVec 8) (dayKey : U32) (old : List Applied) (m : Machine) :
    Prop :=
  ∃ newer, m.applied = newer ++ old ∧
    ((∃ c ∈ newer, c.Attempts index dayKey) ∨
      (∃ a, m.task.phase = .apply a ∧ a.index = index ∧ a.catchUp = false ∧
        a.dayKey = dayKey) ∨
      (deadlineReached m.task.now m.schedule.nextRetryMs = true ∧
        (∀ a, m.task.phase.Applying a → a.catchUp = true) ∧
        ∃ before after, m.task.jobs = before ++ .pendingRetry :: after ∧
          ∀ job ∈ before, job.IsCatchUp))

section Attempts

variable {options : Options} {localtime : ℤ → Option Tm} {index : BitVec 8} {dayKey : U32}
  {config : Config} {m : Machine} {old : List Applied}

/-- A step that leaves the task alone. -/
theorem Machine.Attempting.of_task_eq (h : m.Attempting index dayKey old) {m' : Machine}
    (happlied : m'.applied = m.applied) (htask : m'.task = m.task)
    (hnext : m'.schedule.nextRetryMs = m.schedule.nextRetryMs) :
    m'.Attempting index dayKey old := by
  rw [Machine.Attempting, happlied, htask, hnext]
  exact h

theorem Machine.Attempting.startJob (h : m.Attempting index dayKey old)
    (hretrying : m.Retrying index dayKey config) (hindex : index < config.count)
    (hready : m.task.phase = .ready) {job : Job} {jobs : List Job}
    (hjobs : m.task.jobs = job :: jobs)
    (hdrop : job = .dropCatchUp → m.task.now.toNat < 2 ^ 31) :
    (m.startJob job jobs).Attempting index dayKey old := by
  have hbusy : ¬m.task.Idle := fun hidle => nomatch hidle.1.symm.trans hjobs
  have hcopy := hretrying.copy hbusy
  obtain ⟨newer, happlied, hcase⟩ := h
  refine ⟨newer, (startJob_applied m job jobs).trans happlied, ?_⟩
  rcases hcase with hdone | ⟨a, hphase, -⟩ | ⟨hdeadline, -, before, after, hsplit, hcatchUps⟩
  · exact Or.inl hdone
  · exact nomatch hready.symm.trans hphase
  · right
    rw [hjobs] at hsplit
    cases before with
    | nil =>
        -- It is the turn of the retry, and nothing holds it back.
        obtain ⟨rfl, rfl⟩ : job = .pendingRetry ∧ jobs = after := List.cons.inj hsplit
        obtain ⟨hpending, hgeneration, hretryIndex, hkey⟩ := hretrying.retryFor
        have hretries : m.schedule.retries m.task.config m.task.now = true := by
          rw [Schedule.retries, hpending, hgeneration, hcopy, hretryIndex, hdeadline]
          simp [hindex]
        left
        refine ⟨m.retryApplication, ?_, hretryIndex, rfl, hkey⟩
        rw [Machine.startJob, if_pos hretries]
    | cons first before =>
        obtain ⟨rfl, hrest⟩ : job = first ∧ jobs = before ++ .pendingRetry :: after :=
          List.cons.inj hsplit
        right
        have hbefore : ∀ job ∈ before, job.IsCatchUp := fun job hjob =>
          hcatchUps job (List.mem_cons_of_mem _ hjob)
        rcases hcatchUps job List.mem_cons_self with rfl | ⟨a, rfl, hkind⟩
        · refine ⟨?_, ?_, before, after, hrest, hbefore⟩
          · simp only [Machine.startJob, Schedule.dropCatchUp]
            split
            · exact deadlineReached_zero (hdrop rfl)
            · exact hdeadline
          · rintro a (ha | ⟨error, ha⟩)
            · exact Phase.noConfusion ha
            · exact Phase.noConfusion ha
        · refine ⟨hdeadline, ?_, before, after, hrest, hbefore⟩
          rintro b (hb | ⟨error, hb⟩)
          · cases hb
            exact hkind
          · exact Phase.noConfusion hb

theorem Machine.Attempting.step (h : m.Attempting index dayKey old)
    (hretrying : m.Retrying index dayKey config) (hindex : index < config.count)
    {input : Input} (hover : m.NotYetOver options localtime index input)
    (honly : m.OnlyRetried index dayKey input) :
    (m.step options localtime input).Attempting index dayKey old := by
  cases input with
  | call c =>
      rcases call_cases options m.schedule c with ⟨hsame, -⟩ | ⟨other, -, -, hcommit⟩
      · exact h.of_task_eq rfl rfl hsame.nextRetryMs
      · cases hover.symm.trans hcommit
  | tick now time =>
      rw [Machine.step]
      split
      · next hidle =>
          -- Between two ticks, the attempt has been made.
          obtain ⟨newer, happlied, hdone | ⟨a, hphase, -⟩ | ⟨-, -, before, after, hjobs, -⟩⟩ := h
          · refine ⟨newer, ?_, Or.inl hdone⟩
            rw [Machine.tick]
            split
            · exact happlied
            · exact happlied
          · exact Phase.noConfusion (hidle.2.symm.trans hphase)
          · have hnil := hidle.1.symm.trans hjobs
            exact absurd hnil.symm (by simp)
      · exact h
  | run error =>
      rw [Machine.step, Machine.advance]
      cases hphase : m.task.phase with
      | apply a =>
          obtain ⟨newer, happlied, hcase⟩ := h
          let returned : Applied :=
            { config := m.task.config
              version := m.task.version
              application := a
              error := error }
          refine ⟨returned :: newer, congrArg (returned :: ·) happlied, ?_⟩
          rcases hcase with ⟨c, hc, hattempts⟩ | ⟨b, hb, hattempts⟩ | ⟨hdeadline, hkind, hjobs⟩
          · exact Or.inl ⟨c, List.mem_cons_of_mem _ hc, hattempts⟩
          · have hab := hphase.symm.trans hb
            cases hab
            exact Or.inl ⟨returned, List.mem_cons_self, hattempts⟩
          · refine Or.inr (Or.inr ⟨hdeadline, ?_, hjobs⟩)
            rintro b (hb | ⟨other, hb⟩)
            · exact Phase.noConfusion hb
            · cases hb
              exact hkind a (Or.inl hphase)
      | record b error =>
          obtain ⟨newer, happlied, hcase⟩ := h
          refine ⟨newer, happlied, ?_⟩
          rcases hcase with hdone | ⟨a, ha, -⟩ | ⟨hdeadline, hkind, hjobs⟩
          · exact Or.inl hdone
          · exact Phase.noConfusion (hphase.symm.trans ha)
          · have hcatchUp := hkind b (Or.inr ⟨error, hphase⟩)
            obtain ⟨hok, hnow⟩ := (honly.1 b error hphase).2 hcatchUp
            subst hok
            refine Or.inr (Or.inr ⟨?_, ?_, hjobs⟩)
            · simp only [Machine.record, hcatchUp]
              by_cases hgeneration :
                  m.schedule.config.generation = m.task.config.generation
              · rw [recordApplyResult_catchUp_ok hgeneration]
                exact deadlineReached_zero hnow
              · rw [recordApplyResult_of_ne hgeneration]
                exact hdeadline
            · rintro a (ha | ⟨other, ha⟩)
              · simp only [Machine.record] at ha
                split at ha
                · exact Phase.noConfusion ha
                · exact Phase.noConfusion ha
              · simp only [Machine.record] at ha
                split at ha
                · exact Phase.noConfusion ha
                · exact Phase.noConfusion ha
      | mark b =>
          obtain ⟨newer, happlied, hcase⟩ := h
          refine ⟨newer, happlied, ?_⟩
          rcases hcase with hdone | ⟨a, ha, -⟩ | ⟨hdeadline, hkind, hjobs⟩
          · exact Or.inl hdone
          · exact Phase.noConfusion (hphase.symm.trans ha)
          · refine Or.inr (Or.inr ⟨?_, ?_, hjobs⟩)
            · simp only [Machine.markStep, Schedule.markRun]
              split
              · exact hdeadline
              · exact hdeadline
            · rintro a (ha | ⟨other, ha⟩)
              · exact Phase.noConfusion ha
              · exact Phase.noConfusion ha
      | ready =>
          cases hjobs : m.task.jobs with
          | nil => exact h
          | cons job jobs =>
              refine h.startJob hretrying hindex hphase hjobs fun hdrop => ?_
              exact honly.2 hphase (by rw [hjobs, hdrop, List.head?_cons])

end Attempts

/-! ## The points that the task works with -/

/-- Every scheduled point is one of the copy, which is enabled. -/
structure Machine.Working (m : Machine) : Prop where
  jobs : ∀ b, Job.scheduled b ∈ m.task.jobs → b.index < m.task.config.count
  applying : ∀ b, m.task.phase.Applying b → b.catchUp = false → b.index < m.task.config.count
  enabled : ¬m.task.Idle → m.task.config.enabled = true
  catchUpJobs : ∀ b, Job.catchUp b ∈ m.task.jobs → b.catchUp = true

theorem start_working (loaded : Config) : (Machine.start loaded).Working := by
  constructor
  · intro b hb
    exact absurd hb List.not_mem_nil
  · rintro b (hb | ⟨error, hb⟩)
    · exact Phase.noConfusion hb
    · exact Phase.noConfusion hb
  · intro hbusy
    exact absurd ⟨rfl, rfl⟩ hbusy
  · intro b hb
    exact absurd hb List.not_mem_nil

theorem tickJobs_of_not_enabled {options : Options} {localtime : ℤ → Option Tm}
    {sample : Sample} {tm : Tm} {epoch : ℤ} (hnot : ¬sample.config.enabled = true) :
    tickJobs options localtime sample tm epoch = [] := by
  rw [tickJobs, Bool.eq_false_iff.2 hnot]
  rfl

section Working

variable {options : Options} {localtime : ℤ → Option Tm} {m : Machine}

theorem Machine.Working.tick (h : m.Working) (now : U32) (time : ℤ) :
    (m.tick options localtime now time).Working := by
  rw [Machine.tick]
  cases hclock : clockSnapshot localtime time with
  | none => exact ⟨h.jobs, h.applying, h.enabled, h.catchUpJobs⟩
  | some tm =>
      have hlocal := clockSnapshot_eq_some hclock
      constructor
      · intro b hb
        obtain ⟨e, -, tm', i, -, hdue, rfl⟩ := scheduled_mem_tickJobs hlocal hb
        have hcount := (m.schedule.sample options now (some time)).1.config.count.isLt
        rw [BitVec.lt_def, dueApplication, BitVec.toNat_ofNat,
          Nat.mod_eq_of_lt (Nat.lt_trans hdue.1 hcount)]
        exact hdue.1
      · rintro b (hb | ⟨error, hb⟩)
        · exact Phase.noConfusion hb
        · exact Phase.noConfusion hb
      · intro hbusy
        by_contra hnot
        exact hbusy ⟨tickJobs_of_not_enabled hnot, rfl⟩
      · intro b hb
        obtain ⟨heq, -⟩ := catchUp_mem_tickJobs hlocal hb
        rw [heq]

theorem Machine.Working.startJob (h : m.Working) {job : Job} {jobs : List Job}
    (hjobs : m.task.jobs = job :: jobs) : (m.startJob job jobs).Working := by
  have hbusy : ¬m.task.Idle := fun hidle => nomatch hidle.1.symm.trans hjobs
  have henabled := h.enabled hbusy
  have hmem : ∀ b ∈ jobs, b ∈ m.task.jobs := by
    intro b hb
    rw [hjobs]
    exact List.mem_cons_of_mem _ hb
  have hhead : job ∈ m.task.jobs := by
    rw [hjobs]
    exact List.mem_cons_self
  -- The rest of the jobs is as good as before, so only the next phase matters.
  have hready : ∀ s : Schedule, Machine.Working
      { m with
        schedule := s
        task := { m.task with jobs := jobs, phase := .ready } } := by
    intro s
    refine ⟨fun b hb => h.jobs b (hmem _ hb), ?_, fun _ => henabled,
      fun b hb => h.catchUpJobs b (hmem _ hb)⟩
    rintro b (hb | ⟨error, hb⟩)
    · exact Phase.noConfusion hb
    · exact Phase.noConfusion hb
  have hentering : ∀ a : Application, (a.catchUp = false → a.index < m.task.config.count) →
      Machine.Working { m with task := { m.task with jobs := jobs, phase := .apply a } } := by
    intro a ha
    refine ⟨fun b hb => h.jobs b (hmem _ hb), ?_, fun _ => henabled,
      fun b hb => h.catchUpJobs b (hmem _ hb)⟩
    rintro b (hb | ⟨error, hb⟩) hkind
    · cases hb
      exact ha hkind
    · exact Phase.noConfusion hb
  cases job with
  | catchUp a =>
      apply hentering
      intro hkind
      exact absurd ((h.catchUpJobs a hhead).symm.trans hkind) (by decide)
  | dropCatchUp => exact hready _
  | pendingRetry =>
      rw [Machine.startJob]
      split
      · next hretries =>
          apply hentering
          intro _
          rw [Schedule.retries, Bool.and_eq_true, Bool.and_eq_true] at hretries
          exact of_decide_eq_true hretries.1.2
      · exact hready _
  | scheduled a =>
      rw [Machine.startJob]
      split
      · exact hentering a fun _ => h.jobs a hhead
      · exact hready _

theorem Machine.Working.step (h : m.Working) (input : Input) :
    (m.step options localtime input).Working := by
  cases input with
  | call c => exact ⟨h.jobs, h.applying, h.enabled, h.catchUpJobs⟩
  | tick now time =>
      rw [Machine.step]
      split
      · exact h.tick now time
      · exact h
  | run error =>
      rw [Machine.step, Machine.advance]
      cases hphase : m.task.phase with
      | apply a =>
          have hbusy : ¬m.task.Idle := fun hidle => Phase.noConfusion (hidle.2.symm.trans hphase)
          refine ⟨h.jobs, ?_, fun _ => h.enabled hbusy, h.catchUpJobs⟩
          rintro b (hb | ⟨other, hb⟩) hkind
          · exact Phase.noConfusion hb
          · cases hb
            exact h.applying a (Or.inl hphase) hkind
      | record a error =>
          have hbusy : ¬m.task.Idle := fun hidle => Phase.noConfusion (hidle.2.symm.trans hphase)
          refine ⟨h.jobs, ?_, fun _ => h.enabled hbusy, h.catchUpJobs⟩
          rintro b (hb | ⟨other, hb⟩)
          · simp only [Machine.record] at hb
            split at hb
            · exact Phase.noConfusion hb
            · exact Phase.noConfusion hb
          · simp only [Machine.record] at hb
            split at hb
            · exact Phase.noConfusion hb
            · exact Phase.noConfusion hb
      | mark a =>
          have hbusy : ¬m.task.Idle := fun hidle => Phase.noConfusion (hidle.2.symm.trans hphase)
          refine ⟨h.jobs, ?_, fun _ => h.enabled hbusy, h.catchUpJobs⟩
          rintro b (hb | ⟨other, hb⟩)
          · exact Phase.noConfusion hb
          · exact Phase.noConfusion hb
      | ready =>
          cases hjobs : m.task.jobs with
          | nil => exact h
          | cons job jobs => exact h.startJob hjobs

end Working

theorem runFrom_working (options : Options) (localtime : ℤ → Option Tm) (loaded : Config)
    (inputs : List Input) : (Machine.runFrom options localtime loaded inputs).Working := by
  rw [Machine.runFrom, Trace.run]
  apply List.foldlRecOn (motive := Machine.Working) _ _ (start_working loaded)
  intro m hm input _
  exact hm.step input

/-! ## The run -/

/-- A tick whose start finds the deadline of the retry reached will attempt it. -/
theorem Machine.Retrying.tick_attempting {options : Options} {localtime : ℤ → Option Tm}
    {index : BitVec 8} {dayKey : U32} {config : Config} {m : Machine}
    (h : m.Retrying index dayKey config) (henabled : config.enabled = true) {now : U32}
    {time : ℤ} {tm : Tm} (hclock : clockSnapshot localtime time = some tm)
    (hcontinuous : (m.schedule.sample options now (some time)).1.continuous = true)
    (hdeadline : deadlineReached now m.schedule.nextRetryMs = true) :
    (m.tick options localtime now time).Attempting index dayKey m.applied := by
  have hlocal := clockSnapshot_eq_some hclock
  have hconfig := (sample_config options m.schedule now (some time)).1.trans h.active
  have hkept := sample_continuous_retryKept options m.schedule now time hcontinuous
  rw [Machine.tick, hclock]
  refine ⟨[], rfl, Or.inr (Or.inr ⟨?_, ?_, ?_⟩)⟩
  · exact (congrArg (deadlineReached now) hkept.nextRetryMs).trans hdeadline
  · rintro a (ha | ⟨error, ha⟩)
    · exact Phase.noConfusion ha
    · exact Phase.noConfusion ha
  · refine ⟨_, _, tickJobs_eq (by rw [hconfig]; exact henabled) hlocal, ?_⟩
    intro job hjob
    rw [firstJobs] at hjob
    split at hjob
    · rw [List.mem_singleton, catchUpJob] at hjob
      split at hjob
      · exact Or.inr ⟨_, hjob, rfl⟩
      · exact Or.inl hjob
    · exact absurd hjob List.not_mem_nil

/-- While the retry of a failed point is not over and only its own results are recorded, its
record stays set, and every tick that finds the deadline reached calls the callback again. -/
theorem retry_remains (options : Options) (localtime : ℤ → Option Tm) (loaded : Config)
    {before window : List Input} {a : Application} {error : EspErr}
    (hphase : (Machine.runFrom options localtime loaded before).task.phase = .record a error)
    (hkind : a.catchUp = false) (hfailed : error ≠ .ok)
    (hown : (Machine.runFrom options localtime loaded before).OwnsConfig)
    (hwindow : Trace.Always (Machine.step options localtime)
      (fun m input => m.NotYetOver options localtime a.index input ∧
        m.OnlyRetried a.index a.dayKey input)
      ((Machine.runFrom options localtime loaded before).advance error) window) :
    (Trace.run (Machine.step options localtime)
      ((Machine.runFrom options localtime loaded before).advance error)
      window).schedule.RetryFor a.index a.dayKey
        (Machine.runFrom options localtime loaded before).schedule.config.generation ∧
    ∀ earlier now time later, window = earlier ++ .tick now time :: later →
      ∀ m, m = Trace.run (Machine.step options localtime)
        ((Machine.runFrom options localtime loaded before).advance error) earlier →
      m.task.Idle → clockSnapshot localtime time ≠ none →
      deadlineReached now m.schedule.nextRetryMs = true →
      ∀ m', m' = Trace.run (Machine.step options localtime) m (.tick now time :: later) →
      m'.task.Idle →
      ∃ newer, m'.applied = newer ++ m.applied ∧
        ∃ c ∈ newer, c.Attempts a.index a.dayKey := by
  generalize hm₀ : Machine.runFrom options localtime loaded before = m₀ at *
  have hworking : m₀.Working := by
    rw [← hm₀]
    exact runFrom_working options localtime loaded before
  have hbusy : ¬m₀.task.Idle := fun hidle => Phase.noConfusion (hidle.2.symm.trans hphase)
  have hindex : a.index < m₀.schedule.config.count := by
    rw [← hown.2]
    exact hworking.applying a (Or.inr ⟨error, hphase⟩) hkind
  have henabled : m₀.schedule.config.enabled = true := by
    rw [← hown.2]
    exact hworking.enabled hbusy
  have hgeneration : m₀.schedule.config.generation = m₀.task.config.generation := by
    rw [hown.2]
  have hstart : (m₀.advance error).Retrying a.index a.dayKey m₀.schedule.config := by
    rw [Machine.advance_record hphase]
    refine ⟨?_, recordApplyResult_config _ _ _ _ _ _ _, fun _ => hown.2⟩
    rw [Machine.record, hkind, recordApplyResult_failed hgeneration hfailed]
    exact ⟨rfl, hgeneration.symm, rfl, rfl⟩
  have hretrying : ∀ inputs, Trace.Always (Machine.step options localtime)
      (fun m input => m.NotYetOver options localtime a.index input ∧
        m.OnlyRetried a.index a.dayKey input) (m₀.advance error) inputs →
      (Trace.run (Machine.step options localtime) (m₀.advance error) inputs).Retrying
        a.index a.dayKey m₀.schedule.config := by
    intro inputs hinputs
    exact hinputs.invariant _ hstart fun m input hm hinput => hm.step hinput.1 hinput.2
  refine ⟨(hretrying window hwindow).retryFor, ?_⟩
  rintro earlier now time later rfl m rfl hidle hvalid hdeadline m' rfl hidle'
  obtain ⟨hearlier, htick⟩ := Trace.always_append.1 hwindow
  have hpending := hretrying earlier hearlier
  obtain ⟨tm, hclock⟩ := Option.ne_none_iff_exists'.1 hvalid
  have hcontinuous := htick.1.1 hidle hvalid
  have hattempting := hpending.tick_attempting henabled hclock hcontinuous hdeadline
  have hstep : (Trace.run (Machine.step options localtime) (m₀.advance error) earlier).step
      options localtime (.tick now time) =
      (Trace.run (Machine.step options localtime) (m₀.advance error) earlier).tick options
        localtime now time := if_pos hidle
  rw [← hstep] at hattempting
  -- Both facts together are kept by the rest of the run.
  have hboth := htick.2.invariant
    (fun m => m.Retrying a.index a.dayKey m₀.schedule.config ∧
      m.Attempting a.index a.dayKey (Trace.run (Machine.step options localtime)
        (m₀.advance error) earlier).applied)
    ⟨hpending.step htick.1.1 htick.1.2, hattempting⟩
    fun m input hm hinput =>
      ⟨hm.1.step hinput.1 hinput.2, hm.2.step hm.1 hindex hinput.1 hinput.2⟩
  rw [Trace.run_cons] at hidle' ⊢
  obtain ⟨newer, happlied, hdone | ⟨b, hb, -⟩ | ⟨-, -, first, rest, hjobs, -⟩⟩ := hboth.2
  · exact ⟨newer, happlied, hdone⟩
  · exact Phase.noConfusion (hidle'.2.symm.trans hb)
  · have hnil := hidle'.1.symm.trans hjobs
    exact absurd hnil.symm (by simp)

/-! ## Two points a minute apart -/

theorem one_lt_maxPoints : 1 < maxPoints := by decide

/-- Every day at ten o'clock, and a minute later. -/
def twoPoints : Config where
  generation := 7
  enabled := true
  persistenceEnabled := false
  count := 2
  points := (Vector.replicate maxPoints (dailyPoint 600 1)).set 1 (dailyPoint 601 0)
    one_lt_maxPoints

/-- The point of ten o'clock has failed at 10:00:58. -/
def failedRun : List Input :=
  [.tick 70000 (tenOClock - 30), .run .ok, .run .ok, .run .ok, .run .ok,
    .tick 158000 (tenOClock + 58), .run .ok, .run .ok, .run .fail]

def failedMachine : Machine :=
  .runFrom anyAction (fixedOffset 0) twoPoints failedRun

def failedApplication : Application where
  index := 0
  catchUp := false
  dayKey := dayKey (localDay 0 tenOClock)
  epoch := tenOClock
  mark := false

/-- At 10:01:01 the other point succeeds. -/
def otherPointRun : List Input :=
  [.run .ok, .tick 161000 (tenOClock + 61), .run .ok, .run .ok, .run .ok, .run .ok]

/-- The retry of the failed point is not over, but its record has been cleared. -/
theorem retry_cleared_by_other_point :
    failedMachine.task.phase = .record failedApplication .fail ∧
      (failedMachine.advance .fail).schedule.RetryFor 0 (dayKey (localDay 0 tenOClock)) 7 ∧
      Trace.Always (Machine.step anyAction (fixedOffset 0))
        (Machine.NotYetOver anyAction (fixedOffset 0) 0) (failedMachine.advance .fail)
        otherPointRun ∧
      ¬(Trace.run (Machine.step anyAction (fixedOffset 0)) (failedMachine.advance .fail)
        otherPointRun).schedule.RetryFor 0 (dayKey (localDay 0 tenOClock)) 7 := by
  decide +kernel

/-- With one point only, its retry stays pending after it has failed again. -/
theorem retry_remains_failedRun :
    (Trace.run (Machine.step anyAction (fixedOffset 0))
      ((Machine.runFrom anyAction (fixedOffset 0) (onePoint 7 (dailyPoint 600 1))
        failedRun).advance .fail)
      [.run .ok, .tick 164000 (tenOClock + 64), .run .ok, .run .fail, .run .ok]
      ).schedule.RetryFor 0 (dayKey (localDay 0 tenOClock)) 7 := by
  have hphase : (Machine.runFrom anyAction (fixedOffset 0) (onePoint 7 (dailyPoint 600 1))
      failedRun).task.phase = .record failedApplication .fail := by decide +kernel
  have hgeneration : (Machine.runFrom anyAction (fixedOffset 0)
      (onePoint 7 (dailyPoint 600 1)) failedRun).schedule.config.generation = 7 := by
    decide +kernel
  have hremains := retry_remains anyAction (fixedOffset 0) (onePoint 7 (dailyPoint 600 1))
    hphase rfl (by decide) (by decide +kernel)
    (show Trace.Always _ _ _
      [.run .ok, .tick 164000 (tenOClock + 64), .run .ok, .run .fail, .run .ok] from by
      decide +kernel)
  rw [hgeneration] at hremains
  exact hremains.1

end KeemashCore.WeeklySchedule

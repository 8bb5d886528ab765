import KeemashCore.Trace.Basic
import KeemashCore.WeeklySchedule.Points
import KeemashCore.WeeklySchedule.Staging

/-!
# The task

`schedule_task` takes a copy of the configuration at the start of a tick and works through
the jobs of the tick with it: the catch-up, the pending retry, the minutes that were crossed
and the current minute.  It holds the lock only in short sections, and the callback runs
without the lock, so calls of other tasks come between any two of its steps.

Here a tick lists its jobs, and a step of the machine is one section of the task, one
callback or one call.  `localtime` stands for `localtime_r`.
-/

namespace KeemashCore.WeeklySchedule

/-! ## The clock -/

/-- The fields of `struct tm` that are read. -/
structure Tm where
  min : ℤ
  hour : ℤ
  wday : ℤ
  year : ℤ
  yday : ℤ
  deriving DecidableEq

/-- `weekday_index`. -/
def weekdayIndex (tm : Tm) : BitVec 8 :=
  BitVec.ofInt 8 (Int.tmod (tm.wday + 6) 7)

/-- The minute of the day. -/
def localMinute (tm : Tm) : BitVec 16 :=
  BitVec.ofInt 16 (tm.hour * 60 + tm.min)

/-- `local_day_key`. -/
def localDayKey (tm : Tm) : U32 :=
  (BitVec.ofInt 32 (tm.year + 1900) <<< 9) ||| BitVec.ofInt 32 tm.yday

/-- `SCHEDULE_VALID_EPOCH`. -/
def validEpoch : ℤ := 1577836800

/-- `clock_snapshot`; `time` is what `time` returns. -/
def clockSnapshot (localtime : ℤ → Option Tm) (time : ℤ) : Option Tm :=
  if time ≤ validEpoch then none else localtime time

theorem clockSnapshot_eq_some {localtime : ℤ → Option Tm} {time : ℤ} {tm : Tm}
    (h : clockSnapshot localtime time = some tm) : localtime time = some tm := by
  rw [clockSnapshot] at h
  split at h
  · cases h
  · exact h

theorem lt_of_clockSnapshot {localtime : ℤ → Option Tm} {time : ℤ} {tm : Tm}
    (h : clockSnapshot localtime time = some tm) : validEpoch < time := by
  rw [clockSnapshot] at h
  split at h
  · cases h
  · next hlate => exact not_le.1 hlate

/-- The values of `boundary` in `schedule_task`. -/
def crossedBoundaries (previousEpoch epoch : ℤ) : List ℤ :=
  let first := (Int.tdiv previousEpoch 60 + 1) * 60
  (List.range ((epoch - first) / 60 + 1).toNat).map fun k : ℕ => first + 60 * k

/-! ## The jobs of a tick -/

/-- A point that is to be applied; `epoch` is the moment for which it is, and `mark` says
that a catch-up is for a point of the current minute. -/
structure Application where
  index : BitVec 8
  catchUp : Bool
  dayKey : U32
  epoch : ℤ
  mark : Bool
  deriving DecidableEq

/-- What the task does in a tick after its first section. -/
inductive Job where
  | catchUp (a : Application)
  | dropCatchUp
  | pendingRetry
  | scheduled (a : Application)
  deriving DecidableEq

/-- A point that is due. -/
def dueApplication (tm : Tm) (epoch : ℤ) (i : ℕ) : Application where
  index := BitVec.ofNat 8 i
  catchUp := false
  dayKey := localDayKey tm
  epoch := epoch
  mark := false

/-- `run_points_for_minute`: the points for which it calls `run_scheduled_point`. -/
def minuteJobs (config : Config) (tm : Tm) (epoch : ℤ) : List Job :=
  (List.range config.count.toNat).filterMap fun i =>
    if pointAppliesOn (config.point i) (weekdayIndex tm).toNat &&
        (config.point i).minuteOfDay == localMinute tm then
      some (.scheduled (dueApplication tm epoch i))
    else none

/-- The catch-up of a tick. -/
def catchUpJob (config : Config) (tm : Tm) (epoch : ℤ) : Job :=
  let latest := latestPointIndex config (weekdayIndex tm).toNat (localMinute tm)
  if latest ≠ noIndex then
    .catchUp
      { index := latest
        catchUp := true
        dayKey := localDayKey tm
        epoch := epoch
        mark := (config.point latest.toNat).minuteOfDay == localMinute tm }
  else .dropCatchUp

/-- The minutes that were crossed. -/
def crossedJobs (localtime : ℤ → Option Tm) (config : Config) (previousEpoch epoch : ℤ) :
    List Job :=
  (crossedBoundaries previousEpoch epoch).flatMap fun boundary =>
    match localtime boundary with
    | some crossed => minuteJobs config crossed boundary
    | none => []

/-- What a tick does after its first section. -/
def tickJobs (options : Options) (localtime : ℤ → Option Tm) (sample : Sample) (tm : Tm)
    (epoch : ℤ) : List Job :=
  if !sample.config.enabled then []
  else
    (if sample.catchUp && options.catchUpOnClockReady then
        [catchUpJob sample.config tm epoch]
      else []) ++
    (.pendingRetry ::
      ((if sample.continuous && decide (sample.previousEpoch < epoch) then
          crossedJobs localtime sample.config sample.previousEpoch epoch
        else []) ++
      minuteJobs sample.config tm epoch))

/-! ## The checks of the task -/

/-- `execute` in `run_scheduled_point`. -/
def Schedule.executes (s : Schedule) (config : Config) (index : BitVec 8) (dayKey now : U32) :
    Bool :=
  let retryWait := s.retryPending && s.retryGeneration == config.generation &&
    s.retryIndex == index && s.retryDayKey == dayKey && !deadlineReached now s.nextRetryMs
  s.config.generation == config.generation &&
    s.lastRunDay[index.toNat]?.getD 0 != dayKey && !retryWait

/-- `execute` in `run_pending_retry`. -/
def Schedule.retries (s : Schedule) (config : Config) (now : U32) : Bool :=
  s.retryPending && s.retryGeneration == config.generation &&
    decide (s.retryIndex < config.count) && deadlineReached now s.nextRetryMs

/-! ## The machine -/

/-- Where the task is in its job. -/
inductive Phase where
  | ready
  | apply (a : Application)
  | record (a : Application) (error : EspErr)
  | mark (a : Application)
  deriving DecidableEq

/-- The locals of the task; `version` numbers the commit that `config` is from. -/
structure Task where
  config : Config
  version : ℕ
  now : U32
  jobs : List Job
  phase : Phase

/-- Between two ticks. -/
def Task.Idle (task : Task) : Prop :=
  task.jobs = [] ∧ task.phase = .ready

instance (task : Task) : Decidable task.Idle :=
  inferInstanceAs (Decidable (_ ∧ _))

/-- A callback that has returned, with the configuration whose point it was given. -/
structure Applied where
  config : Config
  version : ℕ
  application : Application
  error : EspErr

/-- The schedule and its task.  `version` counts the commits, `committed` lists them,
`applied` lists the callbacks, the last one first, and `retryEpoch` is the moment that the
retry record is for. -/
structure Machine where
  schedule : Schedule
  task : Task
  version : ℕ
  committed : List Config
  applied : List Applied
  retryEpoch : ℤ

/-- A step of the task or of another one; `error` is what the callback returns if it is
called. -/
inductive Input where
  | call (c : Call)
  | tick (now : U32) (time : ℤ)
  | run (error : EspErr)

def Machine.start (loaded : Config) : Machine where
  schedule := .start loaded
  task :=
    { config := loaded
      version := 0
      now := 0
      jobs := []
      phase := .ready }
  version := 0
  committed := []
  applied := []
  retryEpoch := 0

/-- The configurations that were committed. -/
def committedIn (effects : List Effect) : List Config :=
  effects.filterMap fun effect =>
    match effect with
    | .committed config => some config
    | _ => none

def Machine.call (options : Options) (m : Machine) (c : Call) : Machine :=
  let r := m.schedule.call options c
  { m with
    schedule := r.2.1
    version := m.version + (committedIn r.2.2).length
    committed := committedIn r.2.2 ++ m.committed }

/-- The first section of a tick. -/
def Machine.tick (options : Options) (localtime : ℤ → Option Tm) (m : Machine) (now : U32)
    (time : ℤ) : Machine :=
  match clockSnapshot localtime time with
  | none =>
      { m with schedule := (m.schedule.sample options now none).2 }
  | some tm =>
      let r := m.schedule.sample options now (some time)
      { m with
        schedule := r.2
        task :=
          { config := r.1.config
            version := m.version
            now := now
            jobs := tickJobs options localtime r.1 tm time
            phase := .ready } }

/-- The point that `run_pending_retry` applies. -/
def Machine.retryApplication (m : Machine) : Application where
  index := m.schedule.retryIndex
  catchUp := false
  dayKey := m.schedule.retryDayKey
  epoch := m.retryEpoch
  mark := false

/-- The task starts its next job. -/
def Machine.startJob (m : Machine) (job : Job) (jobs : List Job) : Machine :=
  let next := { m.task with jobs := jobs, phase := .ready }
  match job with
  | .catchUp a => { m with task := { next with phase := .apply a } }
  | .dropCatchUp =>
      { m with
        schedule := m.schedule.dropCatchUp m.task.config.generation
        task := next }
  | .pendingRetry =>
      if m.schedule.retries m.task.config m.task.now then
        { m with task := { next with phase := .apply m.retryApplication } }
      else { m with task := next }
  | .scheduled a =>
      if m.schedule.executes m.task.config a.index a.dayKey m.task.now then
        { m with task := { next with phase := .apply a } }
      else { m with task := next }

/-- The callback returns. -/
def Machine.callback (m : Machine) (a : Application) (error : EspErr) : Machine :=
  { m with
    task := { m.task with phase := .record a error }
    applied :=
      { config := m.task.config
        version := m.task.version
        application := a
        error := error } :: m.applied }

/-- `record_apply_result` in the task. -/
def Machine.record (m : Machine) (a : Application) (error : EspErr) : Machine :=
  { m with
    schedule := m.schedule.recordApplyResult m.task.config.generation a.index a.catchUp
      a.dayKey error m.task.now
    task :=
      { m.task with
        phase := if a.catchUp && a.mark && decide (error = .ok) then .mark a else .ready }
    retryEpoch :=
      if m.schedule.config.generation = m.task.config.generation ∧ error ≠ .ok ∧
          a.catchUp = false then
        a.epoch
      else m.retryEpoch }

/-- The section after a catch-up. -/
def Machine.markStep (m : Machine) (a : Application) : Machine :=
  { m with
    schedule := m.schedule.markRun m.task.config.generation a.index a.dayKey
    task := { m.task with phase := .ready } }

/-- The next step of the task. -/
def Machine.advance (m : Machine) (error : EspErr) : Machine :=
  match m.task.phase with
  | .apply a => m.callback a error
  | .record a error => m.record a error
  | .mark a => m.markStep a
  | .ready =>
      match m.task.jobs with
      | [] => m
      | job :: jobs => m.startJob job jobs

theorem Machine.advance_record {m : Machine} {a : Application} {result : EspErr}
    (hphase : m.task.phase = .record a result) (error : EspErr) :
    m.advance error = m.record a result := by
  rw [Machine.advance, hphase]

/-- One step; a tick begins only after the last one has ended. -/
def Machine.step (options : Options) (localtime : ℤ → Option Tm) (m : Machine) :
    Input → Machine
  | .call c => m.call options c
  | .tick now time => if m.task.Idle then m.tick options localtime now time else m
  | .run error => m.advance error

/-- A run from the start of the task. -/
def Machine.runFrom (options : Options) (localtime : ℤ → Option Tm) (loaded : Config)
    (inputs : List Input) : Machine :=
  Trace.run (Machine.step options localtime) (.start loaded) inputs

end KeemashCore.WeeklySchedule

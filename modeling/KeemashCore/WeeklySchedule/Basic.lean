import KeemashCore.Mesh.Proto
import Mathlib.Data.Int.Notation

/-!
# The weekly schedule

`keemash_weekly_schedule.c`: a configuration of at most eight points, a stage in which
the next configuration is collected, and a task that applies the points.  The calls of
the stage and the sections of the task hold the lock while they run, and each is one
function here.

`time_t` is an integer, and one call has one `monotonic_ms`.  Null pointers and the
names of the task and of the NVS key are left out.
-/

namespace KeemashCore.WeeklySchedule

/-- `KEEMASH_WEEKLY_SCHEDULE_MAX_POINTS`. -/
def maxPoints : ℕ := 8

/-- `KEEMASH_WEEKLY_SCHEDULE_ALL_DAYS`. -/
def allDays : BitVec 8 := 0x7f

/-- `KEEMASH_WEEKLY_SCHEDULE_NO_INDEX`. -/
def noIndex : BitVec 8 := 0xff

def defaultStageTimeoutMs : U32 := 30000

def clockContinuityLimitSec : ℤ := 120

def clockDriftLimitSec : ℕ := 5

def applyRetryMs : U32 := 5000

/-- `keemash_weekly_schedule_point_t`. -/
structure Point where
  enabled : Bool
  minuteOfDay : BitVec 16
  action : BitVec 8
  daysMask : BitVec 8
  deriving DecidableEq

def Point.zero : Point where
  enabled := false
  minuteOfDay := 0
  action := 0
  daysMask := 0

/-- `keemash_weekly_schedule_config_t`. -/
structure Config where
  generation : U32
  enabled : Bool
  persistenceEnabled : Bool
  count : BitVec 8
  points : Vector Point maxPoints
  deriving DecidableEq

def Config.zero : Config where
  generation := 0
  enabled := false
  persistenceEnabled := false
  count := 0
  points := .replicate maxPoints .zero

def Config.point (config : Config) (i : ℕ) : Point :=
  config.points[i]?.getD .zero

/-- The fields of the options that the schedule works with. -/
structure Options where
  maxAction : BitVec 8
  catchUpOnClockReady : Bool
  stageTimeoutMs : U32

/-- `stage_timeout_ms` of the schedule. -/
def Options.timeout (options : Options) : U32 :=
  if options.stageTimeoutMs = 0 then defaultStageTimeoutMs else options.stageTimeoutMs

/-- `schedule_stage_t`. -/
structure Stage where
  active : Bool
  startedMs : U32
  receivedMask : BitVec 8
  config : Config
  deriving DecidableEq

def Stage.zero : Stage where
  active := false
  startedMs := 0
  receivedMask := 0
  config := .zero

/-- `KEEMASH_WEEKLY_SCHEDULE_APPLY_…`. -/
inductive ApplyKind where
  | none
  | catchUp
  | scheduled
  deriving DecidableEq

/-- `struct keemash_weekly_schedule`, without its options. -/
structure Schedule where
  config : Config
  stage : Stage
  lastRunDay : Vector U32 maxPoints
  catchUpPending : Bool
  lastClockValid : Bool
  lastWallEpoch : ℤ
  lastSampleMs : U32
  retryPending : Bool
  retryGeneration : U32
  retryDayKey : U32
  nextRetryMs : U32
  retryIndex : BitVec 8
  lastApplyValid : Bool
  lastApplyIndex : BitVec 8
  lastApplyKind : ApplyKind
  lastApplyMs : U32
  lastError : EspErr

/-- What `keemash_weekly_schedule_start` leaves after `load_config`. -/
def Schedule.start (loaded : Config) : Schedule where
  config := loaded
  stage := .zero
  lastRunDay := .replicate maxPoints 0xffffffff
  catchUpPending := loaded.enabled
  lastClockValid := false
  lastWallEpoch := 0
  lastSampleMs := 0
  retryPending := false
  retryGeneration := 0
  retryDayKey := 0
  nextRetryMs := 0
  retryIndex := 0
  lastApplyValid := false
  lastApplyIndex := noIndex
  lastApplyKind := .none
  lastApplyMs := 0
  lastError := .ok

/-! ## Valid configurations -/

/-- `point_valid`. -/
def PointValid (options : Options) (point : Point) : Prop :=
  point.minuteOfDay.toNat < 24 * 60 ∧ point.daysMask ≠ 0 ∧
    point.daysMask &&& ~~~allDays = 0 ∧ point.action ≤ options.maxAction

instance (options : Options) (point : Point) : Decidable (PointValid options point) :=
  inferInstanceAs (Decidable (_ ∧ _))

/-- Two points that are enabled in the same minute of a day. -/
def Point.Overlaps (point other : Point) : Prop :=
  other.enabled = true ∧ other.minuteOfDay = point.minuteOfDay ∧
    other.daysMask &&& point.daysMask ≠ 0

instance (point other : Point) : Decidable (point.Overlaps other) :=
  inferInstanceAs (Decidable (_ ∧ _))

/-- `config_valid`. -/
def ConfigValid (options : Options) (config : Config) : Prop :=
  config.generation ≠ 0 ∧ config.count.toNat ≤ maxPoints ∧
    ∀ i < config.count.toNat, PointValid options (config.point i) ∧
      ((config.point i).enabled = true →
        ∀ j < i, ¬(config.point i).Overlaps (config.point j))

instance (options : Options) (config : Config) : Decidable (ConfigValid options config) :=
  inferInstanceAs (Decidable (_ ∧ _ ∧ ∀ i < _, _))

/-! ## The stage -/

/-- What has happened to the stage and the configuration. -/
inductive Effect where
  | began (generation : U32) (count : BitVec 8) (enabled persistenceEnabled : Bool)
  | received (generation : U32) (index : BitVec 8) (point : Point)
  | committed (config : Config)

/-- `expire_stage_locked`. -/
def Schedule.expireStage (options : Options) (s : Schedule) (now : U32) : Schedule :=
  if s.stage.active = true ∧ now - s.stage.startedMs ≥ options.timeout then
    { s with stage := .zero }
  else s

/-- `keemash_weekly_schedule_stage_begin`; `locked` says that the lock was taken in
time. -/
def Schedule.stageBegin (s : Schedule) (locked : Bool) (now generation : U32)
    (count : BitVec 8) (enabled persistenceEnabled : Bool) :
    EspErr × Schedule × List Effect :=
  if generation = 0 ∨ count.toNat > maxPoints then (.invalidArg, s, [])
  else if !locked then (.timeout, s, [])
  else
    (.ok,
      { s with
        stage :=
          { active := true
            startedMs := now
            receivedMask := 0
            config :=
              { Config.zero with
                generation := generation
                count := count
                enabled := enabled
                persistenceEnabled := persistenceEnabled } } },
      [.began generation count enabled persistenceEnabled])

/-- The stage after a point for it. -/
def Stage.receive (stage : Stage) (index : BitVec 8) (point : Point) : Stage :=
  { stage with
    config :=
      { stage.config with points := stage.config.points.setIfInBounds index.toNat point }
    receivedMask := stage.receivedMask ||| (1 <<< index.toNat) }

/-- `keemash_weekly_schedule_stage_point`. -/
def Schedule.stagePoint (options : Options) (s : Schedule) (locked : Bool)
    (now generation : U32) (index : BitVec 8) (point : Point) :
    EspErr × Schedule × List Effect :=
  if ¬PointValid options point then (.invalidArg, s, [])
  else if !locked then (.timeout, s, [])
  else
    let s := s.expireStage options now
    if s.stage.active = false ∨ s.stage.config.generation ≠ generation ∨
        index ≥ s.stage.config.count then
      (.invalidState, s, [])
    else
      (.ok, { s with stage := s.stage.receive index point }, [.received generation index point])

/-- What the calls of NVS in one `persist_config` return; `none` is
`ESP_ERR_NVS_NOT_FOUND`. -/
structure NvsResults where
  opened : EspErr
  setBlob : EspErr
  eraseKey : Option EspErr
  committed : EspErr

/-- The result of `persist_config`. -/
def persistConfig (nvs : NvsResults) (config : Config) : EspErr :=
  if nvs.opened ≠ .ok then nvs.opened
  else
    let err := if config.persistenceEnabled then nvs.setBlob else nvs.eraseKey.getD .ok
    if err = .ok then nvs.committed else err

/-- `expected` of `stage_commit`. -/
def expectedMask (count : BitVec 8) : BitVec 8 :=
  if count = 0 then 0 else ((1#32 <<< count.toNat) - 1).setWidth 8

/-- The schedule with a new configuration. -/
def Schedule.activate (s : Schedule) (candidate : Config) : Schedule :=
  { s with
    config := candidate
    stage := .zero
    lastRunDay := .replicate maxPoints 0xffffffff
    catchUpPending := candidate.enabled
    retryPending := false
    nextRetryMs := 0
    lastApplyValid := false
    lastApplyIndex := noIndex
    lastApplyKind := .none
    lastError := .ok }

/-- `keemash_weekly_schedule_stage_commit`. -/
def Schedule.stageCommit (options : Options) (s : Schedule) (locked : Bool)
    (now generation : U32) (nvs : NvsResults) : EspErr × Schedule × List Effect :=
  if !locked then (.timeout, s, [])
  else
    let s := s.expireStage options now
    if s.stage.active = false ∨ s.stage.config.generation ≠ generation ∨
        s.stage.receivedMask ≠ expectedMask s.stage.config.count ∨
        ¬ConfigValid options s.stage.config then
      (.invalidState, s, [])
    else
      let err := persistConfig nvs s.stage.config
      if err ≠ .ok then (err, { s with lastError := err }, [])
      else (.ok, s.activate s.stage.config, [.committed s.stage.config])

/-! ## The sections of the task -/

/-- `deadline_reached`. -/
def deadlineReached (now deadline : U32) : Bool :=
  decide ((now - deadline).toInt ≥ 0)

/-- `clock_is_continuous`. -/
def clockIsContinuous (previousEpoch currentEpoch : ℤ) (previousMs currentMs : U32) : Bool :=
  let wallDelta := currentEpoch - previousEpoch
  let monotonicDelta : ℤ := ((currentMs - previousMs + 500) / 1000).toNat
  decide (wallDelta ≥ 0 ∧ wallDelta ≤ clockContinuityLimitSec ∧
    (wallDelta - monotonicDelta).natAbs ≤ clockDriftLimitSec)

/-- What the task has learned when it gives the lock back. -/
structure Sample where
  config : Config
  catchUp : Bool
  continuous : Bool
  previousEpoch : ℤ

/-- A new sample of the clock, which is valid. -/
def Schedule.sampleClock (s : Schedule) (now : U32) (epoch : ℤ) : Bool × Schedule :=
  let continuous :=
    s.lastClockValid && clockIsContinuous s.lastWallEpoch epoch s.lastSampleMs now
  let s :=
    if !s.lastClockValid || !continuous then
      { s with
        catchUpPending := s.config.enabled
        retryPending := false
        nextRetryMs := 0 }
    else s
  (continuous,
    { s with
      lastClockValid := true
      lastWallEpoch := epoch
      lastSampleMs := now })

/-- The first section of `schedule_task`; `epoch` is the valid clock. -/
def Schedule.sample (options : Options) (s : Schedule) (now : U32) (epoch : Option ℤ) :
    Sample × Schedule :=
  let s := s.expireStage options now
  let r :=
    match epoch with
    | none => (false, 0, { s with lastClockValid := false })
    | some epoch =>
        let clock := s.sampleClock now epoch
        (clock.1, s.lastWallEpoch, clock.2)
  let s := r.2.2
  let catchUp := s.catchUpPending && s.config.enabled && epoch.isSome &&
    (s.nextRetryMs == 0 || deadlineReached now s.nextRetryMs)
  ({ config := s.config
     catchUp := catchUp
     continuous := r.1
     previousEpoch := r.2.1 },
    if catchUp && !options.catchUpOnClockReady then { s with catchUpPending := false } else s)

/-- `record_apply_result`, for the generation of the configuration that was applied. -/
def Schedule.recordApplyResult (s : Schedule) (generation : U32) (index : BitVec 8)
    (catchUp : Bool) (dayKey : U32) (error : EspErr) (now : U32) : Schedule :=
  if s.config.generation ≠ generation then s
  else if error = .ok then
    let s :=
      { s with
        lastError := error
        lastApplyValid := true
        lastApplyIndex := index
        lastApplyKind := if catchUp then .catchUp else .scheduled
        lastApplyMs := now
        nextRetryMs := 0 }
    if catchUp then { s with catchUpPending := false }
    else
      { s with
        lastRunDay := s.lastRunDay.setIfInBounds index.toNat dayKey
        retryPending := false }
  else
    let s :=
      { s with
        lastError := error
        nextRetryMs := now + applyRetryMs }
    if catchUp then s
    else
      { s with
        retryPending := true
        retryGeneration := generation
        retryIndex := index
        retryDayKey := dayKey }

/-- The section of `schedule_task` after a catch-up in the minute of its point. -/
def Schedule.markRun (s : Schedule) (generation : U32) (index : BitVec 8) (dayKey : U32) :
    Schedule :=
  if s.config.generation = generation then
    { s with lastRunDay := s.lastRunDay.setIfInBounds index.toNat dayKey }
  else s

/-- The section of `schedule_task` for a catch-up without a point. -/
def Schedule.dropCatchUp (s : Schedule) (generation : U32) : Schedule :=
  if s.config.generation = generation then
    { s with
      catchUpPending := false
      nextRetryMs := 0 }
  else s

end KeemashCore.WeeklySchedule

import KeemashCore.Nearest.Basic
import KeemashCore.WeeklySchedule.Basic
import Mathlib.Tactic.IntervalCases

/-!
# The points around a minute

`latest_point_index` and `next_point_index` look for the point that came last and for the
one that comes next.  The points of a valid configuration recur every week, and no two of
them ever at the same minute, so each question has one answer.

The search for the next point finds it.  The search for the last one goes back six days
only, so it misses a point that was last due later on the same weekday, a week ago.
-/

namespace KeemashCore.WeeklySchedule

/-! ## The searches -/

/-- `point_applies_on`. -/
def pointAppliesOn (point : Point) (weekday : ℤ) : Bool :=
  point.enabled && decide (0 ≤ weekday) && decide (weekday < 7) &&
    decide (point.daysMask.setWidth 32 &&& (1#32 <<< weekday.toNat) ≠ 0)

/-- `best_age` or `best_distance`, and `best`. -/
abbrev Best :=
  Nearest.Best ℕ (BitVec 8)

/-- What the searches start with. -/
def Best.start : Best where
  key := 0xffffffff
  item := noIndex

/-- `age` in `latest_point_index`. -/
def pointAge (dayBack : ℕ) (minute : BitVec 16) (point : Point) : U32 :=
  BitVec.ofNat 32 dayBack * 1440 + minute.setWidth 32 - point.minuteOfDay.setWidth 32

/-- One pass of the inner loop of `latest_point_index`. -/
def latestPoint (config : Config) (weekday : ℤ) (minute : BitVec 16) (dayBack : ℕ)
    (best : Best) (i : ℕ) : Best :=
  let point := config.point i
  if !pointAppliesOn point (Int.tmod (weekday - dayBack + 7) 7) then best
  else if dayBack = 0 ∧ minute < point.minuteOfDay then best
  else best.offer (pointAge dayBack minute point).toNat (BitVec.ofNat 8 i)

def latestSearch (config : Config) (weekday : ℤ) (minute : BitVec 16) : Best :=
  (List.range 7).foldl
    (fun best dayBack =>
      (List.range config.count.toNat).foldl (latestPoint config weekday minute dayBack) best)
    Best.start

/-- `latest_point_index`. -/
def latestPointIndex (config : Config) (weekday : ℤ) (minute : BitVec 16) : BitVec 8 :=
  (latestSearch config weekday minute).item

/-- `delta` in `next_point_index`. -/
def pointDelta (dayForward : ℕ) (minute : BitVec 16) (point : Point) : ℤ :=
  let delta : ℤ := dayForward * 1440 + point.minuteOfDay.toNat - minute.toNat
  if delta ≤ 0 then delta + 7 * 1440 else delta

/-- One pass of the inner loop of `next_point_index`. -/
def nextPoint (config : Config) (weekday : ℤ) (minute : BitVec 16) (dayForward : ℕ)
    (best : Best) (i : ℕ) : Best :=
  let point := config.point i
  if !pointAppliesOn point (Int.tmod (weekday + dayForward) 7) then best
  else
    best.offer (BitVec.ofInt 32 (pointDelta dayForward minute point)).toNat (BitVec.ofNat 8 i)

def nextSearch (config : Config) (weekday : ℤ) (minute : BitVec 16) : Best :=
  (List.range 7).foldl
    (fun best dayForward =>
      (List.range config.count.toNat).foldl (nextPoint config weekday minute dayForward) best)
    Best.start

/-- `next_point_index`: the point, and `*distance`. -/
def nextPointIndex (config : Config) (weekday : ℤ) (minute : BitVec 16) :
    BitVec 8 × BitVec 16 :=
  let best := nextSearch config weekday minute
  (best.item, if 0xffff < best.key then 0xffff else BitVec.ofNat 16 best.key)

/-! ## The week -/

/-- Minutes of a day. -/
def dayMinutes : ℕ := 1440

/-- Minutes of a week. -/
def weekMinutes : ℕ := 7 * dayMinutes

/-- The minute of the week. -/
def weekMinute (day minute : ℕ) : ℕ :=
  day * dayMinutes + minute

/-- The configuration has an enabled point on this day of the week. -/
def Config.AppliesOn (config : Config) (i day : ℕ) : Prop :=
  i < config.count.toNat ∧ day < 7 ∧ (config.point i).enabled = true ∧
    (config.point i).daysMask.getLsbD day = true

/-- The point is due at the minute `t` of the week. -/
def Config.Occurs (config : Config) (i t : ℕ) : Prop :=
  ∃ day, config.AppliesOn i day ∧ t = weekMinute day (config.point i).minuteOfDay.toNat

/-- Some point is enabled. -/
def Config.HasEnabled (config : Config) : Prop :=
  ∃ i < config.count.toNat, (config.point i).enabled = true

/-- The point that came last before or at the minute `now` of the week. -/
def Config.IsLatest (config : Config) (now : ℕ) : ℕ → Prop :=
  Nearest.IsNearest config.Occurs (Nearest.since weekMinutes now)

/-- The point that comes next, and when. -/
def Config.IsNextAt (config : Config) (now : ℕ) : ℕ → ℕ → Prop :=
  Nearest.IsNearestAt config.Occurs (Nearest.ahead weekMinutes now)

/-- The answer to the question for the last point. -/
structure LatestExact (config : Config) (now : ℕ) (index : BitVec 8) : Prop where
  none : index = noIndex ↔ ¬config.HasEnabled
  latest : config.HasEnabled → config.IsLatest now index.toNat
  unique : ∀ i, config.IsLatest now i → i = index.toNat

/-- The answer to the question for the next point. -/
structure NextExact (config : Config) (now : ℕ) (index : BitVec 8) (distance : BitVec 16) :
    Prop where
  none : (index = noIndex ∧ distance = 0xffff) ↔ ¬config.HasEnabled
  next : config.HasEnabled → ∃ t, config.IsNextAt now index.toNat t ∧
    distance.toNat = Nearest.ahead weekMinutes now t
  unique : ∀ i t, config.IsNextAt now i t → i = index.toNat
  bounds : config.HasEnabled → 1 ≤ distance.toNat ∧ distance.toNat ≤ weekMinutes

/-! ## Valid configurations -/

theorem pointAppliesOn_eq_true {point : Point} {day : ℕ} (hday : day < 7) :
    pointAppliesOn point day = true ↔
      point.enabled = true ∧ point.daysMask.getLsbD day = true := by
  have hpow : BitVec.twoPow 32 day ≠ 0#32 := by
    interval_cases day <;> decide
  have hwide : day < 32 := by omega
  have hbit : (point.daysMask.setWidth 32 &&& (1#32 <<< day) ≠ 0) ↔
      point.daysMask.getLsbD day = true := by
    rw [show 1#32 <<< day = BitVec.twoPow 32 day from rfl, BitVec.and_twoPow,
      BitVec.getLsbD_setWidth]
    by_cases hset : point.daysMask.getLsbD day = true
    · simp [hwide, hset, hpow]
    · simp [hset]
  have hlow : (0 : ℤ) ≤ day := by omega
  have hhigh : (day : ℤ) < 7 := by omega
  rw [pointAppliesOn, Int.toNat_natCast]
  simp only [hlow, hhigh, decide_true, Bool.and_true, Bool.and_eq_true, decide_eq_true_eq, hbit]

theorem ConfigValid.pointValid {options : Options} {config : Config}
    (h : ConfigValid options config) {i : ℕ} (hi : i < config.count.toNat) :
    PointValid options (config.point i) :=
  (h.2.2 i hi).1

/-- A valid point has a day. -/
theorem PointValid.exists_day {options : Options} {point : Point}
    (h : PointValid options point) : ∃ day < 7, point.daysMask.getLsbD day = true := by
  obtain ⟨-, hsome, hrest, -⟩ := h
  by_contra hnone
  apply hsome
  apply BitVec.eq_of_getLsbD_eq
  intro day hday
  rw [show (0 : BitVec 8) = 0#8 from rfl, BitVec.getLsbD_zero]
  rcases Nat.lt_or_ge day 7 with hlt | hge
  · exact Bool.eq_false_iff.2 fun hbit => hnone ⟨day, hlt, hbit⟩
  · have hseven : day = 7 := by omega
    subst hseven
    have hbit := congrArg (BitVec.getLsbD · 7) hrest
    simpa [allDays] using hbit

theorem Config.Occurs.lt {options : Options} {config : Config}
    (hvalid : ConfigValid options config) {i t : ℕ} (h : config.Occurs i t) :
    t < weekMinutes := by
  obtain ⟨day, ⟨hi, hday, -, -⟩, rfl⟩ := h
  have hminute := (hvalid.pointValid hi).1
  simp only [weekMinute, weekMinutes, dayMinutes]
  omega

theorem Config.HasEnabled.exists_occurs {options : Options} {config : Config}
    (hvalid : ConfigValid options config) (h : config.HasEnabled) :
    ∃ i t, config.Occurs i t := by
  obtain ⟨i, hi, henabled⟩ := h
  obtain ⟨day, hday, hbit⟩ := (hvalid.pointValid hi).exists_day
  exact ⟨i, _, day, ⟨hi, hday, henabled, hbit⟩, rfl⟩

theorem Config.Occurs.hasEnabled {config : Config} {i t : ℕ} (h : config.Occurs i t) :
    config.HasEnabled := by
  obtain ⟨day, ⟨hi, -, henabled, -⟩, -⟩ := h
  exact ⟨i, hi, henabled⟩

/-- The points of a valid configuration are never due together. -/
theorem Config.Occurs.apart {options : Options} {config : Config}
    (hvalid : ConfigValid options config) {i j t : ℕ} (hi : config.Occurs i t)
    (hj : config.Occurs j t) : i = j := by
  obtain ⟨day, ⟨hicount, hday, hienabled, hibit⟩, rfl⟩ := hi
  obtain ⟨day', ⟨hjcount, hday', hjenabled, hjbit⟩, htime⟩ := hj
  have himinute := (hvalid.pointValid hicount).1
  have hjminute := (hvalid.pointValid hjcount).1
  simp only [weekMinute, dayMinutes] at htime
  obtain rfl : day = day' := by omega
  have hminute : (config.point i).minuteOfDay = (config.point j).minuteOfDay :=
    BitVec.eq_of_toNat_eq (by omega)
  -- Of two points that share the minute, the later one has been checked.
  have hshare : ∀ a b : Point, a.daysMask.getLsbD day = true →
      b.daysMask.getLsbD day = true → b.daysMask &&& a.daysMask ≠ 0 := by
    intro a b ha hb hzero
    have hbit := congrArg (BitVec.getLsbD · day) hzero
    simp [ha, hb] at hbit
  rcases Nat.lt_trichotomy i j with hlt | heq | hgt
  · exact absurd ⟨hienabled, hminute, hshare _ _ hjbit hibit⟩
      ((hvalid.2.2 j hjcount).2 hjenabled i hlt)
  · exact heq
  · exact absurd ⟨hjenabled, hminute.symm, hshare _ _ hibit hjbit⟩
      ((hvalid.2.2 i hicount).2 hienabled j hgt)

/-! ## The last point -/

/-- The day of the week that is `dayBack` days back. -/
theorem tmod_back {weekday dayBack : ℕ} (hback : dayBack < 7) :
    Int.tmod ((weekday : ℤ) - dayBack + 7) 7 = ((weekday + 7 - dayBack) % 7 : ℕ) := by
  rw [show (weekday : ℤ) - dayBack + 7 = ((weekday + 7 - dayBack : ℕ) : ℤ) from by omega]
  exact Int.ofNat_tmod _ _

theorem pointAge_toNat {dayBack : ℕ} {minute : BitVec 16} {point : Point}
    (hback : dayBack < 7) (hle : point.minuteOfDay.toNat ≤ dayBack * 1440 + minute.toNat) :
    (pointAge dayBack minute point).toNat =
      dayBack * 1440 + minute.toNat - point.minuteOfDay.toNat := by
  have hminute := minute.isLt
  have hpoint := point.minuteOfDay.isLt
  have hfactor : (1440 : U32).toNat = 1440 := rfl
  rw [pointAge]
  simp only [BitVec.toNat_sub, BitVec.toNat_add, BitVec.toNat_mul, BitVec.toNat_ofNat,
    BitVec.toNat_setWidth, hfactor]
  omega

/-- What one pass of the search for the last point offers. -/
def latestOffers (config : Config) (weekday : ℤ) (minute : BitVec 16) (dayBack i : ℕ) :
    Set (ℕ × BitVec 8) :=
  {offer | pointAppliesOn (config.point i) (Int.tmod (weekday - dayBack + 7) 7) = true ∧
    ¬(dayBack = 0 ∧ minute < (config.point i).minuteOfDay) ∧
    offer = ((pointAge dayBack minute (config.point i)).toNat, BitVec.ofNat 8 i)}

theorem latestPoint_least (config : Config) (weekday : ℤ) (minute : BitVec 16)
    (dayBack : ℕ) (best : Best) (i : ℕ) :
    Nearest.Least best (latestOffers config weekday minute dayBack i)
      (latestPoint config weekday minute dayBack best i) := by
  rw [latestPoint]
  by_cases happlies : pointAppliesOn (config.point i) (Int.tmod (weekday - dayBack + 7) 7)
  · rw [if_neg (by simp [happlies])]
    by_cases hlater : dayBack = 0 ∧ minute < (config.point i).minuteOfDay
    · have hnone : latestOffers config weekday minute dayBack i = ∅ :=
        Set.eq_empty_of_forall_notMem fun offer hoffer => hoffer.2.1 hlater
      rw [if_pos hlater, hnone]
      exact Nearest.Least.empty best
    · have hone : latestOffers config weekday minute dayBack i =
          {((pointAge dayBack minute (config.point i)).toNat, BitVec.ofNat 8 i)} := by
        ext offer
        constructor
        · rintro ⟨-, -, rfl⟩
          rfl
        · rintro rfl
          exact ⟨happlies, hlater, rfl⟩
      rw [if_neg hlater, hone]
      exact Nearest.Least.offer best _ _
  · have hnone : latestOffers config weekday minute dayBack i = ∅ :=
      Set.eq_empty_of_forall_notMem fun offer hoffer => happlies hoffer.1
    rw [if_pos (by simp [happlies]), hnone]
    exact Nearest.Least.empty best

theorem latestSearch_least (config : Config) (weekday : ℤ) (minute : BitVec 16) :
    Nearest.Least Best.start
      {offer | ∃ dayBack ∈ List.range 7, offer ∈
        {offer | ∃ i ∈ List.range config.count.toNat,
          offer ∈ latestOffers config weekday minute dayBack i}}
      (latestSearch config weekday minute) := by
  apply Nearest.Least.foldl
  intro best dayBack
  apply Nearest.Least.foldl
  intro best i
  exact latestPoint_least config weekday minute dayBack best i

/-- How long ago a point of the day `dayBack` days back was due. -/
theorem since_dayBack {weekday dayBack minute due : ℕ} (hday : weekday < 7)
    (hback : dayBack < 7) (hminute : minute < dayMinutes) (hdue : due < 24 * 60)
    (hle : due ≤ dayBack * 1440 + minute) :
    Nearest.since weekMinutes (weekMinute weekday minute)
        (weekMinute ((weekday + 7 - dayBack) % 7) due) =
      dayBack * 1440 + minute - due := by
  simp only [weekMinute, weekMinutes, dayMinutes] at hminute ⊢
  rcases Nat.lt_or_ge weekday dayBack with hover | hunder
  · rw [Nearest.since_of_lt (by omega) (by omega)]
    omega
  · rw [Nearest.since_of_le (by omega) (by omega)]
    omega

/-- A point that the search finds is one of the configuration. -/
theorem latestPointIndex_lt {config : Config} (hcount : config.count.toNat ≤ maxPoints)
    {weekday : ℤ} {minute : BitVec 16}
    (hsome : latestPointIndex config weekday minute ≠ noIndex) :
    (latestPointIndex config weekday minute).toNat < config.count.toNat := by
  rcases (latestSearch_least config weekday minute).start_or_mem with hstart | hmem
  · exact absurd (congrArg Nearest.Best.item hstart) hsome
  · obtain ⟨dayBack, -, i, hi, -, -, heq⟩ := hmem
    rw [List.mem_range] at hi
    have hindex : latestPointIndex config weekday minute = BitVec.ofNat 8 i :=
      congrArg Prod.snd heq
    have hmax : maxPoints = 8 := rfl
    rw [hindex, BitVec.toNat_ofNat, Nat.mod_eq_of_lt (by omega)]
    exact hi

/-- An offer is a point at one of its minutes. -/
theorem exists_of_mem_latestOffers {options : Options} {config : Config}
    (hvalid : ConfigValid options config) {weekday dayBack i : ℕ} {minute : BitVec 16}
    (hday : weekday < 7) (hminute : minute.toNat < dayMinutes) (hback : dayBack < 7)
    (hi : i < config.count.toNat) {offer : ℕ × BitVec 8}
    (hoffer : offer ∈ latestOffers config weekday minute dayBack i) :
    ∃ t, config.Occurs i t ∧
      offer = (Nearest.since weekMinutes (weekMinute weekday minute.toNat) t,
        BitVec.ofNat 8 i) ∧ offer.1 ≤ 6 * dayMinutes + minute.toNat := by
  obtain ⟨happlies, hlater, rfl⟩ := hoffer
  have hlt : (weekday + 7 - dayBack) % 7 < 7 := Nat.mod_lt _ (by decide)
  have hpoint := (hvalid.pointValid hi).1
  rw [tmod_back hback, pointAppliesOn_eq_true hlt] at happlies
  have hle : (config.point i).minuteOfDay.toNat ≤ dayBack * 1440 + minute.toNat := by
    rcases Nat.eq_zero_or_pos dayBack with rfl | hpos
    · have hnot : ¬minute < (config.point i).minuteOfDay := fun h => hlater ⟨rfl, h⟩
      rw [BitVec.lt_def] at hnot
      omega
    · omega
  refine ⟨_, ⟨_, ⟨hi, hlt, happlies⟩, rfl⟩, ?_, ?_⟩
  · rw [pointAge_toNat hback hle, since_dayBack hday hback hminute hpoint hle]
  · rw [pointAge_toNat hback hle, dayMinutes]
    omega

/-- Points that apply on another day, or not later than the minute, are offered. -/
theorem mem_latestOffers {options : Options} {config : Config}
    (hvalid : ConfigValid options config) {weekday i day : ℕ} {minute : BitVec 16}
    (hday : weekday < 7) (hminute : minute.toNat < dayMinutes)
    (happlies : config.AppliesOn i day)
    (hvisited : day = weekday → (config.point i).minuteOfDay.toNat ≤ minute.toNat) :
    ∃ dayBack < 7, (Nearest.since weekMinutes (weekMinute weekday minute.toNat)
        (weekMinute day (config.point i).minuteOfDay.toNat), BitVec.ofNat 8 i) ∈
      latestOffers config weekday minute dayBack i := by
  obtain ⟨hi, hlt, henabled⟩ := happlies
  have hpoint := (hvalid.pointValid hi).1
  have hback : (weekday + 7 - day) % 7 < 7 := Nat.mod_lt _ (by decide)
  have hdays : (weekday + 7 - (weekday + 7 - day) % 7) % 7 = day := by omega
  have hle : (config.point i).minuteOfDay.toNat ≤
      (weekday + 7 - day) % 7 * 1440 + minute.toNat := by
    by_cases hsame : day = weekday
    · have hearly := hvisited hsame
      omega
    · omega
  have hsince := since_dayBack hday hback hminute hpoint hle
  rw [hdays] at hsince
  refine ⟨(weekday + 7 - day) % 7, hback, ?_, ?_, ?_⟩
  · rw [tmod_back hback, hdays]
    exact (pointAppliesOn_eq_true hlt).2 henabled
  · rintro ⟨hzero, hlater⟩
    rw [BitVec.lt_def] at hlater
    omega
  · rw [pointAge_toNat hback hle, hsince]

/-- The search for the last point comes across a point. -/
def Config.InReach (config : Config) (weekday minute : ℕ) : Prop :=
  ∃ i day, config.AppliesOn i day ∧
    (day = weekday → (config.point i).minuteOfDay.toNat ≤ minute)

/-- A point that the search does not come across is further back than all others. -/
theorem since_of_not_visited {weekday minute due : ℕ} (hday : weekday < 7)
    (hdue : due < dayMinutes) (hlater : minute < due) :
    6 * dayMinutes + minute <
      Nearest.since weekMinutes (weekMinute weekday minute) (weekMinute weekday due) := by
  simp only [weekMinute, weekMinutes, dayMinutes] at hdue ⊢
  rw [Nearest.since_of_lt (by omega) (by omega)]
  omega

theorem weekMinute_lt {weekday minute : ℕ} (hday : weekday < 7) (hminute : minute < dayMinutes) :
    weekMinute weekday minute < weekMinutes := by
  simp only [weekMinute, weekMinutes, dayMinutes] at hminute ⊢
  omega

theorem ConfigValid.toNat_index {options : Options} {config : Config}
    (hvalid : ConfigValid options config) {i : ℕ} (hi : i < config.count.toNat) :
    (BitVec.ofNat 8 i).toNat = i ∧ BitVec.ofNat 8 i ≠ noIndex := by
  have hcount : config.count.toNat ≤ 8 := hvalid.2.1
  have hvalue : (BitVec.ofNat 8 i).toNat = i := by
    rw [BitVec.toNat_ofNat]
    omega
  refine ⟨hvalue, fun h => ?_⟩
  have hmax := congrArg BitVec.toNat h
  rw [hvalue, noIndex] at hmax
  simp at hmax
  omega

theorem IsLatest.unique {options : Options} {config : Config}
    (hvalid : ConfigValid options config) {now i j : ℕ} (hnow : now < weekMinutes)
    (hi : config.IsLatest now i) (hj : config.IsLatest now j) : i = j := by
  apply Nearest.IsNearest.unique _ _ hi hj
  · intro i j t u hi hj h
    exact Nearest.since_injective hnow (hi.lt hvalid) (hj.lt hvalid) h
  · intro i j t hi hj
    exact hi.apart hvalid hj

/-- Where the search comes across a point, it finds the last one. -/
theorem latestSearch_isLatest {options : Options} {config : Config}
    (hvalid : ConfigValid options config) {weekday : ℕ} {minute : BitVec 16}
    (hday : weekday < 7) (hminute : minute.toNat < dayMinutes)
    (hreach : config.InReach weekday minute.toNat) :
    ∃ i < config.count.toNat, latestPointIndex config weekday minute = BitVec.ofNat 8 i ∧
      config.IsLatest (weekMinute weekday minute.toNat) i := by
  have hleast := latestSearch_least config weekday minute
  obtain ⟨i₀, day₀, happlies₀, hvisited₀⟩ := hreach
  obtain ⟨dayBack₀, hback₀, hoffer₀⟩ := mem_latestOffers hvalid hday hminute happlies₀ hvisited₀
  have hmem := hleast.mem_of_lt
    ⟨dayBack₀, List.mem_range.2 hback₀, i₀, List.mem_range.2 happlies₀.1, hoffer₀⟩
    (Nat.lt_trans (Nearest.since_lt (by decide)) (by decide))
  obtain ⟨dayBack, hback, i, hi, hoffer⟩ := hmem
  rw [List.mem_range] at hback hi
  obtain ⟨t, hoccurs, heq, hbound⟩ :=
    exists_of_mem_latestOffers hvalid hday hminute hback hi hoffer
  have hkey : (latestSearch config weekday minute).key =
      Nearest.since weekMinutes (weekMinute weekday minute.toNat) t := congrArg Prod.fst heq
  refine ⟨i, hi, congrArg Prod.snd heq, t, hoccurs, ?_⟩
  intro j u hu
  rw [← hkey]
  obtain ⟨day, happlies, rfl⟩ := hu
  by_cases hvisited : day = weekday → (config.point j).minuteOfDay.toNat ≤ minute.toNat
  · obtain ⟨dayBack', hback', hoffer'⟩ := mem_latestOffers hvalid hday hminute happlies hvisited
    exact hleast.le_offer _
      ⟨dayBack', List.mem_range.2 hback', j, List.mem_range.2 happlies.1, hoffer'⟩
  · rw [Classical.not_imp] at hvisited
    obtain ⟨rfl, hlater⟩ := hvisited
    exact Nat.le_trans hbound (Nat.le_of_lt
      (since_of_not_visited hday (hvalid.pointValid happlies.1).1 (Nat.lt_of_not_le hlater)))

/-- Where it comes across none, it answers that there is none. -/
theorem latestPointIndex_eq_noIndex {config : Config} {weekday : ℕ} {minute : BitVec 16}
    (hreach : ¬config.InReach weekday minute.toNat) :
    latestPointIndex config weekday minute = noIndex := by
  have hleast := latestSearch_least config weekday minute
  have hstart := hleast.eq_start (by
    rintro offer ⟨dayBack, hback, i, hi, happlies, hlater, -⟩
    rw [List.mem_range] at hback hi
    have hlt : (weekday + 7 - dayBack) % 7 < 7 := Nat.mod_lt _ (by decide)
    rw [tmod_back hback, pointAppliesOn_eq_true hlt] at happlies
    apply hreach
    refine ⟨i, _, ⟨hi, hlt, happlies⟩, fun hsame => ?_⟩
    have hzero : dayBack = 0 := by omega
    exact Nat.le_of_not_lt fun h => hlater ⟨hzero, h⟩)
  rw [latestPointIndex, hstart, Best.start]

/-- The search for the last point is right if no point is enabled, or if some point applies
on another day or not later than the minute. -/
theorem latestPointIndex_exact_iff {options : Options} {config : Config}
    (hvalid : ConfigValid options config) {weekday : ℕ} {minute : BitVec 16}
    (hday : weekday < 7) (hminute : minute.toNat < 1440) :
    LatestExact config (weekMinute weekday minute.toNat)
        (latestPointIndex config weekday minute) ↔
      (¬config.HasEnabled ∨ config.InReach weekday minute.toNat) := by
  have hnow := weekMinute_lt hday hminute
  constructor
  · intro hexact
    by_contra hboth
    rw [not_or, not_not] at hboth
    exact hexact.none.1 (latestPointIndex_eq_noIndex hboth.2) hboth.1
  · rintro hcase
    by_cases hreach : config.InReach weekday minute.toNat
    · obtain ⟨i, hi, hindex, hlatest⟩ := latestSearch_isLatest hvalid hday hminute hreach
      obtain ⟨hvalue, hne⟩ := hvalid.toNat_index hi
      obtain ⟨t, hoccurs, -⟩ := id hlatest
      rw [hindex]
      constructor
      · exact ⟨fun h => absurd h hne, fun h => absurd hoccurs.hasEnabled h⟩
      · intro _
        rw [hvalue]
        exact hlatest
      · intro j hj
        rw [hvalue]
        exact IsLatest.unique hvalid hnow hj hlatest
    · have hnone := hcase.resolve_right hreach
      constructor
      · exact ⟨fun _ => hnone, fun _ => latestPointIndex_eq_noIndex hreach⟩
      · intro henabled
        exact absurd henabled hnone
      · rintro i ⟨t, hoccurs, -⟩
        exact absurd hoccurs.hasEnabled hnone

/-- One point, on Mondays at 22:00. -/
def weeklyPoint : Config where
  generation := 1
  enabled := true
  persistenceEnabled := false
  count := 1
  points := Vector.replicate maxPoints
    { enabled := true
      minuteOfDay := 1320
      action := 1
      daysMask := 1 }

def anyAction : Options where
  maxAction := 1
  catchUpOnClockReady := true
  stageTimeoutMs := 0

/-- On a Monday at 10:00, the point was last due six days and twelve hours ago. -/
theorem latestPointIndex_weeklyPoint :
    ConfigValid anyAction weeklyPoint ∧
      ¬LatestExact weeklyPoint (weekMinute 0 600) (latestPointIndex weeklyPoint 0 600) := by
  have hindex : latestPointIndex weeklyPoint 0 600 = noIndex := by decide +kernel
  refine ⟨by decide +kernel, fun hexact => ?_⟩
  exact hexact.none.1 hindex ⟨0, by decide, by decide⟩

/-- On a Tuesday at 10:00 it is found. -/
theorem latestPointIndex_exact_iff_weeklyPoint :
    LatestExact weeklyPoint (weekMinute 1 (600 : BitVec 16).toNat)
        (latestPointIndex weeklyPoint (1 : ℕ) 600) ↔
      (¬weeklyPoint.HasEnabled ∨ weeklyPoint.InReach 1 (600 : BitVec 16).toNat) :=
  latestPointIndex_exact_iff latestPointIndex_weeklyPoint.1 (by decide) (by decide)

/-! ## The next point -/

/-- The day of the week that is `dayForward` days ahead. -/
theorem tmod_forward (weekday dayForward : ℕ) :
    Int.tmod ((weekday : ℤ) + dayForward) 7 = ((weekday + dayForward) % 7 : ℕ) :=
  Int.ofNat_tmod _ _

theorem pointDelta_toNat {dayForward : ℕ} {minute : BitVec 16} {point : Point}
    (hforward : dayForward < 7) (hminute : minute.toNat < dayMinutes)
    (hdue : point.minuteOfDay.toNat < 24 * 60) :
    (BitVec.ofInt 32 (pointDelta dayForward minute point)).toNat =
      if dayForward * 1440 + point.minuteOfDay.toNat ≤ minute.toNat then
        point.minuteOfDay.toNat + 7 * 1440 - minute.toNat
      else dayForward * 1440 + point.minuteOfDay.toNat - minute.toNat := by
  rw [dayMinutes] at hminute
  have hvalue : pointDelta dayForward minute point =
      ((if dayForward * 1440 + point.minuteOfDay.toNat ≤ minute.toNat then
        point.minuteOfDay.toNat + 7 * 1440 - minute.toNat
      else dayForward * 1440 + point.minuteOfDay.toNat - minute.toNat : ℕ) : ℤ) := by
    rw [pointDelta]
    by_cases hpast : dayForward * 1440 + point.minuteOfDay.toNat ≤ minute.toNat
    · rw [if_pos hpast, if_pos (by omega)]
      omega
    · rw [if_neg hpast, if_neg (by omega)]
      omega
  rw [hvalue, BitVec.ofInt_natCast, BitVec.toNat_ofNat]
  apply Nat.mod_eq_of_lt
  split <;> omega

/-- How far ahead a point of the day `dayForward` days ahead is. -/
theorem ahead_dayForward {weekday dayForward : ℕ} {minute : BitVec 16} {point : Point}
    (hday : weekday < 7) (hforward : dayForward < 7) (hminute : minute.toNat < dayMinutes)
    (hdue : point.minuteOfDay.toNat < 24 * 60) :
    (BitVec.ofInt 32 (pointDelta dayForward minute point)).toNat =
      Nearest.ahead weekMinutes (weekMinute weekday minute.toNat)
        (weekMinute ((weekday + dayForward) % 7) point.minuteOfDay.toNat) := by
  rw [pointDelta_toNat hforward hminute hdue]
  simp only [weekMinute, weekMinutes, dayMinutes] at hminute ⊢
  -- The point is behind if its day is, or if it is due today and not later than now.
  by_cases hpast : (weekday + dayForward) % 7 * 1440 + point.minuteOfDay.toNat ≤
      weekday * 1440 + minute.toNat
  · rw [Nearest.ahead_of_le (by omega) hpast]
    split <;> omega
  · have hsame : weekday + dayForward < 7 := by omega
    rw [Nat.mod_eq_of_lt hsame] at hpast ⊢
    have hahead : minute.toNat < dayForward * 1440 + point.minuteOfDay.toNat := by omega
    rw [Nearest.ahead_of_lt (by omega) (by omega), if_neg (Nat.not_le.2 hahead)]
    omega

/-- What one pass of the search for the next point offers. -/
def nextOffers (config : Config) (weekday : ℤ) (minute : BitVec 16) (dayForward i : ℕ) :
    Set (ℕ × BitVec 8) :=
  {offer | pointAppliesOn (config.point i) (Int.tmod (weekday + dayForward) 7) = true ∧
    offer = ((BitVec.ofInt 32 (pointDelta dayForward minute (config.point i))).toNat,
      BitVec.ofNat 8 i)}

theorem nextPoint_least (config : Config) (weekday : ℤ) (minute : BitVec 16)
    (dayForward : ℕ) (best : Best) (i : ℕ) :
    Nearest.Least best (nextOffers config weekday minute dayForward i)
      (nextPoint config weekday minute dayForward best i) := by
  rw [nextPoint]
  by_cases happlies : pointAppliesOn (config.point i) (Int.tmod (weekday + dayForward) 7)
  · have hone : nextOffers config weekday minute dayForward i =
        {((BitVec.ofInt 32 (pointDelta dayForward minute (config.point i))).toNat,
          BitVec.ofNat 8 i)} := by
      ext offer
      constructor
      · rintro ⟨-, rfl⟩
        rfl
      · rintro rfl
        exact ⟨happlies, rfl⟩
    rw [if_neg (by simp [happlies]), hone]
    exact Nearest.Least.offer best _ _
  · have hnone : nextOffers config weekday minute dayForward i = ∅ :=
      Set.eq_empty_of_forall_notMem fun offer hoffer => happlies hoffer.1
    rw [if_pos (by simp [happlies]), hnone]
    exact Nearest.Least.empty best

theorem nextSearch_least (config : Config) (weekday : ℤ) (minute : BitVec 16) :
    Nearest.Least Best.start
      {offer | ∃ dayForward ∈ List.range 7, offer ∈
        {offer | ∃ i ∈ List.range config.count.toNat,
          offer ∈ nextOffers config weekday minute dayForward i}}
      (nextSearch config weekday minute) := by
  apply Nearest.Least.foldl
  intro best dayForward
  apply Nearest.Least.foldl
  intro best i
  exact nextPoint_least config weekday minute dayForward best i

/-- An offer is a point at one of its minutes. -/
theorem exists_of_mem_nextOffers {options : Options} {config : Config}
    (hvalid : ConfigValid options config) {weekday dayForward i : ℕ} {minute : BitVec 16}
    (hday : weekday < 7) (hminute : minute.toNat < dayMinutes) (hforward : dayForward < 7)
    (hi : i < config.count.toNat) {offer : ℕ × BitVec 8}
    (hoffer : offer ∈ nextOffers config weekday minute dayForward i) :
    ∃ t, config.Occurs i t ∧
      offer = (Nearest.ahead weekMinutes (weekMinute weekday minute.toNat) t,
        BitVec.ofNat 8 i) := by
  obtain ⟨happlies, rfl⟩ := hoffer
  have hlt : (weekday + dayForward) % 7 < 7 := Nat.mod_lt _ (by decide)
  rw [tmod_forward, pointAppliesOn_eq_true hlt] at happlies
  refine ⟨_, ⟨_, ⟨hi, hlt, happlies⟩, rfl⟩, ?_⟩
  rw [ahead_dayForward hday hforward hminute (hvalid.pointValid hi).1]

/-- Every minute of a point is offered. -/
theorem mem_nextOffers {options : Options} {config : Config}
    (hvalid : ConfigValid options config) {weekday i day : ℕ} {minute : BitVec 16}
    (hday : weekday < 7) (hminute : minute.toNat < dayMinutes)
    (happlies : config.AppliesOn i day) :
    ∃ dayForward < 7, (Nearest.ahead weekMinutes (weekMinute weekday minute.toNat)
        (weekMinute day (config.point i).minuteOfDay.toNat), BitVec.ofNat 8 i) ∈
      nextOffers config weekday minute dayForward i := by
  obtain ⟨hi, hlt, henabled⟩ := happlies
  have hforward : (day + 7 - weekday) % 7 < 7 := Nat.mod_lt _ (by decide)
  have hdays : (weekday + (day + 7 - weekday) % 7) % 7 = day := by omega
  have hahead := ahead_dayForward hday hforward hminute (hvalid.pointValid hi).1
  rw [hdays] at hahead
  refine ⟨(day + 7 - weekday) % 7, hforward, ?_, ?_⟩
  · rw [tmod_forward, hdays]
    exact (pointAppliesOn_eq_true hlt).2 henabled
  · rw [hahead]

/-- If a point is enabled, the search finds the next one. -/
theorem nextSearch_isNextAt {options : Options} {config : Config}
    (hvalid : ConfigValid options config) {weekday : ℕ} {minute : BitVec 16}
    (hday : weekday < 7) (hminute : minute.toNat < dayMinutes) (henabled : config.HasEnabled) :
    ∃ i < config.count.toNat, ∃ t,
      config.IsNextAt (weekMinute weekday minute.toNat) i t ∧
      nextSearch config weekday minute =
        { key := Nearest.ahead weekMinutes (weekMinute weekday minute.toNat) t
          item := BitVec.ofNat 8 i } := by
  have hleast := nextSearch_least config weekday minute
  obtain ⟨i₀, t₀, day₀, happlies₀, rfl⟩ := henabled.exists_occurs hvalid
  obtain ⟨dayForward₀, hforward₀, hoffer₀⟩ := mem_nextOffers hvalid hday hminute happlies₀
  have hmem := hleast.mem_of_lt
    ⟨dayForward₀, List.mem_range.2 hforward₀, i₀, List.mem_range.2 happlies₀.1, hoffer₀⟩
    (Nat.lt_of_le_of_lt (Nearest.ahead_le (by decide)) (by decide))
  obtain ⟨dayForward, hforward, i, hi, hoffer⟩ := hmem
  rw [List.mem_range] at hforward hi
  obtain ⟨t, hoccurs, heq⟩ := exists_of_mem_nextOffers hvalid hday hminute hforward hi hoffer
  have hkey : (nextSearch config weekday minute).key =
      Nearest.ahead weekMinutes (weekMinute weekday minute.toNat) t := congrArg Prod.fst heq
  have hitem : (nextSearch config weekday minute).item = BitVec.ofNat 8 i :=
    congrArg Prod.snd heq
  refine ⟨i, hi, t, ⟨hoccurs, ?_⟩, ?_⟩
  · intro j u hu
    rw [← hkey]
    obtain ⟨day, happlies, rfl⟩ := hu
    obtain ⟨dayForward', hforward', hoffer'⟩ := mem_nextOffers hvalid hday hminute happlies
    exact hleast.le_offer _
      ⟨dayForward', List.mem_range.2 hforward', j, List.mem_range.2 happlies.1, hoffer'⟩
  · rw [← hkey, ← hitem]

theorem nextSearch_eq_start {config : Config} {weekday : ℕ} {minute : BitVec 16}
    (hnone : ¬config.HasEnabled) : nextSearch config weekday minute = Best.start := by
  apply (nextSearch_least config weekday minute).eq_start
  rintro offer ⟨dayForward, -, i, hi, happlies, -⟩
  rw [List.mem_range] at hi
  rw [pointAppliesOn] at happlies
  simp only [Bool.and_eq_true] at happlies
  exact hnone ⟨i, hi, happlies.1.1.1⟩

/-- The search for the next point finds it, and says how far ahead it is. -/
theorem nextPointIndex_exact {options : Options} {config : Config}
    (hvalid : ConfigValid options config) {weekday : ℕ} {minute : BitVec 16}
    (hday : weekday < 7) (hminute : minute.toNat < 1440) :
    NextExact config (weekMinute weekday minute.toNat)
      (nextPointIndex config weekday minute).1 (nextPointIndex config weekday minute).2 := by
  have hnow := weekMinute_lt hday hminute
  by_cases henabled : config.HasEnabled
  · obtain ⟨i, hi, t, hnext, hsearch⟩ := nextSearch_isNextAt hvalid hday hminute henabled
    obtain ⟨hvalue, hne⟩ := hvalid.toNat_index hi
    have hle : Nearest.ahead weekMinutes (weekMinute weekday minute.toNat) t ≤ weekMinutes :=
      Nearest.ahead_le (by decide)
    have hdistance : (nextPointIndex config weekday minute).2.toNat =
        Nearest.ahead weekMinutes (weekMinute weekday minute.toNat) t := by
      have hsmall : Nearest.ahead weekMinutes (weekMinute weekday minute.toNat) t ≤ 0xffff :=
        Nat.le_trans hle (by decide)
      rw [nextPointIndex, hsearch]
      simp only [if_neg (Nat.not_lt.2 hsmall), BitVec.toNat_ofNat]
      exact Nat.mod_eq_of_lt (Nat.lt_succ_of_le hsmall)
    have hindex : (nextPointIndex config weekday minute).1 = BitVec.ofNat 8 i := by
      rw [nextPointIndex, hsearch]
    constructor
    · exact ⟨fun h => absurd (hindex.symm.trans h.1) hne, fun h => absurd henabled h⟩
    · intro _
      refine ⟨t, ?_, hdistance⟩
      rw [hindex, hvalue]
      exact hnext
    · intro j u hj
      rw [hindex, hvalue]
      apply Nearest.IsNearest.unique _ _ ⟨u, hj⟩ ⟨t, hnext⟩
      · intro i j t u hi hj h
        exact Nearest.ahead_injective hnow (hi.lt hvalid) (hj.lt hvalid) h
      · intro i j t hi hj
        exact hi.apart hvalid hj
    · intro _
      rw [hdistance]
      exact ⟨Nearest.ahead_pos, hle⟩
  · have hsearch := @nextSearch_eq_start config weekday minute henabled
    constructor
    · refine ⟨fun _ => henabled, fun _ => ?_⟩
      rw [nextPointIndex, hsearch]
      exact ⟨rfl, by decide⟩
    · intro h
      exact absurd h henabled
    · rintro i t ⟨hoccurs, -⟩
      exact absurd hoccurs.hasEnabled henabled
    · intro h
      exact absurd h henabled

/-- On a Monday at 22:00, the point comes next in a week. -/
theorem nextPointIndex_exact_weeklyPoint :
    NextExact weeklyPoint (weekMinute 0 (1320 : BitVec 16).toNat)
      (nextPointIndex weeklyPoint (0 : ℕ) 1320).1
      (nextPointIndex weeklyPoint (0 : ℕ) 1320).2 :=
  nextPointIndex_exact latestPointIndex_weeklyPoint.1 (by decide) (by decide)

end KeemashCore.WeeklySchedule

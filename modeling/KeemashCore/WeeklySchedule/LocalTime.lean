import KeemashCore.WeeklySchedule.Task

/-!
# A fixed UTC offset

`localtime_r` in a zone whose offset never changes: the local time is cut into days and
minutes, and the day is a date of the Gregorian calendar.
-/

namespace KeemashCore.WeeklySchedule

def daySeconds : ℤ := 86400

/-- The day of a moment, counted from the first of January 1970. -/
def localDay (offset t : ℤ) : ℤ :=
  (t + offset) / daySeconds

/-- The minute of a moment, counted from the same midnight. -/
def localMinutes (offset t : ℤ) : ℤ :=
  (t + offset) / 60

/-- The year and the day of the year.  A year of a four-year block that is left over belongs
to the last year of the block, which is the leap year, and the same for centuries. -/
def yearDay (day : ℤ) : ℤ × ℤ :=
  let fromYearOne := day + 719162
  let century := min (fromYearOne % 146097 / 36524) 3
  let inCentury := fromYearOne % 146097 - 36524 * century
  let year := min (inCentury % 1461 / 365) 3
  (400 * (fromYearOne / 146097) + 100 * century + 4 * (inCentury / 1461) + year + 1,
    inCentury % 1461 - 365 * year)

/-- `localtime_r`. -/
def fixedOffset (offset t : ℤ) : Option Tm :=
  some
    { min := (t + offset) % daySeconds / 60 % 60
      hour := (t + offset) % daySeconds / 3600
      wday := (localDay offset t + 4) % 7
      year := (yearDay (localDay offset t)).1 - 1900
      yday := (yearDay (localDay offset t)).2 }

/-- The first of March 2028, a Wednesday, the day after a leap day. -/
example : yearDay 21244 = (2028, 60) ∧ (21244 + 4) % 7 = 3 := by decide

/-- The last day of a leap year. -/
example : yearDay 11322 = (2000, 365) := by decide

/-- `local_day_key` of a day. -/
def dayKey (day : ℤ) : U32 :=
  (BitVec.ofInt 32 (yearDay day).1 <<< 9) ||| BitVec.ofInt 32 (yearDay day).2

variable {offset t u : ℤ} {tm : Tm}

theorem localDayKey_fixedOffset (htm : fixedOffset offset t = some tm) :
    localDayKey tm = dayKey (localDay offset t) := by
  cases htm
  rw [localDayKey, dayKey]
  simp only [sub_add_cancel]

/-- The day of the week, Monday first. -/
theorem weekdayIndex_fixedOffset (htm : fixedOffset offset t = some tm) :
    ((weekdayIndex tm).toNat : ℤ) = (localDay offset t + 3) % 7 := by
  cases htm
  have hnonneg : 0 ≤ (localDay offset t + 4) % 7 + 6 := by omega
  rw [weekdayIndex, Int.tmod_eq_emod_of_nonneg hnonneg, BitVec.toNat_ofInt]
  omega

theorem weekdayIndex_lt (htm : fixedOffset offset t = some tm) : (weekdayIndex tm).toNat < 7 := by
  have hvalue := weekdayIndex_fixedOffset htm
  omega

theorem localMinute_fixedOffset (htm : fixedOffset offset t = some tm) :
    ((localMinute tm).toNat : ℤ) = (t + offset) % daySeconds / 60 := by
  cases htm
  have hpos : (0 : ℤ) < daySeconds := by decide
  have hlow := Int.emod_nonneg (t + offset) hpos.ne'
  have hhigh := Int.emod_lt_of_pos (t + offset) hpos
  rw [localMinute, BitVec.toNat_ofInt]
  generalize (t + offset) % daySeconds = seconds at hlow hhigh ⊢
  rw [daySeconds] at hhigh
  have hminute : seconds / 3600 * 60 + seconds / 60 % 60 = seconds / 60 := by omega
  simp only [hminute]
  omega

theorem localMinute_lt (htm : fixedOffset offset t = some tm) : (localMinute tm).toNat < 1440 := by
  have hvalue := localMinute_fixedOffset htm
  rw [daySeconds] at hvalue
  omega

/-- The minutes go on through the days. -/
theorem localMinutes_eq (htm : fixedOffset offset t = some tm) :
    localMinutes offset t = localDay offset t * 1440 + (localMinute tm).toNat := by
  rw [localMinute_fixedOffset htm, localMinutes, localDay, daySeconds]
  omega

theorem localDay_mono (h : t ≤ u) : localDay offset t ≤ localDay offset u := by
  rw [localDay, localDay, daySeconds]
  omega

theorem localMinutes_mono (h : t ≤ u) : localMinutes offset t ≤ localMinutes offset u := by
  rw [localMinutes, localMinutes]
  omega

end KeemashCore.WeeklySchedule

import KeemashCore.WeeklySchedule.Snapshot

/-!
# The minutes that a tick visits

After the catch-up and the pending retry, a tick visits the minutes that were crossed since
the last sample and then the current one, in the order of time.  In a visited minute, it
comes to the points that are due there.
-/

namespace KeemashCore.WeeklySchedule

/-! ## The boundaries -/

/-- The first boundary comes after the last sample, and within a minute. -/
theorem lt_firstBoundary (previous : ℤ) : previous < (Int.tdiv previous 60 + 1) * 60 := by
  rcases Int.le_total 0 previous with hpos | hneg
  · rw [Int.tdiv_eq_ediv_of_nonneg hpos]
    omega
  · have htrunc := @Int.tdiv_eq_ediv previous 60
    rw [show Int.sign 60 = 1 from rfl] at htrunc
    split at htrunc <;> omega

theorem mem_crossedBoundaries {previous epoch e : ℤ} :
    e ∈ crossedBoundaries previous epoch ↔
      (Int.tdiv previous 60 + 1) * 60 ≤ e ∧ e ≤ epoch ∧ e % 60 = 0 := by
  rw [crossedBoundaries, List.mem_map]
  constructor
  · rintro ⟨k, hk, rfl⟩
    rw [List.mem_range] at hk
    omega
  · rintro ⟨hfirst, hlast, hboundary⟩
    refine ⟨((e - (Int.tdiv previous 60 + 1) * 60) / 60).toNat, ?_, ?_⟩
    · rw [List.mem_range]
      omega
    · omega

theorem crossedBoundaries_lt {previous epoch e : ℤ} (h : e ∈ crossedBoundaries previous epoch) :
    previous < e ∧ e ≤ epoch := by
  rw [mem_crossedBoundaries] at h
  exact ⟨lt_of_lt_of_le (lt_firstBoundary previous) h.1, h.2.1⟩

theorem crossedBoundaries_sorted (previous epoch : ℤ) :
    (crossedBoundaries previous epoch).Pairwise (· < ·) := by
  rw [crossedBoundaries, List.pairwise_map]
  refine List.Pairwise.imp ?_ List.pairwise_lt_range
  intro a b hlt
  omega

/-! ## The visits of a tick -/

/-- The moments whose minutes a tick visits. -/
def visits (sample : Sample) (epoch : ℤ) : List ℤ :=
  (if sample.continuous && decide (sample.previousEpoch < epoch) then
    crossedBoundaries sample.previousEpoch epoch
  else []) ++ [epoch]

/-- What a tick does in the minute of a moment. -/
def jobsAt (localtime : ℤ → Option Tm) (config : Config) (e : ℤ) : List Job :=
  match localtime e with
  | some tm => minuteJobs config tm e
  | none => []

/-- The catch-up of a tick, if there is one. -/
def firstJobs (options : Options) (sample : Sample) (tm : Tm) (epoch : ℤ) : List Job :=
  if sample.catchUp && options.catchUpOnClockReady then [catchUpJob sample.config tm epoch]
  else []

section Tick

variable {options : Options} {localtime : ℤ → Option Tm} {sample : Sample} {tm : Tm}
  {epoch : ℤ}

/-- The jobs of a tick: the catch-up, the retry, and the visits. -/
theorem tickJobs_eq (henabled : sample.config.enabled = true)
    (hlocal : localtime epoch = some tm) :
    tickJobs options localtime sample tm epoch =
      firstJobs options sample tm epoch ++
        .pendingRetry :: (visits sample epoch).flatMap (jobsAt localtime sample.config) := by
  have hlast : jobsAt localtime sample.config epoch = minuteJobs sample.config tm epoch := by
    rw [jobsAt, hlocal]
  have hcrossed : crossedJobs localtime sample.config sample.previousEpoch epoch =
      (crossedBoundaries sample.previousEpoch epoch).flatMap
        (jobsAt localtime sample.config) := rfl
  rw [tickJobs, henabled, visits, firstJobs, List.flatMap_append, List.flatMap_singleton, hlast]
  simp only [Bool.not_true, Bool.false_eq_true, if_false, List.append_cancel_left_eq,
    List.cons.injEq, true_and, List.append_cancel_right_eq]
  split
  · exact hcrossed
  · rfl

theorem visits_le {e : ℤ} (h : e ∈ visits sample epoch) : e ≤ epoch := by
  rw [visits, List.mem_append, List.mem_singleton] at h
  rcases h with h | rfl
  · split at h
    · exact (crossedBoundaries_lt h).2
    · exact absurd h List.not_mem_nil
  · exact le_refl e

theorem visits_sorted (sample : Sample) (epoch : ℤ) :
    (visits sample epoch).Pairwise (· ≤ ·) := by
  rw [visits, List.pairwise_append]
  refine ⟨?_, List.pairwise_singleton _ _, ?_⟩
  · split
    · exact (crossedBoundaries_sorted _ _).imp le_of_lt
    · exact List.Pairwise.nil
  · intro e he last hlast
    rw [List.mem_singleton] at hlast
    subst hlast
    split at he
    · exact (crossedBoundaries_lt he).2
    · exact absurd he List.not_mem_nil

/-- A visit comes after the last sample, unless it is the sample itself. -/
theorem visits_ge {e : ℤ} (h : e ∈ visits sample epoch)
    (hforward : sample.previousEpoch ≤ epoch) : sample.previousEpoch ≤ e := by
  rw [visits, List.mem_append, List.mem_singleton] at h
  rcases h with h | rfl
  · split at h
    · exact le_of_lt (crossedBoundaries_lt h).1
    · exact absurd h List.not_mem_nil
  · exact hforward

end Tick

/-! ## The points of a visited minute -/

/-- The point is due in this minute. -/
def Config.DueAt (config : Config) (i : ℕ) (tm : Tm) : Prop :=
  i < config.count.toNat ∧
    pointAppliesOn (config.point i) (weekdayIndex tm).toNat = true ∧
    (config.point i).minuteOfDay = localMinute tm

theorem scheduled_mem_minuteJobs {config : Config} {tm : Tm} {e : ℤ} {b : Application} :
    Job.scheduled b ∈ minuteJobs config tm e ↔
      ∃ i, config.DueAt i tm ∧ b = dueApplication tm e i := by
  rw [minuteJobs, List.mem_filterMap]
  constructor
  · rintro ⟨i, hi, hdue⟩
    rw [List.mem_range] at hi
    split at hdue
    · next h =>
        rw [Bool.and_eq_true, beq_iff_eq] at h
        cases hdue
        exact ⟨i, ⟨hi, h.1, h.2⟩, rfl⟩
    · cases hdue
  · rintro ⟨i, ⟨hi, happlies, hminute⟩, rfl⟩
    refine ⟨i, List.mem_range.2 hi, ?_⟩
    rw [if_pos]
    rw [Bool.and_eq_true, beq_iff_eq]
    exact ⟨happlies, hminute⟩

/-- All that a tick does in a minute is to come to its points. -/
theorem exists_of_mem_jobsAt {localtime : ℤ → Option Tm} {config : Config} {e : ℤ} {job : Job}
    (h : job ∈ jobsAt localtime config e) :
    ∃ tm i, localtime e = some tm ∧ config.DueAt i tm ∧
      job = .scheduled (dueApplication tm e i) := by
  rw [jobsAt] at h
  split at h
  · next tm hlocal =>
      rw [minuteJobs, List.mem_filterMap] at h
      obtain ⟨i, hi, hdue⟩ := h
      rw [List.mem_range] at hi
      split at hdue
      · next hcheck =>
          rw [Bool.and_eq_true, beq_iff_eq] at hcheck
          cases hdue
          exact ⟨tm, i, hlocal, ⟨hi, hcheck.1, hcheck.2⟩, rfl⟩
      · cases hdue
  · exact absurd h List.not_mem_nil

/-- The points that a tick comes to. -/
theorem scheduled_mem_tickJobs {options : Options} {localtime : ℤ → Option Tm}
    {sample : Sample} {tm : Tm} {epoch : ℤ} (hlocal : localtime epoch = some tm)
    {b : Application} (h : Job.scheduled b ∈ tickJobs options localtime sample tm epoch) :
    ∃ e ∈ visits sample epoch, ∃ tm' i, localtime e = some tm' ∧ sample.config.DueAt i tm' ∧
      b = dueApplication tm' e i := by
  by_cases henabled : sample.config.enabled = true
  · rw [tickJobs_eq henabled hlocal, List.mem_append, List.mem_cons] at h
    rcases h with hfirst | hretry | hvisit
    · rw [firstJobs] at hfirst
      split at hfirst
      · rw [List.mem_singleton, catchUpJob] at hfirst
        split at hfirst
        · exact Job.noConfusion hfirst
        · exact Job.noConfusion hfirst
      · exact absurd hfirst List.not_mem_nil
    · exact Job.noConfusion hretry
    · rw [List.mem_flatMap] at hvisit
      obtain ⟨e, he, hjob⟩ := hvisit
      obtain ⟨tm', i, htm, hdue, heq⟩ := exists_of_mem_jobsAt hjob
      cases heq
      exact ⟨e, he, tm', i, htm, hdue, rfl⟩
  · rw [tickJobs, Bool.eq_false_iff.2 henabled] at h
    exact absurd h List.not_mem_nil

/-- The catch-up of a tick is for its latest point. -/
theorem catchUp_mem_tickJobs {options : Options} {localtime : ℤ → Option Tm}
    {sample : Sample} {tm : Tm} {epoch : ℤ} (hlocal : localtime epoch = some tm)
    {a : Application} (h : Job.catchUp a ∈ tickJobs options localtime sample tm epoch) :
    a =
      { index := latestPointIndex sample.config (weekdayIndex tm).toNat (localMinute tm)
        catchUp := true
        dayKey := localDayKey tm
        epoch := epoch
        mark :=
          (sample.config.point (latestPointIndex sample.config (weekdayIndex tm).toNat
            (localMinute tm)).toNat).minuteOfDay == localMinute tm } ∧ a.index ≠ noIndex := by
  by_cases henabled : sample.config.enabled = true
  · rw [tickJobs_eq henabled hlocal, List.mem_append, List.mem_cons] at h
    rcases h with hfirst | hretry | hvisit
    · rw [firstJobs] at hfirst
      split at hfirst
      · rw [List.mem_singleton, catchUpJob] at hfirst
        split at hfirst
        · next hindex =>
            cases hfirst
            exact ⟨rfl, hindex⟩
        · exact Job.noConfusion hfirst
      · exact absurd hfirst List.not_mem_nil
    · exact Job.noConfusion hretry
    · rw [List.mem_flatMap] at hvisit
      obtain ⟨e, he, hjob⟩ := hvisit
      obtain ⟨tm', i, -, -, heq⟩ := exists_of_mem_jobsAt hjob
      exact Job.noConfusion heq
  · rw [tickJobs, Bool.eq_false_iff.2 henabled] at h
    exact absurd h List.not_mem_nil

end KeemashCore.WeeklySchedule

import KeemashCore.WeeklySchedule.PendingRetry

/-!
# Visits and the latest point

A tick of a continuous clock visits every local minute since the last sample.  So the point
of the last visit that has one is the latest point at the time of the tick, and if no visit
has a point, the latest point is still the one of the last sample.
-/

namespace KeemashCore.WeeklySchedule

variable {offset : ℤ}

/-! ## Minutes of the week -/

/-- The minute of the week of a local time. -/
def weekNow (tm : Tm) : ℕ :=
  weekMinute (weekdayIndex tm).toNat (localMinute tm).toNat

/-- The first of January 1970 is a Thursday, three days into the week. -/
theorem weekNow_fixedOffset {t : ℤ} {tm : Tm} (htm : fixedOffset offset t = some tm) :
    (weekNow tm : ℤ) = (localMinutes offset t + 4320) % 10080 := by
  have hday := weekdayIndex_fixedOffset htm
  have hminute := localMinute_lt htm
  have hminutes := localMinutes_eq htm
  rw [weekNow, weekMinute, dayMinutes]
  omega

theorem weekNow_lt {t : ℤ} {tm : Tm} (htm : fixedOffset offset t = some tm) :
    weekNow tm < weekMinutes :=
  weekMinute_lt (weekdayIndex_lt htm) (localMinute_lt htm)

/-- A point is due in a minute if that is one of its minutes of the week. -/
theorem dueAt_iff_occurs {options : Options} {config : Config}
    (hvalid : ConfigValid options config) {t : ℤ} {tm : Tm}
    (htm : fixedOffset offset t = some tm) {i : ℕ} :
    config.DueAt i tm ↔ config.Occurs i (weekNow tm) := by
  have hday := weekdayIndex_lt htm
  have hminute := localMinute_lt htm
  constructor
  · rintro ⟨hi, happlies, hdue⟩
    rw [pointAppliesOn_eq_true hday] at happlies
    refine ⟨_, ⟨hi, hday, happlies⟩, ?_⟩
    rw [hdue, weekNow]
  · rintro ⟨day, ⟨hi, hlt, happlies⟩, htime⟩
    have hpoint := (hvalid.pointValid hi).1
    rw [weekNow, weekMinute, weekMinute, dayMinutes] at htime
    obtain rfl : (weekdayIndex tm).toNat = day := by omega
    refine ⟨hi, (pointAppliesOn_eq_true hday).2 happlies, BitVec.eq_of_toNat_eq ?_⟩
    omega

/-- The minute that is as long ago as a minute of the week. -/
theorem week_of_since {now t : ℕ} (hnow : now < weekMinutes) (ht : t < weekMinutes) {m : ℤ}
    (hm : (now : ℤ) = (m + 4320) % 10080) :
    (t : ℤ) = (m - Nearest.since weekMinutes now t + 4320) % 10080 := by
  have hweek : weekMinutes = 10080 := rfl
  rcases Nat.lt_or_ge now t with hlt | hle
  · rw [Nearest.since_of_lt ht hlt]
    omega
  · rw [Nearest.since_of_le hnow hle]
    omega

/-- How long ago an earlier minute is. -/
theorem since_of_minutes {now t : ℕ} {m m' : ℤ} (hnow : (now : ℤ) = (m + 4320) % 10080)
    (ht : (t : ℤ) = (m' + 4320) % 10080) (hle : m' ≤ m) (hround : m - m' < 10080) :
    (Nearest.since weekMinutes now t : ℤ) = m - m' := by
  have hweek : weekMinutes = 10080 := rfl
  have hnowlt : now < weekMinutes := by omega
  have htlt : t < weekMinutes := by omega
  rcases Nat.lt_or_ge now t with hlt | hle
  · rw [Nearest.since_of_lt htlt hlt]
    omega
  · rw [Nearest.since_of_le hnowlt hle]
    omega

/-! ## Every minute is visited -/

section Cover

variable {sample : Sample} {epoch : ℤ}

/-- Each local minute after a visit, or after the last sample, up to the current one is
visited. -/
theorem exists_visit (hpos : sample.continuous = true → 0 ≤ sample.previousEpoch) {first m : ℤ}
    (hfirst : first ∈ visits sample epoch ∨
      sample.continuous = true ∧ first = sample.previousEpoch)
    (hlt : localMinutes offset first < m) (hle : m ≤ localMinutes offset epoch) :
    ∃ e ∈ visits sample epoch, localMinutes offset e = m := by
  rcases eq_or_lt_of_le hle with hlast | hbefore
  · refine ⟨epoch, ?_, hlast.symm⟩
    rw [visits]
    exact List.mem_append_right _ (List.mem_singleton_self epoch)
  · -- Between the last sample and a later minute, the clock has been continuous.
    have hfirstlt : first < epoch := by
      rw [localMinutes] at hlt hbefore
      omega
    have hcontinuous : sample.continuous = true ∧ sample.previousEpoch ≤ first := by
      rcases hfirst with hvisit | ⟨hcontinuous, rfl⟩
      · rw [visits, List.mem_append, List.mem_singleton] at hvisit
        rcases hvisit with hcrossed | rfl
        · split at hcrossed
          · next hcheck =>
              rw [Bool.and_eq_true] at hcheck
              exact ⟨hcheck.1, (crossedBoundaries_lt hcrossed).1.le⟩
          · exact absurd hcrossed List.not_mem_nil
        · exact absurd hfirstlt (lt_irrefl _)
      · exact ⟨hcontinuous, le_refl _⟩
    have hnonneg := hpos hcontinuous.1
    have hcheck : (sample.continuous && decide (sample.previousEpoch < epoch)) = true := by
      rw [hcontinuous.1, Bool.true_and, decide_eq_true_eq]
      exact lt_of_le_of_lt hcontinuous.2 hfirstlt
    -- The boundary inside the minute.
    refine ⟨(60 * m - offset + 59) / 60 * 60, ?_, ?_⟩
    · rw [visits, if_pos hcheck]
      apply List.mem_append_left
      rw [mem_crossedBoundaries, Int.tdiv_eq_ediv_of_nonneg hnonneg]
      rw [localMinutes] at hlt hbefore
      omega
    · rw [localMinutes]
      omega

end Cover

/-! ## The last visit with a point -/

section Latest

variable {options : Options} {config : Config} {sample : Sample} {epoch : ℤ} {tm : Tm}

/-- What comes after the minute of `first` would have been visited. -/
theorem since_le_of_not_due (hvalid : ConfigValid options config)
    (hpos : sample.continuous = true → 0 ≤ sample.previousEpoch)
    (htm : fixedOffset offset epoch = some tm) {first : ℤ}
    (hfirst : first ∈ visits sample epoch ∨
      sample.continuous = true ∧ first = sample.previousEpoch)
    (hquiet : ∀ e ∈ visits sample epoch, first < e → ∀ tm', fixedOffset offset e = some tm' →
      ∀ j, ¬config.DueAt j tm') {j u : ℕ} (hu : config.Occurs j u) :
    localMinutes offset epoch - localMinutes offset first ≤
      Nearest.since weekMinutes (weekNow tm) u := by
  by_contra hlt
  rw [not_le] at hlt
  have hweek := week_of_since (weekNow_lt htm) (hu.lt hvalid) (weekNow_fixedOffset htm)
  obtain ⟨e, he, hminutes⟩ := @exists_visit offset sample epoch hpos first
    (localMinutes offset epoch - Nearest.since weekMinutes (weekNow tm) u) hfirst (by omega)
    (by omega)
  have hlater : first < e := by
    by_contra hle
    have hmono := @localMinutes_mono offset e first (not_lt.1 hle)
    omega
  cases htm' : fixedOffset offset e with
  | none => cases htm'
  | some tm' =>
      have hsame : weekNow tm' = u := by
        have hnow := weekNow_fixedOffset htm'
        rw [hminutes, ← hweek] at hnow
        exact_mod_cast hnow
      have hdue := (dueAt_iff_occurs hvalid htm' (i := j)).2 (hsame ▸ hu)
      exact hquiet e he hlater tm' htm' j hdue

/-- The point of the last visit that has one is the latest point. -/
theorem latestPointIndex_of_visit (hvalid : ConfigValid options config)
    (hpos : sample.continuous = true → 0 ≤ sample.previousEpoch)
    (hlimit : ∀ e ∈ visits sample epoch, epoch - e ≤ 120)
    (htm : fixedOffset offset epoch = some tm) {e : ℤ} {tm' : Tm} {i : ℕ}
    (he : e ∈ visits sample epoch) (htm' : fixedOffset offset e = some tm')
    (hdue : config.DueAt i tm')
    (hquiet : ∀ e' ∈ visits sample epoch, e < e' → ∀ tm'', fixedOffset offset e' = some tm'' →
      ∀ j, ¬config.DueAt j tm'') :
    latestPointIndex config (weekdayIndex tm).toNat (localMinute tm) = BitVec.ofNat 8 i := by
  have hday := weekdayIndex_lt htm
  have hminute := localMinute_lt htm
  have hoccurs := (dueAt_iff_occurs hvalid htm').1 hdue
  have hle := visits_le he
  have hnear := hlimit e he
  have hminutes := localMinutes_eq htm
  have hminutes' := localMinutes_eq htm'
  have hmono := @localMinutes_mono offset e epoch hle
  have hclose : localMinutes offset epoch - localMinutes offset e < 1440 := by
    rw [localMinutes, localMinutes]
    omega
  obtain ⟨hi, happlies, hdueMinute⟩ := hdue
  have hday' := weekdayIndex_lt htm'
  rw [pointAppliesOn_eq_true hday'] at happlies
  have hreach : config.InReach (weekdayIndex tm).toNat (localMinute tm).toNat := by
    refine ⟨i, (weekdayIndex tm').toNat, ⟨hi, hday', happlies⟩, fun hsame => ?_⟩
    have hweekday := weekdayIndex_fixedOffset htm
    have hweekday' := weekdayIndex_fixedOffset htm'
    have hminute' := localMinute_lt htm'
    rw [hdueMinute]
    omega
  obtain ⟨j, hj, hindex, hlatest⟩ := latestSearch_isLatest hvalid hday hminute hreach
  have hthis : config.IsLatest (weekNow tm) i := by
    refine ⟨weekNow tm', hoccurs, fun k u hu => ?_⟩
    have hsince := since_le_of_not_due hvalid hpos htm (Or.inl he) hquiet hu
    have hown := since_of_minutes (weekNow_fixedOffset htm) (weekNow_fixedOffset htm') hmono
      (by omega)
    omega
  have hsame : j = i := IsLatest.unique hvalid (weekNow_lt htm) hlatest hthis
  rw [hindex, hsame]

/-- If no visit has a point, the latest point is the one at the last sample. -/
theorem latestPointIndex_of_quiet (hvalid : ConfigValid options config)
    (hcontinuous : sample.continuous = true) (hpos : 0 ≤ sample.previousEpoch)
    (hforward : sample.previousEpoch ≤ epoch) (hlimit : epoch - sample.previousEpoch ≤ 120)
    (htm : fixedOffset offset epoch = some tm) {tm' : Tm}
    (htm' : fixedOffset offset sample.previousEpoch = some tm')
    (hquiet : ∀ e ∈ visits sample epoch, ∀ tm'', fixedOffset offset e = some tm'' →
      ∀ j, ¬config.DueAt j tm'')
    (hsome : latestPointIndex config (weekdayIndex tm).toNat (localMinute tm) ≠ noIndex) :
    latestPointIndex config (weekdayIndex tm').toNat (localMinute tm') =
      latestPointIndex config (weekdayIndex tm).toNat (localMinute tm) := by
  have hday := weekdayIndex_lt htm
  have hminute := localMinute_lt htm
  have hday' := weekdayIndex_lt htm'
  have hminute' := localMinute_lt htm'
  have hminutes := localMinutes_eq htm
  have hminutes' := localMinutes_eq htm'
  have hmono := @localMinutes_mono offset _ _ hforward
  have hclose : localMinutes offset epoch - localMinutes offset sample.previousEpoch < 1440 := by
    rw [localMinutes, localMinutes]
    omega
  -- All points have been due before the last sample, so they are equally longer ago now.
  have hshift : ∀ j u, config.Occurs j u →
      (Nearest.since weekMinutes (weekNow tm') u : ℤ) +
          (localMinutes offset epoch - localMinutes offset sample.previousEpoch) =
        Nearest.since weekMinutes (weekNow tm) u := by
    intro j u hu
    have hsince := since_le_of_not_due hvalid (fun _ => hpos) htm
      (Or.inr ⟨hcontinuous, rfl⟩) (fun e he _ => hquiet e he) hu
    obtain ⟨d, hd⟩ := Int.eq_ofNat_of_zero_le
      (show 0 ≤ localMinutes offset epoch - localMinutes offset sample.previousEpoch by omega)
    have hweek : weekMinutes = 10080 := rfl
    have hnow : weekNow tm = (weekNow tm' + d) % weekMinutes := by
      have h := weekNow_fixedOffset htm
      have h' := weekNow_fixedOffset htm'
      rw [hweek]
      omega
    have hadd := @Nearest.since_add weekMinutes (weekNow tm') u d (weekNow_lt htm')
      (hu.lt hvalid) (by rw [← hnow]; omega) (by omega)
    rw [← hnow] at hadd
    omega
  have hreach : config.InReach (weekdayIndex tm).toNat (localMinute tm).toNat := by
    by_contra hnone
    exact hsome (latestPointIndex_eq_noIndex hnone)
  obtain ⟨i, hi, hindex, hlatest⟩ := latestSearch_isLatest hvalid hday hminute hreach
  obtain ⟨t, hoccurs, hleast⟩ := id hlatest
  have hlatest' : config.IsLatest (weekNow tm') i := by
    refine ⟨t, hoccurs, fun j u hu => ?_⟩
    have hle : Nearest.since weekMinutes (weekNow tm) t ≤
        Nearest.since weekMinutes (weekNow tm) u := hleast j u hu
    have ht := hshift i t hoccurs
    have hother := hshift j u hu
    omega
  -- A point that was in reach now was in reach at the last sample.
  have hreach' : config.InReach (weekdayIndex tm').toNat (localMinute tm').toNat := by
    obtain ⟨j, day, happlies, hvisited⟩ := hreach
    by_contra hnone
    have hunvisited : ∀ k day, config.AppliesOn k day →
        day = (weekdayIndex tm').toNat ∧
          (localMinute tm').toNat < (config.point k).minuteOfDay.toNat := by
      intro k day hk
      by_contra hnot
      apply hnone
      refine ⟨k, day, hk, fun hsame => ?_⟩
      by_contra hlater
      exact hnot ⟨hsame, Nat.lt_of_not_le hlater⟩
    obtain ⟨rfl, hlater⟩ := hunvisited j day happlies
    have hdue := (hvalid.pointValid happlies.1).1
    have hfar := since_of_not_visited hday' hdue hlater
    have hsame := hshift j _ ⟨_, happlies, rfl⟩
    have hweekday := weekdayIndex_fixedOffset htm
    have hweekday' := weekdayIndex_fixedOffset htm'
    have hbound : Nearest.since weekMinutes (weekNow tm)
        (weekMinute (weekdayIndex tm').toNat (config.point j).minuteOfDay.toNat) ≤
        6 * dayMinutes + (localMinute tm).toNat := by
      obtain ⟨dayBack, hback, hoffer⟩ := mem_latestOffers hvalid hday hminute happlies hvisited
      obtain ⟨_, -, -, hbound⟩ :=
        exists_of_mem_latestOffers hvalid hday hminute hback happlies.1 hoffer
      exact hbound
    rw [weekNow] at hsame
    simp only [dayMinutes] at hfar hbound
    omega
  obtain ⟨j, hj, hindex', hlatest''⟩ := latestSearch_isLatest hvalid hday' hminute' hreach'
  have hsame : j = i := IsLatest.unique hvalid (weekNow_lt htm') hlatest'' hlatest'
  rw [hindex', hsame, hindex]

end Latest

end KeemashCore.WeeklySchedule

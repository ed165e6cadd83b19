import Mathlib.Data.List.Nodup
import Mathlib.Data.List.Perm.Subperm
import MetricAlerts.Metric.Compute
import MetricAlerts.Metric.Log

/-!
# Windows inside windows

Every statistic first cuts its own window out of the history that it is given.
So it does not matter over which window the history was read, as long as that
window is wide enough.  And a window holds no more observations than it has days,
as long as they are on distinct ones.
-/

namespace MetricAlerts

namespace Day

variable {day : Day} {days wide : Nat}

theorem back_le_iff {point : Day} : day.back days ≤ point ↔ day.number - days ≤ point.number := by
  have hfirst := point.first_le
  have hlast := day.le_last
  simp only [le_def, back, add?, ofNumber?]
  split
  · simp only [Option.getD_some]
    omega
  · simp only [Option.getD_none, first]
    omega

theorem back_le_back (hle : days ≤ wide) : day.back wide ≤ day.back days := by
  have hback := back_le_iff.1 (Int.le_refl (day.back days).number)
  rw [back_le_iff]
  omega

/-- The days from the start of a window on.  It makes no difference to them that the start
may have been cut off at the first day of the calendar. -/
theorem windowStart_le_iff {point : Day} :
    day.windowStart days ≤ point ↔ day.number - max days 1 < point.number := by
  rw [windowStart, back_le_iff]
  omega

/-- A window has its own day at least. -/
theorem windowStart_le (day : Day) (days : Nat) : day.windowStart days ≤ day := by
  rw [windowStart_le_iff]
  omega

/-- A wider window does not begin later. -/
theorem windowStart_le_windowStart (hle : days ≤ wide) :
    day.windowStart wide ≤ day.windowStart days := by
  apply back_le_back
  omega

theorem sub_lt_of_windowStart_le {point : Day} (hpos : 0 < days)
    (hstart : day.windowStart days ≤ point) : day.number - point.number < days := by
  rw [windowStart_le_iff] at hstart
  omega

end Day

/-- Finite observations of the days of a window that are in order are the window. -/
theorem windowOf_eq_self {history : List Observation} {asOf : Day} {days : Nat}
    (hwithin : ∀ point ∈ history,
      asOf.windowStart days ≤ point.day ∧ point.day ≤ asOf ∧ point.value.isFinite = true)
    (hordered : history.Pairwise fun a b => decide (a.day ≤ b.day) = true) :
    windowOf history asOf days = history := by
  rw [windowOf, List.filter_eq_self.2 fun point hpoint => decide_eq_true (hwithin point hpoint)]
  exact List.mergeSort_of_pairwise hordered

/-- Observations on distinct days are no more than the days of the window. -/
theorem length_windowOf_le {history : List Observation} {asOf : Day} {days : Nat}
    (hpos : 0 < days) (hdays : ((windowOf history asOf days).map Observation.day).Nodup) :
    (windowOf history asOf days).length ≤ days := by
  let ago (day : Day) : Nat := (asOf.number - day.number).toNat
  have hwithin : ∀ day ∈ (windowOf history asOf days).map Observation.day,
      asOf.windowStart days ≤ day ∧ day ≤ asOf := by
    intro day hday
    obtain ⟨point, hpoint, rfl⟩ := List.mem_map.1 hday
    rw [windowOf, List.mem_mergeSort, List.mem_filter, decide_eq_true_eq] at hpoint
    exact ⟨hpoint.2.1, hpoint.2.2.1⟩
  have hago : (((windowOf history asOf days).map Observation.day).map ago).Nodup := by
    apply hdays.map_on
    intro first hfirst second hsecond hsame
    have hbefore := (hwithin first hfirst).2
    have hother := (hwithin second hsecond).2
    simp only [Day.le_def, ago] at hbefore hother hsame
    apply Day.ext_number
    omega
  have hsubset : ((windowOf history asOf days).map Observation.day).map ago ⊆ List.range days := by
    intro count hcount
    obtain ⟨day, hday, rfl⟩ := List.mem_map.1 hcount
    have hlt := Day.sub_lt_of_windowStart_le hpos (hwithin day hday).1
    simp only [List.mem_range, ago]
    omega
  have hlength := (List.subperm_of_subset hago hsubset).length_le
  rwa [List.length_map, List.length_map, List.length_range] at hlength

theorem windowOf_within {series : Series} {asOf : Day} {days wide : Nat} (hle : days ≤ wide) :
    windowOf (series.within (asOf.windowStart wide) asOf) asOf days =
      windowOf series.points asOf days := by
  have hstart : asOf.windowStart wide ≤ asOf.windowStart days :=
    Day.windowStart_le_windowStart hle
  rw [windowOf, windowOf, Series.within, List.filter_filter]
  congr 1
  apply List.filter_congr
  intro point _
  simp only [Day.le_def] at hstart ⊢
  by_cases hin : (asOf.windowStart days).number ≤ point.day.number ∧
      point.day.number ≤ asOf.number
  · have hwide : (asOf.windowStart wide).number ≤ point.day.number := by omega
    simp [hin, hwide]
  · have hout : ¬((asOf.windowStart days).number ≤ point.day.number ∧
        point.day.number ≤ asOf.number ∧ point.value.isFinite = true) := by
      rintro ⟨hafter, hbefore, -⟩
      exact hin ⟨hafter, hbefore⟩
    simp [hout]

namespace Statistic

variable {statistic : Statistic} {asOf : Day} {lookback : Nat} {history other : List Observation}

/-- A statistic looks at nothing but its window and shorter ones. -/
theorem compute_congr
    (hsame : ∀ days ≤ statistic.window lookback,
      windowOf history asOf days = windowOf other asOf days) :
    statistic.compute asOf lookback history = statistic.compute asOf lookback other := by
  have hown := hsame _ (Nat.le_refl _)
  cases statistic with
  | change3v14 =>
      have hshort := hsame 3 (show 3 ≤ 14 by decide)
      have hlong := hsame 14 (show 14 ≤ 14 by decide)
      simp only [compute, meanWithin, hshort, hlong]
  | current => simp only [compute, hown]
  | mean3 => simp only [compute, meanWithin, hown]
  | mean7 => simp only [compute, meanWithin, hown]
  | mean14 => simp only [compute, meanWithin, hown]
  | median14 => simp only [compute, hown]
  | zscore28 => simp only [compute, hown]

/-- Read over a window that is wide enough, a series gives the same statistic
as if all of it were read. -/
theorem compute_within {series : Series} {wide : Nat} (hwide : statistic.window lookback ≤ wide) :
    statistic.compute asOf lookback (series.within (asOf.windowStart wide) asOf) =
      statistic.compute asOf lookback series.points := by
  apply compute_congr
  intro days hdays
  exact windowOf_within (Nat.le_trans hdays hwide)

end Statistic

end MetricAlerts

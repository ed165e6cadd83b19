import Mathlib.Data.List.Sort
import MetricAlerts.Proofs.Metric.Snapshot

/-!
# How far a statistic looks

No statistic looks further back than the longest window, and none looks ahead.
So two logs that agree on the days in between give the same values.  A series
of which all days lie outside counts as much as one that is not there; it is
only told in other words why there is no value.
-/

namespace MetricAlerts

namespace MetricLog

/-- The value that a user has recorded of a metric on a day. -/
def on? (log : MetricLog) (user metric : String) (day : Day) : Option Float :=
  (log.series? user metric).bind fun series => series.on? day

/-- Everything that a user has recorded of a metric, which may be nothing. -/
def points (log : MetricLog) (user metric : String) : List Observation :=
  match log.series? user metric with
  | some series => series.points
  | none => []

theorem ascending_points (log : MetricLog) (user metric : String) :
    (log.points user metric).Pairwise (·.day < ·.day) := by
  rw [points]
  split
  · next series _ => exact series.ascending
  · exact .nil

end MetricLog

theorem Series.nodup_days (series : Series) : (series.points.map Observation.day).Nodup := by
  rw [List.Nodup, List.pairwise_map]
  apply series.ascending.imp
  rintro a b hlt heq
  rw [heq] at hlt
  exact Int.lt_irrefl _ hlt

theorem Series.on?_eq_some_iff {series : Series} {day : Day} {value : Float} :
    series.on? day = some value ↔ ⟨day, value⟩ ∈ series.points := by
  rw [on?, Option.map_eq_some_iff]
  constructor
  · rintro ⟨point, hfind, rfl⟩
    have hday : point.day = day := by simpa using List.find?_some hfind
    rw [← hday]
    exact List.mem_of_find?_eq_some hfind
  · intro hmem
    obtain ⟨point, hfind⟩ : ∃ point, series.points.find? (fun point => point.day = day) =
        some point := by
      apply Option.isSome_iff_exists.1
      rw [List.find?_isSome]
      exact ⟨_, hmem, by simp⟩
    have hday : point.day = day := by simpa using List.find?_some hfind
    have hpoint := List.inj_on_of_nodup_map series.nodup_days
      (List.mem_of_find?_eq_some hfind) hmem hday
    exact ⟨point, hfind, congrArg Observation.value hpoint⟩

theorem MetricLog.on?_eq_some_iff {log : MetricLog} {user metric : String} {day : Day}
    {value : Float} :
    log.on? user metric day = some value ↔ ⟨day, value⟩ ∈ log.points user metric := by
  rw [on?, points]
  cases log.series? user metric with
  | none => simp
  | some series => exact Series.on?_eq_some_iff

/-- A window only shows the observations of its days. -/
theorem windowOf_congr {points others : List Observation} {asOf : Day} {days : Nat}
    (hpoints : points.Pairwise (·.day < ·.day)) (hothers : others.Pairwise (·.day < ·.day))
    (hsame : ∀ point : Observation, asOf.windowStart days ≤ point.day → point.day ≤ asOf →
      (point ∈ points ↔ point ∈ others)) :
    windowOf points asOf days = windowOf others asOf days := by
  have hirrefl : Std.Irrefl fun a b : Observation => a.day < b.day :=
    ⟨fun a => Int.lt_irrefl a.day.number⟩
  have hantisymm : Std.Antisymm fun a b : Observation => a.day < b.day :=
    ⟨fun a b hab hba => absurd (Int.lt_trans hab hba) (Int.lt_irrefl a.day.number)⟩
  rw [windowOf, windowOf]
  congr 1
  apply List.Pairwise.eq_of_mem_iff (hpoints.filter _) (hothers.filter _)
  intro point
  simp only [List.mem_filter, decide_eq_true_eq]
  constructor
  · rintro ⟨hpoint, hafter, hbefore, hfinite⟩
    exact ⟨(hsame point hafter hbefore).1 hpoint, hafter, hbefore, hfinite⟩
  · rintro ⟨hpoint, hafter, hbefore, hfinite⟩
    exact ⟨(hsame point hafter hbefore).2 hpoint, hafter, hbefore, hfinite⟩

namespace Statistic

theorem compute_nil (statistic : Statistic) (asOf : Day) (lookback : Nat) :
    ∃ shortfall, statistic.compute asOf lookback [] = .error shortfall := by
  have hwindow : ∀ days, windowOf [] asOf days = [] := fun _ => List.mergeSort_nil
  have hmean : ∀ days, meanWithin [] asOf days = .error (.emptyWindow days) := by
    intro days
    rw [meanWithin, hwindow]
    rfl
  cases statistic with
  | current => exact ⟨_, by rw [compute, hwindow]; rfl⟩
  | mean3 => exact ⟨_, hmean 3⟩
  | mean7 => exact ⟨_, hmean 7⟩
  | mean14 => exact ⟨_, hmean 14⟩
  | median14 =>
      refine ⟨.emptyWindow 14, ?_⟩
      rw [compute, hwindow]
      simp [median?, window]
  | change3v14 => exact ⟨_, by rw [compute, hmean]; rfl⟩
  | zscore28 => exact ⟨_, by rw [compute, hwindow]; rfl⟩

theorem window_le_longest (statistic : Statistic) (lookback : Nat) :
    statistic.window lookback ≤ max 28 lookback := by
  cases statistic <;> simp only [window] <;> omega

end Statistic

namespace MetricLog

variable {log other : MetricLog} {user : String} {asOf : Day} {lookback : Nat}

/-- A metric that is not there is as good as one without an observation, but
for the words. -/
theorem mapError_value (log : MetricLog) (user : String) (asOf : Day) (lookback : Nat)
    (reference : Reference) (words : Shortfall) :
    (log.value user asOf lookback reference).mapError (fun _ => words) =
      (reference.statistic.compute asOf lookback (log.points user reference.metric)).mapError
        fun _ => words := by
  rw [value, points]
  cases log.series? user reference.metric with
  | some series => rfl
  | none =>
      obtain ⟨shortfall, hcompute⟩ := reference.statistic.compute_nil asOf lookback
      simp only [hcompute]
      rfl

/-- Logs that agree within the longest window agree on every value, but for the
words of shortfalls. -/
theorem value_alike
    (hsame : ∀ metric day, asOf.windowStart (max 28 lookback) ≤ day → day ≤ asOf →
      log.on? user metric day = other.on? user metric day)
    (reference : Reference) (words : Shortfall) :
    (log.value user asOf lookback reference).mapError (fun _ => words) =
      (other.value user asOf lookback reference).mapError fun _ => words := by
  rw [mapError_value, mapError_value]
  congr 1
  apply Statistic.compute_congr
  intro days hdays
  apply windowOf_congr (ascending_points ..) (ascending_points ..)
  intro point hafter hbefore
  have hlong : days ≤ max 28 lookback :=
    Nat.le_trans hdays (reference.statistic.window_le_longest lookback)
  have hstart : asOf.windowStart (max 28 lookback) ≤ point.day :=
    Int.le_trans (Day.windowStart_le_windowStart hlong) hafter
  rw [← on?_eq_some_iff, ← on?_eq_some_iff, hsame reference.metric point.day hstart hbefore]

end MetricLog

end MetricAlerts

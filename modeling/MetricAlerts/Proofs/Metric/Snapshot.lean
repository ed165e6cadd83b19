import Mathlib.Data.List.Basic
import MetricAlerts.Metric.Snapshot
import MetricAlerts.Proofs.Metric.Windows

/-!
# Snapshots of a log

A snapshot reads every metric once, over the widest window that any of its
statistics needs, while a statistic that is asked for alone reads the window of
its own.  Over a log, both come to the statistic of the whole series.  What
else was asked for together with it does not matter.
-/

namespace MetricAlerts

namespace MetricLog

/-- A statistic of everything that a user has recorded. -/
def value (log : MetricLog) (user : String) (asOf : Day) (lookback : Nat)
    (reference : Reference) : Except Shortfall Float :=
  match log.series? user reference.metric with
  | some series => reference.statistic.compute asOf lookback series.points
  | none => .error (.noHistory reference.metric)

theorem resolve_source (log : MetricLog) (user : String) (asOf : Day) (lookback : Nat)
    (reference : Reference) :
    log.source.resolve user asOf lookback reference =
      (log.value user asOf lookback reference).mapError (.shortfall reference) := by
  simp only [MetricSource.resolve, source, history?, value]
  cases log.series? user reference.metric with
  | none => rfl
  | some series =>
      simp only [Option.map_some, Reference.compute]
      rw [Statistic.compute_within (Nat.le_refl _)]

end MetricLog

namespace Snapshot

variable {references : Ascending Reference} {metric : String} {statistics : List Statistic}
  {reference : Reference}

theorem mem_statisticsOf :
    reference.statistic ∈ statisticsOf reference.metric references ↔
      reference ∈ references.items := by
  simp only [statisticsOf, List.mem_map, List.mem_filter, decide_eq_true_eq]
  constructor
  · rintro ⟨other, ⟨hother, hmetric⟩, hstatistic⟩
    have hsame : other = reference := by
      cases other
      cases reference
      simp_all
    exact hsame ▸ hother
  · intro hreference
    exact ⟨reference, ⟨hreference, rfl⟩, rfl⟩

theorem mem_metricsOf :
    metric ∈ (metricsOf references).items ↔
      ∃ reference ∈ references.items, reference.metric = metric := by
  simp [metricsOf]

theorem window_le_widestWindow {statistic : Statistic} (lookback : Nat)
    (hstatistic : statistic ∈ statistics) :
    statistic.window lookback ≤ widestWindow lookback statistics := by
  rw [widestWindow, List.foldl_max]
  exact Nat.le_trans (List.le_max?_getD_of_mem (List.mem_map_of_mem hstatistic))
    (Nat.le_max_right ..)

theorem find?_insertAll (snapshot : Snapshot) (value : Statistic → Except Shortfall Float) :
    (snapshot.insertAll metric statistics value).find? reference =
      if reference.metric = metric ∧ reference.statistic ∈ statistics then
        some (value reference.statistic)
      else snapshot.find? reference := by
  rw [insertAll]
  induction statistics generalizing snapshot with
  | nil => simp
  | cons statistic statistics ih =>
      rw [List.foldl_cons, ih, Table.find?_insert]
      obtain ⟨other, asked⟩ := reference
      by_cases hmetric : other = metric
      · by_cases hstatistic : asked = statistic
        · simp [hmetric, hstatistic]
        · simp [hmetric, hstatistic]
      · simp [hmetric]

theorem insertAll_congr {snapshot : Snapshot} {value other : Statistic → Except Shortfall Float}
    (hsame : ∀ statistic ∈ statistics, value statistic = other statistic) :
    snapshot.insertAll metric statistics value = snapshot.insertAll metric statistics other := by
  rw [insertAll, insertAll]
  apply List.foldl_ext
  intro snapshot statistic hstatistic
  rw [hsame statistic hstatistic]

/-- Metrics that enter a snapshot one after the other leave each other alone. -/
theorem find?_foldl_insertAll (value : Reference → Except Shortfall Float)
    (metrics : List String) (snapshot : Snapshot) :
    (metrics.foldl (fun snapshot metric =>
        snapshot.insertAll metric (statisticsOf metric references) fun statistic =>
          value ⟨metric, statistic⟩) snapshot).find? reference =
      if reference.metric ∈ metrics ∧ reference ∈ references.items then some (value reference)
      else snapshot.find? reference := by
  induction metrics generalizing snapshot with
  | nil => simp
  | cons metric metrics ih =>
      rw [List.foldl_cons, ih, find?_insertAll]
      by_cases hmetric : reference.metric = metric
      · subst hmetric
        by_cases hasked : reference ∈ references.items
        · simp [hasked, mem_statisticsOf]
        · simp [hasked, mem_statisticsOf]
      · simp [hmetric]

variable (log : MetricLog) (user : String) (asOf : Day) (lookback : Nat)

/-- The window that is read for a metric is wide enough for all its statistics. -/
theorem addMetric_source (references : Ascending Reference) (snapshot : Snapshot)
    (metric : String) :
    addMetric log.source user asOf lookback references snapshot metric =
      .ok (snapshot.insertAll metric (statisticsOf metric references) fun statistic =>
        log.value user asOf lookback ⟨metric, statistic⟩) := by
  simp only [addMetric, MetricLog.source, MetricLog.history?, MetricLog.value]
  cases log.series? user metric with
  | none => rfl
  | some series =>
      apply congrArg Except.ok
      apply insertAll_congr
      intro statistic hstatistic
      exact Statistic.compute_within (window_le_widestWindow lookback hstatistic)

/-- What is asked for, with the values of a log. -/
def ofLog (references : Ascending Reference) : Snapshot :=
  (metricsOf references).items.foldl (fun snapshot metric =>
    snapshot.insertAll metric (statisticsOf metric references) fun statistic =>
      log.value user asOf lookback ⟨metric, statistic⟩) .empty

theorem find?_ofLog (references : Ascending Reference) (reference : Reference) :
    (ofLog log user asOf lookback references).find? reference =
      if reference ∈ references.items then some (log.value user asOf lookback reference)
      else none := by
  rw [ofLog, find?_foldl_insertAll, Table.find?_empty]
  by_cases hasked : reference ∈ references.items
  · have hmetric : reference.metric ∈ (metricsOf references).items :=
      mem_metricsOf.2 ⟨reference, hasked, rfl⟩
    simp only [hasked, hmetric, and_self, if_true]
  · simp only [hasked, and_false, if_false]

/-- What was asked for has the value of the log, whatever else was asked for. -/
theorem get_ofLog {references : Ascending Reference} {reference : Reference}
    (hasked : reference ∈ references.items) :
    (ofLog log user asOf lookback references).get reference =
      log.value user asOf lookback reference := by
  rw [get, find?_ofLog, if_pos hasked, Option.getD_some]

/-- A snapshot of a log does not fail. -/
theorem take_source (references : Ascending Reference) :
    take log.source user asOf lookback references =
      .ok (ofLog log user asOf lookback references) := by
  have hadd : addMetric log.source user asOf lookback references = fun snapshot metric =>
      pure (snapshot.insertAll metric (statisticsOf metric references) fun statistic =>
        log.value user asOf lookback ⟨metric, statistic⟩) := by
    funext snapshot metric
    exact addMetric_source log user asOf lookback references snapshot metric
  rw [take, hadd, List.foldlM_pure]
  rfl

end Snapshot

end MetricAlerts

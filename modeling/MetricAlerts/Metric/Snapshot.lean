import MetricAlerts.Ascending
import MetricAlerts.Metric.Compute

/-!
# Snapshots

The statistics that one pass of evaluation needs for one user and day. Every metric is read once,
over the widest window that any of its statistics needs.
-/

namespace MetricAlerts

abbrev Snapshot := Table Reference (Except Shortfall Float)

def Shortfall.unresolved (reference : Reference) : Shortfall :=
  .missing (reference.metric ++ ":" ++ reference.statistic.name ++ " was not resolved")

namespace Snapshot

/-- Statistics that were never asked for count as missing. -/
def get (snapshot : Snapshot) (reference : Reference) : Except Shortfall Float :=
  (snapshot.find? reference).getD (.error (.unresolved reference))

def value? (snapshot : Snapshot) (reference : Reference) : Option Float :=
  (snapshot.get reference).toOption

def statisticsOf (metric : String) (references : Ascending Reference) : List Statistic :=
  (references.items.filter fun reference => reference.metric = metric).map Reference.statistic

def widestWindow (lookback : Nat) (statistics : List Statistic) : Nat :=
  (statistics.map (Statistic.window lookback)).foldl max 1

def insertAll (snapshot : Snapshot) (metric : String) (statistics : List Statistic)
    (value : Statistic → Except Shortfall Float) : Snapshot :=
  statistics.foldl (fun snapshot statistic => snapshot.insert ⟨metric, statistic⟩ (value statistic))
    snapshot

/-- Adds the statistics of one metric; fails when the metric cannot be read. -/
def addMetric (source : MetricSource) (user : String) (asOf : Day) (lookback : Nat)
    (references : Ascending Reference) (snapshot : Snapshot) (metric : String) :
    Except String Snapshot :=
  let statistics := statisticsOf metric references
  match source.read user metric asOf (widestWindow lookback statistics) with
  | .ok history =>
      .ok (snapshot.insertAll metric statistics fun statistic =>
        statistic.compute asOf lookback history)
  | .error (.noSeries _ _) =>
      .ok (snapshot.insertAll metric statistics fun _ => .error (.noHistory metric))
  | .error (.unreachable detail) => .error detail

def metricsOf (references : Ascending Reference) : Ascending String :=
  .ofList (references.items.map Reference.metric)

/-- Every statistic asked for, or the detail of the first failed read in the order of metrics. -/
def take (source : MetricSource) (user : String) (asOf : Day) (lookback : Nat)
    (references : Ascending Reference) : Except String Snapshot :=
  (metricsOf references).items.foldlM (addMetric source user asOf lookback references) .empty

/-- Every statistic of the given metrics. -/
def takeAll (source : MetricSource) (user : String) (asOf : Day) (lookback : Nat)
    (metrics : List String) : Except String Snapshot :=
  take source user asOf lookback
    (.ofList (metrics.flatMap fun metric => Statistic.all.map (Reference.mk metric)))

/-- The values by metric and statistic, both in ascending order of names. A shortfall is shown as
no value. -/
def byMetric (snapshot : Snapshot) : List (String × List (String × Option Float)) :=
  let metrics : Ascending String := .ofList (snapshot.keys.map Reference.metric)
  metrics.items.map fun metric =>
    let own := snapshot.entries.filter fun entry => entry.1.metric = metric
    let rows := own.map fun entry => (entry.1.statistic.name, entry.2.toOption)
    (metric, rows.mergeSort fun a b => a.1 ≤ b.1)

end Snapshot

end MetricAlerts

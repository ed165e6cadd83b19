import MetricAlerts.Ascending
import MetricAlerts.Metric.Series
import MetricAlerts.Table

/-!
# Metric logs

The recorded values of all users. A series exists as soon as one finite value was recorded; values
that are not finite are not recorded at all.
-/

namespace MetricAlerts

structure SeriesKey where
  user : String
  metric : String
deriving DecidableEq

abbrev MetricLog := Table SeriesKey Series

namespace MetricLog

def series? (log : MetricLog) (user metric : String) : Option Series :=
  log.find? ⟨user, metric⟩

def record (log : MetricLog) (user metric : String) (day : Day) (value : Float) : MetricLog :=
  if value.isFinite then
    log.insert ⟨user, metric⟩ (((log.series? user metric).getD .empty).record day value)
  else log

/-- Observations within the `days` calendar days that end at `asOf`; nothing when there is no
series. -/
def history? (log : MetricLog) (user metric : String) (asOf : Day) (days : Nat) :
    Option (List Observation) :=
  (log.series? user metric).map fun series => series.within (asOf.windowStart days) asOf

def users (log : MetricLog) : Ascending String :=
  .ofList (log.keys.map SeriesKey.user)

/-- Metrics that at least one user has recorded. -/
def metrics (log : MetricLog) : Ascending String :=
  .ofList (log.keys.map SeriesKey.metric)

end MetricLog

end MetricAlerts

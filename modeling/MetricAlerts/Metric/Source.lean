import MetricAlerts.Metric.Log

/-!
# Sources of history

Where an evaluation reads observations from: a log, or something in front of it that may be out of
reach. A read answers with the observations of a window in the order of days.
-/

namespace MetricAlerts

inductive ReadFailure where
  | noSeries (user metric : String)
  | unreachable (detail : String)
deriving DecidableEq

/-- What went wrong with the storage of metrics, however it was noticed. -/
def metricsUnreachable (detail : String) : String :=
  "metric store unavailable: " ++ detail

def ReadFailure.message : ReadFailure → String
  | noSeries user metric => "variable '" ++ metric ++ "' is unknown for user " ++ user
  | unreachable detail => metricsUnreachable detail

structure MetricSource where
  /-- Observations of a metric of a user, within the given number of days up to a day. -/
  read : (user metric : String) → (asOf : Day) → (days : Nat) →
    Except ReadFailure (List Observation)

def MetricLog.source (log : MetricLog) : MetricSource where
  read user metric asOf days :=
    match log.history? user metric asOf days with
    | some history => .ok history
    | none => .error (.noSeries user metric)

/-- The source as it is while the given metrics cannot be read. -/
def MetricSource.withOutage (source : MetricSource) (down : String → Bool) (detail : String) :
    MetricSource where
  read user metric asOf days :=
    if down metric then .error (.unreachable detail) else source.read user metric asOf days

end MetricAlerts

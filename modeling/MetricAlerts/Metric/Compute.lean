import MetricAlerts.Calendar.DayText
import MetricAlerts.Decimal.Binary
import MetricAlerts.Metric.Shortfall
import MetricAlerts.Metric.Source
import MetricAlerts.Rule.MessageSet
import MetricAlerts.Rule.Statistic

/-!
# Computing statistics

Each statistic is a function of the finite observations inside its window, in the order of their
days. The arithmetic is that of doubles, and sums run from the earliest observation to the latest.
-/

namespace MetricAlerts

/-- Finite observations of the `days` calendar days up to `asOf`, earliest first. -/
def windowOf (history : List Observation) (asOf : Day) (days : Nat) : List Observation :=
  (history.filter fun point =>
    asOf.windowStart days ≤ point.day ∧ point.day ≤ asOf ∧ point.value.isFinite).mergeSort
      fun a b => a.day ≤ b.day

def mean? (values : List Float) : Option Float :=
  if values.isEmpty then none else some (MessageSet.sum values / Float.ofNat values.length)

/-- The middle value, or the mean of the two in the middle. Finite values are sorted by rank. -/
def median? (values : List Float) : Option Float :=
  let sorted := values.mergeSort fun a b => Decimal.rank a ≤ Decimal.rank b
  let middle := sorted.length / 2
  if sorted.length % 2 = 0 then do
    let low ← sorted[middle - 1]?
    let high ← sorted[middle]?
    return (low + high) / 2.0
  else sorted[middle]?

def squared (x : Float) : Float := x * x

/-- Standard deviation around a known mean, over the whole population. -/
def deviation (values : List Float) (mean : Float) : Float :=
  (MessageSet.sum (values.map fun value => squared (value - mean)) /
    Float.ofNat values.length).sqrt

namespace Shortfall

def nothingWithin (days : Nat) (asOf : Day) : Shortfall :=
  missing ("no observation within " ++ toString days ++ " days of " ++ asOf.text)

def emptyWindow (days : Nat) : Shortfall :=
  insufficient ("no observations in the trailing " ++ toString days ++ " days")

def zeroMean : Shortfall :=
  insufficient "mean_14d is zero"

def shortBaseline (count : Nat) : Shortfall :=
  insufficient (toString count ++ " baseline observations, need at least 2")

def flatBaseline : Shortfall :=
  insufficient "baseline standard deviation is zero"

def noHistory (metric : String) : Shortfall :=
  missing ("no history recorded for '" ++ metric ++ "'")

end Shortfall

def meanWithin (history : List Observation) (asOf : Day) (days : Nat) : Except Shortfall Float :=
  match mean? ((windowOf history asOf days).map Observation.value) with
  | some mean => .ok mean
  | none => .error (.emptyWindow days)

/-- Distance of the latest value from the mean of the earlier ones, in standard deviations. -/
def standardScore (values : List Float) : Except Shortfall Float :=
  match values.getLast? with
  | none => .error (.emptyWindow 28)
  | some current =>
      let baseline := values.dropLast
      if baseline.length < 2 then .error (.shortBaseline baseline.length)
      else match mean? baseline with
        | none => .error (.emptyWindow 28)
        | some mean =>
            let spread := deviation baseline mean
            if spread == 0.0 then .error .flatBaseline else .ok ((current - mean) / spread)

/-- The statistic of a history as of a day. -/
def Statistic.compute (statistic : Statistic) (asOf : Day) (lookback : Nat)
    (history : List Observation) : Except Shortfall Float :=
  let days := statistic.window lookback
  let values := (windowOf history asOf days).map Observation.value
  match statistic with
  | current =>
      match values.getLast? with
      | some value => .ok value
      | none => .error (.nothingWithin days asOf)
  | mean3 | mean7 | mean14 => meanWithin history asOf days
  | median14 =>
      match median? values with
      | some median => .ok median
      | none => .error (.emptyWindow days)
  | change3v14 => do
      let short ← meanWithin history asOf 3
      let long ← meanWithin history asOf 14
      if long == 0.0 then .error .zeroMean else .ok ((short - long) / long)
  | zscore28 => standardScore values

/-- Why a single statistic could not be had. -/
inductive ResolveError where
  | shortfall (reference : Reference) (shortfall : Shortfall)
  | unreachable (detail : String)
deriving DecidableEq

namespace ResolveError

def message : ResolveError → String
  | shortfall reference (.missing detail) =>
      "missing data for '" ++ reference.metric ++ "': " ++ detail
  | shortfall reference (.insufficient detail) =>
      "insufficient data for " ++ reference.metric ++ ":" ++ reference.statistic.name ++ ": " ++
        detail
  | unreachable detail => metricsUnreachable detail

def shortfall? : ResolveError → Option Shortfall
  | shortfall _ s => some s
  | unreachable _ => none

end ResolveError

/-- A statistic from an observation history that is already at hand. -/
def Reference.compute (reference : Reference) (asOf : Day) (lookback : Nat)
    (history : List Observation) : Except ResolveError Float :=
  (reference.statistic.compute asOf lookback history).mapError (.shortfall reference)

/-- A statistic with a read of its own, over the window that it needs. -/
def MetricSource.resolve (source : MetricSource) (user : String) (asOf : Day) (lookback : Nat)
    (reference : Reference) : Except ResolveError Float :=
  match source.read user reference.metric asOf (reference.statistic.window lookback) with
  | .ok history => reference.compute asOf lookback history
  | .error (.noSeries _ metric) => .error (.shortfall reference (.noHistory metric))
  | .error (.unreachable detail) => .error (.unreachable detail)

end MetricAlerts

import MetricAlerts.Alert.Event
import MetricAlerts.Table

/-!
# Alert logs

What is kept of the alerts that were sent, and how many there were of each rule on each day.
-/

namespace MetricAlerts

structure FiredAlert where
  rule : String
  user : String
  tenant : String
  day : Day
  messageId : String
deriving DecidableEq

def AlertEvent.fired (event : AlertEvent) : FiredAlert :=
  ⟨event.rule, event.user, event.tenant, event.day, event.messageId⟩

def FiredAlert.toDocument (alert : FiredAlert) : Document :=
  .ofFields
    [("rule_id", .text alert.rule), ("user_id", .text alert.user),
      ("tenant_id", .text alert.tenant), ("date", writeDay alert.day),
      ("message_id", .text alert.messageId)]

structure DailyCount where
  day : Day
  count : Nat
deriving DecidableEq

/-- Counts of one rule, one for every day of a range. -/
structure CountSeries where
  rule : String
  points : List DailyCount
deriving DecidableEq

structure AlertCounts where
  start : Day
  finish : Day
  series : List CountSeries
deriving DecidableEq

/-- The only thing wrong with a range of days: its end comes before its start. -/
structure InvalidRange where
  start : Day
  finish : Day
deriving DecidableEq

def InvalidRange.message (range : InvalidRange) : String :=
  "end " ++ range.finish.text ++ " is before start " ++ range.start.text

/-- How many alerts there were of each rule on each day. Where there were none, nothing is kept. -/
abbrev AlertTally := Table (String × Day) Nat

namespace AlertTally

def countOn (tally : AlertTally) (rule : String) (day : Day) : Nat :=
  (tally.find? (rule, day)).getD 0

def add (tally : AlertTally) (alert : FiredAlert) : AlertTally :=
  tally.insert (alert.rule, alert.day) (tally.countOn alert.rule alert.day + 1)

/-- The rules that alerted. -/
def rules (tally : AlertTally) : Ascending String :=
  .ofList (tally.keys.map Prod.fst)

/-- What was counted of a rule on the given days. -/
def series (tally : AlertTally) (days : List Day) (rule : String) : CountSeries :=
  ⟨rule, days.map fun day => ⟨day, tally.countOn rule day⟩⟩

end AlertTally

/-- The alerts sent so far, earliest first. -/
abbrev AlertLog := List FiredAlert

namespace AlertLog

/-- Alerts of a tenant in a range of days, if rules are given only alerts of these. -/
def within (log : AlertLog) (start finish : Day) (tenant : String)
    (rules : Option (List String)) : AlertLog :=
  log.filter fun alert => alert.tenant = tenant ∧ start ≤ alert.day ∧ alert.day ≤ finish ∧
    rules.all (·.contains alert.rule)

def tally (log : AlertLog) : AlertTally :=
  log.foldl AlertTally.add .empty

/-- Daily counts of a tenant. The rules come in the given order, whether they alerted or not;
without one, the rules that alerted in the range come by id. -/
def counts (log : AlertLog) (start finish : Day) (tenant : String)
    (rules : Option (List String)) : Except InvalidRange AlertCounts :=
  if finish < start then .error ⟨start, finish⟩
  else
    let tally := (log.within start finish tenant rules).tally
    .ok ⟨start, finish, (rules.getD tally.rules.items).map (tally.series (start.span finish))⟩

end AlertLog

def DailyCount.toDocument (point : DailyCount) : Document :=
  .ofFields [("date", writeDay point.day), ("count", .int point.count)]

def CountSeries.toDocument (series : CountSeries) : Document :=
  .ofFields
    [("rule_id", .text series.rule), ("points", .list (series.points.map DailyCount.toDocument))]

def AlertCounts.toDocument (counts : AlertCounts) : Document :=
  .ofFields
    [("start", writeDay counts.start), ("end", writeDay counts.finish),
      ("series", .list (counts.series.map CountSeries.toDocument))]

end MetricAlerts

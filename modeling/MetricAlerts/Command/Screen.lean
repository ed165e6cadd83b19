import MetricAlerts.Batch.Task
import MetricAlerts.Decimal.FixedPlaces

/-!
# Answers on the screen

The lines in which answers are shown to people. What belongs to a line above is indented by two
blanks, one level of a formula deeper than the group that it is part of.
-/

namespace MetricAlerts.Command.Screen

def passed : String := "✔ "

def failed : String := "✘ "

def eventLines (event : AlertEvent) : List String :=
  [passed ++ event.rule ++ " (priority " ++ toString event.priority.toInt ++ ", message " ++
      event.messageId ++ ")",
    "  " ++ event.text] ++
    event.warnings.map ("  warning: " ++ ·)

def eventsLines (events : List AlertEvent) : List String :=
  if events.isEmpty then ["No alerts"] else events.flatMap eventLines

def truth (value : Bool) : String :=
  if value then "true" else "false"

def observedText (leaf : LeafTrace) : String :=
  match leaf.observed, leaf.shortfall with
  | some value, _ => Decimal.plainText value
  | none, some shortfall => shortfall.text
  | none, none => "n/a"

def leafLine (leaf : LeafTrace) : String :=
  leaf.metric ++ ":" ++ leaf.statistic.name ++ " " ++ leaf.comparison.name ++ " " ++
    leaf.operand.text ++ " (observed " ++ observedText leaf ++ ") -> " ++ truth leaf.result

def indent (depth : Nat) (line : String) : String :=
  String.ofList (List.replicate (2 * depth) ' ') ++ line

mutual

def traceLines (depth : Nat) : Trace → List String
  | .leaf found => [indent depth (leafLine found)]
  | .group quantifier result parts =>
      indent depth (quantifier.title ++ " -> " ++ truth result) ::
        tracesLines (depth + 1) parts

def tracesLines (depth : Nat) : List Trace → List String
  | [] => []
  | part :: parts => traceLines depth part ++ tracesLines depth parts

end

def suppressionText : Suppression → String
  | .cooldown last daysRemaining =>
      "cooldown since " ++ last.text ++ ", " ++ toString daysRemaining ++ " day(s) left"
  | .dailyCap count maxPerDay =>
      "daily cap reached (" ++ toString count.toNat ++ "/" ++ toString maxPerDay.toNat ++ ")"

def statusText : RuleStatus → String
  | .notMatched => "not matched"
  | .admitted _ => "admitted"
  | .suppressed reason => suppressionText reason
  | .skipped error => "skipped: " ++ error

def ruleLines (entry : RuleEntry) : List String :=
  (entry.rule ++ " [" ++ toString entry.priority.toInt ++ "] " ++ statusText entry.status) ::
    match entry.trace with
    | some trace => traceLines 1 trace
    | none => []

def modeText : SimulationMode → String
  | .dryRun => "DryRun"
  | .commit => "Commit"

def simulationLines (simulation : Simulation) : List String :=
  ("Simulation: " ++ toString simulation.count ++ " alert(s), mode " ++ modeText simulation.mode) ::
    eventsLines simulation.events ++
    match simulation.rules with
    | some rules => "" :: rules.flatMap ruleLines
    | none => []

def padded (width : Nat) (s : String) : String :=
  s ++ String.ofList (List.replicate (width - s.length) ' ')

def statisticLine (name : String) (value : Option Float) : String :=
  "  " ++ padded 16 name ++ " " ++
    match value with
    | some value => Decimal.fixedPlaces 4 value
    | none => "n/a"

def featuresLines (snapshot : Snapshot) : List String :=
  snapshot.byMetric.flatMap fun (metric, row) =>
    metric :: row.map fun (name, value) => statisticLine name value

/-- One rule that was checked, with its fault if it has one. -/
def checkLine (id : String) (fault : Option RuleFault) : String :=
  match fault with
  | none => passed ++ id
  | some fault => failed ++ id ++ ": " ++ fault.message

def taskLines (record : TaskRecord) : List String :=
  match record.status, record.outcome with
  | .completed, some outcome =>
      (passed ++ record.task.user ++ " " ++ toString outcome.events.length ++ " alert(s), " ++
          toString outcome.suppressed ++ " suppressed") ::
        outcome.events.map fun event => "  " ++ event.rule ++ ": " ++ event.text
  | _, _ => [failed ++ record.task.user ++ " " ++ record.lastError.getD "not finished"]

/-- Alerts of a task that has been completed. -/
def alertCount (record : TaskRecord) : Nat :=
  match record.status, record.outcome with
  | .completed, some outcome => outcome.events.length
  | _, _ => 0

def batchLines (records : List TaskRecord) : List String :=
  records.flatMap taskLines ++
    ["Batch: " ++ toString records.length ++ " user(s), " ++
      toString (records.foldl (fun total record => total + alertCount record) 0) ++ " alert(s)"]

/-- Features as a document: values by metric and statistic. -/
def featuresDocument (snapshot : Snapshot) : Document :=
  .ofFields (snapshot.byMetric.map fun (metric, row) =>
    (metric, .ofFields (row.map fun (name, value) => (name, Document.ofOption .number value))))

end MetricAlerts.Command.Screen

import MetricAlerts.Admission.Written
import MetricAlerts.Alert.Event

/-!
# Reports

What became of every rule of a tenant in one evaluation of a user. A skipped rule was not
evaluated and has no trace.
-/

namespace MetricAlerts

open Document

inductive RuleStatus where
  | notMatched
  | suppressed (reason : Suppression)
  | admitted (messageId : String)
  | skipped (error : String)
deriving DecidableEq

namespace RuleStatus

def names : List String :=
  ["not_matched", "suppressed", "admitted", "skipped"]

def fields : RuleStatus → List (String × Document)
  | notMatched => [("status", .text "not_matched")]
  | suppressed reason => [("status", .text "suppressed"), ("reason", reason.toDocument)]
  | admitted messageId => [("status", .text "admitted"), ("message_id", .text messageId)]
  | skipped error => [("status", .text "skipped"), ("error", .text error)]

/-- Reads the status out of a record that may have other fields besides. -/
def ofDocument? (d : Document) : Option RuleStatus := do
  let (status, body) ← d.tagged? .held "status" names
  match status with
  | "not_matched" => return notMatched
  | "suppressed" =>
      let fields ← body.fields? .held ["reason"]
      return suppressed (← fields.required "reason" (Suppression.ofDocument? .held))
  | "admitted" =>
      let fields ← body.fields? .held ["message_id"]
      return admitted (← fields.required "message_id" asText?)
  | _ =>
      let fields ← body.fields? .held ["error"]
      return skipped (← fields.required "error" asText?)

end RuleStatus

/-- What became of one rule. -/
structure RuleEntry where
  rule : String
  priority : Int32
  status : RuleStatus
  trace : Option Trace

namespace RuleEntry

def skipped (rule : Rule) (error : String) : RuleEntry :=
  ⟨rule.id, rule.priority, .skipped error, none⟩

def isSkipped (entry : RuleEntry) : Bool :=
  entry.status matches .skipped _

def isSuppressed (entry : RuleEntry) : Bool :=
  entry.status matches .suppressed _

/-- Whether the formula of the rule held. -/
def matched (entry : RuleEntry) : Bool :=
  entry.trace.any Trace.result

def toDocument (entry : RuleEntry) : Document :=
  .ofFields
    ([("rule_id", .text entry.rule), ("priority", writeInt32 entry.priority)] ++
      entry.status.fields ++ optionalField "trace" Trace.toDocument entry.trace)

def ofDocument? (lax : Leniency) (d : Document) : Option RuleEntry := do
  let fields ← d.fields? .shared ["rule_id", "priority", "trace"]
  return {
    rule := ← fields.required "rule_id" asText?
    priority := ← fields.required "priority" asInt32?
    status := ← RuleStatus.ofDocument? d
    trace := ← fields.optional "trace" (Trace.ofDocument? lax) }

end RuleEntry

structure Report where
  user : String
  tenant : String
  day : Day
  events : List AlertEvent
  rules : List RuleEntry

namespace Report

def toDocument (report : Report) : Document :=
  .ofFields
    [("user_id", .text report.user), ("tenant_id", .text report.tenant),
      ("date", writeDay report.day), ("events", .list (report.events.map AlertEvent.toDocument)),
      ("rules", .list (report.rules.map RuleEntry.toDocument))]

def skipped (report : Report) : List RuleEntry :=
  report.rules.filter RuleEntry.isSkipped

def suppressed (report : Report) : List RuleEntry :=
  report.rules.filter RuleEntry.isSuppressed

end Report

/-- What a simulation does to the stored histories. -/
inductive SimulationMode where
  | dryRun
  | commit
deriving DecidableEq

def SimulationMode.name : SimulationMode → String
  | dryRun => "dry_run"
  | commit => "commit"

def SimulationMode.ofDocument? (lax : Leniency) (d : Document) : Option SimulationMode := do
  match ← d.asName? lax with
  | "dry_run" => some dryRun
  | "commit" => some commit
  | _ => none

/-- The outcome of a simulation, with what became of every rule if that was asked for. -/
structure Simulation where
  count : Nat
  events : List AlertEvent
  mode : SimulationMode
  rules : Option (List RuleEntry)

namespace Simulation

def ofReport (report : Report) (mode : SimulationMode) (debug : Bool) : Simulation :=
  ⟨report.events.length, report.events, mode, if debug then some report.rules else none⟩

def toDocument (simulation : Simulation) : Document :=
  .ofFields
    ([("count", .int simulation.count),
        ("events", .list (simulation.events.map AlertEvent.toDocument)),
        ("mode", .text simulation.mode.name)] ++
      optionalField "rules" (fun rules => .list (rules.map RuleEntry.toDocument))
        simulation.rules)

def ofDocument? (lax : Leniency) (d : Document) : Option Simulation := do
  let fields ← d.fields? lax ["count", "events", "mode", "rules"]
  return {
    count := ← fields.required "count" asCount?
    events := ← fields.required "events" (readList? lax (AlertEvent.ofDocument? lax))
    mode := ← fields.required "mode" (SimulationMode.ofDocument? lax)
    rules := ← fields.optional "rules" (readList? lax (RuleEntry.ofDocument? lax)) }

end Simulation

structure SimulationOptions where
  debug : Bool
  mode : SimulationMode
deriving DecidableEq

def SimulationOptions.ofDocument? (lax : Leniency) (d : Document) : Option SimulationOptions := do
  let fields ← d.fields? lax ["debug", "mode"]
  return {
    debug := ← fields.withDefault "debug" false asBool?
    mode := ← fields.withDefault "mode" .dryRun (SimulationMode.ofDocument? lax) }

end MetricAlerts

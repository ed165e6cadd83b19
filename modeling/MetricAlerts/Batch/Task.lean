import MetricAlerts.Calendar.Instant
import MetricAlerts.Engine.Service
import MetricAlerts.Text.Uuid

/-!
# Tasks

A task asks for one user to be evaluated on one day, in earnest or as a rehearsal. Its record tells
how far it has come.
-/

namespace MetricAlerts

open Document

inductive TaskMode where
  | evaluate
  | simulate (debug : Bool)
deriving DecidableEq

namespace TaskMode

def fields : TaskMode → List (String × Document)
  | evaluate => [("mode", .text "evaluate")]
  | simulate debug => [("mode", .text "simulate"), ("debug", .bool debug)]

def toDocument (mode : TaskMode) : Document :=
  .ofFields mode.fields

/-- An evaluation has nothing else to tell, so a list has nothing after its tag. -/
def ofDocument? (lax : Leniency) (d : Document) : Option TaskMode := do
  let (mode, body) ← d.tagged? lax "mode" ["evaluate", "simulate"]
  if mode = "evaluate" then
    match body with
    | .list (_ :: _) => none
    | _ => return evaluate
  else
    let fields ← body.fields? .held ["debug"]
    return simulate (← fields.required "debug" asBool?)

end TaskMode

structure Task where
  id : Uuid
  tenant : String
  user : String
  day : Day
  mode : TaskMode
  created : Instant
deriving DecidableEq

/-- What a finished evaluation has come to. -/
structure Outcome where
  events : List AlertEvent
  /-- Rules that were left out because of their definition. -/
  skipped : List String
  suppressed : Nat

def Outcome.ofRules (events : List AlertEvent) (rules : List RuleEntry) : Outcome where
  events := events
  skipped := (rules.filter RuleEntry.isSkipped).map RuleEntry.rule
  suppressed := (rules.filter RuleEntry.isSuppressed).length

def Outcome.toDocument (outcome : Outcome) : Document :=
  .ofFields
    ([("events", .list (outcome.events.map AlertEvent.toDocument))] ++
      AlertEvent.unlessEmpty "skipped_rules" outcome.skipped ++
      [("suppressed", .int outcome.suppressed)])

inductive TaskStatus where
  | queued
  | running
  | completed
  | failed
deriving DecidableEq

def TaskStatus.name : TaskStatus → String
  | queued => "queued"
  | running => "running"
  | completed => "completed"
  | failed => "failed"

def TaskStatus.isFinished : TaskStatus → Bool
  | completed | failed => true
  | queued | running => false

structure TaskRecord where
  task : Task
  status : TaskStatus
  started : Option Instant
  finished : Option Instant
  lastError : Option String
  outcome : Option Outcome

namespace TaskRecord

def new (task : Task) : TaskRecord :=
  ⟨task, .queued, none, none, none, none⟩

def start (record : TaskRecord) (time : Instant) : TaskRecord :=
  { record with status := .running, started := some time, lastError := none }

def finish (record : TaskRecord) (time : Instant) (result : Except String Outcome) : TaskRecord :=
  match result with
  | .ok outcome =>
      { record with status := .completed, finished := some time, outcome := some outcome }
  | .error message =>
      { record with status := .failed, finished := some time, lastError := some message }

end TaskRecord

/-- What a task asks for, without its id and its time. -/
def Task.contentFields (task : Task) : List (String × Document) :=
  [("tenant_id", .text task.tenant), ("user_id", .text task.user), ("date", writeDay task.day),
    ("mode", task.mode.toDocument)]

def Task.toDocument (task : Task) : Document :=
  .ofFields
    (("id", .text task.id.text) :: task.contentFields ++ [("created_at", .text task.created.text)])

def TaskRecord.toDocument (record : TaskRecord) : Document :=
  let time (instant : Option Instant) := ofOption (fun (t : Instant) => .text t.text) instant
  .ofFields
    [("task", record.task.toDocument), ("status", .text record.status.name),
      ("started_at", time record.started), ("finished_at", time record.finished),
      ("last_error", ofOption .text record.lastError),
      ("outcome", ofOption Outcome.toDocument record.outcome)]

/-- Runs a task on a service. A rehearsal without debugging does not tell about single rules. -/
def Service.handle {σ : Type} (service : Service σ) (store : HistoryStore σ) (task : Task) :
    Except PassError Outcome × Service σ :=
  match task.mode with
  | .evaluate =>
      let (answer, service) := service.evaluate store task.user task.day task.tenant
      (answer.map fun report => .ofRules report.events report.rules, service)
  | .simulate debug =>
      let (answer, service) :=
        service.simulate store task.user task.day task.tenant ⟨debug, .dryRun⟩
      (answer.map fun result => .ofRules result.events (result.rules.getD []), service)

end MetricAlerts

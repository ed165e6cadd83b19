import MetricAlerts.Command.Screen
import MetricAlerts.Command.Workspace
import MetricAlerts.Settings.Assignments

/-!
# Running commands

A command reads files, answers on the screen and may write a file. Histories are written once, at
the end, so a command that fails leaves them as they were, whatever it has already shown.
-/

namespace MetricAlerts.Command

/-- What a command has shown and what it leaves behind. -/
structure Performance where
  lines : List String
  files : Except Failure FileTree

namespace Performance

/-- A command that shows something only at its end. -/
def ofResult (result : Except Failure (List String × FileTree)) : Performance :=
  match result with
  | .ok (lines, files) => ⟨lines, .ok files⟩
  | .error failure => ⟨[], .error failure⟩

end Performance

/-- Answers as one document or as lines. -/
def answerLines {α : Type} (json : Bool) (document : α → Document) (lines : α → List String)
    (answer : α) : List String :=
  if json then [Document.Json.renderIndented (document answer)] else lines answer

def eventsDocument (events : List AlertEvent) : Document :=
  .list (events.map AlertEvent.toDocument)

/-- Days that were evaluated, in their order, and what came after them. -/
structure DaysRun (σ : Type) where
  days : List (Day × List AlertEvent)
  ended : Except Failure (Service σ)

/-- Evaluates a user on a day and on every later day up to the last one. -/
def evaluateDays {σ : Type} (store : HistoryStore σ) (user tenant : String) (last : Day)
    (service : Service σ) (day : Day) : DaysRun σ :=
  match service.evaluate store user day tenant with
  | (.error cause, _) => ⟨[], .error (.evaluating user day cause)⟩
  | (.ok report, service) =>
      match _hnext : day.add? 1 with
      | none => ⟨[(day, report.events)], .error (.calendarEnd day)⟩
      | some next =>
          if _hlast : next ≤ last then
            let later := evaluateDays store user tenant last service next
            ⟨(day, report.events) :: later.days, later.ended⟩
          else ⟨[(day, report.events)], .ok service⟩
termination_by (last.number - day.number).toNat
decreasing_by
  have hnumber := Day.number_of_ofNumber? _hnext
  have := Day.le_def.1 _hlast
  omega

def dayLines (entry : Day × List AlertEvent) : List String :=
  entry.1.text :: Screen.eventsLines entry.2

def runEvaluate (workspace : Workspace) (files : FileTree) (sources : Sources) (json : Bool)
    (user tenant : String) (first last : Day) : Performance :=
  if last < first then ⟨[], .error (.endBeforeStart first last)⟩
  else
    let run := evaluateDays Ledger.store user tenant last workspace first
    let shown := if json then [] else run.days.flatMap dayLines
    match run.ended.bind fun service => saveHistories files sources service.histories with
    | .error failure => ⟨shown, .error failure⟩
    | .ok files =>
        let events := run.days.flatMap Prod.snd
        ⟨if json then [Document.Json.renderIndented (eventsDocument events)] else shown, .ok files⟩

def runSimulate (workspace : Workspace) (files : FileTree) (sources : Sources) (json : Bool)
    (user tenant : String) (day : Day) (debug commit : Bool) : Performance :=
  .ofResult do
    let mode := if commit then SimulationMode.commit else .dryRun
    let (answer, service) := workspace.simulate Ledger.store user day tenant ⟨debug, mode⟩
    let simulation ← answer.mapError .simulating
    let files ← if commit then saveHistories files sources service.histories else .ok files
    return (answerLines json Simulation.toDocument Screen.simulationLines simulation, files)

/-- A task for every user that metrics are recorded for. -/
def userTasks (around : Surroundings) (workspace : Workspace) (day : Day) (tenant : String)
    (mode : TaskMode) : List Task :=
  workspace.metrics.users.items.zipIdx.map fun (user, index) =>
    ⟨around.token (2 * workspace.registry.trail.length + index), tenant, user, day, mode,
      around.now⟩

def batchSettings (around : Surroundings) (workers : Option Nat) :
    Except Failure BatchSettings := do
  let settings ← (BatchSettings.ofEnvironment around.environment variablesStart).mapError .setting
  return match workers with
    | some workers => ⟨max workers 1⟩
    | none => settings

def runBatchCommand (around : Surroundings) (workspace : Workspace) (sources : Sources)
    (json : Bool) (day : Day) (tenant : String) (rehearse : Bool) (workers : Option Nat) :
    Performance :=
  .ofResult do
    let _ ← batchSettings around workers
    let mode := if rehearse then TaskMode.simulate false else .evaluate
    let (answer, service) := workspace.runBatch Ledger.store
      (userTasks around workspace day tenant mode) around.now
    let records ← answer.mapError .refused
    let files ←
      if rehearse then .ok around.files
      else saveHistories around.files sources service.histories
    return (answerLines json (fun records => .list (records.map TaskRecord.toDocument))
      Screen.batchLines records, files)

def runFeatures (workspace : Workspace) (files : FileTree) (json : Bool) (user : String)
    (day : Day) (metrics : List String) : Performance :=
  .ofResult do
    let metrics :=
      if metrics.isEmpty then workspace.glossary.list.map Metric.key else metrics
    let snapshot ← (workspace.engine.features user day metrics).mapError .computing
    return (answerLines json Screen.featuresDocument Screen.featuresLines snapshot, files)

def runValidate (files : FileTree) (sources : Sources) : Performance :=
  match checkRules files sources with
  | .error failure => ⟨[], .error failure⟩
  | .ok checks =>
      let faulty := (checks.filter fun check => check.2.isSome).length
      ⟨checks.map fun (id, fault) => Screen.checkLine id fault,
        if faulty = 0 then .ok files else .error (.faultyRules faulty checks.length)⟩

def runExport (files : FileTree) (sources : Sources) (path : String) : Performance :=
  .ofResult do
    let rules ← loadRules files sources
    let files ← (files.writeDocument path (Rule.listDocument rules)).mapError (.exporting path)
    return (["Exported " ++ toString rules.length ++ " rule(s) to " ++ path], files)

def versionLine : String := "alertline v0.1.0"

def perform (around : Surroundings) (core : CoreSettings) (invocation : Invocation) :
    Performance :=
  let sources := invocation.sources
  let json := invocation.json
  let onWorkspace (run : Workspace → Performance) : Performance :=
    match Workspace.load around sources with
    | .error failure => ⟨[], .error failure⟩
    | .ok workspace => run workspace
  match invocation.action with
  | .simulate target debug commit => onWorkspace fun workspace =>
      runSimulate workspace around.files sources json target.user
        (target.tenant.getD core.defaultTenant) target.day debug commit
  | .evaluate target through => onWorkspace fun workspace =>
      runEvaluate workspace around.files sources json target.user
        (target.tenant.getD core.defaultTenant) target.day (through.getD target.day)
  | .batch day tenant rehearse workers => onWorkspace fun workspace =>
      runBatchCommand around workspace sources json day (tenant.getD core.defaultTenant) rehearse
        workers
  | .features user day metrics => onWorkspace fun workspace =>
      runFeatures workspace around.files json user day metrics
  | .validate => runValidate around.files sources
  | .exportRules path => runExport around.files sources path
  | .version => ⟨[versionLine], .ok around.files⟩

/-- What the program does to the world outside. A program that breaks off tells nothing in `err`. -/
structure Response where
  code : Nat
  out : List String
  err : List String
  files : FileTree

/-- A file of assignments that is read before anything else, if it is there. -/
def assignmentsPath : String := ".env"

def Surroundings.withAssignments (around : Surroundings) : Surroundings :=
  match around.files.read assignmentsPath with
  | .ok text => { around with environment := around.environment.withAssignments text }
  | .error _ => around

def usage : List String :=
  ["Usage: alertline [OPTIONS] <COMMAND>", "",
    "Commands: simulate, evaluate, batch, features, validate, export, version, help",
    "Options: --rules, --metrics, --variables, --config, --triggers, --json"]

/-- Runs the program. Arguments are read before the file of assignments, so paths cannot be given
there. -/
def respond (around : Surroundings) (args : List String) : Response :=
  match Invocation.read around.environment args with
  | .error .help => ⟨0, usage, [], around.files⟩
  | .error .wrong => ⟨2, [], "error: the arguments make no command" :: "" :: usage, around.files⟩
  | .ok invocation =>
      let around := around.withAssignments
      let performance : Performance :=
        match CoreSettings.ofEnvironment around.environment variablesStart with
        | .error invalid => ⟨[], .error (.setting invalid)⟩
        | .ok core => perform around core invocation
      match performance.files with
      | .ok files => ⟨0, performance.lines, [], files⟩
      | .error failure => ⟨failure.code, performance.lines, failure.lines, around.files⟩

end MetricAlerts.Command

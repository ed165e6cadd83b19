import MetricAlerts.Command.Failure
import MetricAlerts.Command.Invocation
import MetricAlerts.Toml.Reading

/-!
# Workspaces

What a command works on, put together from files and variables: settings first, then metrics, their
glossary, rules and histories. A rule that has a fault of its own keeps everything from being put
together, but one that only does not suit the glossary is left to be skipped.
-/

namespace MetricAlerts.Command

/-- What a command takes from outside. -/
structure Surroundings where
  environment : Environment
  files : FileTree
  now : Instant
  /-- Fresh identifiers without end. -/
  token : Nat → Uuid

def Surroundings.stamp (around : Surroundings) (index : Nat) : Stamp :=
  ⟨around.now, around.token (2 * index), around.token (2 * index + 1)⟩

def settingsOfToml? (text : String) : Option EngineSettings :=
  (Toml.read? text).bind (EngineSettings.ofDocument? .file)

/-- Settings from a file if there is one, and else from variables. -/
def loadSettings (around : Surroundings) (sources : Sources) : Except Failure EngineSettings :=
  match sources.config with
  | none => (EngineSettings.ofEnvironment around.environment variablesStart).mapError .setting
  | some path => do
      let text ← (around.files.read path).mapError (.readingConfig path)
      match settingsOfToml? text with
      | some settings => return settings
      | none => .error (.parsingConfig path)

def loadItems {α : Type} (kind : ItemKind α) (content : FileContent) (files : FileTree)
    (path : String) : Except Failure (List α) :=
  (kind.load files path).mapError (.loading content path)

def loadLog (files : FileTree) (sources : Sources) : Except Failure MetricLog :=
  match sources.metrics with
  | none => .ok Table.empty
  | some path => (loadItems MetricRecord.inFiles .metrics files path).map MetricLog.ofRecords

/-- The glossary of a file, or else the metrics that are recorded. -/
def loadGlossary (files : FileTree) (sources : Sources) (log : MetricLog) :
    Except Failure Glossary :=
  match sources.glossary with
  | none => .ok (.ofMetrics (log.metrics.items.map .named))
  | some path => (loadItems Metric.inFiles .glossary files path).map Glossary.ofMetrics

def loadRules (files : FileTree) (sources : Sources) : Except Failure (List Rule) :=
  (Rule.load files sources.rules).mapError (.loading .rules sources.rules)

/-- Histories of a file that need not be there yet. -/
def loadLedger (files : FileTree) (sources : Sources) : Except Failure Ledger :=
  match sources.triggers with
  | none => .ok Table.empty
  | some path =>
      if files.exists? path then
        (loadItems HistoryRecord.inFiles .histories files path).map Ledger.ofRecords
      else .ok Table.empty

/-- Who enters the rules of the files. -/
def loader : Actor := ⟨"cli", "loader"⟩

/-- Enters rules one after the other, up to the first that cannot be entered. -/
def enterRules (stamp : Nat → Stamp) : (index : Nat) → Registry → List Rule →
    Except Failure Registry
  | _, registry, [] => .ok registry
  | index, registry, rule :: rules =>
      match registry.create rule loader (stamp index) with
      | (.error cause, _) => .error (.registering rule.id cause)
      | (.ok _, registry) => enterRules stamp (index + 1) registry rules

abbrev Workspace := Service Ledger

def Workspace.load (around : Surroundings) (sources : Sources) : Except Failure Workspace := do
  let settings ← loadSettings around sources
  let metrics ← loadLog around.files sources
  let glossary ← loadGlossary around.files sources metrics
  let rules ← loadRules around.files sources
  let registry ← enterRules around.stamp 0 .empty rules
  let histories ← loadLedger around.files sources
  return { registry, glossary, metrics, settings, down := [], histories, alerts := [] }

/-- Writes the histories back to where they came from, if they came from a file. -/
def saveHistories (files : FileTree) (sources : Sources) (ledger : Ledger) :
    Except Failure FileTree :=
  match sources.triggers with
  | none => .ok files
  | some path =>
      (files.writeDocument path (HistoryRecord.listDocument ledger.records)).mapError
        (.writingHistories path)

/-- Every rule of the files with what would keep it from being evaluated. -/
def checkRules (files : FileTree) (sources : Sources) :
    Except Failure (List (String × Option RuleFault)) := do
  let log ← loadLog files sources
  let glossary ← loadGlossary files sources log
  let rules ← loadRules files sources
  return rules.map fun rule => (rule.id, rule.evaluationFault? glossary)

end MetricAlerts.Command

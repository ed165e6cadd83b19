import MetricAlerts.Command.Option

/-!
# Invocations

What the arguments of a command line ask for. Where files are can be said before the command, after
it, or by a variable; what is said last in the arguments counts, and arguments count more than
variables.
-/

namespace MetricAlerts.Command

/-- Where the files are that a command works on. -/
structure Sources where
  rules : String
  metrics : Option String
  glossary : Option String
  config : Option String
  triggers : Option String
deriving DecidableEq

structure Target where
  user : String
  day : Day
  tenant : Option String
deriving DecidableEq

inductive Action where
  | simulate (target : Target) (debug commit : Bool)
  | evaluate (target : Target) (through : Option Day)
  | batch (day : Day) (tenant : Option String) (rehearse : Bool) (workers : Option Nat)
  | features (user : String) (day : Day) (metrics : List String)
  | validate
  | exportRules (path : String)
  | version
deriving DecidableEq

structure Invocation where
  sources : Sources
  /-- Whether answers are written as documents. -/
  json : Bool
  action : Action
deriving DecidableEq

def pathOption (name : String) : OptionForm := ⟨name, none, .path, false⟩

/-- Options that every command takes, before or after its name. -/
def sharedOptions : List OptionForm :=
  ["rules", "metrics", "variables", "config", "triggers"].map pathOption ++
    [⟨"json", none, .flag, false⟩]

def userOption : OptionForm := ⟨"user", some 'u', .text, false⟩
def dateOption : OptionForm := ⟨"date", some 'd', .day, false⟩
def tenantOption : OptionForm := ⟨"tenant", some 't', .text, false⟩

inductive CommandName where
  | simulate
  | evaluate
  | batch
  | features
  | validate
  | exportRules
  | version
deriving DecidableEq

namespace CommandName

def read? : String → Option CommandName
  | "simulate" => some simulate
  | "evaluate" => some evaluate
  | "batch" => some batch
  | "features" => some features
  | "validate" => some validate
  | "export" => some exportRules
  | "version" => some version
  | _ => none

def options : CommandName → List OptionForm
  | simulate =>
      [userOption, dateOption, tenantOption, ⟨"debug", none, .flag, false⟩,
        ⟨"commit", none, .flag, false⟩]
  | evaluate => [userOption, dateOption, tenantOption, ⟨"through", none, .day, false⟩]
  | batch =>
      [dateOption, tenantOption, ⟨"simulate", none, .flag, false⟩,
        ⟨"workers", none, .count, false⟩]
  | features => [userOption, dateOption, ⟨"var", none, .text, true⟩]
  | exportRules => [⟨"output", some 'o', .path, false⟩]
  | validate | version => []

def target? (given : Given) : Option Target := do
  return ⟨← given.value? "user", ← given.day? "date", given.value? "tenant"⟩

/-- The action, unless something that it needs was not given. -/
def action? (given : Given) : CommandName → Option Action
  | simulate => do return .simulate (← target? given) (given.has "debug") (given.has "commit")
  | evaluate => do return .evaluate (← target? given) (given.day? "through")
  | batch => do
      return .batch (← given.day? "date") (given.value? "tenant") (given.has "simulate")
        ((given.value? "workers").bind readWorkers?)
  | features => do
      return .features (← given.value? "user") (← given.day? "date") (given.values "var")
  | validate => some .validate
  | exportRules => (given.value? "output").map .exportRules
  | version => some .version

end CommandName

/-- The variable that stands in for a path that is not given. -/
def pathVariable (name : String) : String :=
  variablesStart ++ String.ofList (name.toList.map Char.toUpper)

/-- Every variable that a command may look at. -/
def variableNames : List String :=
  ["RULES", "METRICS", "VARIABLES", "CONFIG", "TRIGGERS", "ENV", "LOG_LEVEL", "DEFAULT_TENANT",
    "CURRENT_LOOKBACK_DAYS", "MAX_ADMIT_RETRIES", "BATCH_WORKERS"].map (variablesStart ++ ·)

/-- A path out of the options before and after the command, or out of its variable. An empty
variable does no harm where both places give a path. -/
def sourcePath (environment : Environment) (outer inner : Given) (name : String) :
    Except Refusal (Option String) :=
  let fallback := environment.find? (pathVariable name)
  if fallback = some "" ∧ !(outer.has name && inner.has name) then .error .wrong
  else .ok ((inner.value? name).or ((outer.value? name).or fallback))

def Sources.ofOptions (environment : Environment) (outer inner : Given) :
    Except Refusal Sources := do
  let path (name : String) := sourcePath environment outer inner name
  return {
    rules := (← path "rules").getD "rules"
    metrics := ← path "metrics"
    glossary := ← path "variables"
    config := ← path "config"
    triggers := ← path "triggers" }

/-- Paths that an invocation reads or writes. -/
def Invocation.paths (invocation : Invocation) : List String :=
  let sources := invocation.sources
  let output := match invocation.action with
    | .exportRules path => [path]
    | _ => []
  let optional := [sources.metrics, sources.glossary, sources.config, sources.triggers]
  sources.rules :: optional.filterMap id ++ output

/-- Help can be asked for about the program, or about a command by its name. -/
def readHelp : List String → Refusal
  | [] => .help
  | [name] => if name = "help" ∨ (CommandName.read? name).isSome then .help else .wrong
  | _ => .wrong

/-- What the arguments ask for. -/
def Invocation.read (environment : Environment) (args : List String) :
    Except Refusal Invocation := do
  let (outer, rest) ← readOptions sharedOptions args.length [] args
  match rest with
  | [] => .error .wrong
  | word :: rest =>
      match CommandName.read? word with
      | none => .error (if word = "help" then readHelp rest else .wrong)
      | some name =>
          let (inner, rest) ← readOptions (sharedOptions ++ name.options) rest.length [] rest
          let sources ← Sources.ofOptions environment outer inner
          match rest, name.action? inner with
          | [], some action =>
              return ⟨sources, outer.has "json" || inner.has "json", action⟩
          | _, _ => .error .wrong

end MetricAlerts.Command

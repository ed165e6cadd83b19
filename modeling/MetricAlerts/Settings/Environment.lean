import MetricAlerts.Decimal.Reading
import MetricAlerts.Engine.Settings
import MetricAlerts.Metric.Glossary
import MetricAlerts.Text.Blank

/-!
# Settings from the environment

Settings that are read from variables whose names start alike. A number may have blanks around it;
a value that does not fit its setting is an error, and a missing one leaves the default.
-/

namespace MetricAlerts

/-- Values of variables by name. -/
abbrev Environment := Table String String

/-- A variable whose value cannot be used. -/
structure InvalidVariable where
  name : String
  value : String
deriving DecidableEq

def InvalidVariable.message (invalid : InvalidVariable) : String :=
  "invalid value for environment variable " ++ invalid.name ++ ": " ++ invalid.value

/-- How every variable of this program starts unless something else is asked for. -/
def variablesStart : String := "ALERTLINE_"

/-- Reads a variable if it is there, without the blanks around its value. -/
def Environment.read? {α : Type} (environment : Environment) (name : String)
    (read : List Char → Option α) : Except InvalidVariable (Option α) :=
  match environment.find? name with
  | none => .ok none
  | some value =>
      match read (Text.trim value.toList) with
      | some a => .ok (some a)
      | none => .error ⟨name, value⟩

def readCountBelow (bound : Nat) (cs : List Char) : Option Nat := do
  let n ← Text.readCount cs
  if n < bound then some n else none

def readUInt32 (cs : List Char) : Option UInt32 :=
  (readCountBelow UInt32.size cs).map UInt32.ofNat

/-- Settings from variables that start with `start`. At least one day is looked back. -/
def EngineSettings.ofEnvironment (environment : Environment) (start : String) :
    Except InvalidVariable EngineSettings := do
  let days ← environment.read? (start ++ "CURRENT_LOOKBACK_DAYS") readUInt32
  let retries ← environment.read? (start ++ "MAX_ADMIT_RETRIES") readUInt32
  return {
    lookbackDays := (days.map (max 1)).getD initial.lookbackDays
    retries := retries.getD initial.retries }

structure BatchSettings where
  workers : Nat
deriving DecidableEq

namespace BatchSettings

def initial : BatchSettings := ⟨4⟩

/-- There is at least one worker. -/
def ofEnvironment (environment : Environment) (start : String) :
    Except InvalidVariable BatchSettings := do
  let workers ← environment.read? (start ++ "BATCH_WORKERS") (readCountBelow UInt64.size)
  return ⟨(workers.map (max 1)).getD initial.workers⟩

end BatchSettings

inductive Deployment where
  | development
  | staging
  | production
deriving DecidableEq

namespace Deployment

def name : Deployment → String
  | development => "Development"
  | staging => "Staging"
  | production => "Production"

/-- Anything that is not understood counts as development. -/
def read (value : String) : Deployment :=
  match String.ofList (value.toList.map Char.toLower) with
  | "production" | "prod" => production
  | "staging" | "stage" => staging
  | _ => development

end Deployment

structure CoreSettings where
  deployment : Deployment
  logLevel : String
  defaultTenant : String
deriving DecidableEq

namespace CoreSettings

def isProduction (settings : CoreSettings) : Bool :=
  settings.deployment == .production

def ofEnvironment (environment : Environment) (start : String) :
    Except InvalidVariable CoreSettings :=
  let tenantName := start ++ "DEFAULT_TENANT"
  let tenant := (environment.find? tenantName).getD MetricAlerts.defaultTenant
  if Text.allBlank tenant then .error ⟨tenantName, tenant⟩
  else .ok {
    deployment := ((environment.find? (start ++ "ENV")).map Deployment.read).getD .development
    logLevel := (environment.find? (start ++ "LOG_LEVEL")).getD "info"
    defaultTenant := tenant }

end CoreSettings

/-- A number among the settings. -/
def Environment.readFloat? (environment : Environment) (name : String) :
    Except InvalidVariable (Option Float) :=
  environment.read? name Decimal.readFloat?

end MetricAlerts

import MetricAlerts.Document.Fields

/-!
# Engine settings

How far back a current value may lie, and how often an admission that met a conflict is tried
again.
-/

namespace MetricAlerts

structure EngineSettings where
  lookbackDays : UInt32
  retries : UInt32
deriving DecidableEq

namespace EngineSettings

def initial : EngineSettings := ⟨365, 3⟩

/-- At least one day is looked at. -/
def lookback (settings : EngineSettings) : Nat :=
  max settings.lookbackDays.toNat 1

def toDocument (settings : EngineSettings) : Document :=
  .ofFields
    [("current_lookback_days", .int settings.lookbackDays.toNat),
      ("max_admit_retries", .int settings.retries.toNat)]

def ofDocument? (lax : Leniency) (d : Document) : Option EngineSettings := do
  let fields ← d.fields? lax ["current_lookback_days", "max_admit_retries"]
  return {
    lookbackDays := ←
      fields.withDefault "current_lookback_days" initial.lookbackDays Document.asUInt32?
    retries := ← fields.withDefault "max_admit_retries" initial.retries Document.asUInt32? }

end EngineSettings

end MetricAlerts

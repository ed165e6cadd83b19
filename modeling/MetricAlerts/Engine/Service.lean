import MetricAlerts.Alert.Log
import MetricAlerts.Engine.Pass
import MetricAlerts.Rulebook.Edit

/-!
# Services

An engine together with everything it works on: rules and their records, metrics, histories and the
log of alerts. The kind of history store is left open.
-/

namespace MetricAlerts

structure Service (σ : Type) where
  registry : Registry
  glossary : Glossary
  metrics : MetricLog
  settings : EngineSettings
  /-- Metrics that cannot be read at present. -/
  down : List String
  histories : σ
  alerts : AlertLog

namespace Service

variable {σ α : Type}

/-- What a read of a metric that is down answers. -/
def outageDetail : String := "connection refused"

def engine (service : Service σ) : Engine where
  book := service.registry.book
  glossary := service.glossary
  source := service.metrics.source.withOutage service.down.contains outageDetail
  settings := service.settings

/-- The service after something has come to its end. -/
def after (service : Service σ) (finished : Dialogue.Finished AlertEvent α σ) : Service σ :=
  { service with
    histories := finished.state
    alerts := service.alerts ++ finished.sent.map AlertEvent.fired }

def evaluate (service : Service σ) (store : HistoryStore σ) (user : String) (day : Day)
    (tenant : String) : Except PassError Report × Service σ :=
  let finished := service.engine.evaluate store user day tenant service.histories
  (finished.answer, service.after finished)

def simulate (service : Service σ) (store : HistoryStore σ) (user : String) (day : Day)
    (tenant : String) (options : SimulationOptions) :
    Except PassError Simulation × Service σ :=
  let finished := service.engine.simulate store user day tenant options service.histories
  (finished.answer, service.after finished)

end Service

end MetricAlerts

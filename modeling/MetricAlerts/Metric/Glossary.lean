import MetricAlerts.Table
import MetricAlerts.Rule.Basic

/-!
# Metrics and their glossary

The metrics that rules may refer to, with the statistics that are allowed for each and the places
with which its values are shown.
-/

namespace MetricAlerts

structure Metric where
  key : String
  label : Option String
  description : Option String
  unit : Option String
  allowed : List Statistic
  /-- Inclusive bounds, either side optional. -/
  validRange : Option (Option Float × Option Float)
  decimals : Option Nat
  category : Option String
  tenant : String
deriving DecidableEq

def defaultTenant : String := "default"

/-- A metric of which only the name is known: every statistic is allowed. -/
def Metric.named (key : String) : Metric :=
  { key
    label := none
    description := none
    unit := none
    allowed := Statistic.all
    validRange := none
    decimals := none
    category := none
    tenant := defaultTenant }

abbrev Glossary := Table String Metric

namespace Glossary

/-- Later definitions of a key replace earlier ones. -/
def ofMetrics (metrics : List Metric) : Glossary :=
  .ofList (metrics.map fun metric => (metric.key, metric))

def register (glossary : Glossary) (metric : Metric) : Glossary :=
  glossary.insert metric.key metric

/-- Every definition, by key. -/
def list (glossary : Glossary) : List Metric :=
  glossary.values.mergeSort fun a b => a.key ≤ b.key

end Glossary

end MetricAlerts

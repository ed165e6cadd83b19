import MetricAlerts.Document.Fields

/-!
# Shortfalls

Why a statistic has no value although its history could be read: there are no data at all, or too
few of them for the statistic to be defined.
-/

namespace MetricAlerts

inductive Shortfall where
  | missing (detail : String)
  | insufficient (detail : String)
deriving DecidableEq

namespace Shortfall

def text : Shortfall → String
  | missing detail => "missing data: " ++ detail
  | insufficient detail => "insufficient data: " ++ detail

def detail : Shortfall → String
  | missing detail => detail
  | insufficient detail => detail

def toDocument : Shortfall → Document
  | missing detail => .ofFields [("kind", .text "missing_data"), ("detail", .text detail)]
  | insufficient detail =>
      .ofFields [("kind", .text "insufficient_data"), ("detail", .text detail)]

def ofDocument? (lax : Leniency) (d : Document) : Option Shortfall := do
  let (kind, body) ← d.tagged? lax "kind" ["missing_data", "insufficient_data"]
  let fields ← body.fields? .held ["detail"]
  let detail ← fields.required "detail" Document.asText?
  return if kind = "missing_data" then missing detail else insufficient detail

end Shortfall

end MetricAlerts

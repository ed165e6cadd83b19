import MetricAlerts.Admission.History
import MetricAlerts.Metric.Record
import MetricAlerts.Rule.Written

/-!
# Histories in documents

A history record is one record with the fields of its key and of its history side by side.
-/

namespace MetricAlerts

open Document

namespace AlertKey

def fieldNames : List String :=
  ["tenant_id", "user_id", "rule_id"]

def fields (key : AlertKey) : List (String × Document) :=
  [("tenant_id", .text key.tenant), ("user_id", .text key.user), ("rule_id", .text key.rule)]

def toDocument (key : AlertKey) : Document :=
  .ofFields key.fields

def ofFields? (fields : Fields) : Option AlertKey := do
  return {
    tenant := ← fields.required "tenant_id" asText?
    user := ← fields.required "user_id" asText?
    rule := ← fields.required "rule_id" asText? }

def ofDocument? (lax : Leniency) (d : Document) : Option AlertKey := do
  ofFields? (← d.fields? lax fieldNames)

end AlertKey

namespace History

def fieldNames : List String :=
  ["last_triggered_on", "count_today", "today_date"]

def fields (history : History) : List (String × Document) :=
  [("last_triggered_on", ofOption writeDay history.last),
    ("count_today", writeUInt32 history.count),
    ("today_date", ofOption writeDay history.countedOn)]

def toDocument (history : History) : Document :=
  .ofFields history.fields

def ofFields? (fields : Fields) : Option History := do
  return {
    last := ← fields.nullable "last_triggered_on" readDay?
    count := ← fields.required "count_today" asUInt32?
    countedOn := ← fields.nullable "today_date" readDay? }

def ofDocument? (lax : Leniency) (d : Document) : Option History := do
  ofFields? (← d.fields? lax fieldNames)

end History

namespace HistoryRecord

def toDocument (record : HistoryRecord) : Document :=
  .ofFields (record.key.fields ++ record.history.fields)

def ofDocument? (d : Document) : Option HistoryRecord := do
  let fields ← d.fields? .shared (AlertKey.fieldNames ++ History.fieldNames)
  return ⟨← AlertKey.ofFields? fields, ← History.ofFields? fields⟩

end HistoryRecord

namespace Suppression

def toDocument : Suppression → Document
  | cooldown last daysRemaining =>
      .ofFields
        [("reason", .text "cooldown"), ("last_triggered_on", writeDay last),
          ("days_remaining", .int daysRemaining)]
  | dailyCap count maxPerDay =>
      .ofFields
        [("reason", .text "daily_cap"), ("count_today", writeUInt32 count),
          ("max_per_day", writeUInt32 maxPerDay)]

/-- A whole number of 64 bits with a sign. -/
def readRemaining (d : Document) : Option Int :=
  d.asIntWithin? Int64.minValue.toInt Int64.maxValue.toInt

def ofDocument? (lax : Leniency) (d : Document) : Option Suppression := do
  let (reason, body) ← d.tagged? lax "reason" ["cooldown", "daily_cap"]
  if reason = "cooldown" then
    let fields ← body.fields? .held ["last_triggered_on", "days_remaining"]
    return cooldown (← fields.required "last_triggered_on" readDay?)
      (← fields.required "days_remaining" readRemaining)
  else
    let fields ← body.fields? .held ["count_today", "max_per_day"]
    return dailyCap (← fields.required "count_today" asUInt32?)
      (← fields.required "max_per_day" asUInt32?)

end Suppression

end MetricAlerts

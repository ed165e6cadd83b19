import MetricAlerts.Calendar.DayText
import MetricAlerts.Document.Fields
import MetricAlerts.Metric.Log

/-!
# Metric records

What a user recorded on one day, as metric files list it. No value for a metric says that there is
none for that day.
-/

namespace MetricAlerts

open Document

def writeDay (day : Day) : Document :=
  .text day.text

def readDay? (d : Document) : Option Day :=
  d.asText?.bind Day.read?

structure MetricRecord where
  user : String
  day : Day
  values : Table String (Option Float)

namespace MetricRecord

/-- Values in the order of their names. -/
def sortedValues (record : MetricRecord) : List (String × Option Float) :=
  record.values.entries.mergeSort fun a b => a.1 ≤ b.1

def toDocument (record : MetricRecord) : Document :=
  .ofFields
    [("user_id", .text record.user), ("date", writeDay record.day),
      ("values", .ofFields (record.sortedValues.map fun (name, value) =>
        (name, ofOption .number value)))]

def readEntry (entry : Key × Document) : Option (String × Option Float) := do
  let .name name := entry.1 | none
  return (name, ← entry.2.asOption? asFloat?)

def readValues (lax : Leniency) : Document → Option (Table String (Option Float))
  | .record fields => (fields.mapM readEntry).map .ofList
  | .null => if lax.emptyFromNull then some .empty else none
  | _ => none

def ofDocument? (lax : Leniency) (d : Document) : Option MetricRecord := do
  let fields ← d.fields? lax ["user_id", "date", "values"]
  return {
    user := ← fields.required "user_id" asText?
    day := ← fields.required "date" readDay?
    values := ← fields.withDefault "values" .empty (readValues lax) }

end MetricRecord

namespace MetricLog

def addRecord (log : MetricLog) (record : MetricRecord) : MetricLog :=
  record.sortedValues.foldl (fun log (metric, value) =>
    match value with
    | some value => log.record record.user metric record.day value
    | none => log) log

def ofRecords (records : List MetricRecord) : MetricLog :=
  records.foldl addRecord .empty

end MetricLog

end MetricAlerts

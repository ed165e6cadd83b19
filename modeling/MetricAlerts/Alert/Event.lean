import MetricAlerts.Evaluation.TraceText
import MetricAlerts.Metric.Record

/-!
# Alerts

An alert is what a user is sent for a rule on a day, together with the trace that explains it.
-/

namespace MetricAlerts

open Document

structure AlertEvent where
  rule : String
  user : String
  tenant : String
  day : Day
  category : String
  priority : Int32
  severity : Int32
  locale : String
  messageId : String
  text : String
  /-- Placeholders that could not be filled. -/
  warnings : List String
  why : Trace

namespace AlertEvent

def fieldNames : List String :=
  ["rule_id", "user_id", "tenant_id", "date", "category", "priority", "severity", "locale",
    "message_id", "message_text", "warnings", "why"]

/-- A list that is left out when it is empty. -/
def unlessEmpty (name : String) (items : List String) : List (String × Document) :=
  if items.isEmpty then [] else [(name, .texts items)]

def toDocument (event : AlertEvent) : Document :=
  .ofFields
    ([("rule_id", .text event.rule), ("user_id", .text event.user),
        ("tenant_id", .text event.tenant), ("date", writeDay event.day),
        ("category", .text event.category), ("priority", writeInt32 event.priority),
        ("severity", writeInt32 event.severity), ("locale", .text event.locale),
        ("message_id", .text event.messageId), ("message_text", .text event.text)] ++
      unlessEmpty "warnings" event.warnings ++ [("why", event.why.toDocument)])

def ofDocument? (lax : Leniency) (d : Document) : Option AlertEvent := do
  let fields ← d.fields? lax fieldNames
  return {
    rule := ← fields.required "rule_id" asText?
    user := ← fields.required "user_id" asText?
    tenant := ← fields.required "tenant_id" asText?
    day := ← fields.required "date" readDay?
    category := ← fields.required "category" asText?
    priority := ← fields.required "priority" asInt32?
    severity := ← fields.required "severity" asInt32?
    locale := ← fields.required "locale" asText?
    messageId := ← fields.required "message_id" asText?
    text := ← fields.required "message_text" asText?
    warnings := ← fields.withDefault "warnings" [] (readList? lax asText?)
    why := ← fields.required "why" (Trace.ofDocument? lax) }

end AlertEvent

end MetricAlerts

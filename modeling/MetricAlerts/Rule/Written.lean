import MetricAlerts.Document.Fields
import MetricAlerts.Metric.Glossary

/-!
# Rules in documents

How rules, edits and metrics are written as documents and read back. A group of a formula is a
record with one field named for its quantifier; everything else is read as a condition.
-/

namespace MetricAlerts

open Document

def Statistic.toDocument (statistic : Statistic) : Document :=
  .text statistic.name

def Statistic.ofDocument? (lax : Leniency) (d : Document) : Option Statistic := do
  Statistic.ofName? (← d.asName? lax)

def Comparison.toDocument (comparison : Comparison) : Document :=
  .text comparison.name

def Comparison.ofDocument? (lax : Leniency) (d : Document) : Option Comparison := do
  Comparison.ofName? (← d.asName? lax)

def Quantifier.ofDocument? (lax : Leniency) (d : Document) : Option Quantifier := do
  Quantifier.ofName? (← d.asName? lax)

def Operand.toDocument : Operand → Document
  | one value => .number value
  | many values => .list (values.map .number)

def Operand.ofDocument? : Document → Option Operand
  | .list items => (items.mapM asFloat?).map .many
  | d => d.asFloat?.map .one

namespace Condition

def toDocument (c : Condition) : Document :=
  .ofFields
    [("var", .text c.metric), ("agg", c.statistic.toDocument), ("op", c.comparison.toDocument),
      ("value", c.operand.toDocument)]

/-- Without a statistic a condition is about the current value. -/
def ofDocument? (d : Document) : Option Condition := do
  let fields ← d.fields? .held ["var", "agg", "op", "value"]
  return {
    metric := ← fields.required "var" asText?
    statistic := ← fields.withDefault "agg" .current (Statistic.ofDocument? .held)
    comparison := ← fields.required "op" (Comparison.ofDocument? .held)
    operand := ← fields.required "value" Operand.ofDocument? }

end Condition

namespace Formula

mutual

def toDocument : Formula → Document
  | leaf condition => condition.toDocument
  | group quantifier parts => .ofFields [(quantifier.name, .list (toDocuments parts))]

def toDocuments : List Formula → List Document
  | [] => []
  | part :: parts => part.toDocument :: toDocuments parts

end

/-- Quantifier of a group with this key as its only field. A position is the first field of a
group, which is tried first as a group of all. -/
def groupKey? : Key → Option Quantifier
  | .name name => Quantifier.ofName? name
  | .position 0 => some .all
  | _ => none

mutual

def ofDocument? : Document → Option Formula
  | .record [(key, .list parts)] => do
      let quantifier ← groupKey? key
      return .group quantifier (← ofDocuments? parts)
  | .list [.list parts] => (ofDocuments? parts).map (.group .all)
  | d => (Condition.ofDocument? d).map .leaf

def ofDocuments? : List Document → Option (List Formula)
  | [] => some []
  | d :: ds => do
      let part ← ofDocument? d
      let parts ← ofDocuments? ds
      return part :: parts

end

end Formula

namespace Candidate

def toDocument (candidate : Candidate) : Document :=
  .ofFields (optionalField "id" .text candidate.id ++
    [("text", .text candidate.text), ("weight", .number candidate.weight)])

def ofDocument? (lax : Leniency) (d : Document) : Option Candidate := do
  let fields ← d.fields? lax ["id", "text", "weight"]
  return {
    id := ← fields.optional "id" asText?
    text := ← fields.required "text" asText?
    weight := ← fields.withDefault "weight" 1.0 asFloat? }

end Candidate

namespace MessageSet

def toDocument (messages : MessageSet) : Document :=
  .ofFields
    [("locale", .text messages.locale),
      ("candidates", .list (messages.candidates.map Candidate.toDocument))]

def ofDocument? (lax : Leniency) (d : Document) : Option MessageSet := do
  let fields ← d.fields? lax ["locale", "candidates"]
  return {
    locale := ← fields.withDefault "locale" defaultLocale asText?
    candidates := ←
      fields.withDefault "candidates" [] (readList? lax (Candidate.ofDocument? lax)) }

end MessageSet

def readTags (lax : Leniency) (d : Document) : Option (Ascending String) :=
  (readList? lax asText? d).map .ofList

def writeInt32 (n : Int32) : Document :=
  .int n.toInt

def writeUInt32 (n : UInt32) : Document :=
  .int n.toNat

namespace Rule

def fieldNames : List String :=
  ["id", "version", "tenant_id", "enabled", "description", "category", "priority", "severity",
    "cooldown_days", "max_per_day", "tags", "logic", "messages"]

def toDocument (rule : Rule) : Document :=
  .ofFields
    ([("id", .text rule.id), ("version", writeUInt32 rule.version),
        ("tenant_id", .text rule.tenant), ("enabled", .bool rule.enabled)] ++
      optionalField "description" .text rule.description ++
      [("category", .text rule.category), ("priority", writeInt32 rule.priority),
        ("severity", writeInt32 rule.severity),
        ("cooldown_days", writeUInt32 rule.cooldownDays),
        ("max_per_day", writeUInt32 rule.maxPerDay), ("tags", .texts rule.tags.items),
        ("logic", rule.logic.toDocument), ("messages", rule.messages.toDocument)])

def ofDocument? (lax : Leniency) (d : Document) : Option Rule := do
  let fields ← d.fields? lax fieldNames
  return {
    id := ← fields.required "id" asText?
    version := ← fields.withDefault "version" 1 asUInt32?
    tenant := ← fields.withDefault "tenant_id" defaultTenant asText?
    enabled := ← fields.withDefault "enabled" true asBool?
    description := ← fields.optional "description" asText?
    category := ← fields.withDefault "category" "" asText?
    priority := ← fields.withDefault "priority" 50 asInt32?
    severity := ← fields.withDefault "severity" 1 asInt32?
    cooldownDays := ← fields.withDefault "cooldown_days" 0 asUInt32?
    maxPerDay := ← fields.withDefault "max_per_day" 1 asUInt32?
    tags := ← fields.withDefault "tags" .empty (readTags lax)
    logic := ← fields.required "logic" Formula.ofDocument?
    messages := ← fields.required "messages" (MessageSet.ofDocument? lax) }

end Rule

namespace RuleEdit

def fieldNames : List String :=
  ["enabled", "tenant_id", "description", "category", "priority", "severity", "cooldown_days",
    "max_per_day", "tags", "logic", "messages"]

def toDocument (edit : RuleEdit) : Document :=
  .ofFields
    [("enabled", ofOption .bool edit.enabled), ("tenant_id", ofOption .text edit.tenant),
      ("description", ofOption .text edit.description),
      ("category", ofOption .text edit.category), ("priority", ofOption writeInt32 edit.priority),
      ("severity", ofOption writeInt32 edit.severity),
      ("cooldown_days", ofOption writeUInt32 edit.cooldownDays),
      ("max_per_day", ofOption writeUInt32 edit.maxPerDay),
      ("tags", ofOption (fun tags => .texts tags.items) edit.tags),
      ("logic", ofOption Formula.toDocument edit.logic),
      ("messages", ofOption MessageSet.toDocument edit.messages)]

def ofDocument? (lax : Leniency) (d : Document) : Option RuleEdit := do
  let fields ← d.fields? lax fieldNames
  return {
    enabled := ← fields.optional "enabled" asBool?
    tenant := ← fields.optional "tenant_id" asText?
    description := ← fields.optional "description" asText?
    category := ← fields.optional "category" asText?
    priority := ← fields.optional "priority" asInt32?
    severity := ← fields.optional "severity" asInt32?
    cooldownDays := ← fields.optional "cooldown_days" asUInt32?
    maxPerDay := ← fields.optional "max_per_day" asUInt32?
    tags := ← fields.optional "tags" (readTags lax)
    logic := ← fields.optional "logic" Formula.ofDocument?
    messages := ← fields.optional "messages" (MessageSet.ofDocument? lax) }

end RuleEdit

namespace Metric

def fieldNames : List String :=
  ["key", "label", "description", "unit", "allowed_aggregators", "valid_range", "decimals",
    "category", "tenant_id"]

def writeBounds (bounds : Option Float × Option Float) : Document :=
  .list [ofOption .number bounds.1, ofOption .number bounds.2]

def readBounds (lax : Leniency) (d : Document) : Option (Option Float × Option Float) := do
  match ← d.asList? lax with
  | [low, high] => return (← low.asOption? asFloat?, ← high.asOption? asFloat?)
  | _ => none

def toDocument (metric : Metric) : Document :=
  .ofFields
    (("key", .text metric.key) :: optionalField "label" .text metric.label ++
      optionalField "description" .text metric.description ++
      optionalField "unit" .text metric.unit ++
      [("allowed_aggregators", .list (metric.allowed.map Statistic.toDocument))] ++
      optionalField "valid_range" writeBounds metric.validRange ++
      optionalField "decimals" (fun (n : Nat) => .int n) metric.decimals ++
      optionalField "category" .text metric.category ++ [("tenant_id", .text metric.tenant)])

def ofDocument? (lax : Leniency) (d : Document) : Option Metric := do
  let fields ← d.fields? lax fieldNames
  return {
    key := ← fields.required "key" asText?
    label := ← fields.optional "label" asText?
    description := ← fields.optional "description" asText?
    unit := ← fields.optional "unit" asText?
    allowed := ← fields.withDefault "allowed_aggregators" Statistic.all
      (readList? lax (Statistic.ofDocument? lax))
    validRange := ← fields.optional "valid_range" (readBounds lax)
    decimals := ← fields.optional "decimals" asCount?
    category := ← fields.optional "category" asText?
    tenant := ← fields.withDefault "tenant_id" defaultTenant asText? }

end Metric

end MetricAlerts

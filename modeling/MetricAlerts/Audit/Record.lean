import MetricAlerts.Calendar.Instant
import MetricAlerts.Document.Fields
import MetricAlerts.Text.Uuid

/-!
# Audit records

Every change of a rule leaves a record of who did what, with the rule before and after. The trail
of records only ever grows.
-/

namespace MetricAlerts

open Document

inductive AuditAction where
  | create
  | update
  | delete
  | enable
  | clone
deriving DecidableEq

namespace AuditAction

def name : AuditAction → String
  | create => "create"
  | update => "update"
  | delete => "delete"
  | enable => "enable"
  | clone => "clone"

def all : List AuditAction :=
  [create, update, delete, enable, clone]

def ofDocument? (lax : Leniency) (d : Document) : Option AuditAction := do
  let name ← d.asName? lax
  all.find? fun action => action.name == name

end AuditAction

structure Actor where
  user : String
  role : String
deriving DecidableEq

def Actor.system : Actor := ⟨"system", "system"⟩

def Actor.ofDocument? (lax : Leniency) (d : Document) : Option Actor := do
  let fields ← d.fields? lax ["user", "role"]
  return ⟨← fields.required "user" asText?, ← fields.required "role" asText?⟩

structure AuditRecord where
  id : Uuid
  time : Instant
  actor : Actor
  action : AuditAction
  entityType : String
  entity : String
  before : Option Document
  after : Option Document

namespace AuditRecord

/-- The kind of entity that changes of rules are about. -/
def ruleType : String := "rule"

def fieldNames : List String :=
  ["id", "created_at", "user", "role", "action", "entity_type", "entity_id", "before", "after"]

/-- What the record says, without its id and its time. -/
def contentFields (record : AuditRecord) : List (String × Document) :=
  [("user", .text record.actor.user), ("role", .text record.actor.role),
    ("action", .text record.action.name), ("entity_type", .text record.entityType),
    ("entity_id", .text record.entity), ("before", ofOption (fun d => d) record.before),
    ("after", ofOption (fun d => d) record.after)]

def toDocument (record : AuditRecord) : Document :=
  .ofFields
    ([("id", .text record.id.text), ("created_at", .text record.time.text)] ++
      record.contentFields)

def ofDocument? (lax : Leniency) (d : Document) : Option AuditRecord := do
  let fields ← d.fields? lax fieldNames
  return {
    id := ← fields.required "id" fun d => d.asText?.bind Uuid.read?
    time := ← fields.required "created_at" fun d => d.asText?.bind Instant.read?
    actor := ⟨← fields.required "user" asText?, ← fields.required "role" asText?⟩
    action := ← fields.required "action" (AuditAction.ofDocument? lax)
    entityType := ← fields.required "entity_type" asText?
    entity := ← fields.required "entity_id" asText?
    before := ← fields.nullable "before" some
    after := ← fields.nullable "after" some }

end AuditRecord

/-- A filter of records; what is not given does not restrict. -/
structure AuditQuery where
  start : Option Instant
  finish : Option Instant
  rule : Option String
  user : Option String
  action : Option AuditAction
  limit : Option Nat
deriving DecidableEq

namespace AuditQuery

def everything : AuditQuery := ⟨none, none, none, none, none, none⟩

def accepts (query : AuditQuery) (record : AuditRecord) : Bool :=
  query.start.all (· ≤ record.time) && query.finish.all (record.time ≤ ·) &&
    query.rule.all (fun rule =>
      record.entityType == AuditRecord.ruleType && record.entity == rule) &&
    query.user.all (record.actor.user == ·) && query.action.all (record.action == ·)

def ofDocument? (lax : Leniency) (d : Document) : Option AuditQuery := do
  let readInstant (d : Document) := d.asText?.bind Instant.read?
  let fields ← d.fields? lax ["from", "to", "rule_id", "user", "action", "limit"]
  return {
    start := ← fields.optional "from" readInstant
    finish := ← fields.optional "to" readInstant
    rule := ← fields.optional "rule_id" asText?
    user := ← fields.optional "user" asText?
    action := ← fields.optional "action" (AuditAction.ofDocument? lax)
    limit := ← fields.optional "limit" asCount? }

end AuditQuery

/-- Records in the order in which they were made. -/
abbrev AuditTrail := List AuditRecord

/-- The records that a query asks for, newest first. -/
def AuditTrail.find (trail : AuditTrail) (query : AuditQuery) : List AuditRecord :=
  let found := trail.reverse.filter query.accepts
  match query.limit with
  | some limit => found.take limit
  | none => found

end MetricAlerts

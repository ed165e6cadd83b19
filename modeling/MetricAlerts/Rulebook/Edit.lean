import MetricAlerts.Audit.Record
import MetricAlerts.Rule.Written
import MetricAlerts.Rulebook.Basic
import MetricAlerts.Text.Slug

/-!
# Changing a rulebook

Every change is checked first and recorded with it. A change answers with the rule it has made or
with what is wrong, and in both cases with the registry that there is afterwards.
-/

namespace MetricAlerts

inductive EditError where
  | notFound (id : String)
  | alreadyExists (id : String)
  | idMismatch (expected actual : String)
  | fault (found : RuleFault)
deriving DecidableEq

def EditError.message : EditError → String
  | notFound id => "rule not found: " ++ id
  | alreadyExists id => "rule already exists: " ++ id
  | idMismatch expected actual =>
      "rule identifier cannot change from " ++ expected ++ " to " ++ actual
  | fault found => found.message

/-- What a change takes from outside: the time, an id for its record, and a token in case a rule
needs a new name. -/
structure Stamp where
  time : Instant
  record : Uuid
  token : Uuid
deriving DecidableEq

/-- A rulebook with the records of its changes. -/
structure Registry where
  book : Rulebook
  trail : AuditTrail

namespace Registry

def empty : Registry := ⟨.empty, []⟩

/-- The id under which a rule is stored. One without a letter, digit or dash gets a new name. -/
def normalId (id : String) (token : Uuid) : String :=
  let slug := Text.slug id
  if slug.isEmpty then "rule-" ++ token.text else slug

def revisionBy (actor : Actor) (stamp : Stamp) (rule : Rule) : Revision :=
  ⟨rule.version, rule, stamp.time, some actor.user⟩

def recordOf (actor : Actor) (stamp : Stamp) (action : AuditAction) (id : String)
    (before after : Option Rule) : AuditRecord :=
  { id := stamp.record
    time := stamp.time
    actor
    action
    entityType := AuditRecord.ruleType
    entity := id
    before := before.map Rule.toDocument
    after := after.map Rule.toDocument }

/-- Stores a new rule at version 1, under its normal id. -/
def create (registry : Registry) (rule : Rule) (actor : Actor) (stamp : Stamp) :
    Except EditError Rule × Registry :=
  let rule := { rule with id := normalId rule.id stamp.token, version := 1 }
  match rule.fault? with
  | some fault => (.error (.fault fault), registry)
  | none =>
      if registry.book.contains rule.id then (.error (.alreadyExists rule.id), registry)
      else
        let book := registry.book.insert rule.id (.start (revisionBy actor stamp rule))
        let record := recordOf actor stamp .create rule.id none (some rule)
        (.ok rule, ⟨book, registry.trail ++ [record]⟩)

/-- Adds a revision. Id and version are not open to change. -/
def revise (registry : Registry) (id : String) (action : AuditAction) (change : Rule → Rule)
    (actor : Actor) (stamp : Stamp) : Except EditError Rule × Registry :=
  match registry.book.find? id with
  | none => (.error (.notFound id), registry)
  | some lineage =>
      let current := lineage.rule
      let next := { change current with id := current.id, version := current.version + 1 }
      match next.fault? with
      | some fault => (.error (.fault fault), registry)
      | none =>
          let book := registry.book.insert id (lineage.extend (revisionBy actor stamp next))
          let record := recordOf actor stamp action id (some current) (some next)
          (.ok next, ⟨book, registry.trail ++ [record]⟩)

/-- Replaces the whole rule, which has to carry the same id. -/
def replace (registry : Registry) (id : String) (rule : Rule) (actor : Actor) (stamp : Stamp) :
    Except EditError Rule × Registry :=
  if rule.id ≠ id then (.error (.idMismatch id rule.id), registry)
  else registry.revise id .update (fun _ => rule) actor stamp

def edit (registry : Registry) (id : String) (edit : RuleEdit) (actor : Actor) (stamp : Stamp) :
    Except EditError Rule × Registry :=
  registry.revise id .update edit.apply actor stamp

def setEnabled (registry : Registry) (id : String) (enabled : Bool) (actor : Actor)
    (stamp : Stamp) : Except EditError Rule × Registry :=
  registry.revise id .enable (fun rule => { rule with enabled }) actor stamp

/-- Removes the rule and its revisions. Only after that is it seen whether there was one. -/
def delete (registry : Registry) (id : String) (actor : Actor) (stamp : Stamp) :
    Except EditError Rule × Registry :=
  let book := registry.book.erase id
  match registry.book.find? id with
  | none => (.error (.notFound id), { registry with book })
  | some lineage =>
      let record := recordOf actor stamp .delete id (some lineage.rule) none
      (.ok lineage.rule, ⟨book, registry.trail ++ [record]⟩)

/-- The id of a copy: the one that is asked for, or the old one with a suffix. -/
def copyId (id : String) (newId : Option String) (token : Uuid) : String :=
  match newId with
  | some newId => normalId newId token
  | none => id ++ "-copy"

/-- Copies a rule under another id. The copy starts disabled, at version 1. -/
def copy (registry : Registry) (id : String) (newId : Option String) (actor : Actor)
    (stamp : Stamp) : Except EditError Rule × Registry :=
  match registry.book.find? id with
  | none => (.error (.notFound id), registry)
  | some lineage =>
      let newId := copyId id newId stamp.token
      if registry.book.contains newId then (.error (.alreadyExists newId), registry)
      else
        let rule := { lineage.rule with id := newId, enabled := false, version := 1 }
        let book := registry.book.insert newId (.start (revisionBy actor stamp rule))
        let record := recordOf actor stamp .clone newId (some lineage.rule) (some rule)
        (.ok rule, ⟨book, registry.trail ++ [record]⟩)

end Registry

def RuleFilter.ofDocument? (lax : Leniency) (d : Document) : Option RuleFilter := do
  let fields ← d.fields? lax ["enabled", "category"]
  return {
    enabled := ← fields.optional "enabled" Document.asBool?
    category := ← fields.optional "category" Document.asText? }

end MetricAlerts

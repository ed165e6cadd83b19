import MetricAlerts.Calendar.Instant
import MetricAlerts.Rule.Fault

/-!
# Rulebooks

All rules of all tenants, each with its revisions. The order of evaluation within a tenant is fixed
by priority and id alone.
-/

namespace MetricAlerts

structure Revision where
  version : UInt32
  rule : Rule
  time : Instant
  author : Option String

/-- The revisions of a rule: the present one and those before it, oldest first. -/
structure Lineage where
  earlier : List Revision
  current : Revision

namespace Lineage

def start (revision : Revision) : Lineage :=
  ⟨[], revision⟩

def revisions (lineage : Lineage) : List Revision :=
  lineage.earlier ++ [lineage.current]

def extend (lineage : Lineage) (revision : Revision) : Lineage :=
  ⟨lineage.revisions, revision⟩

def rule (lineage : Lineage) : Rule :=
  lineage.current.rule

end Lineage

/-- Rules by id. -/
abbrev Rulebook := Table String Lineage

structure RuleFilter where
  enabled : Option Bool
  category : Option String
deriving DecidableEq

namespace RuleFilter

def none : RuleFilter := ⟨.none, .none⟩

def onlyEnabled : RuleFilter := ⟨some true, .none⟩

def accepts (filter : RuleFilter) (rule : Rule) : Bool :=
  filter.enabled.all (rule.enabled == ·) && filter.category.all (rule.category == ·)

end RuleFilter

namespace Rulebook

def rule? (book : Rulebook) (id : String) : Option Rule :=
  (book.find? id).map Lineage.rule

def revisions (book : Rulebook) (id : String) : List Revision :=
  match book.find? id with
  | some lineage => lineage.revisions
  | none => []

/-- The present revision of every rule, in no particular order. -/
def rules (book : Rulebook) : List Rule :=
  book.values.map Lineage.rule

/-- Rules of a tenant that pass the filter, in the order of evaluation. -/
def list (book : Rulebook) (tenant : String) (filter : RuleFilter) : List Rule :=
  (book.rules.filter fun rule => rule.tenant == tenant && filter.accepts rule).mergeSort
    Rule.precedes

/-- The rules that are evaluated for a tenant, in that order. -/
def enabledRules (book : Rulebook) (tenant : String) : List Rule :=
  book.list tenant .onlyEnabled

/-- Every rule, by id. -/
def all (book : Rulebook) : List Rule :=
  book.rules.mergeSort fun a b => a.id ≤ b.id

def tenants (book : Rulebook) : Ascending String :=
  .ofList (book.rules.map Rule.tenant)

end Rulebook

end MetricAlerts

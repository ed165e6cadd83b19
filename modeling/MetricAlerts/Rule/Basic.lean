import MetricAlerts.Rule.Formula
import MetricAlerts.Rule.MessageSet

/-!
# Rules

A rule belongs to a tenant and says when a message is sent and how often at most. An edit changes
some fields of a rule; a formula or a message set is changed as a whole.
-/

namespace MetricAlerts

structure Rule where
  id : String
  version : UInt32
  tenant : String
  enabled : Bool
  description : Option String
  category : String
  /-- Rules of higher priority are evaluated first. -/
  priority : Int32
  severity : Int32
  /-- Least number of days between two alerts for one user. -/
  cooldownDays : UInt32
  maxPerDay : UInt32
  tags : Ascending String
  logic : Formula
  messages : MessageSet

structure RuleEdit where
  enabled : Option Bool
  tenant : Option String
  description : Option String
  category : Option String
  priority : Option Int32
  severity : Option Int32
  cooldownDays : Option UInt32
  maxPerDay : Option UInt32
  tags : Option (Ascending String)
  logic : Option Formula
  messages : Option MessageSet

/-- An edit cannot take the description away. -/
def RuleEdit.apply (edit : RuleEdit) (rule : Rule) : Rule :=
  { rule with
    enabled := edit.enabled.getD rule.enabled
    tenant := edit.tenant.getD rule.tenant
    description := edit.description.or rule.description
    category := edit.category.getD rule.category
    priority := edit.priority.getD rule.priority
    severity := edit.severity.getD rule.severity
    cooldownDays := edit.cooldownDays.getD rule.cooldownDays
    maxPerDay := edit.maxPerDay.getD rule.maxPerDay
    tags := edit.tags.getD rule.tags
    logic := edit.logic.getD rule.logic
    messages := edit.messages.getD rule.messages }

/-- Evaluation order: descending priority, then ascending id. -/
def Rule.precedes (a b : Rule) : Bool :=
  b.priority < a.priority || (a.priority == b.priority && a.id ≤ b.id)

end MetricAlerts

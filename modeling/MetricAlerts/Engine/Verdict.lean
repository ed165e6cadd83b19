import MetricAlerts.Evaluation.Report
import MetricAlerts.Message.Pick
import MetricAlerts.Message.Render

/-!
# Verdicts

What the values of a user say about one rule, before it is asked whether the rule may alert again.
The message is picked here, so that a rule without a usable message never uses up an alert.
-/

namespace MetricAlerts

inductive Verdict where
  | skipped (fault : RuleFault)
  | notMatched (trace : Trace)
  | matched (trace : Trace) (message : PickedMessage)

def Rule.verdict (rule : Rule) (user : String) (day : Day) (snapshot : Snapshot) : Verdict :=
  match rule.logic.trace snapshot.get with
  | .error fault => .skipped fault
  | .ok trace =>
      if trace.result then
        match rule.messages.pick user rule.id day with
        | .error fault => .skipped fault
        | .ok message => .matched trace message
      else .notMatched trace

/-- The statistics that a rule looks at, in its formula and in its messages. -/
def Rule.references (rule : Rule) : List Reference :=
  rule.logic.references.items ++
    rule.messages.candidates.flatMap fun candidate => (templateReferences candidate.text).items

/-- The alert for a rule that may send it. -/
def Rule.event (rule : Rule) (user : String) (day : Day) (snapshot : Snapshot)
    (glossary : Glossary) (trace : Trace) (message : PickedMessage) : AlertEvent :=
  let rendered := render message.text rule.id snapshot glossary
  { rule := rule.id
    user
    tenant := rule.tenant
    day
    category := rule.category
    priority := rule.priority
    severity := rule.severity
    locale := rule.messages.locale
    messageId := message.id
    text := rendered.text
    warnings := rendered.warnings
    why := trace }

end MetricAlerts

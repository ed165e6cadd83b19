import MetricAlerts.Metric.Glossary

/-!
# Faults of rules

What can be wrong with the definition of a rule. A rule with a fault cannot be stored, except for
the two faults that depend on the glossary: those are found before an evaluation, which leaves the
rule out and goes on.
-/

namespace MetricAlerts

/-- Levels a formula may have, the root and the leaves counted. -/
def maxDepth : Nat := 32

inductive RuleFault where
  | unknownMetric (metric : String)
  | statisticNotAllowed (metric : String) (statistic : Statistic)
  | malformedOperand (metric : String) (comparison : Comparison) (flaw : OperandFlaw)
  | noMessages (ruleId : String)
  | invalidWeight (ruleId : String) (weight : Float)
  | noAlertsAllowed (ruleId : String)
  | tooDeep (ruleId : String) (depth : Nat)
deriving DecidableEq

namespace RuleFault

def message : RuleFault → String
  | unknownMetric metric => "unknown variable '" ++ metric ++ "'"
  | statisticNotAllowed metric statistic =>
      "aggregator " ++ statistic.name ++ " is not allowed for variable '" ++ metric ++ "'"
  | malformedOperand metric comparison flaw =>
      "malformed operand for " ++ metric ++ " " ++ comparison.name ++ ": " ++ flaw.message
  | noMessages ruleId => "rule " ++ ruleId ++ " has no message candidates"
  | invalidWeight ruleId weight =>
      "rule " ++ ruleId ++ " has an invalid message weight " ++ Decimal.plainText weight
  | noAlertsAllowed ruleId =>
      "invalid limits for rule " ++ ruleId ++ ": max_per_day must be at least 1"
  | tooDeep ruleId depth =>
      "logic of rule " ++ ruleId ++ " is nested " ++ toString depth ++
        " levels deep, the limit is " ++ toString maxDepth

end RuleFault

def Condition.fault? (c : Condition) : Option RuleFault :=
  c.flaw?.map (.malformedOperand c.metric c.comparison)

/-- A weight that a message can be drawn with. -/
def isUsableWeight (weight : Float) : Bool :=
  weight.isFinite && 0 < weight

def MessageSet.fault? (messages : MessageSet) (ruleId : String) : Option RuleFault :=
  if messages.candidates.isEmpty then some (.noMessages ruleId)
  else (messages.candidates.find? fun candidate => !isUsableWeight candidate.weight).map
    fun candidate => .invalidWeight ruleId candidate.weight

/-- The first malformed condition, from left to right. -/
def Formula.fault? (formula : Formula) : Option RuleFault :=
  formula.conditions.findSome? Condition.fault?

/-- What a rule has to satisfy on its own: limits, depth, message weights and operands. -/
def Rule.fault? (rule : Rule) : Option RuleFault :=
  if rule.maxPerDay = 0 then some (.noAlertsAllowed rule.id)
  else if maxDepth < rule.logic.depth then some (.tooDeep rule.id rule.logic.depth)
  else (rule.messages.fault? rule.id).or rule.logic.fault?

namespace Glossary

def conditionFault? (glossary : Glossary) (c : Condition) : Option RuleFault :=
  match glossary.find? c.metric with
  | none => some (.unknownMetric c.metric)
  | some metric =>
      if metric.allowed.contains c.statistic then none
      else some (.statisticNotAllowed c.metric c.statistic)

/-- The first condition that refers to something the glossary does not offer. -/
def fault? (glossary : Glossary) (rule : Rule) : Option RuleFault :=
  rule.logic.conditions.findSome? glossary.conditionFault?

end Glossary

/-- Everything that keeps a rule from being evaluated. -/
def Rule.evaluationFault? (rule : Rule) (glossary : Glossary) : Option RuleFault :=
  rule.fault?.or (glossary.fault? rule)

end MetricAlerts

import MetricAlerts.Metric.Snapshot
import MetricAlerts.Rule.Fault

/-!
# Traces

What an evaluation found at every node of a formula. All parts of a group are evaluated, also when
the result of the group is already settled, so a trace has the shape of its formula. A condition
whose statistic has no value does not hold, and the reason is kept.
-/

namespace MetricAlerts

structure LeafTrace where
  metric : String
  statistic : Statistic
  comparison : Comparison
  operand : Operand
  observed : Option Float
  result : Bool
  shortfall : Option Shortfall
deriving DecidableEq

inductive Trace where
  | leaf (found : LeafTrace)
  | group (quantifier : Quantifier) (result : Bool) (parts : List Trace)

namespace Trace

def result : Trace → Bool
  | leaf found => found.result
  | group _ result _ => result

mutual

/-- Leaves from left to right. -/
def leaves : Trace → List LeafTrace
  | leaf found => [found]
  | group _ _ parts => leavesAll parts

def leavesAll : List Trace → List LeafTrace
  | [] => []
  | part :: parts => part.leaves ++ leavesAll parts

end

end Trace

/-- The condition next to the value of its statistic. -/
def Condition.against (c : Condition) (value : Except Shortfall Float) : LeafTrace :=
  { metric := c.metric
    statistic := c.statistic
    comparison := c.comparison
    operand := c.operand
    observed := value.toOption
    result := match value with
      | .ok observed => c.holds observed
      | .error _ => false
    shortfall := match value with
      | .ok _ => none
      | .error shortfall => some shortfall }

/-- The operand is checked even when there is no value to compare it with. -/
def Condition.trace (c : Condition) (value : Except Shortfall Float) :
    Except RuleFault LeafTrace :=
  match c.fault? with
  | some fault => .error fault
  | none => .ok (c.against value)

namespace Formula

mutual

/-- Evaluates every node, given the values of the statistics. -/
def trace (value : Reference → Except Shortfall Float) : Formula → Except RuleFault Trace
  | leaf condition => (condition.trace (value condition.reference)).map .leaf
  | group quantifier parts => do
      let parts ← traceAll value parts
      return .group quantifier (quantifier.combine (parts.map Trace.result)) parts

def traceAll (value : Reference → Except Shortfall Float) :
    List Formula → Except RuleFault (List Trace)
  | [] => .ok []
  | part :: parts => do
      let part ← part.trace value
      let parts ← traceAll value parts
      return part :: parts

end

end Formula

end MetricAlerts

import MetricAlerts.Rule.Statistic
import MetricAlerts.Decimal.Layout

/-!
# Conditions

A condition compares one statistic with an operand. Every comparison expects one shape of operand:
a range for `between`, a set for `in`, a single number for the others. An operand is checked before
anything is compared; a comparison with the wrong shape does not hold.
-/

namespace MetricAlerts

inductive Comparison where
  | less
  | atMost
  | greater
  | atLeast
  | equal
  | between
  | among
deriving DecidableEq

def Comparison.name : Comparison → String
  | less => "<"
  | atMost => "<="
  | greater => ">"
  | atLeast => ">="
  | equal => "=="
  | between => "between"
  | among => "in"

def Comparison.all : List Comparison :=
  [less, atMost, greater, atLeast, equal, between, among]

def Comparison.ofName? (name : String) : Option Comparison :=
  all.find? fun comparison => comparison.name == name

theorem Comparison.ofName?_name (comparison : Comparison) :
    ofName? comparison.name = some comparison := by
  cases comparison <;> decide

inductive Operand where
  | one (value : Float)
  | many (values : List Float)
deriving DecidableEq

def Operand.text : Operand → String
  | one value => Decimal.plainText value
  | many values => "[" ++ String.intercalate ", " (values.map Decimal.plainText) ++ "]"

structure Condition where
  metric : String
  statistic : Statistic
  comparison : Comparison
  operand : Operand
deriving DecidableEq

namespace Condition

def reference (c : Condition) : Reference :=
  ⟨c.metric, c.statistic⟩

def text (c : Condition) : String :=
  c.metric ++ ":" ++ c.statistic.name ++ " " ++ c.comparison.name ++ " " ++ c.operand.text

end Condition

/-- What is wrong with the operand of a condition. -/
inductive OperandFlaw where
  | unordered (low high : Float)
  | unboundedRange
  | boundCount (count : Nat)
  | notARange
  | infiniteMember
  | notASet
  | infiniteNumber
  | notANumber
deriving DecidableEq

def OperandFlaw.message : OperandFlaw → String
  | unordered low high =>
      "range [" ++ Decimal.plainText low ++ ", " ++ Decimal.plainText high ++
        "] is not ordered low <= high"
  | unboundedRange => "range bounds must be finite numbers"
  | boundCount count => "expected exactly two bounds, got " ++ toString count
  | notARange => "expected a [low, high] range"
  | infiniteMember => "set members must be finite numbers"
  | notASet => "expected a set of values"
  | infiniteNumber => "operand must be a finite number"
  | notANumber => "expected a single number"

/-- Bounds that are NaN are in no order, so they count as not finite. -/
def checkRange (low high : Float) : Option OperandFlaw :=
  if low.isFinite && high.isFinite && low ≤ high then none
  else if high < low then some (.unordered low high)
  else some .unboundedRange

def Operand.flaw? : Comparison → Operand → Option OperandFlaw
  | .between, .many [low, high] => checkRange low high
  | .between, .many bounds => some (.boundCount bounds.length)
  | .between, .one _ => some .notARange
  | .among, .many members => if members.all Float.isFinite then none else some .infiniteMember
  | .among, .one _ => some .notASet
  | _, .one value => if value.isFinite then none else some .infiniteNumber
  | _, .many _ => some .notANumber

/-- Numbers no further apart than this count as equal. -/
def tolerance : Float := 1e-9

def nearlyEqual (a b : Float) : Bool :=
  (a - b).abs ≤ tolerance

/-- Whether the observed value stands in the given relation to the operand. -/
def Comparison.holds : Comparison → Float → Operand → Bool
  | less, x, .one value => x < value
  | atMost, x, .one value => x ≤ value
  | greater, x, .one value => value < x
  | atLeast, x, .one value => value ≤ x
  | equal, x, .one value => nearlyEqual x value
  | between, x, .many [low, high] => low ≤ x && x ≤ high
  | among, x, .many members => members.any (nearlyEqual x)
  | _, _, _ => false

def Condition.flaw? (c : Condition) : Option OperandFlaw :=
  c.operand.flaw? c.comparison

def Condition.holds (c : Condition) (observed : Float) : Bool :=
  c.comparison.holds observed c.operand

end MetricAlerts

import MetricAlerts.Proofs.Decimal.Order
import MetricAlerts.Rule.Condition

/-!
# What comparisons ask

A comparison is carried out on doubles, but what it asks can be said of the
numbers that these stand for, infinities included: which of two is the less, or
whether one lies within a range.  Where numbers only have to be nearly equal,
their difference, as doubles have it, has to be within the tolerance.
-/

namespace MetricAlerts

open Decimal

variable {x y : Float}

/-- The first number is less than the second one. -/
def IsLess (x y : Float) : Prop :=
  ∃ a b, position? x = some a ∧ position? y = some b ∧ a < b

def IsAtMost (x y : Float) : Prop :=
  ∃ a b, position? x = some a ∧ position? y = some b ∧ a ≤ b

/-- The difference is a number that is not beyond the tolerance. -/
def IsNear (x y : Float) : Prop :=
  (x - y).isFinite = true ∧ |value (x - y)| ≤ value tolerance

/-- What a comparison asks of an observed number.  An operand of another shape
than it expects is never met. -/
inductive Comparison.Asks (x : Float) : Comparison → Operand → Prop
  | less {bound : Float} (hless : IsLess x bound) : Asks x .less (.one bound)
  | atMost {bound : Float} (hle : IsAtMost x bound) : Asks x .atMost (.one bound)
  | greater {bound : Float} (hless : IsLess bound x) : Asks x .greater (.one bound)
  | atLeast {bound : Float} (hle : IsAtMost bound x) : Asks x .atLeast (.one bound)
  | equal {number : Float} (hnear : IsNear x number) : Asks x .equal (.one number)
  | between {low high : Float} (hlow : IsAtMost low x) (hhigh : IsAtMost x high) :
      Asks x .between (.many [low, high])
  | among {members : List Float} {member : Float} (hmember : member ∈ members)
      (hnear : IsNear x member) : Asks x .among (.many members)

theorem nearlyEqual_eq_true_iff : nearlyEqual x y = true ↔ IsNear x y := by
  have htolerance : tolerance.isFinite = true := by decide +kernel
  rw [nearlyEqual, decide_eq_true_iff, abs_le_iff_value htolerance, IsNear]

theorem Comparison.holds_eq_true_iff {comparison : Comparison} {operand : Operand} :
    comparison.holds x operand = true ↔ comparison.Asks x operand := by
  constructor
  · intro hholds
    unfold holds at hholds
    split at hholds
    · exact .less (lt_iff_position.1 (of_decide_eq_true hholds))
    · exact .atMost (le_iff_position.1 (of_decide_eq_true hholds))
    · exact .greater (lt_iff_position.1 (of_decide_eq_true hholds))
    · exact .atLeast (le_iff_position.1 (of_decide_eq_true hholds))
    · exact .equal (nearlyEqual_eq_true_iff.1 hholds)
    · rw [Bool.and_eq_true] at hholds
      exact .between (le_iff_position.1 (of_decide_eq_true hholds.1))
        (le_iff_position.1 (of_decide_eq_true hholds.2))
    · obtain ⟨member, hmember, hnear⟩ := List.any_eq_true.1 hholds
      exact .among hmember (nearlyEqual_eq_true_iff.1 hnear)
    · cases hholds
  · intro hasks
    cases hasks with
    | less hless => exact decide_eq_true (lt_iff_position.2 hless)
    | atMost hle => exact decide_eq_true (le_iff_position.2 hle)
    | greater hless => exact decide_eq_true (lt_iff_position.2 hless)
    | atLeast hle => exact decide_eq_true (le_iff_position.2 hle)
    | equal hnear => exact nearlyEqual_eq_true_iff.2 hnear
    | between hlow hhigh =>
        exact Bool.and_eq_true_iff.2 ⟨decide_eq_true (le_iff_position.2 hlow),
          decide_eq_true (le_iff_position.2 hhigh)⟩
    | among hmember hnear =>
        exact List.any_eq_true.2 ⟨_, hmember, nearlyEqual_eq_true_iff.2 hnear⟩

end MetricAlerts

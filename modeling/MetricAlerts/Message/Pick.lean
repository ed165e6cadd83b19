import MetricAlerts.Message.Draw
import MetricAlerts.Rule.Fault

/-!
# Picking a message

A message is picked with a chance in proportion to its weight. Weights are divided by the greatest
one before they are added up, so that their total stays finite. The choice itself needs nothing of
the numbers but their arithmetic and order.
-/

namespace MetricAlerts

namespace Pick

variable {α : Type} [Add α] [LT α] [DecidableLT α]

/-- Place of the first share at which the running total goes beyond `target`. -/
def firstBeyond? (target total : α) : List α → Option Nat
  | [] => none
  | share :: shares =>
      if target < total + share then some 0
      else (firstBeyond? target (total + share) shares).map (· + 1)

variable [OfNat α 0] [Neg α] [Mul α] [Div α] [Max α]

/-- Weights as fractions of the greatest one. -/
def shares (weights : List α) : List α :=
  let greatest := weights.foldl max 0
  weights.map (· / greatest)

/-- Place of the share that a draw falls on, if the running total goes beyond it at all. -/
def found? (weights : List α) (draw : α) : Option Nat :=
  let shares := shares weights
  let total := shares.foldl (· + ·) (-0)
  firstBeyond? (draw * total) 0 shares

/-- Place of the weight that a draw between zero and one falls on. -/
def index (weights : List α) (draw : α) : Nat :=
  (found? weights draw).getD (weights.length - 1)

end Pick

structure PickedMessage where
  index : Nat
  /-- Id of the candidate, or its place if it has none. -/
  id : String
  text : String
deriving DecidableEq

namespace MessageSet

def pickAt (messages : MessageSet) (index : Nat) : PickedMessage :=
  match messages.candidates[index]? with
  | some candidate => ⟨index, candidate.id.getD (toString index), candidate.text⟩
  | none => ⟨index, toString index, ""⟩

section Arithmetic

variable {α : Type} [Add α] [LT α] [DecidableLT α] [OfNat α 0] [Neg α] [Mul α] [Div α] [Max α]

/-- The message of a rule for a draw, in the arithmetic that weights are read in. -/
def pickBy (number : Float → α) (messages : MessageSet) (ruleId : String) (draw : α) :
    Except RuleFault PickedMessage :=
  match messages.fault? ruleId with
  | some fault => .error fault
  | none =>
      let weights := messages.candidates.map (number ·.weight)
      .ok (messages.pickAt (Pick.index weights draw))

end Arithmetic

/-- The message of a rule for a user and a day. -/
def pick (messages : MessageSet) (user ruleId : String) (day : Day) :
    Except RuleFault PickedMessage :=
  messages.pickBy id ruleId (Draw.value user ruleId day)

end MessageSet

end MetricAlerts

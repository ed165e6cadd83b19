import MetricAlerts.Ascending
import MetricAlerts.Rule.Condition

/-!
# Formulas

The condition tree of a rule. Inner nodes ask for all, some or none of their parts; the leaves are
conditions. The depth is found with a list of pending nodes instead of recursion along the tree,
so that a tree that is far too deep can still be measured and refused.
-/

namespace MetricAlerts

inductive Quantifier where
  | all
  | any
  | noneOf
deriving DecidableEq

namespace Quantifier

def name : Quantifier → String
  | all => "all"
  | any => "any"
  | noneOf => "none"

/-- The kind as a heading in reports for people. -/
def title : Quantifier → String
  | all => "All"
  | any => "Any"
  | noneOf => "None"

def ofName? : String → Option Quantifier
  | "all" => some all
  | "any" => some any
  | "none" => some noneOf
  | _ => none

def combine : Quantifier → List Bool → Bool
  | all, results => results.all id
  | any, results => results.any id
  | noneOf, results => !results.any id

/-- The result over no parts at all. -/
def onNothing (quantifier : Quantifier) : Bool :=
  quantifier.combine []

end Quantifier

inductive Formula where
  | leaf (condition : Condition)
  | group (quantifier : Quantifier) (parts : List Formula)

namespace Formula

mutual

/-- Number of nodes. -/
def size : Formula → Nat
  | leaf _ => 1
  | group _ parts => 1 + sizeAll parts

def sizeAll : List Formula → Nat
  | [] => 0
  | part :: parts => part.size + sizeAll parts

end

mutual

/-- Leaves from left to right. -/
def conditions : Formula → List Condition
  | leaf condition => [condition]
  | group _ parts => conditionsAll parts

def conditionsAll : List Formula → List Condition
  | [] => []
  | part :: parts => part.conditions ++ conditionsAll parts

end

mutual

/-- What the formula says when `holds` says which conditions hold. -/
def denote (holds : Condition → Bool) : Formula → Bool
  | leaf condition => holds condition
  | group quantifier parts => quantifier.combine (denoteAll holds parts)

def denoteAll (holds : Condition → Bool) : List Formula → List Bool
  | [] => []
  | part :: parts => part.denote holds :: denoteAll holds parts

end

mutual

/-- Number of nodes on the longest path from the root, by recursion along the tree. -/
def height : Formula → Nat
  | leaf _ => 1
  | group _ parts => 1 + heightAll parts

def heightAll : List Formula → Nat
  | [] => 0
  | part :: parts => max part.height (heightAll parts)

end

/-- Nodes still to be looked at, with their level. -/
abbrev Pending := List (Formula × Nat)

def Pending.size : Pending → Nat
  | [] => 0
  | (formula, _) :: rest => formula.size + Pending.size rest

def Pending.atLevel (level : Nat) (parts : List Formula) : Pending :=
  parts.map fun part => (part, level)

theorem Pending.size_atLevel (level : Nat) (parts : List Formula) :
    Pending.size (atLevel level parts) = sizeAll parts := by
  induction parts with
  | nil => rfl
  | cons part parts ih =>
    rw [sizeAll, ← ih]
    rfl

theorem Pending.size_append (a b : Pending) :
    Pending.size (a ++ b) = Pending.size a + Pending.size b := by
  induction a with
  | nil => simp [Pending.size]
  | cons entry rest ih =>
    rw [List.cons_append, Pending.size, Pending.size, ih, Nat.add_assoc]

theorem Pending.size_reverse (pending : Pending) :
    Pending.size pending.reverse = Pending.size pending := by
  induction pending with
  | nil => rfl
  | cons entry rest ih =>
    rw [List.reverse_cons, size_append, ih, Nat.add_comm]
    rfl

/-- A search for the deepest level: the deepest one it has seen, and a stack of nodes that it has
not looked at. -/
structure Search where
  deepest : Nat
  pending : Pending

namespace Search

/-- Takes the node on top of the stack and puts its parts there instead, one after the other, so
that the last part comes next. There is no turn left when nothing is pending. -/
def turn? : Search → Option Search
  | ⟨_, []⟩ => none
  | ⟨deepest, (leaf _, level) :: rest⟩ => some ⟨max deepest level, rest⟩
  | ⟨deepest, (group _ parts, level) :: rest⟩ =>
      some ⟨max deepest level, (Pending.atLevel (level + 1) parts).reverse ++ rest⟩

/-- Each turn is spent on one node. -/
theorem size_of_turn? {search next : Search} (hturn : search.turn? = some next) :
    next.pending.size + 1 = search.pending.size := by
  obtain ⟨deepest, _ | ⟨⟨node, level⟩, rest⟩⟩ := search
  · cases hturn
  · cases node with
    | leaf condition =>
      cases hturn
      rw [Pending.size, size, Nat.add_comm]
    | group quantifier parts =>
      cases hturn
      rw [Pending.size_append, Pending.size_reverse, Pending.size_atLevel, Pending.size, size]
      omega

/-- The deepest level once all turns have been taken. -/
def finish (search : Search) : Nat :=
  match _hturn : search.turn? with
  | none => search.deepest
  | some next => next.finish
termination_by search.pending.size
decreasing_by exact Nat.lt_of_succ_le (Nat.le_of_eq (size_of_turn? _hturn))

end Search

/-- The search that finds the depth of a formula begins at its root. -/
def search (formula : Formula) : Search :=
  ⟨0, [(formula, 1)]⟩

/-- Number of nodes on the longest path from the root. -/
def depth (formula : Formula) : Nat :=
  formula.search.finish

/-- The statistics the formula looks at. -/
def references (formula : Formula) : Ascending Reference :=
  .ofList (formula.conditions.map Condition.reference)

end Formula

end MetricAlerts

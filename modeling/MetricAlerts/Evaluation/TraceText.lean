import MetricAlerts.Evaluation.Trace
import MetricAlerts.Rule.Written

/-!
# Traces in documents

A trace is a record with its kind of node as tag: a condition with what was observed, or a
combinator with its children.
-/

namespace MetricAlerts

open Document

namespace LeafTrace

def fieldNames : List String :=
  ["var", "agg", "op", "operand", "observed", "result", "failure"]

def fields (leaf : LeafTrace) : List (String × Document) :=
  [("var", .text leaf.metric), ("agg", leaf.statistic.toDocument),
    ("op", leaf.comparison.toDocument), ("operand", leaf.operand.toDocument),
    ("observed", ofOption .number leaf.observed), ("result", .bool leaf.result)] ++
  optionalField "failure" Shortfall.toDocument leaf.shortfall

def ofDocument? (d : Document) : Option LeafTrace := do
  let fields ← d.fields? .held fieldNames
  return {
    metric := ← fields.required "var" asText?
    statistic := ← fields.required "agg" (Statistic.ofDocument? .held)
    comparison := ← fields.required "op" (Comparison.ofDocument? .held)
    operand := ← fields.required "operand" Operand.ofDocument?
    observed := ← fields.nullable "observed" asFloat?
    result := ← fields.required "result" asBool?
    shortfall := ← fields.optional "failure" (Shortfall.ofDocument? .held) }

end LeafTrace

namespace Trace

mutual

def toDocument : Trace → Document
  | leaf found => .ofFields (("node", .text "condition") :: found.fields)
  | group quantifier result parts =>
      .ofFields
        [("node", .text "combinator"), ("kind", .text quantifier.name), ("result", .bool result),
          ("children", .list (toDocuments parts))]

def toDocuments : List Trace → List Document
  | [] => []
  | part :: parts => part.toDocument :: toDocuments parts

end

/-- Reads a trace of at most `levels` levels. -/
def readWithin (levels : Nat) (lax : Leniency) (d : Document) : Option Trace :=
  match levels with
  | 0 => none
  | levels + 1 => do
      let (node, body) ← d.tagged? lax "node" ["condition", "combinator"]
      if node = "condition" then (LeafTrace.ofDocument? body).map .leaf
      else
        let fields ← body.fields? .held ["kind", "result", "children"]
        let quantifier ← fields.required "kind" (Quantifier.ofDocument? .held)
        let result ← fields.required "result" asBool?
        let parts ← fields.required "children" (readList? .held (readWithin levels .held))
        return .group quantifier result parts

def ofDocument? (lax : Leniency) (d : Document) : Option Trace :=
  readWithin d.depth lax d

end Trace

end MetricAlerts

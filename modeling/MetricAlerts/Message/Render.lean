import MetricAlerts.Message.Template
import MetricAlerts.Metric.Glossary
import MetricAlerts.Metric.Snapshot

/-!
# Rendering messages

Placeholders give way to values. A value that cannot be had leaves nothing behind but a warning; a
format that makes no sense leaves the plain number and a warning.
-/

namespace MetricAlerts

open Text

/-- How many places a number has and whether it is a percentage. -/
structure NumberFormat where
  places : Nat
  percent : Bool
deriving DecidableEq

namespace NumberFormat

/-- A number of places, as far as it has 64 bits. What becomes of a value that is to be written with
more than 65535 places is left open by its format. -/
def readPlaces (cs : List Char) : Option Nat := do
  let n ← readCount cs
  if n < UInt64.size then some n else none

/-- A point and a number of places, with an f or a percent sign behind if wanted. -/
def read? (format : String) : Option NumberFormat :=
  match format.toList with
  | '.' :: rest =>
      if rest.getLast? = some '%' then (readPlaces rest.dropLast).map (⟨·, true⟩)
      else if rest.getLast? = some 'f' then (readPlaces rest.dropLast).map (⟨·, false⟩)
      else (readPlaces rest).map (⟨·, false⟩)
  | _ => none

def write (format : NumberFormat) (value : Float) : String :=
  if format.percent then Decimal.fixedPlaces format.places (value * 100.0) ++ "%"
  else Decimal.fixedPlaces format.places value

end NumberFormat

structure Rendered where
  text : String
  warnings : List String
deriving DecidableEq

namespace Placeholder

/-- Text and warning for a value that is there. -/
def showValue (placeholder : Placeholder) (reference : Reference) (places : Option Nat)
    (value : Float) : String × Option String :=
  match placeholder.format with
  | some format =>
      match NumberFormat.read? format with
      | some numberFormat => (numberFormat.write value, none)
      | none => (Decimal.plainText value,
          some ("invalid format in placeholder " ++ reference.metric ++ ":" ++
            reference.statistic.name ++ ":" ++ format))
  | none =>
      match places with
      | some places => (Decimal.fixedPlaces places value, none)
      | none => (Decimal.plainText value, none)

/-- Text and warning for a placeholder. -/
def fill (ruleId : String) (snapshot : Snapshot) (glossary : Glossary)
    (placeholder : Placeholder) : String × Option String :=
  if placeholder.isRuleId then (ruleId, none)
  else match placeholder.statistic? with
    | none =>
        ("", some ("placeholder " ++ placeholder.metric ++ ":" ++
          placeholder.statistic.getD "" ++ " uses an unknown aggregator"))
    | some statistic =>
        let reference : Reference := ⟨placeholder.metric, statistic⟩
        match snapshot.value? reference with
        | none =>
            ("", some ("placeholder " ++ reference.metric ++ ":" ++ statistic.name ++
              " is not available"))
        | some value =>
            let places := (glossary.find? placeholder.metric).bind Metric.decimals
            placeholder.showValue reference places value

end Placeholder

def Piece.fill (ruleId : String) (snapshot : Snapshot) (glossary : Glossary) :
    Piece → String × Option String
  | char c => (String.singleton c, none)
  | slot placeholder => placeholder.fill ruleId snapshot glossary

/-- Fills the placeholders of a template, warnings in the order of the placeholders. -/
def render (template ruleId : String) (snapshot : Snapshot) (glossary : Glossary) : Rendered :=
  let filled := (Piece.ofChars template.toList).map (Piece.fill ruleId snapshot glossary)
  ⟨String.join (filled.map Prod.fst), filled.filterMap Prod.snd⟩

end MetricAlerts

import MetricAlerts.Document.Basic
import MetricAlerts.Decimal.Reading

/-!
# Reading documents

Typed values out of documents. Reading fails on a missing or mistyped part and skips fields it
does not know. Places of reading differ in what else they let through, and the difference is one
record of switches.
-/

namespace MetricAlerts

/-- What a place of reading lets through besides the proper form. -/
structure Leniency where
  /-- A list may stand for a record, with the fields in their order of declaration. -/
  recordsFromLists : Bool
  /-- A record of one name with the value null may stand for that name. -/
  namesFromRecords : Bool
  /-- Null may stand for an empty list or an empty record. -/
  emptyFromNull : Bool
  /-- A number may stand for the field in that place. -/
  positions : Bool

namespace Leniency

/-- Values handed over one by one. -/
def handed : Leniency := ⟨true, true, false, false⟩

/-- Values read from files. -/
def file : Leniency := ⟨false, false, true, false⟩

/-- Values held as a whole until their form has told what they are: nodes of a formula and records
with a tag. -/
def held : Leniency := ⟨true, true, false, true⟩

/-- Records whose fields are shared out between several parts. -/
def shared : Leniency := ⟨false, true, false, false⟩

end Leniency

namespace Document

def asText? : Document → Option String
  | .text s => some s
  | _ => none

def asBool? : Document → Option Bool
  | .bool b => some b
  | _ => none

def asFloat? : Document → Option Float
  | .int n => some (Decimal.ofInt n)
  | .number x => some x
  | _ => none

def asIntWithin? (least greatest : Int) : Document → Option Int
  | .int n => if least ≤ n ∧ n ≤ greatest then some n else none
  | _ => none

def asNatBelow? (bound : Nat) (d : Document) : Option Nat :=
  (d.asIntWithin? 0 (bound - 1)).map Int.toNat

def asUInt32? (d : Document) : Option UInt32 :=
  (d.asNatBelow? UInt32.size).map UInt32.ofNat

def asInt32? (d : Document) : Option Int32 :=
  (d.asIntWithin? Int32.minValue.toInt Int32.maxValue.toInt).map Int32.ofInt

/-- A count of at most 64 bits. -/
def asCount? (d : Document) : Option Nat :=
  d.asNatBelow? UInt64.size

def asOption? {α : Type} (read : Document → Option α) : Document → Option (Option α)
  | .null => some none
  | d => (read d).map some

def asList? (lax : Leniency) : Document → Option (List Document)
  | .list items => some items
  | .null => if lax.emptyFromNull then some [] else none
  | _ => none

def readList? {α : Type} (lax : Leniency) (read : Document → Option α) (d : Document) :
    Option (List α) := do
  let items ← d.asList? lax
  items.mapM read

/-- One name out of a fixed choice. -/
def asName? (lax : Leniency) : Document → Option String
  | .text s => some s
  | .record [(.name s, .null)] => if lax.namesFromRecords then some s else none
  | _ => none

/-- The fields of a record by name. `inOrder` tells that they were given as a list, which has no
way to leave out a field in the middle. -/
structure Fields where
  entries : List (String × Document)
  inOrder : Bool

/-- Fields by name; `names` gives the names of positions. -/
def nameEntries (lax : Leniency) (names : List String) :
    List (Key × Document) → Option (List (String × Document))
  | [] => some []
  | (key, value) :: rest => do
      let rest ← nameEntries lax names rest
      match key with
      | .name name => some ((name, value) :: rest)
      | .position index =>
          if lax.positions then
            match names[index]? with
            | some name => some ((name, value) :: rest)
            | none => some rest
          else none
      | .other => none

def fields? (lax : Leniency) (names : List String) : Document → Option Fields
  | .record fields => do
      let entries ← nameEntries lax names fields
      return ⟨entries, false⟩
  | .list items =>
      if lax.recordsFromLists ∧ items.length ≤ names.length then some ⟨names.zip items, true⟩
      else none
  | .null => if lax.emptyFromNull then some ⟨[], false⟩ else none
  | _ => none

namespace Fields

variable {α : Type}

def required (fields : Fields) (name : String) (read : Document → Option α) : Option α :=
  (fields.entries.lookup name).bind read

/-- A field that may be null; in a list of fields it has to be there. -/
def nullable (fields : Fields) (name : String) (read : Document → Option α) : Option (Option α) :=
  match fields.entries.lookup name with
  | some d => d.asOption? read
  | none => if fields.inOrder then none else some none

/-- A field that may be null or missing. -/
def optional (fields : Fields) (name : String) (read : Document → Option α) : Option (Option α) :=
  match fields.entries.lookup name with
  | some d => d.asOption? read
  | none => some none

/-- A field that may be missing but not null. -/
def withDefault (fields : Fields) (name : String) (default : α) (read : Document → Option α) :
    Option α :=
  match fields.entries.lookup name with
  | some d => read d
  | none => some default

end Fields

/-- A tag out of a fixed choice. -/
def asTag? (lax : Leniency) (choice : List String) : Document → Option String
  | .text name => if choice.contains name then some name else none
  | .int index => if lax.positions ∧ 0 ≤ index then choice[index.toNat]? else none
  | _ => none

/-- The tag of a record and the record itself, or the tag in front of a list and the rest of it. -/
def tagged? (lax : Leniency) (field : String) (choice : List String) :
    Document → Option (String × Document)
  | .record fields => do
      let tag ← (fieldNamed? field fields).bind (asTag? lax choice)
      return (tag, .record fields)
  | .list (d :: rest) => (d.asTag? lax choice).map fun tag => (tag, .list rest)
  | _ => none

end Document

end MetricAlerts

/-!
# Documents

The values that rule files, metric files and reports are made of, whichever notation they are
written in. Whole numbers are kept apart from the others, and a record keeps the order of its
fields.
-/

namespace MetricAlerts

/-- What stands for a field in a record. Some notations let a number or another value stand where
a name is meant. -/
inductive Key where
  | name (text : String)
  | position (index : Nat)
  | other
deriving DecidableEq

inductive Document where
  | null
  | bool (value : Bool)
  | int (value : Int)
  | number (value : Float)
  | text (value : String)
  | list (items : List Document)
  | record (fields : List (Key × Document))

namespace Document

instance : Inhabited Document := ⟨.null⟩

mutual

/-- Number of documents on the longest path into the document, itself included. -/
def depth : Document → Nat
  | list items => 1 + depthOfItems items
  | record fields => 1 + depthOfFields fields
  | _ => 1

def depthOfItems : List Document → Nat
  | [] => 0
  | item :: items => max item.depth (depthOfItems items)

def depthOfFields : List (Key × Document) → Nat
  | [] => 0
  | (_, value) :: fields => max value.depth (depthOfFields fields)

end

/-- A record whose fields all have names. -/
def ofFields (fields : List (String × Document)) : Document :=
  .record (fields.map fun (name, value) => (.name name, value))

def texts (items : List String) : Document :=
  .list (items.map .text)

/-- Nothing is written as null. -/
def ofOption {α : Type} (write : α → Document) : Option α → Document
  | some value => write value
  | none => .null

/-- A field that is left out when there is nothing to write. -/
def optionalField {α : Type} (name : String) (write : α → Document) :
    Option α → List (String × Document)
  | some value => [(name, write value)]
  | none => []

def fieldNamed? (name : String) (fields : List (Key × Document)) : Option Document :=
  fields.lookup (.name name)

/-- The value of a named field, if the document is a record that has it. -/
def field? (name : String) : Document → Option Document
  | .record fields => fieldNamed? name fields
  | _ => none

end Document

end MetricAlerts

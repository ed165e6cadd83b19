import MetricAlerts.Toml.Scalar

/-!
# TOML tables

What names stand for while a TOML text is read. A value is fixed once it is there; a table can be
added to, as far as the way in which it came about allows.
-/

namespace MetricAlerts.Toml

/-- How a table came about: as one on the way to another table, by a dotted name, or by a header of
its own. -/
inductive Origin where
  | passed
  | dotted
  | header
deriving DecidableEq

inductive Item where
  | value (document : Document)
  | table (origin : Origin) (entries : List (String × Item))
  /-- Tables under one header in double brackets. -/
  | tables (earlier : List (List (String × Item))) (last : List (String × Item))

abbrev Entries := List (String × Item)

def setItem (name : String) (item : Item) : Entries → Entries
  | [] => [(name, item)]
  | (key, old) :: rest =>
      if key = name then (key, item) :: rest else (key, old) :: setItem name item rest

/-- Changes the table that a path of names leads to, starting with tables as needed. A dotted name
leads only through tables without a header. -/
def changeAt (dotted : Bool) (change : (reached : Option Origin) → Entries → Option Entries) :
    (reached : Option Origin) → List String → Entries → Option Entries
  | reached, [], entries => change reached entries
  | _, name :: names, entries =>
      let fresh := if dotted then Origin.dotted else Origin.passed
      match entries.lookup name with
      | none => do
          let inner ← changeAt dotted change (some fresh) names []
          return setItem name (.table fresh inner) entries
      | some (.value _) => none
      | some (.table origin inner) =>
          if dotted ∧ origin = .header then none
          else do
            let inner ← changeAt dotted change (some origin) names inner
            return setItem name (.table origin inner) entries
      | some (.tables earlier last) => do
          let last ← changeAt dotted change (some .header) names last
          return setItem name (.tables earlier last) entries

/-- Puts a value under a name that has none. -/
def addValue (name : String) (document : Document) (entries : Entries) : Option Entries :=
  match entries.lookup name with
  | none => some (entries ++ [(name, .value document)])
  | some _ => none

/-- Splits a path into the names before the last one and the last one. -/
def splitLast (path : List String) : Option (List String × String) :=
  path.getLast?.map fun name => (path.dropLast, name)

/-- Puts a value under a dotted name. -/
def addPair (path : List String) (document : Document) (entries : Entries) : Option Entries := do
  let (front, name) ← splitLast path
  changeAt true (fun reached entries =>
    if reached = none ∨ reached = some .dotted then addValue name document entries else none)
    none front entries

/-- Opens a table by its header. -/
def addHeader (path : List String) (entries : Entries) : Option Entries := do
  let (front, name) ← splitLast path
  changeAt false (fun _ entries =>
    match entries.lookup name with
    | none => some (setItem name (.table .header []) entries)
    | some (.table .passed inner) => some (setItem name (.table .header inner) entries)
    | some _ => none) none front entries

/-- Opens another table under a header in double brackets. -/
def addListHeader (path : List String) (entries : Entries) : Option Entries := do
  let (front, name) ← splitLast path
  changeAt false (fun _ entries =>
    match entries.lookup name with
    | none => some (setItem name (.tables [] []) entries)
    | some (.tables earlier last) => some (setItem name (.tables (earlier ++ [last]) []) entries)
    | some _ => none) none front entries

/-- Puts a value into the table that the last header opened. -/
def addUnder (header : List String) (path : List String) (document : Document)
    (entries : Entries) : Option Entries :=
  changeAt false (fun _ entries => addPair path document entries) none header entries

mutual

def Item.toDocument : Item → Document
  | .value document => document
  | .table _ entries => .record (documentFields entries)
  | .tables earlier last =>
      .list (tableDocuments earlier ++ [.record (documentFields last)])

def documentFields : Entries → List (Key × Document)
  | [] => []
  | (name, item) :: rest => (.name name, item.toDocument) :: documentFields rest

def tableDocuments : List Entries → List Document
  | [] => []
  | entries :: rest => .record (documentFields entries) :: tableDocuments rest

end

end MetricAlerts.Toml

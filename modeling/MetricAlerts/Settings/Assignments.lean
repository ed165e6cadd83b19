import MetricAlerts.Settings.Environment
import MetricAlerts.Text.Alphanumeric

/-!
# Files of assignments

A file can give variables a value where the environment gives none. Each of its lines assigns one
variable; a value in quotes may go over several lines. Reading stops at the first line that is
wrong, and what came before it stays.
-/

namespace MetricAlerts.Assignments

open Text

/-- Where a scan for the end of a line stands. -/
inductive Phase where
  | plain
  | escape
  | blank
  | single
  | singleEscape
  | double
  | doubleEscape
deriving DecidableEq

def Phase.open? (c : Char) : Option Phase :=
  if c = '\\' then some escape
  else if c = '"' then some double
  else if c = '\'' then some single
  else none

def Phase.step (phase : Phase) (c : Char) : Phase :=
  match phase with
  | blank => (open? c).getD plain
  | escape => plain
  | plain => if isBlank c && c != '\n' && c != '\r' then blank else (open? c).getD plain
  | double => if c = '\\' then doubleEscape else if c = '"' then plain else double
  | doubleEscape => double
  | single => if c = '\\' then singleEscape else if c = '\'' then plain else single
  | singleEscape => single

/-- How far a line goes: up to a comment, or to its end in the given phase. -/
inductive Reach where
  | comment (before : List Char)
  | finish (phase : Phase)

/-- A comment begins with a number sign that follows a blank. -/
def reach (phase : Phase) : (passed : List Char) → List Char → Reach
  | _, [] => .finish phase
  | passed, c :: cs =>
      if phase = .blank ∧ c = '#' then .comment passed.reverse
      else reach (phase.step c) (c :: passed) cs

/-- Lines together with the line feeds that end them. -/
def rawLines : List Char → List (List Char)
  | [] => []
  | c :: cs =>
      if c = '\n' then [c] :: rawLines cs
      else match rawLines cs with
        | [] => [[c]]
        | line :: lines => (c :: line) :: lines

def withoutLineEnd (cs : List Char) : List Char :=
  match cs.reverse with
  | '\n' :: '\r' :: rest => rest.reverse
  | '\n' :: rest => rest.reverse
  | _ => cs

/-- Puts the lines of a value in quotes together. `held` is the beginning of a line that goes on.
Nothing stands for a line that breaks off. -/
def joinLines (held : List Char) (phase : Phase) : List (List Char) → List (Option (List Char))
  | [] => if phase = .plain then [] else [none]
  | raw :: rest =>
      let line := held ++ raw
      if (dropBlanks line).head? = some '#' then some [] :: joinLines [] .plain rest
      else match reach phase [] raw with
        | .comment before => some (held ++ before) :: joinLines [] .plain rest
        | .finish .plain => some (withoutLineEnd line) :: joinLines [] .plain rest
        | .finish phase => joinLines line phase rest

inductive Quote where
  | none
  | single
  | double
deriving DecidableEq

/-- How a reference to another variable is written. -/
inductive ReferenceForm where
  | bare
  | braced
deriving DecidableEq

/-- Reading of a value, character by character. -/
structure Reading where
  value : List Char
  quote : Quote
  escaped : Bool
  /-- Only blanks and a comment may follow. -/
  ended : Bool
  reference : Option (ReferenceForm × List Char)

namespace Reading

def start : Reading := ⟨[], .none, false, false, none⟩

def push (r : Reading) (c : Char) : Reading :=
  { r with value := r.value ++ [c] }

def escapeValue? (c : Char) : Option Char :=
  if c = '\\' ∨ c = '\'' ∨ c = '"' ∨ c = '$' ∨ c = ' ' then some c
  else if c = 'n' then some '\n'
  else none

/-- Puts the value of a variable in place of a reference to it. Variables that are not there are
empty. -/
def resolve (environment : Environment) (r : Reading) : Reading :=
  match r.reference with
  | none => r
  | some (_, name) =>
      { r with
        value := r.value ++ ((environment.find? (String.ofList name)).getD "").toList
        reference := none }

def stepReference (environment : Environment) (r : Reading) (form : ReferenceForm)
    (name : List Char) (c : Char) : Reading :=
  if isAlphanumeric c then { r with reference := some (form, name ++ [c]) }
  else match form with
    | .bare =>
        if c.toNat = 0x7b ∧ name.isEmpty then { r with reference := some (.braced, []) }
        else if c = '$' then { r.resolve environment with reference := some (.bare, []) }
        else (r.resolve environment).push c
    | .braced =>
        if c.toNat = 0x7d then r.resolve environment
        else { r with reference := some (.braced, name ++ [c]) }

def stepText (r : Reading) (c : Char) : Reading :=
  if c = '$' then { r with reference := some (.bare, []) }
  else if c = '\\' then { r with escaped := true }
  else if r.quote = .double then if c = '"' then { r with quote := .none } else r.push c
  else if c = '\'' then { r with quote := .single }
  else if c = '"' then { r with quote := .double }
  else if c = ' ' ∨ c = '\t' then { r with ended := true }
  else r.push c

def step (environment : Environment) (r : Reading) (c : Char) : Option Reading :=
  if r.escaped then (escapeValue? c).map fun c => { r.push c with escaped := false }
  else if r.quote = .single then
    some (if c = '\'' then { r with quote := .none } else r.push c)
  else match r.reference with
    | some (form, name) => some (r.stepReference environment form name c)
    | none => some (r.stepText c)

def run (environment : Environment) : Reading → List Char → Option Reading
  | r, [] => some r
  | r, c :: cs =>
      if r.ended then
        if c = ' ' ∨ c = '\t' then run environment r cs
        else if c = '#' then some r
        else none
      else do run environment (← r.step environment c) cs

/-- The value that was read, unless a quote or a brace is still open. -/
def finish (environment : Environment) (r : Reading) : Option String :=
  let openBrace := match r.reference with
    | some (.braced, _) => true
    | _ => false
  if openBrace || r.quote ≠ .none then none else some (String.ofList (r.resolve environment).value)

end Reading

def readValue (environment : Environment) (cs : List Char) : Option String := do
  (← Reading.start.run environment cs).finish environment

def isNameStart (c : Char) : Bool :=
  c.isAlpha || c == '_'

def isNamePart (c : Char) : Bool :=
  c.isAlphanum || c == '_' || c == '.'

def readName (cs : List Char) : Option (String × List Char) :=
  match cs with
  | c :: _ =>
      if isNameStart c then
        some (String.ofList (cs.takeWhile isNamePart), dropBlanks (cs.dropWhile isNamePart))
      else none
  | [] => none

/-- Name and value of an assignment; nothing for an empty line. A line may begin with the word
`export`, which can also be a name. -/
def readLine (environment : Environment) (line : List Char) : Option (Option (String × String)) :=
  match dropBlanks (dropTrailingBlanks line) with
  | [] => some none
  | '#' :: _ => some none
  | cs => do
      let (name, rest) ← readName cs
      let (name, rest) ← match name, rest with
        | _, '=' :: _ => some (name, rest)
        | "export", _ => readName rest
        | _, _ => none
      match rest with
      | '=' :: rest =>
          match dropBlanks rest with
          | [] => return some (name, "")
          | '#' :: _ => return some (name, "")
          | rest => return some (name, ← readValue environment rest)
      | _ => none

/-- Assigns line by line. A variable that has a value keeps it. -/
def assignAll (environment : Environment) : List (Option (List Char)) → Environment
  | [] => environment
  | none :: _ => environment
  | some line :: lines =>
      match readLine environment line with
      | none => environment
      | some none => assignAll environment lines
      | some (some (name, value)) =>
          let environment :=
            if environment.contains name then environment else environment.insert name value
          assignAll environment lines

/-- A mark of the order of bytes, which a text may begin with. -/
def withoutMark (cs : List Char) : List Char :=
  match cs with
  | c :: rest => if c.toNat = 0xFEFF then rest else cs
  | [] => []

/-- Maximal runs of accepted characters. -/
def runsOf (accepts : Char → Bool) : List Char → List (List Char)
  | [] => []
  | c :: cs =>
      if accepts c then
        match cs, runsOf accepts cs with
        | next :: _, run :: runs => if accepts next then (c :: run) :: runs else [c] :: run :: runs
        | _, runs => [c] :: runs
      else runsOf accepts cs

/-- Every name that a file of assignments may set or refer to, and other words besides. -/
def mentioned (text : String) : List String :=
  (runsOf isNamePart text.toList ++ runsOf isAlphanumeric text.toList).map String.ofList

end Assignments

/-- The variables together with those that a file of assignments adds. -/
def Environment.withAssignments (environment : Environment) (text : String) : Environment :=
  Assignments.assignAll environment
    (Assignments.joinLines [] .plain (Assignments.rawLines (Assignments.withoutMark text.toList)))

end MetricAlerts

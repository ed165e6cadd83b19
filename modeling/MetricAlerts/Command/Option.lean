import MetricAlerts.Calendar.DayText
import MetricAlerts.Settings.Environment

/-!
# Options of a command line

Options have a long name and perhaps a letter, and most of them take a value, which follows as an
argument of its own or directly. No option is given twice, unless it collects values, and a value
that does not fit its option is an error at once.
-/

namespace MetricAlerts.Command

inductive OptionKind where
  | flag
  | text
  | path
  | day
  | count
deriving DecidableEq

structure OptionForm where
  name : String
  letter : Option Char
  kind : OptionKind
  /-- Whether the option may be given more than once. -/
  collects : Bool

/-- What an argument may be said to be about instead of a command. -/
inductive Refusal where
  /-- The arguments ask how the program is used. -/
  | help
  | wrong
deriving DecidableEq

/-- Values of the options that were given, in their order. -/
abbrev Given := List (String × String)

def readWorkers? (value : String) : Option Nat :=
  readCountBelow UInt64.size value.toList

def OptionKind.accepts (kind : OptionKind) (value : String) : Bool :=
  match kind with
  | flag => value.isEmpty
  | text => true
  | path => !value.isEmpty
  | day => (Day.read? value).isSome
  | count => (readWorkers? value).isSome

/-- Whether an argument can be the value of the option before it. -/
def isSeparateValue (arg : String) : Bool :=
  match arg.toList with
  | '-' :: _ :: _ => false
  | _ => true

def OptionForm.add (form : OptionForm) (value : String) (given : Given) :
    Except Refusal Given :=
  if !form.kind.accepts value then .error .wrong
  else if !form.collects && given.any (·.1 == form.name) then .error .wrong
  else .ok (given ++ [(form.name, value)])

/-- Adds an option with the value that came with it, if any, or else the next argument. Answers
with the arguments that remain. -/
def OptionForm.take (form : OptionForm) (attached : Option String) (given : Given)
    (rest : List String) : Except Refusal (Given × List String) := do
  match form.kind, attached, rest with
  | .flag, none, _ => return (← form.add "" given, rest)
  | .flag, some _, _ => .error .wrong
  | _, some value, _ => return (← form.add value given, rest)
  | _, none, value :: rest =>
      if isSeparateValue value then return (← form.add value given, rest) else .error .wrong
  | _, none, [] => .error .wrong

/-- Name and value around an equals sign. -/
def splitEquals (cs : List Char) : String × Option String :=
  let name := cs.takeWhile (· ≠ '=')
  match cs.drop name.length with
  | _ :: value => (String.ofList name, some (String.ofList value))
  | [] => (String.ofList name, none)

/-- An option by its long name. -/
def readLong (forms : List OptionForm) (body : List Char) (given : Given) (rest : List String) :
    Except Refusal (Given × List String) :=
  let (name, value) := splitEquals body
  if name = "help" then .error (if value.isSome then .wrong else .help)
  else match forms.find? (·.name == name) with
    | some form => form.take value given rest
    | none => .error .wrong

/-- An option by its letter, with its value behind it. -/
def readShort (forms : List OptionForm) (letter : Char) (body : List Char) (given : Given)
    (rest : List String) : Except Refusal (Given × List String) :=
  if letter = 'h' then .error .help
  else match forms.find? (·.letter == some letter) with
    | none => .error .wrong
    | some form =>
        let attached := match body with
          | [] => none
          | '=' :: value => some (String.ofList value)
          | value => some (String.ofList value)
        form.take attached given rest

/-- Reads options up to the first other argument, and answers with what remains. Two dashes alone
say that no options follow. -/
def readOptions (forms : List OptionForm) : Nat → Given → List String →
    Except Refusal (Given × List String)
  | 0, given, args => .ok (given, args)
  | _ + 1, given, [] => .ok (given, [])
  | fuel + 1, given, arg :: rest =>
      match arg.toList with
      | ['-', '-'] => if rest.isEmpty then .ok (given, []) else .error .wrong
      | '-' :: '-' :: body => do
          let (given, rest) ← readLong forms body given rest
          readOptions forms fuel given rest
      | '-' :: letter :: body => do
          let (given, rest) ← readShort forms letter body given rest
          readOptions forms fuel given rest
      | _ => .ok (given, arg :: rest)

namespace Given

def value? (given : Given) (name : String) : Option String :=
  given.lookup name

def has (given : Given) (name : String) : Bool :=
  (given.value? name).isSome

def values (given : Given) (name : String) : List String :=
  (given.filter (·.1 == name)).map Prod.snd

def day? (given : Given) (name : String) : Option Day :=
  (given.value? name).bind Day.read?

end Given

end MetricAlerts.Command

import MetricAlerts.Decimal.Reading
import MetricAlerts.Document.Basic

/-!
# Plain scalars

What a scalar without quotes stands for: nothing, a truth value, a number or a text. Digits after a
leading zero are a text. A whole number of more than 64 but at most 128 bits is refused.
-/

namespace MetricAlerts.Yaml

open Text

def isNullWord (word : String) : Bool :=
  ["", "~", "null", "Null", "NULL"].contains word

def boolOfWord? (word : String) : Option Bool :=
  if ["true", "True", "TRUE"].contains word then some true
  else if ["false", "False", "FALSE"].contains word then some false
  else none

def digitIn? (base : Nat) (c : Char) : Option Nat :=
  let value :=
    if isDigit c then digitValue c
    else if 97 ≤ c.toNat && c.toNat ≤ 122 then c.toNat - 87
    else if 65 ≤ c.toNat && c.toNat ≤ 90 then c.toNat - 55
    else base
  if value < base then some value else none

/-- Digits in a base, of which there is at least one. -/
def readBase (base : Nat) (cs : List Char) : Option Nat :=
  if cs.isEmpty then none
  else (cs.mapM (digitIn? base)).map fun digits => digits.foldl (fun n d => base * n + d) 0

/-- A sign and digits that only look like a number. -/
def isPaddedDigits (cs : List Char) : Bool :=
  let digits := match cs with
    | '-' :: rest => rest
    | '+' :: rest => rest
    | rest => rest
  match digits with
  | '0' :: more => !more.isEmpty && more.all isDigit
  | _ => false

/-- The size of a whole number in one of the bases, given what comes behind its sign. -/
def readMagnitude (cs : List Char) : Option Nat :=
  match cs with
  | '0' :: 'x' :: digits => readBase 16 digits
  | '0' :: 'o' :: digits => readBase 8 digits
  | '0' :: 'b' :: digits => readBase 2 digits
  | digits => readBase 10 digits

/-- A whole number of any size. -/
def readInt (cs : List Char) : Option Int :=
  if isPaddedDigits cs then none
  else match cs with
    | '-' :: rest => (readMagnitude rest).map fun n => -(n : Int)
    | '+' :: rest => (readMagnitude rest).map fun n => (n : Int)
    | rest => (readMagnitude rest).map fun n => (n : Int)

def infinityWords : List String :=
  [".inf", ".Inf", ".INF"]

def readFloat (cs : List Char) : Option Float :=
  let unsigned := match cs with
    | '+' :: rest => rest
    | rest => rest
  let word := String.ofList cs
  if infinityWords.contains (String.ofList unsigned) then some (1.0 / 0.0)
  else if (infinityWords.map ("-" ++ ·)).contains word then some (-1.0 / 0.0)
  else if [".nan", ".NaN", ".NAN"].contains word then some (0.0 / 0.0)
  else if unsigned ≠ cs ∧ (unsigned.head? = some '+' ∨ unsigned.head? = some '-') then none
  else match Decimal.readFloat? unsigned with
    | some x => if x.isFinite then some x else none
    | none => none

def readNumber (cs : List Char) : Option Document :=
  match readInt cs with
  | some n =>
      if Int64.minValue.toInt ≤ n ∧ n < UInt64.size then some (.int n)
      else (readFloat cs).map .number
  | none => if isPaddedDigits cs then none else (readFloat cs).map .number

/-- Whether a scalar is one of the whole numbers that no document holds. -/
def isOversized (cs : List Char) : Bool :=
  match readInt cs with
  | some n =>
      (UInt64.size ≤ n && n < Int.pow 2 128) ||
        (-Int.pow 2 127 ≤ n && n < Int64.minValue.toInt)
  | none => false

/-- The document that a plain scalar stands for. -/
def ofPlain? (word : String) : Option Document :=
  if isNullWord word then some .null
  else match boolOfWord? word with
    | some b => some (.bool b)
    | none =>
        if isOversized word.toList then none
        else some ((readNumber word.toList).getD (.text word))

end MetricAlerts.Yaml

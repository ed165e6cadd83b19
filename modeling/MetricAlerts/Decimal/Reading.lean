import MetricAlerts.Text.Numeral

/-!
# Reading doubles

The double nearest to a decimal numeral. The numeral may start or end with its point, and infinity
and NaN are spelled out in any case.
-/

namespace MetricAlerts.Decimal

open Text

/-- Nearest double to `coefficient * 10 ^ exponent`. Powers that lie beyond every double are
settled by the number of digits alone. -/
def ofDecimal (coefficient : Nat) (exponent : Int) : Float :=
  let size : Int := (numeral coefficient).length
  if coefficient = 0 then 0.0
  else if 310 < size + exponent then 1.0 / 0.0
  else if size + exponent < -330 then 0.0
  else if 0 ≤ exponent then
    Float.ofScientific (coefficient * Nat.pow 10 exponent.toNat) false 0
  else Float.ofScientific coefficient true exponent.natAbs

def ofInt (n : Int) : Float :=
  if n < 0 then -(ofDecimal n.natAbs 0) else ofDecimal n.natAbs 0

/-- A numeral taken apart: digits before and after the point, and the exponent. -/
structure Numeral where
  negative : Bool
  whole : List Char
  fraction : List Char
  hasPoint : Bool
  exponent : Option Int
deriving DecidableEq

def Numeral.toFloat (n : Numeral) : Float :=
  let value := ofDecimal (digitsValue (n.whole ++ n.fraction))
    (n.exponent.getD 0 - n.fraction.length)
  if n.negative then -value else value

/-- Splits off every leading digit. -/
def spanAllDigits (cs : List Char) : List Char × List Char :=
  spanDigits cs.length cs

/-- An exponent mark with an optional sign and at least one digit. -/
def readExponent (cs : List Char) : Option (Option Int × List Char) :=
  match cs with
  | c :: rest =>
      if c = 'e' ∨ c = 'E' then
        let (negative, rest) := match rest with
          | '-' :: rest => (true, rest)
          | '+' :: rest => (false, rest)
          | rest => (false, rest)
        match spanAllDigits rest with
        | ([], _) => none
        | (digits, rest) =>
            let value : Int := digitsValue digits
            some (some (if negative then -value else value), rest)
      else some (none, cs)
  | [] => some (none, [])

/-- Digits, an optional point with more digits, and an optional exponent. -/
def readUnsigned (negative : Bool) (cs : List Char) : Option (Numeral × List Char) := do
  let (whole, rest) := spanAllDigits cs
  let (hasPoint, fraction, rest) := match rest with
    | '.' :: rest =>
        let (fraction, rest) := spanAllDigits rest
        (true, fraction, rest)
    | rest => (false, [], rest)
  if whole.isEmpty && fraction.isEmpty then none
  else
    let (exponent, rest) ← readExponent rest
    return (⟨negative, whole, fraction, hasPoint, exponent⟩, rest)

def lowerAscii (cs : List Char) : List Char :=
  cs.map Char.toLower

/-- A double as settings write it. -/
def readFloat? (cs : List Char) : Option Float :=
  let (negative, body) := match cs with
    | '-' :: rest => (true, rest)
    | '+' :: rest => (false, rest)
    | rest => (false, rest)
  let word := String.ofList (lowerAscii body)
  if word = "inf" ∨ word = "infinity" then some (if negative then -1.0 / 0.0 else 1.0 / 0.0)
  else if word = "nan" then some (0.0 / 0.0)
  else match readUnsigned negative body with
    | some (numeral, []) => some numeral.toFloat
    | _ => none

end MetricAlerts.Decimal

import MetricAlerts.Text.Numeral
import MetricAlerts.Decimal.Binary

/-!
# Fixed places

A finite double rounded to a given number of places: the exact binary value decides, and a value
exactly between two goes to the even one. More than 65535 places are beyond what is promised. They
are written out as any others, but a program that refuses to do so is not at fault.
-/

namespace MetricAlerts.Decimal

open Text

/-- Quotient rounded to the nearest natural number, halves to even. -/
def roundDiv (num den : Nat) : Nat :=
  let quotient := num / den
  let twice := 2 * (num % den)
  if twice < den then quotient
  else if den < twice then quotient + 1
  else quotient + quotient % 2

/-- `mantissa * 2 ^ exponent` in units of `10 ^ -places`. -/
def roundedUnits (places mantissa : Nat) (exponent : Int) : Nat :=
  roundDiv (mantissa * Nat.pow 10 places * Nat.pow 2 exponent.toNat) (Nat.pow 2 (-exponent).toNat)

/-- A count of units of `10 ^ -places`, written out. -/
def placesText (places units : Nat) : List Char :=
  let digits := padZeros (places + 1) (numeral units)
  let whole := digits.length - places
  if places = 0 then digits else digits.take whole ++ '.' :: digits.drop whole

def signed (negative : Bool) (cs : List Char) : List Char :=
  if negative then '-' :: cs else cs

/-- The sign of a negative zero is kept; infinities and NaN have no places. -/
def fixedPlaces (places : Nat) (x : Float) : String :=
  match parts x with
  | .nan => "NaN"
  | .infinite negative => String.ofList (signed negative ['i', 'n', 'f'])
  | .finite negative mantissa exponent =>
      String.ofList (signed negative (placesText places (roundedUnits places mantissa exponent)))

example : roundDiv 5 2 = 2 ∧ roundDiv 7 2 = 4 ∧ roundDiv 8 3 = 3 := by decide
example : placesText 2 5 = ['0', '.', '0', '5'] := by decide

end MetricAlerts.Decimal

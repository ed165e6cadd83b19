import MetricAlerts.Decimal.Shortest
import MetricAlerts.Decimal.FixedPlaces

/-!
# Number texts

The two ways in which a double is written with its shortest digits: plainly, as in messages, and
as a number of a document, where it keeps a point and turns to an exponent far from one.
-/

namespace MetricAlerts.Decimal

open Text

/-- How a document number is laid out, and which decimal an exact tie takes. -/
structure NumberLayout where
  tie : Tie
  leastPositional : Int
  greatestPositional : Int

/-- Document numbers are positional when the leading digit stands for `10 ^ -5` to `10 ^ 15`. -/
def documentLayout : NumberLayout := ⟨.even, -5, 15⟩

/-- Digits with the point in place; a whole number has no point. -/
def positional (d : Scaled) : List Char :=
  let digits := numeral d.coefficient
  if 0 ≤ d.exponent then digits ++ List.replicate d.exponent.toNat '0'
  else placesText (-d.exponent).toNat d.coefficient

def exponentText (power : Int) : List Char :=
  'e' :: (if power < 0 then '-' else '+') :: numeral power.natAbs

def scientific (d : Scaled) (power : Int) : List Char :=
  match numeral d.coefficient with
  | first :: [] => first :: exponentText power
  | first :: rest => first :: '.' :: rest ++ exponentText power
  | [] => exponentText power

def NumberLayout.write (layout : NumberLayout) (d : Scaled) : List Char :=
  let power := d.exponent + (numeral d.coefficient).length - 1
  if d.coefficient = 0 then ['0', '.', '0']
  else if layout.leastPositional ≤ power ∧ power ≤ layout.greatestPositional then
    if 0 ≤ d.exponent then positional d ++ ['.', '0'] else positional d
  else scientific d power

/-- A double in running text: never an exponent, and no point for a whole number. -/
def plainText (x : Float) : String :=
  match parts x with
  | .nan => "NaN"
  | .infinite negative => String.ofList (signed negative ['i', 'n', 'f'])
  | .finite negative mantissa exponent =>
      String.ofList (signed negative (positional (shortest .up mantissa exponent)))

/-- A finite double as a document number. Documents have no NaN and no infinities. -/
def numberText? (x : Float) : Option String :=
  match parts x with
  | .finite negative mantissa exponent =>
      some (String.ofList (signed negative
        (documentLayout.write (shortest documentLayout.tie mantissa exponent))))
  | _ => none

example : plainText 5.0 = "5" ∧ plainText (-0.0) = "-0" ∧ plainText 1e-7 = "0.0000001" := by
  decide +kernel
example : numberText? 1e16 = some "1e+16" ∧ numberText? 1e-5 = some "0.00001" ∧
    numberText? 1.5e-6 = some "1.5e-6" ∧ numberText? 7.0 = some "7.0" := by
  decide +kernel

end MetricAlerts.Decimal

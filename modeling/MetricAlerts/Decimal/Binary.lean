/-!
# Binary floating point values, taken apart

A finite double is `mantissa * 2 ^ exponent` with a sign. Texts are computed from this exact
form in natural numbers, never through rounded arithmetic.
-/

namespace MetricAlerts.Decimal

inductive Parts where
  | nan
  | infinite (negative : Bool)
  | finite (negative : Bool) (mantissa : Nat) (exponent : Int)
deriving DecidableEq

/-- Mantissas of normal doubles reach from here to twice this. -/
def leastNormal : Nat := Nat.pow 2 52

def leastExponent : Int := -1074

def parts (x : Float) : Parts :=
  let bits := x.toBits.toNat
  let negative := bits / Nat.pow 2 63 == 1
  let biased : Nat := bits / leastNormal % 2048
  let fraction := bits % leastNormal
  if biased = 2047 then (if fraction = 0 then .infinite negative else .nan)
  else if biased = 0 then .finite negative fraction leastExponent
  else .finite negative (leastNormal + fraction) ((biased : Int) - 1075)

/-- Order of finite values that tells the two zeros apart, negative zero first. -/
def rank (x : Float) : Int :=
  let bits := x.toBits.toNat
  if bits < Nat.pow 2 63 then bits else -(bits - Nat.pow 2 63 : Nat) - 1

example : parts 0.5 = .finite false (2 ^ 52) (-53) := by decide
example : rank (-0.0) < rank 0.0 ∧ rank (-2.5) < rank (-0.0) ∧ rank 0.0 < rank 1.0 := by
  decide

end MetricAlerts.Decimal

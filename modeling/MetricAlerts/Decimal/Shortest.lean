import MetricAlerts.Text.Numeral
import MetricAlerts.Decimal.Binary

/-!
# Shortest decimals

The decimal with the fewest digits that reads back as a given double. On each decimal grid, from
one digit upward, only the two neighbours of the value can lie among the reals that round to it;
the first grid with such a neighbour wins, and of two neighbours the nearer one.
-/

namespace MetricAlerts.Decimal

/-- `coefficient * 10 ^ exponent`. -/
structure Scaled where
  coefficient : Nat
  exponent : Int
deriving DecidableEq

/-- Which neighbour is taken when a value lies exactly between two. -/
inductive Tie where
  | up
  | even

/-- The value, and the ends of the reals that round to it, over one denominator. -/
structure Interval where
  value : Nat
  lower : Nat
  upper : Nat
  unit : Nat
  closed : Bool

def interval (mantissa : Nat) (exponent : Int) : Interval :=
  let scale := Nat.pow 2 (exponent - 2).toNat
  let below := if mantissa = leastNormal ∧ leastExponent < exponent then 1 else 2
  { value := 4 * mantissa * scale
    lower := (4 * mantissa - below) * scale
    upper := (4 * mantissa + 2) * scale
    unit := Nat.pow 2 (2 - exponent).toNat
    closed := mantissa % 2 == 0 }

/-- The same interval in units of `10 ^ power`. -/
def Interval.onGrid (i : Interval) (power : Int) : Interval :=
  let scale := Nat.pow 10 (-power).toNat
  { i with
    value := i.value * scale
    lower := i.lower * scale
    upper := i.upper * scale
    unit := i.unit * Nat.pow 10 power.toNat }

def Interval.contains (i : Interval) (count : Nat) : Bool :=
  let point := count * i.unit
  if i.closed then i.lower ≤ point && point ≤ i.upper
  else i.lower < point && point < i.upper

/-- The neighbour of the value among the grid points that reads back, the nearer one if both do. -/
def Interval.neighbour (i : Interval) (tie : Tie) : Option Nat :=
  let below := i.value / i.unit
  let distance := 2 * (i.value % i.unit)
  match i.contains below, i.contains (below + 1) with
  | true, true =>
      if distance < i.unit then some below
      else if i.unit < distance then some (below + 1)
      else match tie with
        | .up => some (below + 1)
        | .even => some (if below % 2 = 0 then below else below + 1)
  | true, false => some below
  | false, true => some (below + 1)
  | false, false => none

/-- Power of ten of the leading digit of `value / unit`, looked for downward from `fuel`. -/
def leadingPower (i : Interval) : Nat → Int → Int
  | 0, power => power
  | fuel + 1, power =>
      if (i.onGrid power).unit ≤ (i.onGrid power).value then power
      else leadingPower i fuel (power - 1)

/-- Tries grids of growing fineness, from `power` downward. -/
def firstNeighbour (i : Interval) (tie : Tie) : Nat → Int → Scaled
  | 0, power => ⟨(i.onGrid power).value / (i.onGrid power).unit, power⟩
  | fuel + 1, power =>
      match (i.onGrid power).neighbour tie with
      | some count => ⟨count, power⟩
      | none => firstNeighbour i tie fuel (power - 1)

/-- Removes trailing zeros of the coefficient, at most `fuel` of them. -/
def stripZeros : Nat → Scaled → Scaled
  | 0, d => d
  | fuel + 1, d =>
      if d.coefficient % 10 = 0 ∧ d.coefficient ≠ 0
      then stripZeros fuel ⟨d.coefficient / 10, d.exponent + 1⟩
      else d

/-- Shortest decimal of a positive finite double; 17 digits always suffice. -/
def shortest (tie : Tie) (mantissa : Nat) (exponent : Int) : Scaled :=
  if mantissa = 0 then ⟨0, 0⟩
  else
    let i := interval mantissa exponent
    let whole := (Text.numeral (i.value / i.unit)).length
    let start : Int := if i.unit ≤ i.value then whole - 1 else -1
    stripZeros 20 (firstNeighbour i tie 17 (leadingPower i 330 start))

example : shortest .up 1 (-1074) = ⟨5, -324⟩ := by decide +kernel
example : shortest .even 5404319552844595 (-54) = ⟨3, -1⟩ := by decide +kernel
example : shortest .even (2 ^ 53 - 1) 971 = ⟨17976931348623157, 292⟩ := by decide +kernel

end MetricAlerts.Decimal

/-!
# Decimal numerals

Natural numbers written in base ten without leading zeros, and read back. Signs, points and
exponents belong to the formats built on top.
-/

namespace MetricAlerts.Text

def digitChar (n : Nat) : Char :=
  Char.ofNat (48 + n % 10)

def isDigit (c : Char) : Bool :=
  48 ≤ c.toNat && c.toNat ≤ 57

def digitValue (c : Char) : Nat :=
  c.toNat - 48

/-- The last `fuel` digits at most; `numeral` gives it more fuel than a number has digits. -/
def digitsOf : Nat → Nat → List Char
  | 0, _ => []
  | fuel + 1, n =>
      if n < 10 then [digitChar n] else digitsOf fuel (n / 10) ++ [digitChar n]

def numeral (n : Nat) : List Char :=
  digitsOf (n + 1) n

/-- The value of a run of digits, read from the left. -/
def digitsValue (cs : List Char) : Nat :=
  cs.foldl (fun value c => 10 * value + digitValue c) 0

def padZeros (width : Nat) (cs : List Char) : List Char :=
  List.replicate (width - cs.length) '0' ++ cs

def intNumeral (n : Int) : List Char :=
  if n < 0 then '-' :: numeral n.natAbs else numeral n.natAbs

/-- Splits off at most `limit` leading digits. -/
def spanDigits : Nat → List Char → List Char × List Char
  | 0, cs => ([], cs)
  | _ + 1, [] => ([], [])
  | limit + 1, c :: cs =>
      if isDigit c then
        let (digits, rest) := spanDigits limit cs
        (c :: digits, rest)
      else ([], c :: cs)

/-- A nonempty run of at most `limit` digits at the start. -/
def takeNumber (limit : Nat) (cs : List Char) : Option (Nat × List Char) :=
  match spanDigits limit cs with
  | ([], _) => none
  | (digits, rest) => some (digitsValue digits, rest)

/-- Optional plus sign, then digits and nothing else, as settings and formats write a count. -/
def readCount (cs : List Char) : Option Nat :=
  let digits := match cs with
    | '+' :: rest => rest
    | other => other
  if digits.isEmpty || !digits.all isDigit then none else some (digitsValue digits)

end MetricAlerts.Text

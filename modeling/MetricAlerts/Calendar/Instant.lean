import MetricAlerts.Calendar.DayText

/-!
# Instants

Points in time in UTC, in seconds from the start of 1970 and nanoseconds. A leap second is the
59th second with a thousand million nanoseconds or more. Instants are read from RFC 3339 with any
offset and written in UTC, with the fewest groups of three fraction digits that lose nothing.
-/

namespace MetricAlerts

open Text

structure Instant where
  second : Int
  nano : Nat
deriving DecidableEq

namespace Instant

instance : LE Instant :=
  ⟨fun a b => a.second < b.second ∨ (a.second = b.second ∧ a.nano ≤ b.nano)⟩

instance (a b : Instant) : Decidable (a ≤ b) :=
  inferInstanceAs (Decidable (a.second < b.second ∨ (a.second = b.second ∧ a.nano ≤ b.nano)))

def secondsPerDay : Int := 86400

def nanosPerSecond : Nat := 1000000000

def fractionText (nano : Nat) : List Char :=
  if nano = 0 then []
  else if nano % 1000000 = 0 then '.' :: padZeros 3 (numeral (nano / 1000000))
  else if nano % 1000 = 0 then '.' :: padZeros 6 (numeral (nano / 1000))
  else '.' :: padZeros 9 (numeral nano)

def twoDigits (n : Nat) : List Char :=
  padZeros 2 (numeral n)

def text (instant : Instant) : String :=
  let date := Calendar.Civil.ofNumber (instant.second / secondsPerDay)
  let inDay := (instant.second % secondsPerDay).toNat
  let leap := instant.nano / nanosPerSecond
  String.ofList (Day.yearText date.year ++ '-' :: twoDigits date.month ++ '-' ::
    twoDigits date.day ++ 'T' :: twoDigits (inDay / 3600) ++ ':' :: twoDigits (inDay / 60 % 60) ++
    ':' :: twoDigits (inDay % 60 + leap) ++ fractionText (instant.nano % nanosPerSecond) ++ ['Z'])

/-- Skips blanks and reads at most two digits that stay below `bound`. -/
def readBelow (bound : Nat) (cs : List Char) : Option (Nat × List Char) := do
  let (n, rest) ← takeNumber 2 (dropBlanks cs)
  if n < bound then some (n, rest) else none

def readColon (cs : List Char) : Option (List Char) :=
  match dropBlanks cs with
  | ':' :: rest => some rest
  | _ => none

/-- Fraction digits after the ninth are dropped. -/
def readFraction (cs : List Char) : Option (Nat × List Char) :=
  match cs with
  | '.' :: rest =>
      match spanDigits 9 rest with
      | ([], _) => none
      | (digits, rest) =>
          some (digitsValue digits * Nat.pow 10 (9 - digits.length), rest.dropWhile isDigit)
  | rest => some (0, rest)

/-- Two digits exactly. -/
def readPair (cs : List Char) : Option (Nat × List Char) :=
  match cs with
  | a :: b :: rest =>
      if isDigit a && isDigit b then some (10 * digitValue a + digitValue b, rest) else none
  | _ => none

/-- Offset from UTC in seconds: a Z, the letters UTC, or a sign with hours and minutes. -/
def readOffset (cs : List Char) : Option (Int × List Char) :=
  match cs with
  | [] => none
  | c :: rest =>
      if c = 'Z' ∨ c = 'z' then some (0, rest)
      else if (cs.take 3).map Char.toUpper = ['U', 'T', 'C'] then some (0, cs.drop 3)
      else if c = '+' ∨ c = '-' ∨ c.toNat = 0x2212 then do
        let (hours, rest) ← readPair rest
        let (minutes, rest) ← readPair (rest.dropWhile fun c => c == ':' || isBlank c)
        if minutes < 60 ∧ hours < 24 then
          let seconds : Int := 3600 * hours + 60 * minutes
          some (if c = '+' then seconds else -seconds, rest)
        else none
      else none

def read? (s : String) : Option Instant := do
  let (day, cs) ← Day.readStart s.toList
  let cs ← match cs with
    | c :: rest => if c = 'T' ∨ c = 't' ∨ c = ' ' then some rest else none
    | [] => none
  let (hour, cs) ← readBelow 24 cs
  let cs ← readColon cs
  let (minute, cs) ← readBelow 60 cs
  let cs ← readColon cs
  let (second, cs) ← readBelow 61 cs
  let (nano, cs) ← readFraction cs
  let (offset, cs) ← readOffset (dropBlanks cs)
  if !(dropBlanks cs).isEmpty then none
  let (second, nano) := if second = 60 then (59, nano + nanosPerSecond) else (second, nano)
  let inDay : Int := 3600 * hour + 60 * minute + second
  return ⟨day.number * secondsPerDay + inDay - offset, nano⟩

end Instant

end MetricAlerts

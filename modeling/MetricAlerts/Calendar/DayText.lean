import MetricAlerts.Calendar.Day
import MetricAlerts.Text.Blank
import MetricAlerts.Text.Numeral

/-!
# Days in text

A day is written `YYYY-MM-DD`; a year outside 0 to 9999 carries its sign. Reading is more lenient:
fewer digits are enough, a signed year may have any number of them, and blanks are skipped before
each number, before each dash and at the end.
-/

namespace MetricAlerts.Day

open Text Calendar

def yearText (year : Int) : List Char :=
  if 0 ≤ year ∧ year ≤ 9999 then padZeros 4 (numeral year.natAbs)
  else (if year < 0 then '-' else '+') :: padZeros 4 (numeral year.natAbs)

def chars (day : Day) : List Char :=
  let c := day.civil
  yearText c.year ++ '-' :: padZeros 2 (numeral c.month) ++ '-' :: padZeros 2 (numeral c.day)

def text (day : Day) : String :=
  String.ofList day.chars

/-- A year: up to four digits, or a sign and any number of digits. -/
def readYear (cs : List Char) : Option (Int × List Char) :=
  match dropBlanks cs with
  | '-' :: rest => (takeNumber rest.length rest).map fun (n, rest) => (-(n : Int), rest)
  | '+' :: rest => (takeNumber rest.length rest).map fun (n, rest) => ((n : Int), rest)
  | rest => (takeNumber 4 rest).map fun (n, rest) => ((n : Int), rest)

/-- A dash, then a number of at most two digits. -/
def readDashed (cs : List Char) : Option (Nat × List Char) :=
  match dropBlanks cs with
  | '-' :: rest => takeNumber 2 (dropBlanks rest)
  | _ => none

/-- Reads a day at the start of a text. -/
def readStart (cs : List Char) : Option (Day × List Char) := do
  let (year, cs) ← readYear cs
  let (month, cs) ← readDashed cs
  let (day, cs) ← readDashed cs
  let day ← ofCivil? ⟨year, month, day⟩
  return (day, cs)

def read? (s : String) : Option Day := do
  let (day, rest) ← readStart s.toList
  if (dropBlanks rest).isEmpty then some day else none

end MetricAlerts.Day

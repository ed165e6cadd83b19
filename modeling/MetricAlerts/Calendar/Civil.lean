/-!
# Civil dates

Years, months and days of the proleptic Gregorian calendar, in which year 0 exists, and their
position on the line of days with 1 January 1970 at 0. Years are counted from March, so that the
leap day is the last day of a year and the months before it have a fixed pattern.
-/

namespace MetricAlerts.Calendar

structure Civil where
  year : Int
  month : Nat
  day : Nat
deriving DecidableEq

def isLeap (year : Int) : Bool :=
  year % 4 == 0 && (year % 100 != 0 || year % 400 == 0)

def daysInMonth (year : Int) (month : Nat) : Nat :=
  if month = 2 then (if isLeap year then 29 else 28)
  else if month = 4 ∨ month = 6 ∨ month = 9 ∨ month = 11 then 30
  else 31

def Civil.isValid (c : Civil) : Bool :=
  1 ≤ c.month && c.month ≤ 12 && 1 ≤ c.day && c.day ≤ daysInMonth c.year c.month

/-- Days in 400 years, after which the calendar repeats. -/
def eraDays : Int := 146097

/-- Days from 1 March of year 0 to 1 January 1970. -/
def epochOffset : Int := 719468

/-- Days from 1 March to the given day, for months counted from March. -/
def dayOfMarchYear (month day : Nat) : Int :=
  (153 * ((month + 9) % 12 : Nat) + 2) / 5 + day - 1

def Civil.number (c : Civil) : Int :=
  let year := if c.month ≤ 2 then c.year - 1 else c.year
  let yearOfEra := year % 400
  let dayOfEra :=
    yearOfEra * 365 + yearOfEra / 4 - yearOfEra / 100 + dayOfMarchYear c.month c.day
  year / 400 * eraDays + dayOfEra - epochOffset

def Civil.ofNumber (number : Int) : Civil :=
  let shifted := number + epochOffset
  let era := shifted / eraDays
  let dayOfEra := shifted % eraDays
  let yearOfEra :=
    (dayOfEra - dayOfEra / 1460 + dayOfEra / 36524 - dayOfEra / 146096) / 365
  let dayOfYear := dayOfEra - (365 * yearOfEra + yearOfEra / 4 - yearOfEra / 100)
  let marchMonth := (5 * dayOfYear + 2) / 153
  let day := dayOfYear - (153 * marchMonth + 2) / 5 + 1
  let month := if marchMonth < 10 then marchMonth + 3 else marchMonth - 9
  let year := yearOfEra + era * 400 + (if month ≤ 2 then 1 else 0)
  ⟨year, month.toNat, day.toNat⟩

example : Civil.number ⟨1970, 1, 1⟩ = 0 := by decide
example : Civil.number ⟨2024, 2, 29⟩ = 19782 ∧ Civil.ofNumber 19782 = ⟨2024, 2, 29⟩ := by decide
example : Civil.ofNumber (-719468) = ⟨0, 3, 1⟩ := by decide

end MetricAlerts.Calendar

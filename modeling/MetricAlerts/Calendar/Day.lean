import MetricAlerts.Calendar.Civil

/-!
# Calendar days

A day is its position on the line of days, from 1 January of year -262143 to 31 December of year
262142. Order and distance are those of the numbers; stepping over either end is an explicit
failure, and going back a window stops at the first day.
-/

namespace MetricAlerts

open Calendar

structure Day where
  number : Int
  first_le : -96465292 ≤ number
  le_last : number ≤ 95026236
deriving DecidableEq

namespace Day

instance : LT Day := ⟨fun a b => a.number < b.number⟩
instance : LE Day := ⟨fun a b => a.number ≤ b.number⟩
instance (a b : Day) : Decidable (a < b) := inferInstanceAs (Decidable (a.number < b.number))
instance (a b : Day) : Decidable (a ≤ b) := inferInstanceAs (Decidable (a.number ≤ b.number))

theorem lt_def {a b : Day} : a < b ↔ a.number < b.number := Iff.rfl
theorem le_def {a b : Day} : a ≤ b ↔ a.number ≤ b.number := Iff.rfl

@[ext]
theorem ext_number {a b : Day} (h : a.number = b.number) : a = b := by
  cases a; cases b; simp_all

def first : Day := ⟨-96465292, by decide, by decide⟩
def last : Day := ⟨95026236, by decide, by decide⟩

def ofNumber? (number : Int) : Option Day :=
  if h : -96465292 ≤ number ∧ number ≤ 95026236 then some ⟨number, h.1, h.2⟩ else none

theorem number_of_ofNumber? {number : Int} {day : Day} (h : ofNumber? number = some day) :
    day.number = number := by
  unfold ofNumber? at h
  split at h <;> simp_all
  rw [← h]

@[simp]
theorem ofNumber?_number (day : Day) : ofNumber? day.number = some day := by
  simp [ofNumber?, day.first_le, day.le_last]

def ofCivil? (c : Civil) : Option Day :=
  if c.isValid then ofNumber? c.number else none

def civil (day : Day) : Civil :=
  Civil.ofNumber day.number

def add? (day : Day) (days : Int) : Option Day :=
  ofNumber? (day.number + days)

/-- Days from `earlier` to `day`, negative when `earlier` comes later. -/
def since (day earlier : Day) : Int :=
  day.number - earlier.number

/-- `days` days earlier, but no earlier than the first day of the calendar. -/
def back (day : Day) (days : Nat) : Day :=
  (day.add? (-(days : Int))).getD first

/-- Every day from `start` to `finish`, in order; none when `finish` is earlier. -/
def span (start finish : Day) : List Day :=
  (List.range (finish.since start + 1).toNat).filterMap fun (offset : Nat) => start.add? offset

/-- First day of the window of `days` calendar days that ends at `day`. -/
def windowStart (day : Day) (days : Nat) : Day :=
  day.back (max days 1 - 1)

example : (ofCivil? ⟨-262143, 1, 1⟩) = some first := by decide
example : (ofCivil? ⟨262142, 12, 31⟩) = some last := by decide
example : (ofCivil? ⟨262143, 1, 1⟩) = none := by decide
example : (ofCivil? ⟨2023, 2, 29⟩) = none := by decide

end Day

end MetricAlerts

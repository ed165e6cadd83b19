import Mathlib.Data.Int.Init
import Mathlib.Tactic.IntervalCases
import MetricAlerts.Calendar.Day

/-!
# Dates of days

A day has one date, and the date leads back to the day.  The only thing to see
is that the year is found aright.  To take out the leap days that have passed
leaves 365 days for each year, and never brings a later day before an earlier
one; so it is enough to look at the first and the last day of each of the 400
years after which the calendar repeats.
-/

namespace MetricAlerts.Calendar

/-- The days of an era up to the given one, without leap days. -/
def plainDays (day : Int) : Int :=
  day - day / 1460 + day / 36524 - day / 146096

/-- The day of an era with which a year begins. -/
def yearStart (year : Int) : Int :=
  365 * year + year / 4 - year / 100

theorem plainDays_le {day later : Int} (hfirst : 0 ≤ day) (hle : day ≤ later)
    (hlast : later ≤ 146096) : plainDays day ≤ plainDays later := by
  induction later, hle using Int.leInduction with
  | base => exact Int.le_refl _
  | succ later hle ih =>
      have hstep : plainDays later ≤ plainDays (later + 1) := by
        simp only [plainDays]
        omega
      exact Int.le_trans (ih (by omega)) hstep

theorem plainDays_yearStart : ∀ year < 400, 365 * (year : Nat) ≤ plainDays (yearStart year) ∧
    (year ≠ 0 → plainDays (yearStart year - 1) < 365 * year) := by
  decide +kernel

/-- The year that a day of an era is in. -/
theorem year_of_dayOfEra {day year : Int} (hfirst : 0 ≤ day) (hlast : day ≤ 146096)
    (hyear : year = plainDays day / 365) :
    0 ≤ year ∧ year ≤ 399 ∧ yearStart year ≤ day ∧ (year ≠ 399 → day < yearStart (year + 1)) := by
  have hbounds : 0 ≤ year ∧ year ≤ 399 := by
    simp only [plainDays] at hyear
    omega
  have hplain : 365 * year ≤ plainDays day ∧ plainDays day < 365 * (year + 1) := by omega
  obtain ⟨count, rfl⟩ := Int.eq_ofNat_of_zero_le hbounds.1
  refine ⟨hbounds.1, hbounds.2, ?_, ?_⟩
  · apply Int.not_lt.1
    intro hbefore
    have hne : count ≠ 0 := by
      rintro rfl
      exact Int.not_lt.2 hfirst hbefore
    have hless := (plainDays_yearStart count (by omega)).2 hne
    have hend : yearStart count - 1 ≤ 146096 := by
      simp only [yearStart]
      omega
    have hmono : plainDays day ≤ plainDays (yearStart count - 1) :=
      plainDays_le hfirst (by omega) hend
    omega
  · intro hne
    apply Int.not_le.1
    intro hafter
    have hmore := (plainDays_yearStart (count + 1) (by omega)).1
    rw [Int.natCast_succ] at hmore
    have hbegin : 0 ≤ yearStart (count + 1) := by
      simp only [yearStart]
      omega
    have hmono := plainDays_le hbegin hafter hlast
    omega

/-- The date of a day in a year that begins in March. -/
def ofMarch (year day : Int) : Civil :=
  let marchMonth := (5 * day + 2) / 153
  let month := if marchMonth < 10 then marchMonth + 3 else marchMonth - 9
  ⟨year + (if month ≤ 2 then 1 else 0), month.toNat,
    (day - (153 * marchMonth + 2) / 5 + 1).toNat⟩

variable {year day : Int}

/-- The months of such a year are counted from zero, and none but the last one
depends on the year. -/
theorem exists_marchMonth (hfirst : 0 ≤ day) (hlast : day ≤ 365) :
    ∃ month < 12, (5 * day + 2) / 153 = (month : Nat) := by
  refine ⟨((5 * day + 2) / 153).toNat, ?_, ?_⟩ <;> omega

theorem dayOfMarchYear_ofMarch (year : Int) (hfirst : 0 ≤ day) (hlast : day ≤ 365) :
    dayOfMarchYear (ofMarch year day).month (ofMarch year day).day = day := by
  obtain ⟨month, hless, hmonth⟩ := exists_marchMonth hfirst hlast
  simp only [ofMarch, dayOfMarchYear, hmonth]
  interval_cases month <;> simp <;> omega

theorem number_ofMarch (year : Int) (hfirst : 0 ≤ day) (hlast : day ≤ 365) :
    (ofMarch year day).number =
      year / 400 * eraDays + (yearStart (year % 400) + day) - epochOffset := by
  have hday := dayOfMarchYear_ofMarch year hfirst hlast
  have hyear : (if (ofMarch year day).month ≤ 2 then (ofMarch year day).year - 1
      else (ofMarch year day).year) = year := by
    simp only [ofMarch]
    split <;> split <;> split <;> omega
  rw [Civil.number, hyear, hday]
  simp only [yearStart]
  omega

theorem isValid_ofMarch (hfirst : 0 ≤ day) (hlast : day ≤ 365)
    (hleap : day = 365 → isLeap (year + 1) = true) : (ofMarch year day).isValid = true := by
  obtain ⟨month, hless, hmonth⟩ := exists_marchMonth hfirst hlast
  simp only [ofMarch, Civil.isValid, daysInMonth, hmonth]
  interval_cases month <;> simp <;> grind

/-- A year from March to March that has one day more ends in a leap year. -/
theorem isLeap_of_yearStart {year : Int}
    (hyear : year ≠ 399 → yearStart year + 365 < yearStart (year + 1)) (era : Int) :
    isLeap (year + era * 400 + 1) = true := by
  simp only [yearStart] at hyear
  simp only [isLeap, Bool.and_eq_true, Bool.or_eq_true, beq_iff_eq, bne_iff_ne]
  omega

/-- A date is that of a day in a year that begins in March. -/
theorem exists_ofMarch (number : Int) :
    ∃ year day, Civil.ofNumber number = ofMarch year day ∧ 0 ≤ day ∧ day ≤ 365 ∧
      (day = 365 → isLeap (year + 1) = true) ∧
      year / 400 * eraDays + (yearStart (year % 400) + day) - epochOffset = number := by
  have hera : eraDays ≠ 0 := by decide
  have hfirst := Int.emod_nonneg (number + epochOffset) hera
  have hlast : (number + epochOffset) % eraDays < eraDays := Int.emod_lt_of_pos _ (by decide)
  have hnumber := Int.mul_ediv_add_emod (number + epochOffset) eraDays
  have hdate : Civil.ofNumber number =
      ofMarch (plainDays ((number + epochOffset) % eraDays) / 365 +
          (number + epochOffset) / eraDays * 400)
        ((number + epochOffset) % eraDays -
          yearStart (plainDays ((number + epochOffset) % eraDays) / 365)) := rfl
  generalize (number + epochOffset) % eraDays = dayOfEra at hfirst hlast hnumber hdate
  generalize (number + epochOffset) / eraDays = era at hnumber hdate
  generalize hyear : plainDays dayOfEra / 365 = year at hdate
  obtain ⟨hyearFirst, hyearLast, hbegun, hended⟩ :=
    year_of_dayOfEra hfirst (Int.le_of_lt_add_one hlast) hyear.symm
  refine ⟨_, _, hdate, Int.sub_nonneg.2 hbegun, ?_, ?_, ?_⟩
  · simp only [yearStart, eraDays] at hended hlast ⊢
    omega
  · intro hday
    apply isLeap_of_yearStart
    intro hne
    have := hended hne
    omega
  · have hmod : (year + era * 400) % 400 = year := by omega
    have hdiv : (year + era * 400) / 400 = era := by omega
    rw [hmod, hdiv, Int.mul_comm era]
    omega

/-- A day is found again from its date. -/
theorem number_ofNumber (number : Int) : (Civil.ofNumber number).number = number := by
  obtain ⟨year, day, hdate, hfirst, hlast, -, hnumber⟩ := exists_ofMarch number
  rw [hdate, number_ofMarch year hfirst hlast, hnumber]

theorem isValid_ofNumber (number : Int) : (Civil.ofNumber number).isValid = true := by
  obtain ⟨year, day, hdate, hfirst, hlast, hleap, -⟩ := exists_ofMarch number
  rw [hdate]
  exact isValid_ofMarch hfirst hlast hleap

end MetricAlerts.Calendar

namespace MetricAlerts.Day

open Calendar

theorem ofCivil?_civil (day : Day) : ofCivil? day.civil = some day := by
  rw [ofCivil?, civil, isValid_ofNumber, number_ofNumber, if_pos rfl, ofNumber?_number]

end MetricAlerts.Day

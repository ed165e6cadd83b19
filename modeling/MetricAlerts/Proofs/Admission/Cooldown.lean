import Mathlib.Data.List.Induction
import MetricAlerts.Proofs.Admission.Sequence

/-!
# How long a cooldown lasts

Who is told that a cooldown has so many days to go may rely on it: the rule is
held back on each of these days and no longer.  What is stored need not come
from admissions, so a count may be as large as can be and a last alert may lie
far ahead.  The check still stays within the numbers of a machine, since it
looks at the cap before it counts one more.
-/

namespace MetricAlerts

/-- The number, if 64 bits with a sign can hold it. -/
def fits64? (n : Int) : Option Int :=
  if Int64.minValue.toInt ≤ n ∧ n ≤ Int64.maxValue.toInt then some n else none

theorem fits64?_eq_some {n : Int} (hlow : -9223372036854775808 ≤ n)
    (hhigh : n ≤ 9223372036854775807) : fits64? n = some n :=
  if_pos ⟨hlow, hhigh⟩

/-- A distance of days, if it can be held in milliseconds. -/
def Day.measuredSince? (day earlier : Day) : Option Int :=
  (fits64? (86400000 * day.since earlier)).map fun _ => day.since earlier

theorem Day.measuredSince?_eq_some (day earlier : Day) :
    day.measuredSince? earlier = some (day.since earlier) := by
  have hfirst := day.first_le
  have hlast := day.le_last
  have hearlierFirst := earlier.first_le
  have hearlierLast := earlier.le_last
  rw [measuredSince?, fits64?_eq_some, Option.map_some] <;> rw [since] <;> omega

/-- The history after one more alert, if that can be counted. -/
def History.countedAdmitted? (history : History) (day : Day) : Option History :=
  if (history.countOn day).toNat + 1 < UInt32.size then some (history.admitted day) else none

namespace Limits

/-- The check against limits, given up where a number does not fit. -/
def boundedCheck? (limits : Limits) (history : History) (day : Day) :
    Option (Except Suppression History) :=
  let capped :=
    if limits.maxPerDay ≤ history.countOn day then
      some (.error (.dailyCap (history.countOn day) limits.maxPerDay))
    else (history.countedAdmitted? day).map .ok
  match history.last with
  | none => capped
  | some last =>
      if 0 < limits.cooldownDays then do
        let gap ← day.measuredSince? last
        if gap < limits.cooldownDays.toNat then
          let remaining ← fits64? (limits.cooldownDays.toNat - gap)
          return .error (.cooldown last remaining)
        else capped
      else capped

variable {limits : Limits} {history next : History} {day last : Day} {remaining : Int}

theorem countedAdmitted?_of_lt (hcap : history.countOn day < limits.maxPerDay) :
    history.countedAdmitted? day = some (history.admitted day) := by
  have hlt := UInt32.lt_iff_toNat_lt.1 hcap
  have hmax := limits.maxPerDay.toNat_lt
  exact if_pos (Nat.lt_of_le_of_lt hlt hmax)

theorem fits64?_remaining (limits : Limits) (day last : Day) :
    fits64? (limits.cooldownDays.toNat - day.since last) =
      some (limits.cooldownDays.toNat - day.since last) := by
  have hcooldown := limits.cooldownDays.toNat_lt
  have hfirst := day.first_le
  have hlate := day.le_last
  have hlastFirst := last.first_le
  have hlastLate := last.le_last
  apply fits64?_eq_some <;> rw [Day.since] <;> omega

/-- The check never leaves the numbers of a machine. -/
theorem boundedCheck?_eq_some (limits : Limits) (history : History) (day : Day) :
    limits.boundedCheck? history day = some (limits.check history day) := by
  have hcapped : (if limits.maxPerDay ≤ history.countOn day then
        some (Except.error (Suppression.dailyCap (history.countOn day) limits.maxPerDay))
      else (history.countedAdmitted? day).map Except.ok) =
      some (if limits.maxPerDay ≤ history.countOn day then
        Except.error (Suppression.dailyCap (history.countOn day) limits.maxPerDay)
      else Except.ok (history.admitted day)) := by
    split
    · rfl
    · next hfree =>
        rw [countedAdmitted?_of_lt (UInt32.not_le.1 hfree)]
        rfl
  unfold boundedCheck? check cooldown?
  cases history.last with
  | none => exact hcapped
  | some last =>
      simp only [Day.measuredSince?_eq_some, Option.bind_eq_bind, Option.bind_some,
        fits64?_remaining, hcapped]
      by_cases hpos : 0 < limits.cooldownDays
      · by_cases hgap : day.since last < limits.cooldownDays.toNat
        · simp [hpos, hgap]
        · simp [hpos, hgap]
      · simp [hpos]

/-- Whether a rule is held back by its cooldown on a day. -/
def Cools (limits : Limits) (history : History) (day : Day) : Prop :=
  ∃ last remaining, limits.check history day = .error (.cooldown last remaining)

theorem check_eq_cooldown_iff :
    limits.check history day = .error (.cooldown last remaining) ↔
      history.last = some last ∧ 0 < limits.cooldownDays ∧
        remaining = limits.cooldownDays.toNat - day.since last ∧ 0 < remaining := by
  unfold check cooldown?
  cases hlast : history.last with
  | none =>
      simp only [reduceCtorEq, false_and, iff_false]
      split <;> simp
  | some other =>
      by_cases hcools : 0 < limits.cooldownDays ∧ day.since other < limits.cooldownDays.toNat
      · simp only [if_pos hcools, Except.error.injEq, Suppression.cooldown.injEq, Option.some.injEq]
        constructor
        · rintro ⟨rfl, rfl⟩
          exact ⟨rfl, hcools.1, rfl, by omega⟩
        · rintro ⟨rfl, -, rfl, -⟩
          exact ⟨rfl, rfl⟩
      · simp only [if_neg hcools, Option.some.injEq]
        constructor
        · intro hcheck
          split at hcheck <;> cases hcheck
        · rintro ⟨rfl, hpos, rfl, hremaining⟩
          exact absurd ⟨hpos, by omega⟩ hcools

theorem cools_iff :
    limits.Cools history day ↔ ∃ last, history.last = some last ∧ 0 < limits.cooldownDays ∧
      day.number < last.number + limits.cooldownDays.toNat := by
  simp only [Cools, check_eq_cooldown_iff]
  constructor
  · rintro ⟨last, remaining, hlast, hpos, rfl, hremaining⟩
    refine ⟨last, hlast, hpos, ?_⟩
    rw [Day.since] at hremaining
    omega
  · rintro ⟨last, hlast, hpos, hlt⟩
    refine ⟨last, _, hlast, hpos, rfl, ?_⟩
    rw [Day.since]
    omega

/-- The days that remain are the ones that are still held back. -/
theorem cools_iff_of_check (hcheck : limits.check history day = .error (.cooldown last remaining))
    (other : Day) : limits.Cools history other ↔ other.number < day.number + remaining := by
  obtain ⟨hlast, hpos, rfl, -⟩ := check_eq_cooldown_iff.1 hcheck
  simp only [cools_iff, hlast, Option.some.injEq, exists_eq_left', hpos, true_and, Day.since]
  omega

/-- A history that admissions have led to has counted on the day of the last
alert. -/
theorem countedOn_foldl_admitted (days : List Day) :
    (days.foldl History.admitted .empty).countedOn = (days.foldl History.admitted .empty).last := by
  induction days using List.reverseRecOn with
  | nil => rfl
  | append_singleton days day _ =>
      rw [List.foldl_append]
      rfl

/-- When the remaining days are over, the day is another one than that of the
last alert, so nothing was counted on it. -/
theorem check_of_free (hcounted : history.countedOn = history.last) (hcap : 0 < limits.maxPerDay)
    (hcheck : limits.check history day = .error (.cooldown last remaining)) {free : Day}
    (hfree : free.number = day.number + remaining) :
    limits.check history free = .ok (history.admitted free) := by
  obtain ⟨hlast, hpos, rfl, -⟩ := check_eq_cooldown_iff.1 hcheck
  have hcooldown := UInt32.lt_iff_toNat_lt.1 hpos
  rw [UInt32.toNat_zero] at hcooldown
  rw [Day.since] at hfree
  rw [check_eq_ok_iff, cooldown?_eq_none_iff]
  refine ⟨.inr ?_, ?_, rfl⟩
  · intro other hother
    rw [hlast, Option.some.injEq] at hother
    rw [← hother, Day.since]
    omega
  · have hne : history.countedOn ≠ some free := by
      rw [hcounted, hlast, ne_eq, Option.some.injEq]
      rintro rfl
      omega
    rwa [History.countOn, if_neg hne]

theorem count_le_maxPerDay_of_check (hcheck : limits.check history day = .ok next) :
    next.count ≤ limits.maxPerDay ∧ next.count.toNat = (history.countOn day).toNat + 1 := by
  obtain ⟨-, hcap, rfl⟩ := check_eq_ok_iff.1 hcheck
  have hcount : (history.admitted day).count.toNat = (history.countOn day).toNat + 1 := by
    rw [← History.toNat_countOn_admitted history hcap, History.countOn_admitted]
    rfl
  refine ⟨?_, hcount⟩
  rw [UInt32.le_iff_toNat_le, hcount]
  exact UInt32.lt_iff_toNat_lt.1 hcap

/-- A check stays within the numbers of a machine.  At least one day remains when
it says so, and the rule is held back by its cooldown up to the last of the days
that remain and no longer; with a history that admissions have led to, it is
admitted on the first day thereafter.  What is admitted was counted without loss,
and not beyond the cap. -/
theorem check_is_exact (limits : Limits) (history : History) (day : Day) :
    limits.boundedCheck? history day = some (limits.check history day) ∧
    (∀ last remaining, limits.check history day = .error (.cooldown last remaining) →
      1 ≤ remaining ∧
      (∀ other, limits.Cools history other ↔ other.number < day.number + remaining) ∧
      ∀ (days : List Day) (free : Day), history = days.foldl History.admitted .empty →
        0 < limits.maxPerDay →
        free.number = day.number + remaining →
        limits.check history free = .ok (history.admitted free)) ∧
    ∀ next, limits.check history day = .ok next →
      next.count ≤ limits.maxPerDay ∧ next.count.toNat = (history.countOn day).toNat + 1 := by
  refine ⟨limits.boundedCheck?_eq_some history day, fun last remaining hcheck => ⟨?_, ?_, ?_⟩,
    fun next => count_le_maxPerDay_of_check⟩
  · exact (check_eq_cooldown_iff.1 hcheck).2.2.2
  · exact cools_iff_of_check hcheck
  · rintro days free rfl hcap hfree
    exact check_of_free (countedOn_foldl_admitted days) hcap hcheck hfree

/-- Two days before the last alert, a cooldown of three days has five to go.  It
is over three days after that alert, and the first alert then is counted as
one. -/
theorem check_is_exact_twoDaysBefore :
    let limits : Limits := ⟨3, 1⟩
    let before : Day := ⟨8, by decide, by decide⟩
    let last : Day := ⟨10, by decide, by decide⟩
    let free : Day := ⟨13, by decide, by decide⟩
    let history := [last].foldl History.admitted .empty
    limits.check history before = .error (.cooldown last 5) ∧ 0 < limits.maxPerDay ∧
      free.number = before.number + 5 ∧
      limits.check history free = .ok (history.admitted free) ∧
      (history.admitted free).count.toNat = (history.countOn free).toNat + 1 := by
  intro limits before last free history
  have hcheck : limits.check history before = .error (.cooldown last 5) := by decide
  have hcap : 0 < limits.maxPerDay := by decide
  have hfree : free.number = before.number + 5 := by decide
  have hadmitted : limits.check history free = .ok (history.admitted free) :=
    ((limits.check_is_exact history before).2.1 last 5 hcheck).2.2 [last] free rfl hcap hfree
  exact ⟨hcheck, hcap, hfree, hadmitted,
    ((limits.check_is_exact history free).2.2 _ hadmitted).2⟩

end Limits

end MetricAlerts

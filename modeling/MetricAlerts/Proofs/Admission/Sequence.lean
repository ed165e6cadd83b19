import Mathlib.Data.List.Nodup
import MetricAlerts.Admission.History

/-!
# Requests in a row

One key is asked for again and again, on days in any order.  A cooldown keeps
the admitted days apart, since a day before the last alert counts as inside
the cooldown too.  A cap does less: the history counts one day only, so the
cap bounds what is admitted on a day as long as no other day comes in between.
Both are proved here along the row of requests, and so is the converse for the
cap.
-/

namespace MetricAlerts

namespace History

theorem countOn_admitted_of_ne (history : History) {day other : Day} (hne : other ≠ day) :
    (history.admitted other).countOn day = 0 := by
  simp [admitted, countOn, hne]

theorem countOn_eq_zero_of_ne (history : History) {day other : Day} (hne : other ≠ day)
    (hcount : history.countOn day ≠ 0) : history.countOn other = 0 := by
  unfold countOn at hcount ⊢
  split at hcount
  · next hday =>
      rw [hday, if_neg]
      simpa using hne.symm
  · exact absurd rfl hcount

/-- Below a cap, counting one more cannot overflow. -/
theorem toNat_countOn_admitted (history : History) {day : Day} {cap : UInt32}
    (hcap : history.countOn day < cap) :
    ((history.admitted day).countOn day).toNat = (history.countOn day).toNat + 1 := by
  have hlt := UInt32.lt_iff_toNat_lt.1 hcap
  have hmax := cap.toNat_lt
  rw [countOn_admitted, UInt32.toNat_add, UInt32.toNat_one]
  omega

end History

namespace Limits

/-- The days that are admitted out of a row of requests, and the history that
this leaves. -/
def admissions (limits : Limits) : History → List Day → List Day × History
  | history, [] => ([], history)
  | history, day :: days =>
      match limits.check history day with
      | .error _ => limits.admissions history days
      | .ok next =>
          let (admitted, last) := limits.admissions next days
          (day :: admitted, last)

variable {limits : Limits} {history next : History} {day other : Day} {days : List Day}

theorem admissions_cons_of_error {reason : Suppression}
    (hcheck : limits.check history day = .error reason) :
    limits.admissions history (day :: days) = limits.admissions history days := by
  rw [admissions, hcheck]

theorem admissions_cons_of_ok (hcheck : limits.check history day = .ok next) :
    limits.admissions history (day :: days) =
      (day :: (limits.admissions next days).1, (limits.admissions next days).2) := by
  rw [admissions, hcheck]

theorem admissions_append (limits : Limits) (history : History) (before after : List Day) :
    limits.admissions history (before ++ after) =
      let first := limits.admissions history before
      let second := limits.admissions first.2 after
      (first.1 ++ second.1, second.2) := by
  induction before generalizing history with
  | nil => rfl
  | cons day days ih =>
      cases hcheck : limits.check history day with
      | error reason =>
          rw [List.cons_append, admissions_cons_of_error hcheck, admissions_cons_of_error hcheck]
          exact ih history
      | ok next =>
          rw [List.cons_append, admissions_cons_of_ok hcheck, admissions_cons_of_ok hcheck, ih]
          rfl

theorem admissions_sublist (limits : Limits) (history : History) (days : List Day) :
    (limits.admissions history days).1.Sublist days := by
  induction days generalizing history with
  | nil => exact List.Sublist.refl []
  | cons day days ih =>
      cases hcheck : limits.check history day with
      | error reason =>
          rw [admissions_cons_of_error hcheck]
          exact (ih history).cons day
      | ok next =>
          rw [admissions_cons_of_ok hcheck]
          exact (ih next).cons_cons day

theorem cooldown?_eq_none_iff :
    limits.cooldown? history day = none ↔
      limits.cooldownDays = 0 ∨
        ∀ last, history.last = some last → limits.cooldownDays.toNat ≤ day.since last := by
  unfold cooldown?
  cases hlast : history.last with
  | none => simp
  | some last =>
      have hpos : 0 < limits.cooldownDays ↔ limits.cooldownDays ≠ 0 := UInt32.pos_iff_ne_zero
      simp only [hpos, ite_eq_right_iff, reduceCtorEq, imp_false, not_and_or, not_not, Int.not_lt,
        Option.some.injEq, forall_eq']

theorem check_eq_ok_iff :
    limits.check history day = .ok next ↔
      limits.cooldown? history day = none ∧ history.countOn day < limits.maxPerDay ∧
        next = history.admitted day := by
  unfold check
  cases hcooldown : limits.cooldown? history day with
  | some reason => simp
  | none =>
      simp only [true_and]
      split
      · next hfull =>
          have hnot : ¬history.countOn day < limits.maxPerDay := by simpa using hfull
          simp [hnot]
      · next hfree =>
          have hlt : history.countOn day < limits.maxPerDay := by simpa using hfree
          simp [hlt, eq_comm]

/-- With a cooldown, what is admitted goes forward in steps of its length. -/
theorem admissions_spaced (hcooldown : limits.cooldownDays ≠ 0) (history : History)
    (days : List Day) :
    (∀ last, history.last = some last → ∀ day ∈ (limits.admissions history days).1,
      (limits.cooldownDays.toNat : Int) ≤ day.since last) ∧
    (limits.admissions history days).1.Pairwise fun a b =>
      (limits.cooldownDays.toNat : Int) ≤ b.since a := by
  induction days generalizing history with
  | nil => simp [admissions]
  | cons day days ih =>
      cases hcheck : limits.check history day with
      | error reason =>
          rw [admissions_cons_of_error hcheck]
          exact ih history
      | ok next =>
          obtain ⟨hnone, -, rfl⟩ := check_eq_ok_iff.1 hcheck
          obtain ⟨hlater, hspaced⟩ := ih (history.admitted day)
          have hafter := hlater day rfl
          rw [admissions_cons_of_ok hcheck]
          refine ⟨?_, List.pairwise_cons.2 ⟨hafter, hspaced⟩⟩
          intro last hlast
          have hgap : (limits.cooldownDays.toNat : Int) ≤ day.since last :=
            (cooldown?_eq_none_iff.1 hnone).resolve_left hcooldown last hlast
          intro other hother
          rcases List.mem_cons.1 hother with rfl | hother
          · exact hgap
          · have hstep := hafter other hother
            simp only [Day.since] at hgap hstep ⊢
            omega

theorem admissions_apart (limits : Limits) (history : History) (days : List Day) :
    (limits.admissions history days).1.Pairwise fun a b =>
      limits.cooldownDays.toNat ≤ (b.since a).natAbs := by
  by_cases hcooldown : limits.cooldownDays = 0
  · simp [hcooldown, List.pairwise_of_forall]
  · apply (admissions_spaced hcooldown history days).2.imp
    intro a b hgap
    omega

/-! ## Caps -/

/-- As long as no other day comes before it, a day gets at most what the cap
leaves of it. -/
theorem count_add_countOn_le (limits : Limits) (history : History)
    (hclose : ∀ other ≠ day, ¬[other, day].Sublist days) :
    (limits.admissions history days).1.count day + (history.countOn day).toNat ≤
      max limits.maxPerDay.toNat (history.countOn day).toNat := by
  induction days generalizing history with
  | nil =>
      rw [admissions, List.count_nil, Nat.zero_add]
      exact Nat.le_max_right ..
  | cons first days ih =>
      have hrest : ∀ other ≠ day, ¬[other, day].Sublist days := by
        intro other hne hsub
        exact hclose other hne (hsub.cons first)
      cases hcheck : limits.check history first with
      | error reason =>
          rw [admissions_cons_of_error hcheck]
          exact ih history hrest
      | ok next =>
          obtain ⟨-, hcap, rfl⟩ := check_eq_ok_iff.1 hcheck
          rw [admissions_cons_of_ok hcheck]
          by_cases hfirst : first = day
          · subst hfirst
            have hcount := ih (history.admitted first) hrest
            have hnext := history.toNat_countOn_admitted hcap
            have hlt := UInt32.lt_iff_toNat_lt.1 hcap
            rw [List.count_cons_self]
            omega
          · have hnone : days.count day = 0 := by
              rw [List.count_eq_zero]
              intro hmem
              exact hclose first hfirst ((List.singleton_sublist.2 hmem).cons_cons first)
            have hle := (limits.admissions_sublist (history.admitted first) days).count_le day
            rw [List.count_cons_of_ne hfirst]
            omega

/-- A day that no other day interrupts stays within the cap. -/
theorem count_le_maxPerDay (limits : Limits) (history : History) (hfresh : history.countOn day = 0)
    (hclose : ∀ other ≠ day, ¬[day, other, day].Sublist days) :
    (limits.admissions history days).1.count day ≤ limits.maxPerDay.toNat := by
  induction days generalizing history with
  | nil => simp [admissions]
  | cons first days ih =>
      have hrest : ∀ other ≠ day, ¬[day, other, day].Sublist days := by
        intro other hne hsub
        exact hclose other hne (hsub.cons first)
      cases hcheck : limits.check history first with
      | error reason =>
          rw [admissions_cons_of_error hcheck]
          exact ih history hfresh hrest
      | ok next =>
          obtain ⟨-, hcap, rfl⟩ := check_eq_ok_iff.1 hcheck
          rw [admissions_cons_of_ok hcheck]
          by_cases hfirst : first = day
          · subst hfirst
            have hbefore : ∀ other ≠ first, ¬[other, first].Sublist days := by
              intro other hne hsub
              exact hclose other hne (hsub.cons_cons first)
            have hcount := limits.count_add_countOn_le (history.admitted first) hbefore
            have hnext := history.toNat_countOn_admitted hcap
            have hlt := UInt32.lt_iff_toNat_lt.1 hcap
            rw [List.count_cons_self]
            omega
          · rw [List.count_cons_of_ne hfirst]
            exact ih _ (history.countOn_admitted_of_ne hfirst) hrest

section Uncooled

variable (hcooldown : limits.cooldownDays = 0)

include hcooldown

theorem check_eq_ok (hcap : history.countOn day < limits.maxPerDay) :
    limits.check history day = .ok (history.admitted day) :=
  check_eq_ok_iff.2 ⟨cooldown?_eq_none_iff.2 (.inl hcooldown), hcap, rfl⟩

/-- A day gets at least what the cap leaves of it, if it asks that often. -/
theorem min_le_count (history : History) (day : Day) (days : List Day) :
    min (days.count day) (limits.maxPerDay.toNat - (history.countOn day).toNat) ≤
      (limits.admissions history days).1.count day := by
  induction days generalizing history with
  | nil => simp [admissions]
  | cons first days ih =>
      by_cases hcap : history.countOn first < limits.maxPerDay
      · have hcount := ih (history.admitted first)
        rw [admissions_cons_of_ok (check_eq_ok hcooldown hcap)]
        by_cases hfirst : first = day
        · subst hfirst
          have hnext := history.toNat_countOn_admitted hcap
          rw [List.count_cons_self, List.count_cons_self]
          omega
        · rw [history.countOn_admitted_of_ne hfirst, UInt32.toNat_zero] at hcount
          rw [List.count_cons_of_ne hfirst, List.count_cons_of_ne hfirst]
          omega
      · cases hcheck : limits.check history first with
        | ok next => exact absurd (check_eq_ok_iff.1 hcheck).2.1 hcap
        | error reason =>
            have hcount := ih history
            rw [admissions_cons_of_error hcheck]
            by_cases hfirst : first = day
            · subst hfirst
              have hle : limits.maxPerDay.toNat ≤ (history.countOn first).toNat := by
                simpa [UInt32.lt_iff_toNat_lt] using hcap
              omega
            · rw [List.count_cons_of_ne hfirst]
              exact hcount

/-- Another day in between makes a day lose its count, so that it gets more than
the cap if it asks for more. -/
theorem min_le_count_add_countOn (hcap : 0 < limits.maxPerDay) (hne : other ≠ day)
    (history : History) (hcount : 0 < (history.countOn day).toNat)
    (hbetween : [other, day].Sublist days) :
    min (days.count day + (history.countOn day).toNat) (limits.maxPerDay.toNat + 1) ≤
      (limits.admissions history days).1.count day + (history.countOn day).toNat := by
  induction days generalizing history with
  | nil => cases hbetween
  | cons first days ih =>
      by_cases hfirst : first = day
      · subst hfirst
        have hrest : [other, first].Sublist days := by
          cases hbetween with
          | cons _ hrest => exact hrest
          | cons_cons _ hrest => exact absurd rfl hne
        have hasked : 0 < days.count first := by
          apply List.count_pos_iff.2
          exact hrest.subset (by simp)
        rw [List.count_cons_self]
        by_cases hfree : history.countOn first < limits.maxPerDay
        · have hnext := history.toNat_countOn_admitted hfree
          have hlater := ih (history.admitted first) (by omega) hrest
          rw [admissions_cons_of_ok (check_eq_ok hcooldown hfree), List.count_cons_self]
          omega
        · cases hcheck : limits.check history first with
          | ok next => exact absurd (check_eq_ok_iff.1 hcheck).2.1 hfree
          | error reason =>
              have hlater := ih history hcount hrest
              have hfull : limits.maxPerDay.toNat ≤ (history.countOn first).toNat := by
                simpa [UInt32.lt_iff_toNat_lt] using hfree
              rw [admissions_cons_of_error hcheck]
              omega
      · -- The other day was not counted, so it is admitted, and the count is its own.
        have hzero : history.countOn first = 0 := by
          apply history.countOn_eq_zero_of_ne hfirst
          intro hday
          rw [hday] at hcount
          exact absurd hcount (by decide)
        have hfree : history.countOn first < limits.maxPerDay := hzero ▸ hcap
        have hlater := min_le_count hcooldown (history.admitted first) day days
        rw [history.countOn_admitted_of_ne hfirst, UInt32.toNat_zero] at hlater
        rw [admissions_cons_of_ok (check_eq_ok hcooldown hfree), List.count_cons_of_ne hfirst,
          List.count_cons_of_ne hfirst]
        omega

theorem min_le_count_of_interrupted (hcap : 0 < limits.maxPerDay) (hne : other ≠ day)
    (history : History) (hfresh : history.countOn day = 0)
    (hbetween : [day, other, day].Sublist days) :
    min (days.count day) (limits.maxPerDay.toNat + 1) ≤
      (limits.admissions history days).1.count day := by
  induction days generalizing history with
  | nil => cases hbetween
  | cons first days ih =>
      by_cases hfirst : first = day
      · subst hfirst
        have hrest : [other, first].Sublist days := by
          cases hbetween with
          | cons _ hrest => exact (List.sublist_cons_self ..).trans hrest
          | cons_cons _ hrest => exact hrest
        have hfree : history.countOn first < limits.maxPerDay := hfresh ▸ hcap
        have hnext := history.toNat_countOn_admitted hfree
        rw [hfresh, UInt32.toNat_zero] at hnext
        have hlater := min_le_count_add_countOn hcooldown hcap hne (history.admitted first)
          (by omega) hrest
        rw [admissions_cons_of_ok (check_eq_ok hcooldown hfree), List.count_cons_self,
          List.count_cons_self]
        omega
      · have hrest : [day, other, day].Sublist days := by
          cases hbetween with
          | cons _ hrest => exact hrest
          | cons_cons _ hrest => exact absurd rfl hfirst
        rw [List.count_cons_of_ne hfirst]
        cases hcheck : limits.check history first with
        | error reason =>
            rw [admissions_cons_of_error hcheck]
            exact ih history hfresh hrest
        | ok next =>
            obtain ⟨-, -, rfl⟩ := check_eq_ok_iff.1 hcheck
            rw [admissions_cons_of_ok hcheck, List.count_cons_of_ne hfirst]
            exact ih _ (history.countOn_admitted_of_ne hfirst) hrest

end Uncooled

/-- With a cooldown, no day is admitted twice. -/
theorem count_le_one (hcooldown : limits.cooldownDays ≠ 0) (history : History) (day : Day)
    (days : List Day) : (limits.admissions history days).1.count day ≤ 1 := by
  apply List.nodup_iff_count_le_one.1
  apply (admissions_spaced hcooldown history days).2.imp
  intro a b hgap heq
  have hpos := UInt32.lt_iff_toNat_lt.1 (UInt32.pos_iff_ne_zero.2 hcooldown)
  rw [UInt32.toNat_zero] at hpos
  simp only [heq, Day.since, Int.sub_self] at hgap
  omega

/-- When a cap is kept on a day: if there is a cooldown, if the day does not ask
more often than the cap allows, or if no other day asks between two requests of
the day.  Otherwise it is not. -/
theorem count_le_maxPerDay_iff (limits : Limits) (hcap : 0 < limits.maxPerDay) (day : Day)
    (days : List Day) :
    (limits.admissions .empty days).1.count day ≤ limits.maxPerDay.toNat ↔
      limits.cooldownDays ≠ 0 ∨ days.count day ≤ limits.maxPerDay.toNat ∨
        ∀ other ≠ day, ¬[day, other, day].Sublist days := by
  have hpos := UInt32.lt_iff_toNat_lt.1 hcap
  rw [UInt32.toNat_zero] at hpos
  by_cases hcooldown : limits.cooldownDays = 0
  · constructor
    · intro hcount
      right
      by_contra hviolated
      push Not at hviolated
      obtain ⟨hasked, other, hne, hbetween⟩ := hviolated
      have hmany := min_le_count_of_interrupted hcooldown hcap hne .empty rfl hbetween
      omega
    · rintro (hcooled | hasked | hclose)
      · exact absurd hcooldown hcooled
      · exact Nat.le_trans ((limits.admissions_sublist .empty days).count_le day) hasked
      · exact limits.count_le_maxPerDay .empty rfl hclose
  · have hone := count_le_one hcooldown .empty day days
    constructor
    · intro _
      exact .inl hcooldown
    · intro _
      omega

end Limits

end MetricAlerts

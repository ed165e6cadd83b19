import MetricAlerts.Metric.Snapshot

/-!
# What a shortfall says

The detail of a shortfall is read by people.  The one of a statistic that was
never asked for ends in words of its own; no statistic that was computed says
so, whatever the names and numbers in its detail are.
-/

namespace MetricAlerts

open Text

theorem getLast?_numeral (n : Nat) : (numeral n).getLast? = some (digitChar n) := by
  rw [numeral, digitsOf]
  split
  · rfl
  · exact List.getLast?_concat

theorem digitChar_ne (n : Nat) : digitChar n ≠ 'd' := by
  have hdigits : ∀ digit < 10, Char.ofNat (48 + digit) ≠ 'd' := by decide
  exact hdigits (n % 10) (Nat.mod_lt n (by decide))

theorem Day.getLast?_text (day : Day) :
    day.text.toList.getLast? = some (digitChar day.civil.day) := by
  rw [text, String.toList_ofList]
  simp only [chars, padZeros]
  rw [List.getLast?_append, List.getLast?_cons, List.getLast?_append, getLast?_numeral]
  rfl

namespace Shortfall

/-- Whether the detail is worded like that of a statistic that was never asked
for. -/
def SaysUnresolved (shortfall : Shortfall) : Prop :=
  " was not resolved".toList <:+ shortfall.detail.toList

variable {shortfall : Shortfall} {c : Char}

theorem not_saysUnresolved_of_getLast? (hlast : shortfall.detail.toList.getLast? = some c)
    (hne : c ≠ 'd') : ¬shortfall.SaysUnresolved := by
  rintro ⟨before, hdetail⟩
  rw [← hdetail, List.getLast?_append] at hlast
  exact hne (Option.some_inj.1 hlast).symm

theorem not_saysUnresolved_nothingWithin (days : Nat) (asOf : Day) :
    ¬(nothingWithin days asOf).SaysUnresolved := by
  apply not_saysUnresolved_of_getLast? _ (digitChar_ne asOf.civil.day)
  rw [nothingWithin, detail, String.toList_append, List.getLast?_append, asOf.getLast?_text]
  rfl

theorem not_saysUnresolved_emptyWindow (days : Nat) : ¬(emptyWindow days).SaysUnresolved := by
  apply not_saysUnresolved_of_getLast? (c := 's') _ (by decide)
  rw [emptyWindow, detail, String.toList_append, List.getLast?_append]
  rfl

theorem not_saysUnresolved_zeroMean : ¬zeroMean.SaysUnresolved :=
  not_saysUnresolved_of_getLast? (c := 'o') rfl (by decide)

theorem not_saysUnresolved_shortBaseline (count : Nat) :
    ¬(shortBaseline count).SaysUnresolved := by
  apply not_saysUnresolved_of_getLast? (c := '2') _ (by decide)
  rw [shortBaseline, detail, String.toList_append, List.getLast?_append]
  rfl

theorem not_saysUnresolved_flatBaseline : ¬flatBaseline.SaysUnresolved :=
  not_saysUnresolved_of_getLast? (c := 'o') rfl (by decide)

theorem not_saysUnresolved_noHistory (metric : String) : ¬(noHistory metric).SaysUnresolved := by
  apply not_saysUnresolved_of_getLast? (c := '\'') _ (by decide)
  rw [noHistory, detail, String.toList_append, List.getLast?_append]
  rfl

end Shortfall

variable {asOf : Day} {history : List Observation} {shortfall : Shortfall}

theorem eq_emptyWindow_of_meanWithin {days : Nat}
    (hmean : meanWithin history asOf days = .error shortfall) :
    shortfall = .emptyWindow days := by
  rw [meanWithin] at hmean
  split at hmean
  · cases hmean
  · exact (Except.error.inj hmean).symm

theorem not_saysUnresolved_of_standardScore {values : List Float}
    (hscore : standardScore values = .error shortfall) : ¬shortfall.SaysUnresolved := by
  unfold standardScore at hscore
  split at hscore
  · cases hscore
    exact Shortfall.not_saysUnresolved_emptyWindow 28
  · simp only at hscore
    split at hscore
    · cases hscore
      exact Shortfall.not_saysUnresolved_shortBaseline _
    · split at hscore
      · cases hscore
        exact Shortfall.not_saysUnresolved_emptyWindow 28
      · split at hscore
        · cases hscore
          exact Shortfall.not_saysUnresolved_flatBaseline
        · cases hscore

theorem Statistic.not_saysUnresolved_of_compute {statistic : Statistic} {lookback : Nat}
    (hcompute : statistic.compute asOf lookback history = .error shortfall) :
    ¬shortfall.SaysUnresolved := by
  cases statistic with
  | current =>
      simp only [compute] at hcompute
      split at hcompute
      · cases hcompute
      · cases hcompute
        exact Shortfall.not_saysUnresolved_nothingWithin _ _
  | mean3 | mean7 | mean14 =>
      cases eq_emptyWindow_of_meanWithin hcompute
      exact Shortfall.not_saysUnresolved_emptyWindow _
  | median14 =>
      simp only [compute] at hcompute
      split at hcompute
      · cases hcompute
      · cases hcompute
        exact Shortfall.not_saysUnresolved_emptyWindow _
  | change3v14 =>
      simp only [compute] at hcompute
      cases hshort : meanWithin history asOf 3 with
      | error short =>
          rw [hshort] at hcompute
          cases hcompute
          cases eq_emptyWindow_of_meanWithin hshort
          exact Shortfall.not_saysUnresolved_emptyWindow 3
      | ok short =>
          cases hlong : meanWithin history asOf 14 with
          | error long =>
              rw [hshort, hlong] at hcompute
              cases hcompute
              cases eq_emptyWindow_of_meanWithin hlong
              exact Shortfall.not_saysUnresolved_emptyWindow 14
          | ok long =>
              rw [hshort, hlong] at hcompute
              change (if _ then _ else _) = _ at hcompute
              split at hcompute
              · cases hcompute
                exact Shortfall.not_saysUnresolved_zeroMean
              · cases hcompute
  | zscore28 => exact not_saysUnresolved_of_standardScore hcompute

end MetricAlerts

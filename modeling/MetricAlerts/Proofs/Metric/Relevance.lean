import MetricAlerts.Proofs.Metric.Windows

/-!
# What a statistic looks at

A history may be handed over in any order and together with observations that
are of no use to a statistic: too old ones, later ones and ones that are not
finite.  None of these reach the arithmetic, which is sensitive to order.  What
does is sorted by days before, and that leaves one order only if no two
observations are of the same day.
-/

namespace MetricAlerts

variable {asOf : Day} {days : Nat} {history other : List Observation}

/-- Observations of distinct days have one order. -/
theorem mergeSort_day_eq_of_perm {points others : List Observation}
    (hdays : (points.map Observation.day).Nodup) (hperm : points.Perm others) :
    points.mergeSort (fun a b => a.day ≤ b.day) = others.mergeSort fun a b => a.day ≤ b.day := by
  have htrans (a b c : Observation) (hfirst : decide (a.day ≤ b.day) = true)
      (hsecond : decide (b.day ≤ c.day) = true) : decide (a.day ≤ c.day) = true := by
    rw [decide_eq_true_eq] at hfirst hsecond ⊢
    exact Int.le_trans hfirst hsecond
  have htotal (a b : Observation) : (decide (a.day ≤ b.day) || decide (b.day ≤ a.day)) = true := by
    rw [Bool.or_eq_true, decide_eq_true_eq, decide_eq_true_eq]
    exact Int.le_total a.day.number b.day.number
  have hsorted : (points.mergeSort fun a b => a.day ≤ b.day).Perm
      (others.mergeSort fun a b => a.day ≤ b.day) :=
    (List.mergeSort_perm points _).trans (hperm.trans (List.mergeSort_perm others _).symm)
  refine hsorted.eq_of_pairwise ?_ (List.pairwise_mergeSort htrans htotal points)
    (List.pairwise_mergeSort htrans htotal others)
  intro a b ha hb hab hba
  rw [decide_eq_true_eq] at hab hba
  apply List.inj_on_of_nodup_map hdays (List.mem_mergeSort.1 ha)
    (hperm.mem_iff.2 (List.mem_mergeSort.1 hb))
  exact Day.ext_number (Int.le_antisymm hab hba)

namespace Statistic

variable {statistic : Statistic} {lookback : Nat}

/-- The observations of a history that a statistic may look at: the finite ones
of the days of its window. -/
def relevant (statistic : Statistic) (asOf : Day) (lookback : Nat) (history : List Observation) :
    List Observation :=
  history.filter fun point =>
    asOf.windowStart (statistic.window lookback) ≤ point.day ∧ point.day ≤ asOf ∧
      point.value.isFinite

/-- Nothing else comes into the window of a statistic or into a shorter one. -/
theorem windowOf_relevant (history : List Observation) (hdays : days ≤ statistic.window lookback) :
    windowOf (statistic.relevant asOf lookback history) asOf days =
      windowOf history asOf days := by
  have hstart : asOf.windowStart (statistic.window lookback) ≤ asOf.windowStart days :=
    Day.windowStart_le_windowStart hdays
  rw [windowOf, windowOf, relevant, List.filter_filter]
  congr 1
  apply List.filter_congr
  intro point _
  rw [← Bool.decide_and, decide_eq_decide]
  constructor
  · rintro ⟨hin, -⟩
    exact hin
  · rintro ⟨hafter, hbefore, hfinite⟩
    exact ⟨⟨hafter, hbefore, hfinite⟩, Int.le_trans hstart hafter, hbefore, hfinite⟩

theorem windowOf_eq_of_relevant_perm
    (hdistinct : ((statistic.relevant asOf lookback history).map Observation.day).Nodup)
    (hperm : (statistic.relevant asOf lookback other).Perm
      (statistic.relevant asOf lookback history))
    (hdays : days ≤ statistic.window lookback) :
    windowOf other asOf days = windowOf history asOf days := by
  rw [← windowOf_relevant other hdays, ← windowOf_relevant history hdays, windowOf, windowOf]
  apply mergeSort_day_eq_of_perm _ (hperm.filter _)
  exact ((hperm.map Observation.day).nodup_iff.2 hdistinct).sublist
    (List.filter_sublist.map Observation.day)

end Statistic

/-- A statistic, or the reason why there is none, depends on the relevant
observations of a history alone.  If these are of distinct days, it does not
depend on their order either. -/
theorem Reference.compute_of_relevant (reference : Reference) (asOf : Day) (lookback : Nat)
    (history other : List Observation) :
    let relevant := reference.statistic.relevant asOf lookback
    let compute := reference.compute asOf lookback
    (relevant other = relevant history → compute other = compute history) ∧
      (((relevant history).map Observation.day).Nodup → (relevant other).Perm (relevant history) →
        compute other = compute history) := by
  intro relevant compute
  constructor
  · intro hsame
    apply congrArg (Except.mapError (ResolveError.shortfall reference))
    apply Statistic.compute_congr
    intro days hdays
    rw [← Statistic.windowOf_relevant other hdays, ← Statistic.windowOf_relevant history hdays]
    exact congrArg (windowOf · asOf days) hsame
  · intro hdistinct hperm
    apply congrArg (Except.mapError (ResolveError.shortfall reference))
    exact Statistic.compute_congr fun days => Statistic.windowOf_eq_of_relevant_perm hdistinct hperm

/-- Some days of 1970, by their number. -/
def dayOf1970 (number : Fin 365) : Day :=
  ⟨number, by omega, by omega⟩

/-- Three observations that count on the last day of January. -/
def steadySteps : List Observation :=
  [⟨dayOf1970 28, 4000.0⟩, ⟨dayOf1970 29, 9000.0⟩, ⟨dayOf1970 30, 0.1⟩]

/-- The same ones among others that do not count. -/
def clutteredSteps : List Observation :=
  [⟨dayOf1970 2, 7.0⟩, ⟨dayOf1970 28, 4000.0⟩, ⟨dayOf1970 29, 9000.0⟩, ⟨dayOf1970 29, 0.0 / 0.0⟩,
    ⟨dayOf1970 30, 0.1⟩, ⟨dayOf1970 30, 1.0 / 0.0⟩, ⟨dayOf1970 31, 8.0⟩]

/-- The change over two weeks does not depend on the others, and not on which of
the observations comes first. -/
theorem compute_of_relevant_steps :
    let relevant := Statistic.change3v14.relevant (dayOf1970 30) 365
    let compute := Reference.compute ⟨"steps", .change3v14⟩ (dayOf1970 30) 365
    relevant clutteredSteps = relevant steadySteps ∧ compute clutteredSteps = compute steadySteps ∧
      ((relevant steadySteps).map Observation.day).Nodup ∧
      (relevant clutteredSteps.reverse).Perm (relevant steadySteps) ∧
      compute clutteredSteps.reverse = compute steadySteps := by
  intro relevant compute
  have hclutter : relevant clutteredSteps = relevant steadySteps := by decide +kernel
  have hdistinct : ((relevant steadySteps).map Observation.day).Nodup := by decide +kernel
  have hperm : (relevant clutteredSteps.reverse).Perm (relevant steadySteps) := by decide +kernel
  exact ⟨hclutter, (Reference.compute_of_relevant _ _ _ _ _).1 hclutter, hdistinct, hperm,
    (Reference.compute_of_relevant _ _ _ _ _).2 hdistinct hperm⟩

end MetricAlerts

import MetricAlerts.Decimal.Layout
import MetricAlerts.Proofs.Answers
import MetricAlerts.Proofs.Decimal.Range
import MetricAlerts.Proofs.Metric.Windows

/-!
# Statistics within range

Only finite observations get into a window, but what is made of them may leave
the range of doubles on the way, and is returned nevertheless.  Each statistic is
finite exactly if none of its steps reaches infinity, a deviation apart: over an
infinite one, a standard score is zero.
-/

namespace MetricAlerts

open Decimal

variable {values : List Float} {x y : Float}

namespace MessageSet

/-- No partial sum reaches infinity together with the value that comes next. -/
def SumFits (values : List Float) : Prop :=
  ∀ front x rest, values = front ++ x :: rest → |value (sum front) + value x| < overflow

theorem sum_concat (values : List Float) (x : Float) : sum (values ++ [x]) = sum values + x := by
  rw [sum, List.foldl_append]
  rfl

theorem sumFits_concat :
    SumFits (values ++ [x]) ↔ SumFits values ∧ |value (sum values) + value x| < overflow := by
  constructor
  · intro hfits
    refine ⟨fun front y rest hvalues => hfits front y (rest ++ [x]) ?_, hfits values x [] rfl⟩
    rw [hvalues, List.append_assoc, List.cons_append]
  · rintro ⟨hfits, hlast⟩ front y rest hvalues
    rcases List.eq_nil_or_concat rest with rfl | ⟨rest, z, rfl⟩
    · obtain ⟨rfl, hlast'⟩ := List.append_inj' hvalues rfl
      cases hlast'
      exact hlast
    · rw [List.concat_eq_append, ← List.cons_append, ← List.append_assoc] at hvalues
      exact hfits front y rest (List.append_inj' hvalues rfl).1

/-- A sum of finite values is finite exactly if it never reaches infinity. -/
theorem isFinite_sum_iff (hvalues : ∀ x ∈ values, x.isFinite = true) :
    (sum values).isFinite = true ↔ SumFits values := by
  induction values using List.reverseRecOn with
  | nil =>
      refine iff_of_true (by decide) fun front x rest hnil => ?_
      exact absurd hnil (by simp)
  | append_singleton values x ih =>
      have hx : x.isFinite = true := hvalues x (by simp)
      rw [sum_concat, isFinite_add_iff, sumFits_concat,
        ih fun y hy => hvalues y (List.mem_append_left _ hy)]
      simp only [hx, true_and]

end MessageSet

open MessageSet

/-- The mean of values, if there are any. -/
def meanOf (values : List Float) : Float :=
  sum values / Float.ofNat values.length

theorem of_mean? {mean : Float} (hmean : mean? values = some mean) :
    values ≠ [] ∧ mean = meanOf values := by
  rw [mean?] at hmean
  split at hmean
  · cases hmean
  · next hne =>
    cases hmean
    exact ⟨fun hnil => hne (hnil ▸ rfl), rfl⟩

theorem isFinite_meanOf_iff (hne : values ≠ []) (hvalues : ∀ x ∈ values, x.isFinite = true) :
    (meanOf values).isFinite = true ↔ SumFits values := by
  rw [meanOf, isFinite_div_ofNat_iff (List.length_pos_iff.2 hne), isFinite_sum_iff hvalues]

/-- The two values in the middle, if there are two, do not reach infinity
together. -/
def MedianFits (values : List Float) : Prop :=
  let sorted := values.mergeSort fun a b => rank a ≤ rank b
  let middle := sorted.length / 2
  sorted.length % 2 = 0 → ∀ low high, sorted[middle - 1]? = some low →
    sorted[middle]? = some high → |value low + value high| < overflow

theorem isFinite_median_iff {median : Float} (hvalues : ∀ x ∈ values, x.isFinite = true)
    (hmedian : median? values = some median) :
    median.isFinite = true ↔ MedianFits values := by
  have hsorted : ∀ x ∈ values.mergeSort fun a b => rank a ≤ rank b, x.isFinite = true :=
    fun x hx => hvalues x (List.mem_mergeSort.1 hx)
  rw [median?] at hmedian
  rw [MedianFits]
  generalize (values.mergeSort fun a b => rank a ≤ rank b) = sorted at hmedian hsorted ⊢
  split at hmedian
  · next heven =>
    cases hlow : sorted[sorted.length / 2 - 1]? with
    | none => simp [hlow] at hmedian
    | some low =>
      cases hhigh : sorted[sorted.length / 2]? with
      | none => simp [hlow, hhigh] at hmedian
      | some high =>
        have htwo : (2.0 : Float) = Float.ofNat 2 := rfl
        have hquotient : median = (low + high) / Float.ofNat 2 := by
          rw [← htwo]
          simpa [hlow, hhigh] using hmedian.symm
        have hlowFinite := hsorted low (List.mem_of_getElem? hlow)
        have hhighFinite := hsorted high (List.mem_of_getElem? hhigh)
        rw [hquotient, isFinite_div_ofNat_iff (by decide), isFinite_add_iff]
        simp [heven, hlowFinite, hhighFinite]
  · next hodd =>
    have hfinite := hsorted median (List.mem_of_getElem? hmedian)
    exact iff_of_true hfinite fun heven => absurd heven hodd

/-- A quotient by infinity is zero, and another one fits if the exact quotient
does not reach infinity. -/
def QuotientFits (x y : Float) : Prop :=
  y.isInf = true ∨ y.isFinite = true ∧ |value x / value y| < overflow

theorem isFinite_quotient_iff (hne : (y == 0.0) = false) :
    (x / y).isFinite = true ↔ x.isFinite = true ∧ QuotientFits x y := by
  have hvalue (hfinite : y.isFinite = true) : value y ≠ 0 := by
    rw [ne_eq, ← beq_zero_iff_value hfinite, hne]
    exact Bool.false_ne_true
  rw [isFinite_div_iff, QuotientFits]
  constructor
  · rintro ⟨hx, hinf | ⟨hy, -, hbound⟩⟩
    · exact ⟨hx, .inl hinf⟩
    · exact ⟨hx, .inr ⟨hy, hbound⟩⟩
  · rintro ⟨hx, hinf | ⟨hy, hbound⟩⟩
    · exact ⟨hx, .inl hinf⟩
    · exact ⟨hx, .inr ⟨hy, hvalue hy, hbound⟩⟩

/-- The difference of two means fits, and so does its share of the second one. -/
def ChangeFits (recent values : List Float) : Prop :=
  SumFits recent ∧ SumFits values ∧ |value (meanOf recent) - value (meanOf values)| < overflow ∧
    QuotientFits (meanOf recent - meanOf values) (meanOf values)

/-- The distance of the latest value from the mean of the others fits, and so does
its quotient by their deviation. -/
def ScoreFits (values : List Float) : Prop :=
  let baseline := values.dropLast
  SumFits baseline ∧ ∀ current ∈ values.getLast?,
    |value current - value (meanOf baseline)| < overflow ∧
      QuotientFits (current - meanOf baseline) (deviation baseline (meanOf baseline))

theorem isFinite_standardScore_iff {score : Float} (hvalues : ∀ x ∈ values, x.isFinite = true)
    (hscore : standardScore values = .ok score) : score.isFinite = true ↔ ScoreFits values := by
  have hbaseline : ∀ x ∈ values.dropLast, x.isFinite = true :=
    fun x hx => hvalues x (List.mem_of_mem_dropLast hx)
  rw [standardScore] at hscore
  cases hlast : values.getLast? with
  | none => simp [hlast] at hscore
  | some current =>
      have hcurrent : current.isFinite = true := hvalues current (List.mem_of_getLast? hlast)
      simp only [hlast] at hscore
      split at hscore
      · cases hscore
      · cases hmean : mean? values.dropLast with
        | none => simp [hmean] at hscore
        | some mean =>
            obtain ⟨hne, rfl⟩ := of_mean? hmean
            simp only [hmean] at hscore
            split at hscore
            · cases hscore
            · next hspread =>
              cases hscore
              rw [isFinite_quotient_iff (Bool.eq_false_iff.2 hspread), isFinite_sub_iff,
                isFinite_meanOf_iff hne hbaseline]
              simp [ScoreFits, hlast, hcurrent, and_assoc]

/-! ## Statistics -/

/-- All steps of a statistic stay within the range of doubles. -/
def Statistic.Fits (statistic : Statistic) (asOf : Day) (lookback : Nat)
    (history : List Observation) : Prop :=
  let valuesOf (days : Nat) := (windowOf history asOf days).map Observation.value
  let values := valuesOf (statistic.window lookback)
  match statistic with
  | current => True
  | mean3 | mean7 | mean14 => SumFits values
  | median14 => MedianFits values
  | change3v14 => ChangeFits (valuesOf 3) values
  | zscore28 => ScoreFits values

variable {reference : Reference} {asOf : Day} {lookback days : Nat} {history : List Observation}

theorem isFinite_of_mem_windowOf (history : List Observation) (asOf : Day) (days : Nat) :
    ∀ x ∈ (windowOf history asOf days).map Observation.value, x.isFinite = true := by
  intro x hx
  obtain ⟨point, hpoint, rfl⟩ := List.mem_map.1 hx
  rw [windowOf, List.mem_mergeSort, List.mem_filter, decide_eq_true_eq] at hpoint
  exact hpoint.2.2.2

theorem of_meanWithin {mean : Float} (hmean : meanWithin history asOf days = .ok mean) :
    let values := (windowOf history asOf days).map Observation.value
    mean = meanOf values ∧ (mean.isFinite = true ↔ SumFits values) := by
  intro values
  have hvalues := isFinite_of_mem_windowOf history asOf days
  cases hsome : mean? values with
  | none =>
      rw [meanWithin, hsome] at hmean
      cases hmean
  | some other =>
      rw [meanWithin, hsome] at hmean
      cases hmean
      obtain ⟨hne, rfl⟩ := of_mean? hsome
      exact ⟨rfl, isFinite_meanOf_iff hne hvalues⟩

theorem Statistic.isFinite_iff {statistic : Statistic} {v : Float}
    (hcompute : statistic.compute asOf lookback history = .ok v) :
    v.isFinite = true ↔ statistic.Fits asOf lookback history := by
  have hvalues := isFinite_of_mem_windowOf history asOf (statistic.window lookback)
  cases statistic with
  | current =>
      simp only [compute] at hcompute
      split at hcompute
      · next hlast =>
        cases hcompute
        exact iff_of_true (hvalues v (List.mem_of_getLast? hlast)) trivial
      · cases hcompute
  | mean3 => exact (of_meanWithin hcompute).2
  | mean7 => exact (of_meanWithin hcompute).2
  | mean14 => exact (of_meanWithin hcompute).2
  | median14 =>
      simp only [compute] at hcompute
      split at hcompute
      · next hmedian =>
        cases hcompute
        exact isFinite_median_iff hvalues hmedian
      · cases hcompute
  | change3v14 =>
      obtain ⟨short, hshort, hrest⟩ := of_bind_eq_ok hcompute
      obtain ⟨long, hlong, hrest⟩ := of_bind_eq_ok hrest
      obtain ⟨rfl, hshortFits⟩ := of_meanWithin hshort
      obtain ⟨rfl, hlongFits⟩ := of_meanWithin hlong
      split at hrest
      · cases hrest
      · next hzero =>
        cases hrest
        rw [isFinite_quotient_iff (Bool.eq_false_iff.2 hzero), isFinite_sub_iff, hshortFits,
          hlongFits, and_assoc, and_assoc]
        exact Iff.rfl
  | zscore28 => exact isFinite_standardScore_iff hvalues hcompute

/-- A statistic that is returned is finite, and has a text in a document, exactly
if all its steps stay within the range of doubles. -/
theorem Reference.number_iff_fits {v : Float}
    (hcompute : reference.compute asOf lookback history = .ok v) :
    (v.isFinite = true ↔ reference.statistic.Fits asOf lookback history) ∧
      ((∃ text, numberText? v = some text) ↔ reference.statistic.Fits asOf lookback history) := by
  have hstatistic : reference.statistic.compute asOf lookback history = .ok v := by
    rw [compute] at hcompute
    cases hanswer : reference.statistic.compute asOf lookback history with
    | error shortfall =>
        rw [hanswer] at hcompute
        cases hcompute
    | ok answer =>
        rw [hanswer] at hcompute
        cases hcompute
        rfl
  rw [exists_numberText?_iff]
  exact ⟨Statistic.isFinite_iff hstatistic, Statistic.isFinite_iff hstatistic⟩

/-- One of the first two days of 1970. -/
def openingDay (number : Fin 2) : Day :=
  ⟨number, by omega, by omega⟩

def twoDays (first second : Float) : List Observation :=
  [⟨openingDay 0, first⟩, ⟨openingDay 1, second⟩]

theorem windowOf_twoDays {first second : Float} (hfirst : first.isFinite = true)
    (hsecond : second.isFinite = true) :
    windowOf (twoDays first second) (openingDay 1) 3 = twoDays first second := by
  apply windowOf_eq_self
  · simp only [twoDays, List.forall_mem_cons, hfirst, hsecond]
    decide
  · simp [twoDays, openingDay, Day.le_def]

theorem compute_twoDays {first second : Float} (hfirst : first.isFinite = true)
    (hsecond : second.isFinite = true) :
    Reference.compute ⟨"steps", .mean3⟩ (openingDay 1) 365 (twoDays first second) =
      .ok (meanOf [first, second]) := by
  change (meanWithin (twoDays first second) (openingDay 1) 3).mapError _ = _
  rw [meanWithin, windowOf_twoDays hfirst hsecond]
  rfl

/-- One and three have a mean. -/
theorem number_iff_fits_oneAndThree :
    let mean := meanOf [1.0, 3.0]
    Reference.compute ⟨"steps", .mean3⟩ (openingDay 1) 365 (twoDays 1.0 3.0) = .ok mean ∧
      mean = 2.0 ∧ Statistic.mean3.Fits (openingDay 1) 365 (twoDays 1.0 3.0) ∧
      ∃ text, numberText? mean = some text := by
  intro mean
  have hcompute : Reference.compute ⟨"steps", .mean3⟩ (openingDay 1) 365 (twoDays 1.0 3.0) =
      .ok mean := compute_twoDays (by decide) (by decide)
  obtain ⟨hfinite, htext⟩ := Reference.number_iff_fits hcompute
  have hfits := hfinite.1 (by decide +kernel)
  exact ⟨hcompute, by decide +kernel, hfits, htext.2 hfits⟩

/-- Two values near the greatest double have an infinite mean, which has no text
in a document. -/
theorem infinite_mean :
    let mean := meanOf [1e308, 1e308]
    Reference.compute ⟨"steps", .mean3⟩ (openingDay 1) 365 (twoDays 1e308 1e308) = .ok mean ∧
      mean.isFinite = false ∧ numberText? mean = none := by
  intro mean
  have hinfinite : mean.isFinite = false := by decide +kernel
  exact ⟨compute_twoDays (by decide +kernel) (by decide +kernel), hinfinite,
    numberText?_eq_none (Bool.eq_false_iff.1 hinfinite)⟩

end MetricAlerts

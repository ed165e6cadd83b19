import MetricAlerts.Proofs.Decimal.Doubles
import MetricAlerts.Proofs.Metric.Windows

/-!
# Baselines without variation

A standard score cannot be had over a baseline that does not vary.  Whether that
is noticed is a matter of rounding, since the mean of equal values need not be
the same value again.
-/

namespace MetricAlerts

open Float.Model Decimal

variable {values : List Float} {x mean : Float} {value : Int} {bound coefficient power : Nat}

namespace MessageSet

theorem reaches_foldl {start : Float} (hstart : Reaches bound start.toModel.unpack)
    (hvalues : ∀ x ∈ values, Reaches 1 x.toModel.unpack) (hpos : 0 < bound)
    (hfew : bound + values.length ≤ 2 ^ 53) :
    Reaches (bound + values.length) (values.foldl (· + ·) start).toModel.unpack := by
  induction values generalizing start bound with
  | nil => exact hstart
  | cons x values ih =>
      rw [List.length_cons, Nat.add_comm values.length, ← Nat.add_assoc] at hfew ⊢
      rw [List.foldl_cons]
      apply ih _ (fun y hy => hvalues y (List.mem_cons_of_mem _ hy)) (by omega) hfew
      exact (hstart.add (hvalues x List.mem_cons_self) (by omega) (by omega)).unpack_pack

/-- As many positive doubles add up to at least so many times the least one. -/
theorem reaches_sum (hvalues : ∀ x ∈ values, Reaches 1 x.toModel.unpack) (hne : values ≠ [])
    (hfew : values.length ≤ 2 ^ 53) : Reaches values.length (sum values).toModel.unpack := by
  obtain ⟨x, rest, rfl⟩ := List.exists_cons_of_ne_nil hne
  have hx := hvalues x List.mem_cons_self
  -- The sum starts from negative zero, which leaves the first value as it is.
  have hfirst : Reaches 1 ((-0.0 : Float) + x).toModel.unpack := by
    change Reaches 1 (pack (UnpackedFloat.add .binary64 (.zero .negative) _)).unpack
    rw [hx.zero_add]
    exact hx.unpack_pack
  rw [List.length_cons, Nat.add_comm] at hfew ⊢
  exact reaches_foldl hfirst (fun y hy => hvalues y (List.mem_cons_of_mem _ hy)) (by decide) hfew

theorem holds_foldl {start : Float} {count : Nat}
    (hstart : Holds (count * value) start.toModel.unpack)
    (hvalues : ∀ x ∈ values, Holds value x.toModel.unpack)
    (hvalue : value.natAbs = coefficient * 2 ^ power)
    (hroom : (count + values.length) * coefficient < 2 ^ 53)
    (hrange : (count + values.length) * value.natAbs < beyond) :
    Holds ((count + values.length : Nat) * value)
      (values.foldl (· + ·) start).toModel.unpack := by
  induction values generalizing start count with
  | nil => exact hstart
  | cons x values ih =>
      rw [List.length_cons, Nat.add_comm values.length, ← Nat.add_assoc] at hroom hrange ⊢
      rw [List.foldl_cons]
      apply ih _ (fun y hy => hvalues y (List.mem_cons_of_mem _ hy)) hroom hrange
      have hsum : count * value + value = ((count + 1 : Nat) : Int) * value := by
        rw [Int.natCast_add, Int.add_mul, Int.natCast_one, Int.one_mul]
      have habs : (((count + 1 : Nat) : Int) * value).natAbs = (count + 1) * value.natAbs := by
        rw [Int.natAbs_mul]
        rfl
      have hmore : count + 1 ≤ count + 1 + values.length := Nat.le_add_right ..
      have hholds : Holds (((count + 1 : Nat) : Int) * value)
          (start.toModel.unpack.add .binary64 x.toModel.unpack) := by
        rw [← hsum]
        apply hstart.add (hvalues x List.mem_cons_self)
        · rw [hsum, habs, hvalue, ← Nat.mul_assoc]
        · exact Nat.lt_of_le_of_lt (Nat.mul_le_mul_right _ hmore) hroom
      apply hholds.unpack_pack
      rw [habs]
      exact Nat.lt_of_le_of_lt (Nat.mul_le_mul_right _ hmore) hrange

/-- A value with enough room in a mantissa is added up without loss. -/
theorem holds_sum (hvalues : ∀ x ∈ values, Holds value x.toModel.unpack)
    (hvalue : value.natAbs = coefficient * 2 ^ power)
    (hroom : values.length * coefficient < 2 ^ 53)
    (hrange : values.length * value.natAbs < beyond) :
    Holds (values.length * value) (sum values).toModel.unpack := by
  have hstart : Holds ((0 : Nat) * value) (-0.0 : Float).toModel.unpack :=
    .zero .negative (Int.zero_mul value)
  have hholds := holds_foldl hstart hvalues hvalue
  simp only [Nat.zero_add] at hholds
  exact hholds hroom hrange

end MessageSet

/-- The mean of equal values is their value if their sum has room in a
mantissa. -/
theorem holds_mean (hvalues : ∀ x ∈ values, Holds value x.toModel.unpack) (hne : values ≠ [])
    (hfew : values.length < 28) (hvalue : value.natAbs = coefficient * 2 ^ power)
    (hroom : values.length * coefficient < 2 ^ 53)
    (hrange : values.length * value.natAbs < beyond) :
    Holds value (MessageSet.sum values / Float.ofNat values.length).toModel.unpack := by
  have hlength : 0 < values.length := List.length_pos_iff.2 hne
  have hsum := MessageSet.holds_sum hvalues hvalue hroom hrange
  have hquotient := hsum.div (isCount_ofNat hlength hfew) hvalue
    (Nat.lt_of_le_of_lt (Nat.le_mul_of_pos_left coefficient hlength) hroom)
  exact hquotient.unpack_pack
    (Nat.lt_of_le_of_lt (Nat.le_mul_of_pos_left value.natAbs hlength) hrange)

theorem holds_zero_mean (hzero : ∀ x ∈ values, Holds 0 x.toModel.unpack) (hne : values ≠ [])
    (hfew : values.length < 28) :
    Holds 0 (MessageSet.sum values / Float.ofNat values.length).toModel.unpack := by
  have hbeyond : 0 < beyond := Nat.mul_pos (by decide) (Nat.two_pow_pos _)
  apply holds_mean hzero hne hfew (show (0 : Int).natAbs = 0 * 2 ^ 0 from rfl)
  · exact Nat.two_pow_pos 53
  · rwa [Int.natAbs_zero, Nat.mul_zero]

theorem holds_zero_deviation (hne : values ≠ []) (hfew : values.length < 28)
    (hzero : ∀ x ∈ values, Holds 0 (squared (x - mean)).toModel.unpack) :
    Holds 0 (deviation values mean).toModel.unpack := by
  let squares := values.map fun x => squared (x - mean)
  have hsquares : ∀ y ∈ squares, Holds 0 y.toModel.unpack := by
    intro y hy
    obtain ⟨x, hx, rfl⟩ := List.mem_map.1 hy
    exact hzero x hx
  have hlength : squares.length = values.length := List.length_map _
  have hmean := holds_zero_mean hsquares (mt List.map_eq_nil_iff.1 hne) (by omega)
  rw [hlength] at hmean
  obtain ⟨sign, hsign⟩ := holds_zero_iff.1 hmean
  change Holds 0 (pack (UnpackedFloat.sqrt .binary64 (_ : Float).toModel.unpack)).unpack
  rw [hsign, UnpackedFloat.sqrt, unpack_pack_zero]
  exact .zero sign rfl

theorem reaches_deviation (hne : values ≠ []) (hfew : values.length < 28)
    (hpositive : ∀ x ∈ values, Reaches 1 (squared (x - mean)).toModel.unpack) :
    Reaches 1 (deviation values mean).toModel.unpack := by
  let squares := values.map fun x => squared (x - mean)
  have hsquares : ∀ y ∈ squares, Reaches 1 y.toModel.unpack := by
    intro y hy
    obtain ⟨x, hx, rfl⟩ := List.mem_map.1 hy
    exact hpositive x hx
  have hlength : squares.length = values.length := List.length_map _
  have hsum : Reaches values.length (MessageSet.sum squares).toModel.unpack := by
    rw [← hlength]
    exact MessageSet.reaches_sum hsquares (mt List.map_eq_nil_iff.1 hne) (by omega)
  have hquotient := (hsum.div (isCount_ofNat (List.length_pos_iff.2 hne) hfew)).unpack_pack
  exact hquotient.sqrt.unpack_pack

theorem holds_zero_squared_sub (hx : Holds value x.toModel.unpack)
    (hmean : Holds value mean.toModel.unpack) : Holds 0 (squared (x - mean)).toModel.unpack := by
  obtain ⟨sign, hsign⟩ := hx.sub_self hmean
  have hdifference : (x - mean).toModel.unpack = .zero sign := by
    change (pack (x.toModel.unpack.sub .binary64 mean.toModel.unpack)).unpack = _
    rw [hsign, unpack_pack_zero]
  change Holds 0 (pack ((x - mean).toModel.unpack.mul .binary64 (x - mean).toModel.unpack)).unpack
  rw [hdifference]
  change Holds 0 (pack (.zero (sign * sign))).unpack
  rw [unpack_pack_zero]
  exact .zero _ rfl

/-- Equal values are taken to vary unless their distance from their mean is so
small that its square is zero. -/
theorem deviation_beq_zero_of_flat {common : Float} (hne : values ≠ [])
    (hfew : values.length < 28) (hflat : ∀ x ∈ values, (x == common) = true) :
    let mean := MessageSet.sum values / Float.ofNat values.length
    (deviation values mean == 0.0) = (squared (common - mean) == 0.0) := by
  intro mean
  by_cases hzero : Holds 0 common.toModel.unpack
  · have hvalues : ∀ x ∈ values, Holds 0 x.toModel.unpack :=
      fun x hx => hzero.of_beq (hflat x hx)
    have hmean : Holds 0 mean.toModel.unpack := holds_zero_mean hvalues hne hfew
    have hdeviation : Holds 0 (deviation values mean).toModel.unpack :=
      holds_zero_deviation hne hfew fun x hx => holds_zero_squared_sub (hvalues x hx) hmean
    rw [beq_zero_iff.2 hdeviation, beq_zero_iff.2 (holds_zero_squared_sub hzero hmean)]
  · have hsame : ∀ x ∈ values,
        (squared (x - mean)).toModel.unpack = (squared (common - mean)).toModel.unpack := by
      intro x hx
      have hunpack := (unpack_eq_of_beq (hflat x hx)).resolve_right fun hzeros => hzero hzeros.2
      change (pack ((pack (x.toModel.unpack.sub _ _)).unpack.mul _
        (pack (x.toModel.unpack.sub _ _)).unpack)).unpack = _
      rw [hunpack]
      rfl
    obtain hsquare | hsquare := holds_zero_or_reaches_mul_self (common - mean)
    · have hdeviation : Holds 0 (deviation values mean).toModel.unpack := by
        apply holds_zero_deviation hne hfew
        intro x hx
        rw [hsame x hx]
        exact hsquare
      rw [beq_zero_iff.2 hdeviation, squared, beq_zero_iff.2 hsquare]
    · have hdeviation : Reaches 1 (deviation values mean).toModel.unpack := by
        apply reaches_deviation hne hfew
        intro x hx
        rw [hsame x hx]
        exact hsquare
      rw [beq_zero_of_reaches hdeviation, squared, beq_zero_of_reaches hsquare]

/-- A value with five bits to spare is the mean of up to 27 of its kind. -/
theorem squared_sub_mean_of_spare {common : Float} {negative : Bool} {mantissa : Nat}
    {exponent : Int} (hne : values ≠ []) (hfew : values.length < 28)
    (hflat : ∀ x ∈ values, (x == common) = true)
    (hparts : parts common = .finite negative mantissa exponent) (hspare : 32 ∣ mantissa)
    (hexponent : exponent ≤ 966) :
    (squared (common - MessageSet.sum values / Float.ofNat values.length) == 0.0) = true := by
  obtain ⟨hshort, hleast, sign, hcommon⟩ := exists_holds_of_parts hparts
  obtain ⟨coefficient, rfl⟩ := hspare
  have hvalue : (sign.apply (units (32 * coefficient) exponent)).natAbs =
      coefficient * 2 ^ (5 + (exponent + 1074).toNat) := by
    rw [natAbs_apply, units, Nat.pow_add, ← Nat.mul_assoc, Nat.mul_comm 32]
  have hroom : values.length * coefficient < 2 ^ 53 := by
    have hle : values.length * coefficient ≤ 32 * coefficient := Nat.mul_le_mul_right _ (by omega)
    omega
  have hrange : values.length * (sign.apply (units (32 * coefficient) exponent)).natAbs <
      beyond := by
    have hmany : values.length * (32 * coefficient) < 2 ^ 52 * 2 ^ 6 := by
      have hle : values.length * (32 * coefficient) ≤ 32 * (32 * coefficient) :=
        Nat.mul_le_mul_right _ (by omega)
      omega
    rw [natAbs_apply]
    calc values.length * units (32 * coefficient) exponent
        = units (values.length * (32 * coefficient)) exponent := (Nat.mul_assoc ..).symm
      _ < units (2 ^ 52 * 2 ^ 6) exponent :=
          Nat.mul_lt_mul_of_pos_right hmany (Nat.two_pow_pos _)
      _ = units (2 ^ 52) (exponent + (6 : Nat)) := (units_shift _ hleast 6).symm
      _ ≤ beyond := units_le_units (Nat.le_refl _) (by omega)
  have hvalues : ∀ x ∈ values, Holds _ x.toModel.unpack := fun x hx => hcommon.of_beq (hflat x hx)
  exact beq_zero_iff.2
    (holds_zero_squared_sub hcommon (holds_mean hvalues hne hfew hvalue hroom hrange))

/-! ## Standard scores -/

theorem standardScore_eq {values : List Float} (hcount : 3 ≤ values.length) :
    let baseline := values.dropLast
    let mean := MessageSet.sum baseline / Float.ofNat baseline.length
    ∃ current, standardScore values =
      if deviation baseline mean == 0.0 then .error .flatBaseline
      else .ok ((current - mean) / deviation baseline mean) := by
  intro baseline mean
  have hne : values ≠ [] := by
    rintro rfl
    cases hcount
  have hlength : values.dropLast.length = values.length - 1 := List.length_dropLast
  have hmean : mean? values.dropLast = some mean := by
    rw [mean?, List.isEmpty_eq_false_iff.2 (List.ne_nil_of_length_pos (by omega))]
    rfl
  refine ⟨values.getLast hne, ?_⟩
  simp only [standardScore, List.getLast?_eq_some_getLast hne, hmean]
  rw [if_neg (by omega)]

/-- Three or more observations on distinct days of the window have the same
value, the latest apart.  Then the score of the latest is refused if and only if
the square of the distance between that value and the mean, as it was computed,
is zero.  It is always refused if the value has five bits to spare, as whole
numbers below 2 ^ 48 have. -/
theorem flat_baseline_iff {history : List Observation} {asOf : Day} {common : Float}
    (metric : String) (lookback : Nat)
    (hdays : ((windowOf history asOf 28).map Observation.day).Nodup)
    (hcount : 3 ≤ (windowOf history asOf 28).length)
    (hflat : ∀ point ∈ (windowOf history asOf 28).dropLast, (point.value == common) = true) :
    let reference : Reference := ⟨metric, .zscore28⟩
    let answer := reference.compute asOf lookback history
    let refusal := Except.error (ResolveError.shortfall reference .flatBaseline)
    let baseline := (windowOf history asOf 28).dropLast.map Observation.value
    let mean := MessageSet.sum baseline / Float.ofNat baseline.length
    (answer = refusal ↔ (squared (common - mean) == 0.0) = true) ∧
      ((∃ score, answer = .ok score) ↔ (squared (common - mean) == 0.0) = false) ∧
      ∀ negative mantissa exponent, parts common = .finite negative mantissa exponent →
        32 ∣ mantissa → exponent ≤ 966 → answer = refusal := by
  intro reference answer refusal baseline mean
  have hfew : baseline.length < 28 := by
    have hlength := length_windowOf_le (by decide) hdays
    rw [List.length_map, List.length_dropLast]
    omega
  have hne : baseline ≠ [] := by
    apply List.ne_nil_of_length_pos
    rw [List.length_map, List.length_dropLast]
    omega
  have hvalues : ∀ x ∈ baseline, (x == common) = true := by
    intro x hx
    obtain ⟨point, hpoint, rfl⟩ := List.mem_map.1 hx
    exact hflat point hpoint
  have hdeviation : (deviation baseline mean == 0.0) = (squared (common - mean) == 0.0) :=
    deviation_beq_zero_of_flat hne hfew hvalues
  have hbaseline : ((windowOf history asOf 28).map Observation.value).dropLast = baseline :=
    List.map_dropLast.symm
  obtain ⟨current, hscore⟩ := standardScore_eq (List.length_map Observation.value ▸ hcount)
  rw [hbaseline, hdeviation] at hscore
  have hanswer : answer =
      (standardScore ((windowOf history asOf 28).map Observation.value)).mapError
        (.shortfall reference) := rfl
  have hrefused : answer = refusal ↔ (squared (common - mean) == 0.0) = true := by
    rw [hanswer, hscore]
    cases squared (common - mean) == 0.0 <;> simp [refusal, Except.mapError]
  refine ⟨hrefused, ?_, fun negative mantissa exponent hparts hspare hexponent => ?_⟩
  · rw [hanswer, hscore]
    cases squared (common - mean) == 0.0 <;> simp [Except.mapError]
  · exact hrefused.2 (squared_sub_mean_of_spare hne hfew hvalues hparts hspare hexponent)

/-- One of the first days of 1970. -/
def earlyDay (number : Fin 4) : Day :=
  ⟨number, by omega, by omega⟩

/-- Three days with one value and a fourth with another. -/
def fourDays (common latest : Float) : List Observation :=
  [⟨earlyDay 0, common⟩, ⟨earlyDay 1, common⟩, ⟨earlyDay 2, common⟩, ⟨earlyDay 3, latest⟩]

theorem windowOf_fourDays {common latest : Float} (hcommon : common.isFinite = true)
    (hlatest : latest.isFinite = true) :
    windowOf (fourDays common latest) (earlyDay 3) 28 = fourDays common latest := by
  have hwithin : ∀ point ∈ fourDays common latest,
      (earlyDay 3).windowStart 28 ≤ point.day ∧ point.day ≤ earlyDay 3 ∧
        point.value.isFinite = true := by
    simp only [fourDays, List.forall_mem_cons, hcommon, hlatest]
    decide
  have hordered : (fourDays common latest).Pairwise fun a b => decide (a.day ≤ b.day) = true := by
    simp [fourDays, earlyDay, Day.le_def]
  exact windowOf_eq_self hwithin hordered

/-- Three times five is fifteen, and its third part is five. -/
theorem flat_baseline_iff_five :
    let window := windowOf (fourDays 5.0 9.0) (earlyDay 3) 28
    (window.map Observation.day).Nodup ∧ 3 ≤ window.length ∧
      (∀ point ∈ window.dropLast, (point.value == 5.0) = true) ∧
      parts 5.0 = .finite false (32 * (5 * 2 ^ 45)) (-50) ∧
      Reference.compute ⟨"steps", .zscore28⟩ (earlyDay 3) 365 (fourDays 5.0 9.0) =
        .error (.shortfall ⟨"steps", .zscore28⟩ .flatBaseline) := by
  intro window
  have hwindow : window = fourDays 5.0 9.0 := windowOf_fourDays (by decide) (by decide)
  have hdays : (window.map Observation.day).Nodup := by
    rw [hwindow]
    decide
  have hcount : 3 ≤ window.length := by
    rw [hwindow]
    decide
  have hflat : ∀ point ∈ window.dropLast, (point.value == 5.0) = true := by
    rw [hwindow]
    decide +kernel
  have hparts : parts 5.0 = .finite false (32 * (5 * 2 ^ 45)) (-50) := by decide +kernel
  exact ⟨hdays, hcount, hflat, hparts,
    (flat_baseline_iff "steps" 365 hdays hcount hflat).2.2 _ _ _ hparts (Nat.dvd_mul_right ..)
      (by decide)⟩

/-- Three times a tenth is more than three tenths, and so is its third part more
than a tenth. -/
theorem scored_tenths :
    let window := windowOf (fourDays 0.1 0.2) (earlyDay 3) 28
    (window.map Observation.day).Nodup ∧ 3 ≤ window.length ∧
      (∀ point ∈ window.dropLast, (point.value == 0.1) = true) ∧
      Reference.compute ⟨"steps", .zscore28⟩ (earlyDay 3) 365 (fourDays 0.1 0.2) =
        .ok 7205759403792793.0 := by
  intro window
  have hwindow : window = fourDays 0.1 0.2 := windowOf_fourDays (by decide) (by decide)
  have hscore : Reference.compute ⟨"steps", .zscore28⟩ (earlyDay 3) 365 (fourDays 0.1 0.2) =
      (standardScore (window.map Observation.value)).mapError
        (.shortfall ⟨"steps", .zscore28⟩) := rfl
  rw [hscore, hwindow]
  decide +kernel

end MetricAlerts

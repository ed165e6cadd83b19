import MetricAlerts.Proofs.Decimal.Doubles

/-!
# Overflow

The result of an operation is infinite if its exact result is at least half a
step beyond the greatest double, and finite otherwise.  This is so however many
steps the rounding takes: a mantissa that is cut off keeps the bit after it, and
one that is full and odd is rounded up exactly if this bit is set.
-/

namespace MetricAlerts.Decimal

open Float.Model Float.Model.UnpackedFloat

/-- The number that a finite double stands for. -/
def numberOf : UnpackedFloat → ℚ
  | .finite sign mantissa exponent _ => (sign.apply mantissa : ℤ) * 2 ^ exponent
  | _ => 0

theorem numberOf_zero (sign : Sign) : numberOf (.zero sign) = 0 := rfl

/-- What a finite double stands for. -/
def value (x : Float) : ℚ := numberOf x.toModel.unpack

/-- Half a step beyond the greatest double, where infinity begins. -/
def overflow : ℚ := (2 ^ 54 - 1) * 2 ^ (970 : ℤ)

variable {mantissa rounded numerator divisor : Nat} {exponent : Int} {sign : Sign}

/-- Twice a mantissa, together with the bit after it. -/
def halves (extended : ExtendedMantissa) : Nat :=
  2 * extended.mantissa + extended.roundBit.toNat

theorem halves_shiftRight_succ (extended : ExtendedMantissa) (shift : Nat) :
    halves (extended >>> (shift + 1)) = extended.mantissa / 2 ^ shift := by
  change halves (ExtendedMantissa.shiftRightOne (extended >>> shift)) = _
  rw [← mantissa_shiftRight, halves, ExtendedMantissa.shiftRightOne]
  dsimp only
  rcases Nat.mod_two_eq_zero_or_one (extended >>> shift).mantissa with hmod | hmod
  · simp only [hmod, bne_self_eq_false, Bool.toNat_false]
    omega
  · simp only [hmod]
    change 2 * ((extended >>> shift).mantissa / 2) + 1 = _
    omega

/-- A fraction, cut off to a whole mantissa. -/
def cutOff (numerator divisor : Nat) : ExtendedMantissa :=
  .ofMantissaAndAccuracy (numerator / divisor) (accuracyOfFraction (numerator % divisor) divisor)

theorem mantissa_cutOff (numerator divisor shift : Nat) :
    (cutOff numerator divisor >>> shift).mantissa = numerator / (divisor * 2 ^ shift) := by
  rw [mantissa_shiftRight, cutOff, mantissa_ofMantissaAndAccuracy, Nat.div_div_eq_div_mul]

theorem halves_cutOff (numerator : Nat) (hdivisor : 0 < divisor) :
    halves (cutOff numerator divisor) = 2 * numerator / divisor := by
  have hrest : numerator % divisor < divisor := Nat.mod_lt _ hdivisor
  have htwice : 2 * numerator / divisor =
      2 * (numerator % divisor) / divisor + 2 * (numerator / divisor) := by
    rw [← Nat.add_mul_div_left _ _ hdivisor]
    congr 1
    have hsum := Nat.mod_add_div numerator divisor
    rw [Nat.mul_left_comm]
    omega
  rw [htwice, cutOff, accuracyOfFraction]
  by_cases hzero : numerator % divisor = 0
  · rw [if_pos hzero, hzero, Nat.mul_zero, Nat.zero_div, Nat.zero_add]
    rfl
  · rw [if_neg hzero]
    cases hcompare : compare (2 * (numerator % divisor)) divisor with
    | lt =>
        rw [Nat.compare_eq_lt] at hcompare
        rw [Nat.div_eq_of_lt hcompare, Nat.zero_add]
        rfl
    | eq =>
        rw [Nat.compare_eq_eq] at hcompare
        rw [hcompare, Nat.div_self hdivisor, Nat.add_comm]
        rfl
    | gt =>
        rw [Nat.compare_eq_gt] at hcompare
        have hone : 2 * (numerator % divisor) / divisor = 1 :=
          Nat.div_eq_of_lt_le (by omega) (by omega)
        rw [hone, Nat.add_comm]
        rfl

/-- However far a fraction is shifted, its mantissa and the bit after it are
those of the exact fraction. -/
theorem halves_shiftRight (numerator : Nat) (hdivisor : 0 < divisor) (shift : Nat) :
    halves (cutOff numerator divisor >>> shift) = 2 * numerator / (divisor * 2 ^ shift) := by
  cases shift with
  | zero =>
      rw [Nat.pow_zero, Nat.mul_one]
      exact halves_cutOff numerator hdivisor
  | succ shift =>
      rw [halves_shiftRight_succ, cutOff, mantissa_ofMantissaAndAccuracy, Nat.div_div_eq_div_mul,
        Nat.pow_succ, ← Nat.mul_assoc, Nat.mul_comm _ 2, Nat.mul_div_mul_left _ _ (by decide)]

theorem roundedMantissa_of_odd {extended : ExtendedMantissa} (hodd : extended.mantissa % 2 = 1) :
    extended.roundedMantissa = extended.mantissa + extended.roundBit.toNat := by
  obtain ⟨mantissa, round, sticky⟩ := extended
  dsimp only at hodd
  cases round <;> cases sticky <;>
    simp [ExtendedMantissa.roundedMantissa, ExtendedMantissa.accuracy,
      Accuracy.roundToNearestEven, hodd]

theorem isFinite_unpack_pack_iff (hpos : 0 < mantissa)
    (hcanonical : IsCanonical mantissa exponent) :
    (pack (.finite sign mantissa exponent hpos)).unpack.isFinite = true ↔ exponent ≤ 971 := by
  by_cases hgreatest : exponent ≤ 971
  · rw [unpack_pack_finite _ hpos hcanonical hgreatest]
    exact iff_of_true rfl hgreatest
  · rw [unpack_pack_overflow _ hpos (by omega)]
    exact iff_of_false Bool.false_ne_true hgreatest

/-- A mantissa that was rounded up to 54 bits takes the next exponent. -/
theorem settle_cases (sign : Sign) (hcanonical : IsCanonical mantissa exponent)
    (hle : mantissa ≤ rounded) (hrounded : rounded ≤ mantissa + 1) :
    (IsCanonical rounded exponent ∧ settle sign rounded exponent = ofParts sign rounded exponent) ∨
      (rounded = 2 ^ 53 ∧
        settle sign rounded exponent = .finite sign (2 ^ 52) (exponent + 1) (by decide)) := by
  obtain ⟨hleast, hshort, hfull⟩ := hcanonical
  by_cases hlong : rounded < 2 ^ 53
  · have hshift : shiftFor rounded exponent = 0 := by
      have hlog : rounded.log2 ≤ 52 := by
        by_cases hzero : rounded = 0
        · rw [hzero, Nat.log2_zero]
          decide
        · exact Nat.le_of_lt_succ ((Nat.log2_lt hzero).2 hlong)
      rw [shiftFor]
      omega
    refine .inl ⟨⟨hleast, hlong, by omega⟩, ?_⟩
    rw [settle, hshift, Nat.pow_zero, Nat.div_one, Int.natCast_zero, Int.add_zero]
  · have hnext : rounded = 2 ^ 53 := by omega
    have hshift : shiftFor rounded exponent = 1 := by
      rw [hnext, shiftFor, Nat.log2_two_pow]
      omega
    have hhalf : rounded / 2 ^ 1 = 2 ^ 52 := by
      rw [hnext]
      decide
    refine .inr ⟨hnext, ?_⟩
    rw [settle, hshift, hhalf, ofParts_pos _ _ (by decide)]
    rfl

theorem isCanonical_next (hleast : -1074 ≤ exponent) : IsCanonical (2 ^ 52) (exponent + 1) :=
  ⟨by omega, by decide, .inl (Nat.le_refl _)⟩

/-- The greatest exponent of a double is 971. -/
theorem isFinite_settle_iff (hcanonical : IsCanonical mantissa exponent)
    (hle : mantissa ≤ rounded) (hrounded : rounded ≤ mantissa + 1) :
    (pack (settle sign rounded exponent)).unpack.isFinite = true ↔
      exponent ≤ 970 ∨ exponent = 971 ∧ rounded < 2 ^ 53 := by
  obtain ⟨hsettled, hsettle⟩ | ⟨hnext, hsettle⟩ := settle_cases sign hcanonical hle hrounded
  · have hshort := hsettled.short
    rw [hsettle]
    obtain rfl | hpos := Nat.eq_zero_or_pos rounded
    · have hexponent := hsettled.full.resolve_left (by decide)
      rw [ofParts_zero, unpack_pack_zero]
      refine iff_of_true rfl ?_
      omega
    · rw [ofParts_pos _ _ hpos, isFinite_unpack_pack_iff hpos hsettled]
      omega
  · rw [hsettle, isFinite_unpack_pack_iff _ (isCanonical_next hcanonical.least)]
    omega

/-- What a fraction is in steps of a greater exponent. -/
theorem fraction_eq (numerator divisor shift : Nat) (exponent : Int) :
    (numerator / divisor : ℚ) * 2 ^ exponent =
      (numerator / (divisor * 2 ^ shift : ℕ) : ℚ) * 2 ^ (exponent + shift) := by
  rw [zpow_add₀ two_ne_zero, zpow_natCast, Nat.cast_mul, Nat.cast_pow, Nat.cast_ofNat]
  field_simp

/-- A full mantissa is rounded to 54 bits exactly if the bit after it is set. -/
theorem rounded_lt_iff (hdivisor : 0 < divisor) (shift : Nat)
    (hshort : numerator / (divisor * 2 ^ shift) < 2 ^ 53) :
    (cutOff numerator divisor >>> shift).roundedMantissa < 2 ^ 53 ↔
      2 * numerator / (divisor * 2 ^ shift) < 2 ^ 54 - 1 := by
  have hrounded := roundedMantissa_le (cutOff numerator divisor >>> shift)
  have hhalves := halves_shiftRight numerator hdivisor shift
  have hbit : (cutOff numerator divisor >>> shift).roundBit.toNat ≤ 1 := Bool.toNat_le _
  rw [halves] at hhalves
  have hcut := mantissa_cutOff numerator divisor shift
  rw [hcut] at hrounded hhalves
  by_cases hfull : numerator / (divisor * 2 ^ shift) = 2 ^ 53 - 1
  · have hodd : (cutOff numerator divisor >>> shift).mantissa % 2 = 1 := by
      rw [hcut, hfull]
      decide
    have hsum := roundedMantissa_of_odd hodd
    omega
  · omega

/-- With a mantissa of 53 bits, the exponent tells whether infinity is reached,
unless it is the greatest one. -/
theorem lt_overflow_iff {steps : ℚ} (hsteps : 0 ≤ steps)
    (hcanonical : IsCanonical ⌊steps⌋₊ exponent) :
    steps * 2 ^ exponent < overflow ↔
      exponent ≤ 970 ∨ exponent = 971 ∧ ⌊2 * steps⌋₊ < 2 ^ 54 - 1 := by
  obtain ⟨-, hshort, hfull⟩ := hcanonical
  have hpower : ∀ exponent : ℤ, (0 : ℚ) < 2 ^ exponent := fun _ => zpow_pos two_pos _
  rcases lt_trichotomy exponent 971 with hless | rfl | hgreater
  · have hfew : steps < 2 ^ 53 := by
      calc steps < (⌊steps⌋₊ : ℚ) + 1 := Nat.lt_floor_add_one steps
        _ ≤ 2 ^ 53 := by exact_mod_cast hshort
    have hle : (2 : ℚ) ^ exponent ≤ 2 ^ (970 : ℤ) := zpow_le_zpow_right₀ one_le_two (by omega)
    refine iff_of_true ?_ (.inl (by omega))
    calc steps * 2 ^ exponent < 2 ^ 53 * 2 ^ exponent :=
          mul_lt_mul_of_pos_right hfew (hpower exponent)
      _ ≤ 2 ^ 53 * 2 ^ (970 : ℤ) := mul_le_mul_of_nonneg_left hle (by positivity)
      _ ≤ overflow := mul_le_mul_of_nonneg_right (by norm_num) (hpower 970).le
  · have hdouble : steps * 2 ^ (971 : ℤ) = 2 * steps * 2 ^ (970 : ℤ) := by
      rw [show (971 : ℤ) = 970 + 1 from rfl, zpow_add_one₀ two_ne_zero]
      ring
    have hnumber : ((2 ^ 54 - 1 : ℕ) : ℚ) = 2 ^ 54 - 1 := by norm_num
    rw [hdouble, overflow, mul_lt_mul_iff_left₀ (hpower 970), Nat.floor_lt (by positivity), hnumber]
    simp
  · have hmany : (2 : ℚ) ^ 52 ≤ steps := by
      have hfloor : 2 ^ 52 ≤ ⌊steps⌋₊ := hfull.resolve_right (by omega)
      exact_mod_cast (Nat.le_floor_iff hsteps).1 hfloor
    have hle : (2 : ℚ) ^ (972 : ℤ) ≤ 2 ^ exponent := zpow_le_zpow_right₀ one_le_two (by omega)
    refine iff_of_false (not_lt.2 ?_) (by omega)
    calc overflow ≤ 2 ^ 54 * 2 ^ (970 : ℤ) :=
          mul_le_mul_of_nonneg_right (by norm_num) (hpower 970).le
      _ = 2 ^ 52 * 2 ^ (972 : ℤ) := by
          rw [show (972 : ℤ) = 2 + 970 from rfl, zpow_add₀ two_ne_zero]
          ring
      _ ≤ steps * 2 ^ exponent := mul_le_mul hmany hle (hpower 972).le hsteps

/-- A fraction is rounded to something finite exactly if it does not reach half a
step beyond the greatest double. -/
theorem isFinite_roundWithAccuracy_iff (sign : Sign) (numerator : Nat) (hdivisor : 0 < divisor)
    (henough : 2 ^ 52 ≤ numerator / divisor ∨ exponent ≤ -1074) :
    (pack (roundWithAccuracy .binary64 sign (numerator / divisor) exponent
        (accuracyOfFraction (numerator % divisor) divisor))).unpack.isFinite = true ↔
      (numerator / divisor : ℚ) * 2 ^ exponent < overflow := by
  let shift := shiftFor (numerator / divisor) exponent
  let steps : ℚ := numerator / (divisor * 2 ^ shift : ℕ)
  have hfloor : ⌊steps⌋₊ = numerator / (divisor * 2 ^ shift) := Nat.floor_div_eq_div ..
  have hhalves : ⌊2 * steps⌋₊ = 2 * numerator / (divisor * 2 ^ shift) := by
    rw [← Nat.floor_div_eq_div (K := ℚ), Nat.cast_mul, Nat.cast_ofNat, mul_div_assoc]
  have hcanonical : IsCanonical ⌊steps⌋₊ (exponent + shift) := by
    rw [hfloor, ← Nat.div_div_eq_div_mul]
    exact isCanonical_shift henough
  have hlower : ⌊steps⌋₊ ≤ (cutOff numerator divisor >>> shift).roundedMantissa := by
    rw [hfloor, ← Nat.div_div_eq_div_mul]
    exact le_roundedFor _ exponent _
  have hupper : (cutOff numerator divisor >>> shift).roundedMantissa ≤ ⌊steps⌋₊ + 1 := by
    rw [hfloor, ← Nat.div_div_eq_div_mul]
    exact roundedFor_le_succ _ exponent _
  have hshort : numerator / (divisor * 2 ^ shift) < 2 ^ 53 := hfloor ▸ hcanonical.short
  rw [roundWithAccuracy_eq_settle, fraction_eq numerator divisor shift,
    lt_overflow_iff (by positivity) hcanonical, hhalves, ← rounded_lt_iff hdivisor shift hshort]
  exact isFinite_settle_iff hcanonical hlower hupper

end MetricAlerts.Decimal

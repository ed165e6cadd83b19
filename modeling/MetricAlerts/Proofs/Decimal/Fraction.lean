import MetricAlerts.Proofs.Decimal.Range

/-!
# Fractions with few bits

A whole number with room in a mantissa is a double, and so is the fraction that
is left of it when it is divided by the first power of two beyond the mantissa.
Neither of them is rounded.
-/

namespace MetricAlerts.Decimal

open Float.Model Float.Model.UnpackedFloat

variable {mantissa count : Nat} {exponent : Int} {value : Int} {unpacked : UnpackedFloat}

theorem Holds.isFinite (hholds : Holds value unpacked) : unpacked.isFinite = true := by
  cases hholds <;> rfl

theorem numberOf_finite (sign : Sign) (hpos : 0 < mantissa) (hleast : -1074 ≤ exponent) :
    numberOf (.finite sign mantissa exponent hpos) =
      (sign.apply (units mantissa exponent) : ℤ) * 2 ^ (-1074 : ℤ) := by
  have hpower : (2 : ℚ) ^ exponent = 2 ^ (exponent + 1074).toNat * 2 ^ (-1074 : ℤ) := by
    rw [← zpow_natCast, ← zpow_add₀ two_ne_zero]
    congr 1
    omega
  rw [numberOf, units, Int.natCast_mul, apply_mul, Int.cast_mul, hpower, ← mul_assoc,
    Int.cast_natCast, Nat.cast_pow, Nat.cast_ofNat]

theorem Holds.numberOf_eq (hholds : Holds value unpacked) :
    numberOf unpacked = value * 2 ^ (-1074 : ℤ) := by
  cases hholds with
  | zero sign hvalue => rw [hvalue, numberOf_zero, Int.cast_zero, zero_mul]
  | finite sign hpos hcanonical hvalue => rw [numberOf_finite sign hpos hcanonical.least, hvalue]

theorem Holds.numberOf_units (hholds : Holds (units count exponent) unpacked)
    (hleast : -1074 ≤ exponent) : numberOf unpacked = count * 2 ^ exponent := by
  rw [hholds.numberOf_eq]
  obtain rfl | hpos := Nat.eq_zero_or_pos count
  · rw [units, Nat.zero_mul, Nat.cast_zero, Int.cast_zero, Nat.cast_zero, zero_mul, zero_mul]
  · exact (numberOf_finite .positive hpos hleast).symm

theorem units_eq_of_apply {sign : Sign} {total : Nat}
    (hvalue : (total : ℤ) = sign.apply (units mantissa exponent)) :
    units mantissa exponent = total := by
  rw [← natAbs_apply sign (units mantissa exponent), ← hvalue, Int.natAbs_natCast]

/-- A whole number has no more than 52 bits behind the point. -/
theorem least_of_whole (hpos : 0 < mantissa) (hshort : mantissa < 2 ^ 53)
    (hunits : units mantissa exponent = units count 0) : -52 ≤ exponent := by
  by_contra hlow
  have hwhole : 0 < units count 0 := by
    rw [← hunits]
    exact Nat.mul_pos hpos (Nat.two_pow_pos _)
  have hcount : 1 ≤ count := Nat.pos_of_mul_pos_right hwhole
  have hless : units mantissa exponent < units 1 0 := by
    calc units mantissa exponent ≤ units mantissa (-53) := units_le_units (le_refl _) (by omega)
      _ < units (1 * 2 ^ 53) (-53) := Nat.mul_lt_mul_of_pos_right hshort (Nat.two_pow_pos _)
      _ = units 1 (-53 + (53 : ℕ)) := (units_shift 1 (by decide) 53).symm
  rw [hunits] at hless
  exact absurd (units_le_units hcount (le_refl 0)) (not_le.2 hless)

theorem Holds.mul_unit (hholds : Holds (units count 0) unpacked) (hcount : count < 2 ^ 53) :
    Holds (units count 0)
      (unpacked.mul .binary64 (.finite .positive (2 ^ 52) (-52) (by decide))) := by
  cases hholds with
  | zero sign hvalue => exact .zero _ hvalue
  | @finite sign mantissa exponent hpos hcanonical hvalue =>
      have hsign : sign * .positive = sign := by
        cases sign <;> rfl
      have hunits := units_eq_of_apply hvalue
      have hleast := least_of_whole hpos hcanonical.short hunits
      have hproduct : units (mantissa * 2 ^ 52) (exponent - (52 : ℕ)) = units mantissa exponent :=
        units_extension (by omega)
      rw [hvalue, ← hproduct]
      change Holds _ (roundWithAccuracy .binary64 (sign * .positive) (mantissa * 2 ^ 52)
        (exponent - (52 : ℕ)) .exact)
      rw [hsign]
      exact holds_roundWithAccuracy sign (.inl (Nat.le_mul_of_pos_left _ hpos)) (by omega)
        (hproduct.trans hunits) hcount

theorem units_lt_beyond (hcount : count < 2 ^ 53) : units count 0 < beyond := by
  calc units count 0 < units (2 ^ 52 * 2 ^ 1) 0 :=
        Nat.mul_lt_mul_of_pos_right hcount (Nat.two_pow_pos _)
    _ = units (2 ^ 52) (0 + (1 : ℕ)) := (units_shift _ (by decide) 1).symm
    _ ≤ beyond := units_le_units (le_refl _) (by decide)

theorem holds_normalize_natCast (hcount : count < 2 ^ 53) (zeroSign : Sign) :
    Holds (units count 0) (UnpackedFloat.normalize .binary64 count 0 zeroSign) := by
  obtain rfl | hpos := Nat.eq_zero_or_pos count
  · refine .zero zeroSign ?_
    rw [units, Nat.zero_mul, Nat.cast_zero]
  · rw [normalize_natCast hpos]
    exact holds_round .positive (by decide) hpos rfl hcount

theorem holds_ofUInt64 {count : UInt64} (hcount : count.toNat < 2 ^ 53) :
    Holds (units count.toNat 0) count.toFloat.toModel.unpack :=
  (holds_normalize_natCast hcount .positive).unpack_pack (units_lt_beyond hcount)

/-- A whole number with room in a mantissa is a double. -/
theorem holds_ofNat (hcount : count < 2 ^ 53) :
    Holds (units count 0) (Float.ofNat count).toModel.unpack := by
  have hwhole : count.toUInt64.toNat = count := by
    rw [Nat.toUInt64, UInt64.toNat_ofNat', Nat.mod_eq_of_lt (by omega)]
  have hunit : (Float.ofBits 0x3FF0000000000000).toModel.unpack =
      .finite .positive (2 ^ 52) (-52) (by decide) := rfl
  have hconverted : Holds (units count 0) count.toUInt64.toFloat.toModel.unpack := by
    rw [← hwhole] at hcount
    have hholds := holds_ofUInt64 hcount
    rwa [hwhole] at hholds
  have hproduct : Holds (units count 0) (count.toUInt64.toFloat.toModel.unpack.mul .binary64
      (Float.ofBits 0x3FF0000000000000).toModel.unpack) := by
    rw [hunit]
    exact hconverted.mul_unit hcount
  change Holds _ (Float.ofScientific count false 0).toModel.unpack
  rw [Float.ofScientific, dif_pos ⟨hcount, by decide⟩]
  exact hproduct.unpack_pack (units_lt_beyond hcount)

theorem sign_of_nonneg {sign : Sign} {total : Nat} (hpos : 0 < mantissa)
    (hvalue : (total : ℤ) = sign.apply (units mantissa exponent)) : sign = .positive := by
  cases sign with
  | positive => rfl
  | negative =>
      have hunits : 0 < units mantissa exponent := Nat.mul_pos hpos (Nat.two_pow_pos _)
      change (total : ℤ) = -units mantissa exponent at hvalue
      omega

/-- One bit of the divisor is in its exponent, the others are in its mantissa. -/
theorem Holds.div_two_pow (hholds : Holds (units count 0) unpacked) (hcount : count < 2 ^ 53) :
    Holds (units count (-53))
      (unpacked.div .binary64 (.finite .positive (2 ^ 52) 1 (by decide))) := by
  have hscaled : units count (-53 + (53 : ℕ)) = units count (-53) * 2 ^ 53 :=
    units_add count (by decide) 53
  rw [show (-53 + (53 : ℕ) : ℤ) = 0 from rfl] at hscaled
  cases hholds with
  | zero sign hvalue => exact .zero _ (by omega)
  | @finite sign mantissa exponent hpos hcanonical hvalue =>
      obtain rfl := sign_of_nonneg hpos hvalue
      have hunits := units_eq_of_apply hvalue
      have hwhole := least_of_whole hpos hcanonical.short hunits
      have hleast : -1074 ≤ quotientExponent mantissa exponent (2 ^ 52) 1 := by
        rw [quotientExponent]
        omega
      have hhalf : units mantissa (exponent - 1 + (1 : ℕ)) =
          units mantissa (exponent - 1) * 2 ^ 1 :=
        units_add mantissa (by omega) 1
      rw [Nat.cast_one, Int.sub_add_cancel] at hhalf
      have hquotient : units (dividend mantissa exponent (2 ^ 52) 1)
          (quotientExponent mantissa exponent (2 ^ 52) 1) = units count (-53) * 2 ^ 52 := by
        rw [units_dividend_eq _ _ hleast]
        omega
      exact holds_div_finite .positive hpos (by decide) hleast hquotient rfl hcount

/-- What is left of a short number when it is divided by the first power of two
beyond the mantissa. -/
theorem value_div_two_pow (hcount : count < 2 ^ 53) :
    (Float.ofNat count / Float.ofNat (2 ^ 53)).isFinite = true ∧
      Decimal.value (Float.ofNat count / Float.ofNat (2 ^ 53)) = count / 2 ^ 53 := by
  have hsteps : (Float.ofNat (2 ^ 53)).toModel.unpack =
      .finite .positive (2 ^ 52) 1 (by decide) := rfl
  have hquotient : Holds (units count (-53)) ((Float.ofNat count).toModel.unpack.div .binary64
      (Float.ofNat (2 ^ 53)).toModel.unpack) := by
    rw [hsteps]
    exact (holds_ofNat hcount).div_two_pow hcount
  have hrange : units count (-53) < beyond :=
    (units_le_units (le_refl count) (by decide)).trans_lt (units_lt_beyond hcount)
  have hholds : Holds (units count (-53))
      (Float.ofNat count / Float.ofNat (2 ^ 53)).toModel.unpack := hquotient.unpack_pack hrange
  refine ⟨hholds.isFinite, ?_⟩
  rw [Decimal.value, hholds.numberOf_units (by decide), zpow_neg, div_eq_mul_inv, zpow_ofNat]

end MetricAlerts.Decimal

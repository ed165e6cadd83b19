import Mathlib
import MetricAlerts.Proofs.Decimal.Finite
import MetricAlerts.Proofs.Decimal.Rounding

/-!
# Storing doubles

The result of an operation is laid out in 64 bits and read back by the next one.
What has the form of a double comes back as it was, unless it is beyond the
greatest one and becomes infinite.
-/

namespace MetricAlerts.Decimal

open Float.Model Float.Model.UnpackedFloat

variable {mantissa : Nat} {exponent : Int} {bound : Nat} {value : Int} {unpacked : UnpackedFloat}

theorem toNat_append_one (mantissa : BitVec 52) :
    (1#1 ++ mantissa).toNat = 2 ^ 52 + mantissa.toNat := by
  rw [BitVec.toNat_append, ← Nat.shiftLeft_add_eq_or_of_lt mantissa.isLt]
  rfl

theorem natAbs_apply (sign : Sign) (value : Nat) : (sign.apply value).natAbs = value := by
  cases sign
  · exact Int.natAbs_neg value
  · exact Int.natAbs_natCast value

theorem unpack_pack_infinity (sign : Sign) : (pack (.infinity sign)).unpack = .infinity sign := by
  cases sign <;> rfl

theorem unpack_pack_zero (sign : Sign) : (pack (.zero sign)).unpack = .zero sign := by
  cases sign <;> rfl

section Reading

variable {bits : BitVec 64}

theorem unpack_normal (hpos : 0 < (@unpackExponent .binary64 bits).toNat)
    (hfinite : (@unpackExponent .binary64 bits).toNat < 2047) :
    UnpackedFloat.unpack .binary64 bits =
      .finite (Sign.ofBitVec (@unpackSign .binary64 bits))
        (2 ^ 52 + (@unpackMantissa .binary64 bits).toNat)
        ((@unpackExponent .binary64 bits).toNat - 1075) (by omega) := by
  have hlast : @unpackExponent .binary64 bits ≠ -1#11 := by
    intro hexponent
    rw [hexponent] at hfinite
    exact absurd hfinite (by decide)
  have hzero : @unpackExponent .binary64 bits ≠ 0#11 := by
    intro hexponent
    rw [hexponent] at hpos
    exact absurd hpos (by decide)
  delta UnpackedFloat.unpack
  simp only [if_neg hlast, if_neg hzero, toNat_append_one]
  rfl

theorem unpack_subnormal (hexponent : @unpackExponent .binary64 bits = 0#11)
    (hpos : 0 < (@unpackMantissa .binary64 bits).toNat) :
    UnpackedFloat.unpack .binary64 bits =
      .finite (Sign.ofBitVec (@unpackSign .binary64 bits))
        (@unpackMantissa .binary64 bits).toNat (-1074) hpos := by
  have hzero : @unpackMantissa .binary64 bits ≠ 0#52 := by
    intro hmantissa
    rw [hmantissa] at hpos
    exact absurd hpos (by decide)
  delta UnpackedFloat.unpack
  simp only [hexponent, dif_neg hzero]
  rfl

theorem unpack_zero (hexponent : @unpackExponent .binary64 bits = 0#11)
    (hmantissa : @unpackMantissa .binary64 bits = 0#52) :
    UnpackedFloat.unpack .binary64 bits = .zero (Sign.ofBitVec (@unpackSign .binary64 bits)) := by
  delta UnpackedFloat.unpack
  simp only [hexponent, hmantissa]
  rfl

end Reading

theorem unpack_pack_finite (sign : Sign) (hpos : 0 < mantissa)
    (hcanonical : IsCanonical mantissa exponent) (hgreatest : exponent ≤ 971) :
    (pack (.finite sign mantissa exponent hpos)).unpack =
      .finite sign mantissa exponent hpos := by
  obtain ⟨hleast, hshort, hfull⟩ := hcanonical
  change UnpackedFloat.unpack .binary64 (UnpackedFloat.pack .binary64 _) = _
  have hbias : Format.binary64.exponentBias = 1023 := by decide
  have hbits : Format.binary64.mantissaBits = 53 := rfl
  delta UnpackedFloat.pack
  simp only [hbias, hbits]
  have hfits : ¬2 ^ 11 ≤ (exponent + (1023 : Nat) + (52 : Nat)).toNat + 1 := by omega
  rw [if_neg hfits]
  by_cases hlog : mantissa.log2 + 1 = 53
  · have hnormal : 2 ^ 52 ≤ mantissa := (Nat.le_log2 (by omega)).1 (by omega)
    have hexponent : (BitVec.ofNat 11 (exponent + (1023 : Nat) + (52 : Nat)).toNat).toNat =
        (exponent + 1075).toNat := by
      rw [BitVec.toNat_ofNat, Nat.mod_eq_of_lt (by omega)]
      omega
    have hmantissa : 2 ^ 52 + (BitVec.ofNat 52 mantissa).toNat = mantissa := by
      rw [BitVec.toNat_ofNat]
      omega
    rw [if_pos hlog, unpack_normal]
    all_goals simp only [unpackExponent_packComponents, unpackMantissa_packComponents,
      unpackSign_packComponents, Sign.ofBitVec_toBitVec, hexponent, hmantissa]
    · congr 1
      omega
    · omega
    · omega
  · have hsubnormal : mantissa < 2 ^ 52 := (Nat.log2_lt (by omega)).1 (by
      have := (Nat.log2_lt (by omega)).2 hshort
      omega)
    have hmantissa : (BitVec.ofNat 52 mantissa).toNat = mantissa := by
      rw [BitVec.toNat_ofNat, Nat.mod_eq_of_lt hsubnormal]
    rw [if_neg hlog, unpack_subnormal (unpackExponent_packComponents ..)]
    all_goals simp only [unpackMantissa_packComponents, unpackSign_packComponents,
      Sign.ofBitVec_toBitVec, hmantissa]
    · congr 1
      omega
    · exact hpos

/-- Beyond the greatest exponent there is only infinity. -/
theorem unpack_pack_overflow (sign : Sign) (hpos : 0 < mantissa) (hbeyond : 971 < exponent) :
    (pack (.finite sign mantissa exponent hpos)).unpack = .infinity sign := by
  have hbias : Format.binary64.exponentBias = 1023 := by decide
  have hlarge : 2 ^ 11 ≤ (exponent + (1023 : Nat) + (52 : Nat)).toNat + 1 := by omega
  have hpack : UnpackedFloat.pack .binary64 (.finite sign mantissa exponent hpos) =
      packedInfinity .binary64 sign := by
    delta UnpackedFloat.pack
    simp only [hbias]
    rw [if_pos hlarge]
  change UnpackedFloat.unpack .binary64 (UnpackedFloat.pack .binary64 _) = _
  rw [hpack]
  exact unpack_pack_infinity sign

/-- Every double is read in the form in which it is stored, and none is read
beyond the greatest one. -/
theorem stored_of_unpack {bits : BitVec 64} {sign : Sign} {hpos : 0 < mantissa}
    (hunpack : UnpackedFloat.unpack .binary64 bits = .finite sign mantissa exponent hpos) :
    IsCanonical mantissa exponent ∧ exponent ≤ 971 := by
  have hbias : Format.binary64.exponentBias = 1023 := by decide
  delta UnpackedFloat.unpack at hunpack
  simp only [hbias] at hunpack
  split at hunpack
  · split at hunpack <;> cases hunpack
  · next hlast =>
    split at hunpack
    · next hsmall =>
      split at hunpack
      · cases hunpack
      · cases hunpack
        rw [hsmall]
        exact ⟨⟨by decide, Nat.lt_trans (BitVec.isLt _) (by decide), .inr rfl⟩, by decide⟩
    · next hlarge =>
      cases hunpack
      have hpositive := (BitVec.toNat_ne_iff_ne).2 hlarge
      have hfield : (@unpackExponent Format.binary64 bits).toNat < 2048 := BitVec.isLt _
      have hfinite : (@unpackExponent Format.binary64 bits).toNat ≠ 2047 :=
        fun heq => hlast (BitVec.eq_of_toNat_eq heq)
      have hmantissa : (@unpackMantissa Format.binary64 bits).toNat < 2 ^ 52 := BitVec.isLt _
      refine ⟨⟨?_, ?_, .inl ?_⟩, ?_⟩
      · change _ ≠ 0 at hpositive
        omega
      · rw [toNat_append_one]
        omega
      · rw [toNat_append_one]
        exact Nat.le_add_right ..
      · change ((@unpackExponent Format.binary64 bits).toNat : Int) - (1075 : Int) ≤ 971
        omega

/-- The first value that no double reaches. -/
def beyond : Nat := units (2 ^ 52) 972

theorem Reaches.unpack_pack (hreaches : Reaches bound unpacked) :
    Reaches bound (pack unpacked).unpack := by
  cases hreaches with
  | notANumber => exact .notANumber
  | infinity => exact .infinity
  | @finite mantissa exponent hpos hcanonical hbound =>
      by_cases hgreatest : exponent ≤ 971
      · rw [unpack_pack_finite _ hpos hcanonical hgreatest]
        exact .finite hpos hcanonical hbound
      · rw [unpack_pack_overflow _ hpos (by omega)]
        exact .infinity

theorem Holds.unpack_pack (hholds : Holds value unpacked) (hrange : value.natAbs < beyond) :
    Holds value (pack unpacked).unpack := by
  cases hholds with
  | zero sign hvalue =>
      rw [unpack_pack_zero]
      exact .zero sign hvalue
  | @finite sign mantissa exponent hpos hcanonical hvalue =>
      have hgreatest : exponent ≤ 971 := by
        refine Int.not_lt.1 fun hlarge => ?_
        have hfull := hcanonical.full.resolve_right (by omega)
        rw [hvalue, natAbs_apply] at hrange
        exact absurd hrange (Nat.not_lt.2 (units_le_units hfull hlarge))
      rw [unpack_pack_finite _ hpos hcanonical hgreatest]
      exact .finite sign hpos hcanonical hvalue

end MetricAlerts.Decimal

import MetricAlerts.Decimal.Layout
import MetricAlerts.Decimal.Reading
import MetricAlerts.Proofs.Decimal.Rounding
import MetricAlerts.Proofs.Text.Numeral

/-!
# Finite doubles

A double is finite unless its exponent has all bits set, and those that are not
finite have no text in a document.

Whole numbers of at most 64 bits are far below the largest double.  So the double
next to such a number is finite, however often it was rounded on the way.  To see
this it is enough to follow how large the exponent can become, and a generous
bound will do: to round a mantissa of some bits adds at most twice as many to the
exponent.
-/

namespace MetricAlerts.Decimal

open Text Float.Model Float.Model.UnpackedFloat

theorem isFinite_unpack_iff (bits : BitVec 64) :
    (UnpackedFloat.unpack .binary64 bits).isFinite = true ↔
      @unpackExponent Format.binary64 bits ≠ -1#11 := by
  delta UnpackedFloat.unpack
  dsimp only
  by_cases hlast : @unpackExponent Format.binary64 bits = -1#11
  · rw [if_pos hlast]
    refine iff_of_false ?_ fun hother => hother hlast
    by_cases hzero : @unpackMantissa Format.binary64 bits = 0#52
    · rw [if_pos hzero]
      exact Bool.false_ne_true
    · rw [if_neg hzero]
      exact Bool.false_ne_true
  · rw [if_neg hlast]
    refine iff_of_true ?_ hlast
    by_cases hsmall : @unpackExponent Format.binary64 bits = 0#11
    · rw [if_pos hsmall]
      by_cases hzero : @unpackMantissa Format.binary64 bits = 0#52
      · rw [dif_pos hzero]
        rfl
      · rw [dif_neg hzero]
        rfl
    · rw [if_neg hsmall]
      rfl

theorem toNat_unpackExponent (bits : BitVec 64) :
    (@unpackExponent Format.binary64 bits).toNat = bits.toNat / leastNormal % 2048 := by
  rw [unpackExponent, BitVec.toNat_cast, BitVec.extractLsb_toNat, Nat.shiftRight_eq_div_pow]
  rfl

theorem isFinite_iff (x : Float) :
    x.isFinite = true ↔ x.toBits.toNat / leastNormal % 2048 ≠ 2047 := by
  have hbits : x.isFinite = (UnpackedFloat.unpack .binary64 x.toBits.toBitVec).isFinite := rfl
  rw [hbits, isFinite_unpack_iff, ne_eq, ← BitVec.toNat_inj, toNat_unpackExponent]
  rfl

theorem exists_parts_iff (x : Float) :
    (∃ negative mantissa exponent, parts x = .finite negative mantissa exponent) ↔
      x.isFinite = true := by
  rw [isFinite_iff]
  simp only [parts]
  by_cases hlast : x.toBits.toNat / leastNormal % 2048 = 2047
  · rw [if_pos hlast]
    refine iff_of_false ?_ fun hother => hother hlast
    split <;> simp
  · rw [if_neg hlast]
    refine iff_of_true ?_ hlast
    split <;> exact ⟨_, _, _, rfl⟩

/-- The finite doubles are the numbers of documents. -/
theorem exists_numberText?_iff {x : Float} :
    (∃ text, numberText? x = some text) ↔ x.isFinite = true := by
  rw [← exists_parts_iff, numberText?]
  cases parts x <;> simp

theorem numberText?_eq_none {x : Float} (hinfinite : ¬x.isFinite = true) :
    numberText? x = none := by
  rw [← exists_numberText?_iff] at hinfinite
  exact Option.eq_none_iff_forall_ne_some.2 fun text htext => hinfinite ⟨text, htext⟩

/-- Zero, or finite with a mantissa of at most so many bits and an exponent that
is not greater. -/
inductive Within (bits : Nat) (greatest : Int) : UnpackedFloat → Prop
  | zero (sign : Sign) : Within bits greatest (.zero sign)
  | finite (sign : Sign) {mantissa : Nat} {exponent : Int} (hpos : 0 < mantissa)
      (hmantissa : mantissa < 2 ^ bits) (hexponent : exponent ≤ greatest) :
      Within bits greatest (.finite sign mantissa exponent hpos)

variable {bits otherBits : Nat} {greatest otherGreatest : Int} {unpacked other : UnpackedFloat}

theorem Within.isFinite (hwithin : Within bits greatest unpacked) : unpacked.isFinite = true := by
  cases hwithin <;> rfl

theorem Within.neg (hwithin : Within bits greatest unpacked) :
    Within bits greatest unpacked.neg := by
  cases hwithin with
  | zero sign => exact .zero (-sign)
  | finite sign hpos hmantissa hexponent => exact .finite (-sign) hpos hmantissa hexponent

theorem Within.mono (hwithin : Within bits greatest unpacked) (hle : greatest ≤ otherGreatest) :
    Within bits otherGreatest unpacked := by
  cases hwithin with
  | zero sign => exact .zero sign
  | finite sign hpos hmantissa hexponent =>
      exact .finite sign hpos hmantissa (Int.le_trans hexponent hle)

theorem roundedMantissa_le (extended : ExtendedMantissa) :
    extended.roundedMantissa ≤ extended.mantissa + 1 := by
  obtain ⟨mantissa, round, sticky⟩ := extended
  cases round <;> cases sticky <;>
    simp only [ExtendedMantissa.roundedMantissa, ExtendedMantissa.accuracy,
      Accuracy.roundToNearestEven] <;> omega

theorem log2_le_of_lt {mantissa : Nat} (hmantissa : mantissa < 2 ^ bits) :
    mantissa.log2 ≤ bits := by
  by_cases hzero : mantissa = 0
  · rw [hzero, Nat.log2_zero]
    exact Nat.zero_le bits
  · exact Nat.le_of_lt ((Nat.log2_lt hzero).2 hmantissa)

section Shifting

variable {mantissa : Nat} {exponent : Int}

/-- Rounding adds at most one to what is left of a mantissa. -/
theorem roundedFor_le_succ (mantissa : Nat) (exponent : Int) (accuracy : Accuracy) :
    roundedFor mantissa exponent accuracy ≤ mantissa / 2 ^ shiftFor mantissa exponent + 1 := by
  have hle := roundedMantissa_le (ExtendedMantissa.ofMantissaAndAccuracy mantissa accuracy >>>
    shiftFor mantissa exponent)
  rwa [mantissa_shiftRight, mantissa_ofMantissaAndAccuracy] at hle

theorem roundedFor_le (mantissa : Nat) (exponent : Int) (accuracy : Accuracy) :
    roundedFor mantissa exponent accuracy ≤ mantissa + 1 :=
  Nat.le_trans (roundedFor_le_succ mantissa exponent accuracy)
    (Nat.succ_le_succ (Nat.div_le_self _ _))

theorem exponent_add_shiftFor_le (hmantissa : mantissa < 2 ^ bits) (hexponent : exponent ≤ greatest)
    (hgreatest : -1074 ≤ greatest) : exponent + shiftFor mantissa exponent ≤ greatest + bits := by
  have hlog := log2_le_of_lt hmantissa
  rw [shiftFor]
  omega

theorem within_settle (sign : Sign) (hmantissa : mantissa < 2 ^ bits)
    (hexponent : exponent ≤ greatest) (hgreatest : -1074 ≤ greatest) :
    Within bits (greatest + bits) (settle sign mantissa exponent) := by
  have hle : mantissa / 2 ^ shiftFor mantissa exponent ≤ mantissa := Nat.div_le_self _ _
  have hshifted := exponent_add_shiftFor_le hmantissa hexponent hgreatest
  rw [settle]
  generalize mantissa / 2 ^ shiftFor mantissa exponent = quotient at hle ⊢
  obtain rfl | hpos := Nat.eq_zero_or_pos quotient
  · exact .zero sign
  · rw [ofParts_pos _ _ hpos]
    exact .finite sign hpos (Nat.lt_of_le_of_lt hle hmantissa) hshifted

theorem within_roundWithAccuracy (sign : Sign) (accuracy : Accuracy)
    (hmantissa : mantissa < 2 ^ bits) (hexponent : exponent ≤ greatest)
    (hgreatest : -1074 ≤ greatest) :
    Within (bits + 1) (greatest + 2 * bits + 1)
      (roundWithAccuracy .binary64 sign mantissa exponent accuracy) := by
  have hrounded : roundedFor mantissa exponent accuracy < 2 ^ (bits + 1) := by
    have hle := roundedFor_le mantissa exponent accuracy
    have hpos := Nat.two_pow_pos bits
    rw [Nat.pow_succ]
    omega
  have hshifted := exponent_add_shiftFor_le hmantissa hexponent hgreatest
  rw [roundWithAccuracy_eq_settle]
  exact (within_settle sign hrounded hshifted (by omega)).mono (by omega)

end Shifting

/-- A short mantissa is made longer before it is rounded. -/
theorem within_round (sign : Sign) {mantissa : Nat} (hmantissa : mantissa < 2 ^ bits) :
    Within (bits + 52 + 1) (0 + 2 * (bits + 52 : Nat) + 1) (round .binary64 sign mantissa 0) := by
  have hshift : (0 - Format.binary64.targetExponent (totalExponent mantissa 0)).toNat ≤ 52 := by
    have hbits : Format.binary64.mantissaBits = 53 := rfl
    simp only [Format.targetExponent, totalExponent, hbits, Format.minExponent]
    omega
  have hlonger : mantissa <<< (0 - Format.binary64.targetExponent
      (totalExponent mantissa 0)).toNat < 2 ^ (bits + 52) := by
    rw [Nat.shiftLeft_eq, Nat.pow_add]
    exact Nat.mul_lt_mul_of_lt_of_le hmantissa (Nat.pow_le_pow_right (by decide) hshift)
      (Nat.two_pow_pos 52)
  exact within_roundWithAccuracy sign .exact hlonger (by omega) (by decide)

theorem Within.mul (hwithin : Within bits greatest unpacked)
    (hother : Within otherBits otherGreatest other) (hgreatest : -1074 ≤ greatest + otherGreatest) :
    Within (bits + otherBits + 1) (greatest + otherGreatest + 2 * (bits + otherBits : Nat) + 1)
      (unpacked.mul .binary64 other) := by
  cases hwithin with
  | zero sign =>
      cases hother with
      | zero otherSign => exact .zero _
      | finite otherSign hpos hmantissa hexponent => exact .zero _
  | finite sign hpos hmantissa hexponent =>
      cases hother with
      | zero otherSign => exact .zero _
      | finite otherSign hotherPos hotherMantissa hotherExponent =>
          apply within_roundWithAccuracy _ _ _ (Int.add_le_add hexponent hotherExponent) hgreatest
          rw [Nat.pow_add]
          exact Nat.mul_lt_mul'' hmantissa hotherMantissa

/-! ## Layout -/

theorem within_unpack_packComponents (sign : Sign) (exponent : BitVec 11) (mantissa : BitVec 52)
    (hfinite : exponent.toNat < 2047) (hexponent : (exponent.toNat : Int) - 1075 ≤ greatest)
    (hgreatest : -1074 ≤ greatest) :
    Within 53 greatest
      (UnpackedFloat.unpack .binary64 (packComponents .binary64 sign exponent mantissa)) := by
  have hne : exponent ≠ -1#11 := by
    rintro rfl
    exact absurd hfinite (by decide)
  delta UnpackedFloat.unpack
  dsimp only
  rw [unpackExponent_packComponents, if_neg hne]
  by_cases hsmall : exponent = 0#11
  · rw [if_pos hsmall]
    by_cases hzero : unpackMantissa (packComponents .binary64 sign exponent mantissa) = 0#52
    · rw [dif_pos hzero]
      exact .zero _
    · rw [dif_neg hzero]
      apply Within.finite _ _ (Nat.lt_trans (BitVec.isLt _) (by decide))
      subst hsmall
      simpa [Format.exponentBias] using hgreatest
  · rw [if_neg hsmall]
    exact .finite _ _ (BitVec.isLt _) hexponent

/-- What was laid out comes back with an exponent that is not greater, unless it
was beyond the greatest one. -/
theorem Within.unpack_pack (hwithin : Within bits greatest unpacked) (hgreatest : -1074 ≤ greatest)
    (hbound : greatest ≤ 971) : Within 53 greatest (pack unpacked).unpack := by
  change Within 53 greatest (UnpackedFloat.unpack .binary64 (UnpackedFloat.pack .binary64 unpacked))
  cases hwithin with
  | zero sign =>
      apply within_unpack_packComponents sign 0#11 0#52 (by decide) _ hgreatest
      simp only [BitVec.toNat_ofNat]
      omega
  | @finite sign mantissa exponent hpos hmantissa hexponent =>
      have hbias : Format.binary64.exponentBias = 1023 := by decide
      unfold UnpackedFloat.pack
      simp only [hbias]
      split
      · next hlarge =>
          change 2048 ≤ (exponent + (1023 : Nat) + (52 : Nat)).toNat + 1 at hlarge
          omega
      · next hfits =>
          change ¬2048 ≤ (exponent + (1023 : Nat) + (52 : Nat)).toNat + 1 at hfits
          split
          · apply within_unpack_packComponents _ _ _ _ _ hgreatest
            · rw [BitVec.toNat_ofNat]
              omega
            · rw [BitVec.toNat_ofNat]
              omega
          · apply within_unpack_packComponents _ 0#11 _ (by decide) _ hgreatest
            simp only [BitVec.toNat_ofNat]
            omega

theorem within_toFloat (n : UInt64) : Within 53 233 n.toFloat.toModel.unpack := by
  have hbound : n.toNat < 2 ^ 64 := n.toNat_lt
  have hwithin : Within 117 233 (ofUInt64 .binary64 n) := by
    change Within 117 233 (UnpackedFloat.normalize .binary64 n.toNat 0 .positive)
    rw [UnpackedFloat.normalize]
    split
    · next hnegative =>
        rw [Int.compare_eq_lt] at hnegative
        omega
    · exact .zero _
    · exact within_round .positive hbound
  exact hwithin.unpack_pack (by decide) (by decide)

theorem within_unpacked_ofScientific {n : Nat} (hn : n < 2 ^ 64) (hzero : n ≠ 0) :
    Within 119 184 (UnpackedFloat.ofScientific .binary64 n 0) := by
  have hleft (hpos : 0 < n <<< Format.binary64.mantissaBits) :
      Within 117 (-53) (.finite .positive (n <<< Format.binary64.mantissaBits)
        (-Format.binary64.mantissaBits) hpos) := by
    have hpower : 2 ^ 117 = 2 ^ 64 * 2 ^ Format.binary64.mantissaBits := by decide
    refine .finite _ _ ?_ (Int.le_refl _)
    rw [Nat.shiftLeft_eq, hpower]
    exact Nat.mul_lt_mul_of_lt_of_le hn (Nat.le_refl _) (by decide)
  have hright (hpos : 0 < 10 ^ (0 : Int).toNat) :
      Within 1 0 (.finite .positive (10 ^ (0 : Int).toNat) 0 hpos) :=
    .finite _ _ (by decide) (by decide)
  have hpower : (0 : Int) < 2 ^ Format.binary64.exponentBits := by decide
  rw [UnpackedFloat.ofScientific, dif_neg hzero, if_neg (by decide), if_neg (by omega),
    if_pos (by decide)]
  exact (hleft _).mul (hright _) (by decide)

theorem within_ofScientific {n : Nat} (hn : n < 2 ^ 64) :
    Within 53 971 (Float.ofScientific n false 0).toModel.unpack := by
  rw [Float.ofScientific]
  split
  -- A number that a mantissa can hold is multiplied by one.
  · have hone : (Float.ofBits 0x3FF0000000000000).toModel.unpack =
        .finite .positive (2 ^ 52) (-52) (by decide) := rfl
    have hwithin : Within 53 (-52) (Float.ofBits 0x3FF0000000000000).toModel.unpack := by
      rw [hone]
      exact .finite _ _ (by decide) (by decide)
    have hproduct := (within_toFloat n.toUInt64).mul hwithin (by decide)
    exact (hproduct.unpack_pack (by decide) (by decide)).mono (by decide)
  · by_cases hzero : n = 0
    · subst hzero
      exact .zero _
    · have hwithin := within_unpacked_ofScientific hn hzero
      exact (hwithin.unpack_pack (by decide) (by decide)).mono (by decide)

theorem within_ofDecimal {n : Nat} (hn : n < 2 ^ 64) :
    Within 53 971 (ofDecimal n 0).toModel.unpack := by
  have hlength : (numeral n).length ≤ 20 := length_digitsOf_le (Nat.lt_trans hn (by decide))
  rw [ofDecimal]
  split
  · have hzero : (0.0 : Float).toModel.unpack = .zero .positive := rfl
    rw [hzero]
    exact .zero _
  · rw [if_neg (by omega), if_neg (by omega), if_pos (by decide)]
    have hone : n * Nat.pow 10 (0 : Int).toNat = n := Nat.mul_one n
    rw [hone]
    exact within_ofScientific hn

theorem isFinite_ofInt {n : Int} (hlow : Int64.minValue.toInt ≤ n) (hhigh : n < UInt64.size) :
    (ofInt n).isFinite = true := by
  have hlow : (-9223372036854775808 : Int) ≤ n := hlow
  have hhigh : n < (18446744073709551616 : Nat) := hhigh
  have hwithin := within_ofDecimal (n := n.natAbs) (by omega)
  rw [ofInt]
  split
  · exact (hwithin.neg.unpack_pack (by decide) (by decide)).isFinite
  · exact hwithin.isFinite

end MetricAlerts.Decimal

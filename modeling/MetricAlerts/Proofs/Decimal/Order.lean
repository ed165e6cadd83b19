import Mathlib.Order.Compare
import Mathlib.Order.WithBot
import MetricAlerts.Proofs.Decimal.Fraction

/-!
# The order of doubles

Doubles are compared by their parts: signs first, then exponents, then mantissas.
This is the order of the numbers that they stand for, with the infinities at both
ends, since a mantissa is full unless its exponent is the least one.  What is not
a number has no position in this order and compares with nothing.
-/

namespace MetricAlerts.Decimal

open Float.Model Float.Model.UnpackedFloat

variable {mantissa otherMantissa : Nat} {exponent otherExponent : Int}
  {unpacked other : UnpackedFloat} {x y : Float}

/-- A greater exponent outweighs any mantissa. -/
theorem units_lt_of_exponent_lt (hcanonical : IsCanonical mantissa exponent)
    (hother : IsCanonical otherMantissa otherExponent) (hlt : exponent < otherExponent) :
    units mantissa exponent < units otherMantissa otherExponent := by
  have hleast := hcanonical.least
  have hfull : 2 ^ 52 ≤ otherMantissa := hother.full.resolve_right (by omega)
  calc units mantissa exponent < units (2 ^ 52 * 2 ^ 1) exponent :=
        Nat.mul_lt_mul_of_pos_right hcanonical.short (Nat.two_pow_pos _)
    _ = units (2 ^ 52) (exponent + (1 : ℕ)) := (units_shift _ hleast 1).symm
    _ ≤ units otherMantissa otherExponent := units_le_units hfull (by omega)

/-- Exponents first and then mantissas: this is the order of the values. -/
theorem compares_units (hcanonical : IsCanonical mantissa exponent)
    (hother : IsCanonical otherMantissa otherExponent) :
    ((compare exponent otherExponent).then (compare mantissa otherMantissa)).Compares
      (units mantissa exponent) (units otherMantissa otherExponent) := by
  obtain hlt | rfl | hgt := Int.lt_trichotomy exponent otherExponent
  · rw [Int.compare_eq_lt.2 hlt]
    exact units_lt_of_exponent_lt hcanonical hother hlt
  · have hscaled : StrictMono fun mantissa => units mantissa exponent :=
      fun _ _ hless => Nat.mul_lt_mul_of_pos_right hless (Nat.two_pow_pos _)
    rw [Int.compare_eq_eq.2 rfl, Ordering.eq_then]
    exact hscaled.compares.2 ((compare_iff _ _).1 rfl)
  · rw [Int.compare_eq_gt.2 hgt]
    exact units_lt_of_exponent_lt hother hcanonical hgt

theorem compares_numberOf_positive (hpos : 0 < mantissa) (hotherPos : 0 < otherMantissa)
    (hcanonical : IsCanonical mantissa exponent)
    (hother : IsCanonical otherMantissa otherExponent) :
    ((compare exponent otherExponent).then (compare mantissa otherMantissa)).Compares
      (numberOf (.finite .positive mantissa exponent hpos))
      (numberOf (.finite .positive otherMantissa otherExponent hotherPos)) := by
  have hscaled : StrictMono fun count : ℕ => (count : ℚ) * 2 ^ (-1074 : ℤ) :=
    fun _ _ hless => mul_lt_mul_of_pos_right (Nat.cast_lt.2 hless) (zpow_pos two_pos _)
  rw [numberOf_finite _ _ hcanonical.least, numberOf_finite _ _ hother.least]
  exact hscaled.compares.2 (compares_units hcanonical hother)

theorem numberOf_negative (hpos : 0 < mantissa) (exponent : Int) :
    numberOf (.finite .negative mantissa exponent hpos) =
      -numberOf (.finite .positive mantissa exponent hpos) :=
  numberOf_neg (.finite .positive mantissa exponent hpos)

theorem compares_numberOf_negative (hpos : 0 < mantissa) (hotherPos : 0 < otherMantissa)
    (hcanonical : IsCanonical mantissa exponent)
    (hother : IsCanonical otherMantissa otherExponent) :
    ((compare exponent otherExponent).then (compare mantissa otherMantissa)).swap.Compares
      (numberOf (.finite .negative mantissa exponent hpos))
      (numberOf (.finite .negative otherMantissa otherExponent hotherPos)) := by
  have hnegated : StrictAnti fun number : ℚ => -number := fun _ _ hless => neg_lt_neg hless
  rw [numberOf_negative, numberOf_negative, Ordering.compares_swap]
  exact hnegated.compares.2 (compares_numberOf_positive hpos hotherPos hcanonical hother)

theorem numberOf_positive_pos (hpos : 0 < mantissa) (exponent : Int) :
    0 < numberOf (.finite .positive mantissa exponent hpos) :=
  mul_pos (Int.cast_pos.2 (Int.natCast_pos.2 hpos)) (zpow_pos two_pos _)

theorem numberOf_negative_neg (hpos : 0 < mantissa) (exponent : Int) :
    numberOf (.finite .negative mantissa exponent hpos) < 0 := by
  rw [numberOf_negative]
  exact neg_lt_zero.2 (numberOf_positive_pos hpos exponent)

/-- Two finite doubles compare as the numbers that they stand for. -/
theorem exists_compares_numberOf (hstored : IsStored unpacked) (hother : IsStored other)
    (hfinite : unpacked.isFinite = true) (hotherFinite : other.isFinite = true) :
    ∃ order, unpacked.compare other = some order ∧
      order.Compares (numberOf unpacked) (numberOf other) := by
  cases unpacked with
  | notANumber => cases hfinite
  | infinity sign => cases hfinite
  | zero sign =>
      cases other with
      | notANumber => cases hotherFinite
      | infinity sign => cases hotherFinite
      | zero otherSign => exact ⟨.eq, rfl, rfl⟩
      | finite otherSign otherMantissa otherExponent hotherPos =>
          cases otherSign with
          | positive => exact ⟨.lt, rfl, numberOf_positive_pos hotherPos _⟩
          | negative => exact ⟨.gt, rfl, numberOf_negative_neg hotherPos _⟩
  | finite sign mantissa exponent hpos =>
      have hcanonical := (hstored _ _ _ _ rfl).1
      cases other with
      | notANumber => cases hotherFinite
      | infinity sign => cases hotherFinite
      | zero otherSign =>
          cases sign with
          | positive => exact ⟨.gt, rfl, numberOf_positive_pos hpos _⟩
          | negative => exact ⟨.lt, rfl, numberOf_negative_neg hpos _⟩
      | finite otherSign otherMantissa otherExponent hotherPos =>
          have hotherCanonical := (hother _ _ _ _ rfl).1
          cases sign <;> cases otherSign
          · exact ⟨_, rfl, compares_numberOf_negative hpos hotherPos hcanonical hotherCanonical⟩
          · exact ⟨.lt, rfl, (numberOf_negative_neg hpos _).trans (numberOf_positive_pos _ _)⟩
          · exact ⟨.gt, rfl, (numberOf_negative_neg _ _).trans (numberOf_positive_pos hpos _)⟩
          · exact ⟨_, rfl, compares_numberOf_positive hpos hotherPos hcanonical hotherCanonical⟩

/-- The numbers, with the infinities at both ends. -/
abbrev Extended := WithBot (WithTop ℚ)

def Extended.of (number : ℚ) : Extended := ((number : WithTop ℚ) : WithBot (WithTop ℚ))

theorem Extended.strictMono_of : StrictMono Extended.of :=
  WithBot.coe_strictMono.comp WithTop.coe_strictMono

theorem Extended.of_lt_top (number : ℚ) : of number < ⊤ :=
  WithBot.coe_lt_coe.2 (WithTop.coe_lt_top number)

/-- Where a double stands, unless it is not a number. -/
def positionOf : UnpackedFloat → Option Extended
  | .notANumber => none
  | .infinity .negative => some ⊥
  | .infinity .positive => some ⊤
  | unpacked => some (.of (numberOf unpacked))

def position? (x : Float) : Option Extended := positionOf x.toModel.unpack

theorem position?_of_isFinite (hfinite : x.isFinite = true) :
    position? x = some (.of (value x)) := by
  change x.toModel.unpack.isFinite = true at hfinite
  rw [position?, value]
  cases hunpack : x.toModel.unpack with
  | notANumber => simp [hunpack, UnpackedFloat.isFinite] at hfinite
  | infinity sign => simp [hunpack, UnpackedFloat.isFinite] at hfinite
  | _ => rfl

/-- Doubles compare as their positions do. -/
theorem exists_compares_positionOf (hstored : IsStored unpacked) (hother : IsStored other)
    {a b : Extended} (ha : positionOf unpacked = some a) (hb : positionOf other = some b) :
    ∃ order, unpacked.compare other = some order ∧ order.Compares a b := by
  cases unpacked with
  | notANumber => cases ha
  | infinity sign =>
      cases other with
      | notANumber => cases hb
      | infinity otherSign =>
          cases sign <;> cases otherSign <;> cases ha <;> cases hb
          · exact ⟨.eq, rfl, rfl⟩
          · exact ⟨.lt, rfl, bot_lt_top⟩
          · exact ⟨.gt, rfl, bot_lt_top⟩
          · exact ⟨.eq, rfl, rfl⟩
      | _ =>
          cases sign <;> cases ha <;> cases hb
          · exact ⟨.lt, rfl, WithBot.bot_lt_coe _⟩
          · exact ⟨.gt, rfl, Extended.of_lt_top _⟩
  | _ =>
      cases other with
      | notANumber => cases hb
      | infinity otherSign =>
          cases otherSign <;> cases ha <;> cases hb
          · exact ⟨.gt, rfl, WithBot.bot_lt_coe _⟩
          · exact ⟨.lt, rfl, Extended.of_lt_top _⟩
      | _ =>
          obtain ⟨order, hcompare, horder⟩ := exists_compares_numberOf hstored hother rfl rfl
          cases ha
          cases hb
          exact ⟨order, hcompare, Extended.strictMono_of.compares.2 horder⟩

theorem positionOf_eq_none_iff : positionOf unpacked = none ↔ unpacked = .notANumber := by
  cases unpacked with
  | infinity sign => cases sign <;> simp [positionOf]
  | _ => simp [positionOf]

theorem compare_notANumber (unpacked : UnpackedFloat) :
    unpacked.compare .notANumber = none := by
  cases unpacked <;> rfl

theorem compare_eq_some_iff {order : Ordering} :
    x.toModel.unpack.compare y.toModel.unpack = some order ↔
      ∃ a b, position? x = some a ∧ position? y = some b ∧ order.Compares a b := by
  have hcompares := @exists_compares_positionOf _ _ (isStored_unpack x) (isStored_unpack y)
  rw [position?, position?]
  generalize x.toModel.unpack = unpacked at hcompares ⊢
  generalize y.toModel.unpack = other at hcompares ⊢
  constructor
  · intro hcompare
    cases ha : positionOf unpacked with
    | none =>
        rw [positionOf_eq_none_iff.1 ha] at hcompare
        cases hcompare
    | some a =>
        cases hb : positionOf other with
        | none =>
            rw [positionOf_eq_none_iff.1 hb, compare_notANumber] at hcompare
            cases hcompare
        | some b =>
            obtain ⟨found, hfound, horder⟩ := hcompares ha hb
            cases hfound.symm.trans hcompare
            exact ⟨a, b, rfl, rfl, horder⟩
  · rintro ⟨a, b, ha, hb, horder⟩
    obtain ⟨found, hfound, hsame⟩ := hcompares ha hb
    rw [hfound, hsame.inj horder]

theorem lt_iff_position : x < y ↔
    ∃ a b, position? x = some a ∧ position? y = some b ∧ a < b := by
  have hlt : x < y ↔ x.toModel.unpack.lt y.toModel.unpack = true := decide_eq_true_iff
  rw [hlt, UnpackedFloat.lt, beq_iff_eq, compare_eq_some_iff]
  rfl

theorem le_iff_position : x ≤ y ↔
    ∃ a b, position? x = some a ∧ position? y = some b ∧ a ≤ b := by
  have hle : x ≤ y ↔ x.toModel.unpack.le y.toModel.unpack = true := decide_eq_true_iff
  rw [hle, UnpackedFloat.le, Option.any_eq_true]
  constructor
  · rintro ⟨order, hcompare, hisLE⟩
    obtain ⟨a, b, ha, hb, horder⟩ := compare_eq_some_iff.1 hcompare
    exact ⟨a, b, ha, hb, horder.ne_gt.1 (Ordering.isLE_iff_ne_gt.1 hisLE)⟩
  · rintro ⟨a, b, ha, hb, hle⟩
    obtain ⟨order, hcompare, horder⟩ :=
      exists_compares_positionOf (isStored_unpack x) (isStored_unpack y) ha hb
    exact ⟨order, hcompare, Ordering.isLE_iff_ne_gt.2 (horder.ne_gt.2 hle)⟩

theorem lt_iff_value (hx : x.isFinite = true) (hy : y.isFinite = true) :
    x < y ↔ value x < value y := by
  rw [lt_iff_position, position?_of_isFinite hx, position?_of_isFinite hy]
  simp [Extended.strictMono_of.lt_iff_lt]

/-- A positive double stands for a positive number. -/
theorem value_pos_of_pos (hfinite : x.isFinite = true) (hpos : 0 < x) : 0 < value x := by
  have hzero : value 0 = 0 := rfl
  rwa [lt_iff_value rfl hfinite, hzero] at hpos

theorem le_iff_value (hx : x.isFinite = true) (hy : y.isFinite = true) :
    x ≤ y ↔ value x ≤ value y := by
  rw [le_iff_position, position?_of_isFinite hx, position?_of_isFinite hy]
  simp [Extended.strictMono_of.le_iff_le]

theorem unpack_abs (x : Float) : x.abs.toModel.unpack = x.toModel.unpack.abs := by
  have hstored := isStored_unpack x
  change (pack x.toModel.unpack.abs).unpack = _
  generalize x.toModel.unpack = unpacked at hstored ⊢
  cases unpacked with
  | notANumber => rfl
  | infinity sign => exact unpack_pack_infinity .positive
  | zero sign => exact unpack_pack_zero .positive
  | finite sign mantissa exponent hpos =>
      obtain ⟨hcanonical, hgreatest⟩ := hstored _ _ _ _ rfl
      exact unpack_pack_finite .positive hpos hcanonical hgreatest

theorem isFinite_abs (x : Float) : x.abs.isFinite = x.isFinite := by
  change x.abs.toModel.unpack.isFinite = x.toModel.unpack.isFinite
  rw [unpack_abs]
  cases x.toModel.unpack <;> rfl

theorem value_abs (x : Float) : value x.abs = |value x| := by
  rw [value, unpack_abs, value]
  cases x.toModel.unpack with
  | finite sign mantissa exponent hpos =>
      rw [abs_numberOf_finite, UnpackedFloat.abs, numberOf]
      rfl
  | _ => exact abs_zero.symm

/-- An absolute value is within a bound just if the number in question is finite
and within the bound itself. -/
theorem abs_le_iff_value (hbound : y.isFinite = true) :
    x.abs ≤ y ↔ x.isFinite = true ∧ |value x| ≤ value y := by
  by_cases hfinite : x.isFinite = true
  · rw [le_iff_value ((isFinite_abs x).trans hfinite) hbound, value_abs, and_iff_right hfinite]
  · refine iff_of_false ?_ fun hboth => hfinite hboth.1
    rw [le_iff_position, position?_of_isFinite hbound, position?, unpack_abs]
    rintro ⟨a, b, ha, hb, hle⟩
    cases hb
    change ¬x.toModel.unpack.isFinite = true at hfinite
    cases hunpack : x.toModel.unpack with
    | notANumber =>
        rw [hunpack] at ha
        cases ha
    | infinity sign =>
        rw [hunpack] at ha
        cases ha
        exact absurd hle (Extended.of_lt_top _).not_ge
    | _ => exact hfinite (by rw [hunpack]; rfl)

end MetricAlerts.Decimal

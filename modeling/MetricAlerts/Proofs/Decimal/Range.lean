import MetricAlerts.Proofs.Decimal.Overflow

/-!
# Operations within range

Whether a sum, a difference or a quotient of doubles is finite can be told from
the numbers that they stand for.  Something that is lost already stays lost, with
one exception: anything finite divided by infinity is zero.
-/

namespace MetricAlerts.Decimal

open Float.Model Float.Model.UnpackedFloat

variable {mantissa rounded : Nat} {exponent : Int} {unpacked other : UnpackedFloat}

theorem overflow_pos : 0 < overflow :=
  mul_pos (by norm_num) (zpow_pos two_pos _)

theorem isFinite_round_iff (sign : Sign) (hpos : 0 < mantissa) (exponent : Int) :
    (pack (UnpackedFloat.round .binary64 sign mantissa exponent)).unpack.isFinite = true ↔
      (mantissa : ℚ) * 2 ^ exponent < overflow := by
  have hextended : ((mantissa * 2 ^ extensionFor mantissa exponent : ℕ) / (1 : ℕ) : ℚ) *
      2 ^ (exponent - extensionFor mantissa exponent) = mantissa * 2 ^ exponent := by
    rw [zpow_sub₀ two_ne_zero, zpow_natCast, Nat.cast_mul, Nat.cast_pow, Nat.cast_ofNat]
    field_simp
    simp
  have henough := enough_extension hpos exponent
  rw [← Nat.div_one (mantissa * 2 ^ extensionFor mantissa exponent)] at henough
  have hfinite := isFinite_roundWithAccuracy_iff sign _ Nat.one_pos henough
  rw [hextended, Nat.div_one, Nat.mod_one] at hfinite
  rw [round_eq]
  exact hfinite

/-- A sum or difference that is yet to be rounded. -/
theorem isFinite_normalize_iff (total : ℤ) (exponent : Int) (zeroSign : Sign) :
    (pack (UnpackedFloat.normalize .binary64 total exponent zeroSign)).unpack.isFinite = true ↔
      |(total : ℚ) * 2 ^ exponent| < overflow := by
  rw [abs_mul, abs_of_pos (zpow_pos two_pos exponent : (0 : ℚ) < 2 ^ exponent)]
  obtain ⟨mantissa, rfl | rfl⟩ := Int.eq_nat_or_neg total
  · obtain rfl | hpos := Nat.eq_zero_or_pos mantissa
    · have hzero : UnpackedFloat.normalize .binary64 ((0 : ℕ) : ℤ) exponent zeroSign =
          .zero zeroSign := rfl
      rw [hzero, unpack_pack_zero]
      simpa [UnpackedFloat.isFinite] using overflow_pos
    · rw [normalize_natCast hpos, isFinite_round_iff _ hpos]
      simp
  · obtain rfl | hpos := Nat.eq_zero_or_pos mantissa
    · have hzero : UnpackedFloat.normalize .binary64 (-((0 : ℕ) : ℤ)) exponent zeroSign =
          .zero zeroSign := rfl
      rw [hzero, unpack_pack_zero]
      simpa [UnpackedFloat.isFinite] using overflow_pos
    · rw [normalize_neg_natCast hpos, isFinite_round_iff _ hpos]
      simp

theorem apply_decreaseExponent_mul (sign : Sign) (mantissa : Nat) {lesser : Int}
    (hle : lesser ≤ exponent) :
    ((sign.apply (decreaseExponent mantissa exponent lesser).1 : ℤ) : ℚ) * 2 ^ lesser =
      (sign.apply mantissa : ℤ) * 2 ^ exponent := by
  have hexponent : exponent = (exponent - lesser).toNat + lesser := by omega
  rw [decreaseExponent, Nat.shiftLeft_eq, Nat.cast_mul, apply_mul]
  conv_rhs => rw [hexponent, zpow_add₀ two_ne_zero, zpow_natCast, ← mul_assoc]
  push_cast
  rfl

/-- In the form of a double, and not beyond the greatest one. -/
def IsStored (unpacked : UnpackedFloat) : Prop :=
  ∀ sign mantissa exponent hpos, unpacked = .finite sign mantissa exponent hpos →
    IsCanonical mantissa exponent ∧ exponent ≤ 971

theorem isStored_unpack (x : Float) : IsStored x.toModel.unpack :=
  fun _ _ _ _ hunpack => stored_of_unpack hunpack

theorem abs_numberOf_finite (sign : Sign) (hpos : 0 < mantissa) (exponent : Int) :
    |numberOf (.finite sign mantissa exponent hpos)| = mantissa * 2 ^ exponent := by
  rw [numberOf, abs_mul, abs_of_pos (zpow_pos two_pos exponent : (0 : ℚ) < 2 ^ exponent)]
  cases sign <;> simp [Sign.apply]

/-- No double reaches infinity. -/
theorem IsStored.abs_numberOf_lt (hstored : IsStored unpacked) :
    |numberOf unpacked| < overflow := by
  cases unpacked with
  | finite sign mantissa exponent hpos =>
      obtain ⟨hcanonical, hgreatest⟩ := hstored _ _ _ _ rfl
      have hfloor : ⌊(mantissa : ℚ)⌋₊ = mantissa := Nat.floor_natCast mantissa
      have htwice : ⌊2 * (mantissa : ℚ)⌋₊ = 2 * mantissa := by
        exact_mod_cast Nat.floor_natCast (2 * mantissa)
      have hshort := hcanonical.short
      rw [← hfloor] at hcanonical
      rw [abs_numberOf_finite, lt_overflow_iff (Nat.cast_nonneg mantissa) hcanonical, htwice]
      omega
  | _ => exact abs_zero.trans_lt overflow_pos

theorem IsStored.isFinite_unpack_pack (hstored : IsStored unpacked) :
    (pack unpacked).unpack.isFinite = unpacked.isFinite := by
  cases unpacked with
  | notANumber => decide
  | infinity sign => rw [unpack_pack_infinity]
  | zero sign => rw [unpack_pack_zero]
  | finite sign mantissa exponent hpos =>
      obtain ⟨hcanonical, hgreatest⟩ := hstored _ _ _ _ rfl
      rw [unpack_pack_finite sign hpos hcanonical hgreatest]

theorem isFinite_of_unpack_pack (hfinite : (pack unpacked).unpack.isFinite = true) :
    unpacked.isFinite = true := by
  cases unpacked with
  | notANumber => exact absurd hfinite (by decide)
  | infinity sign =>
      rw [unpack_pack_infinity] at hfinite
      cases hfinite
  | _ => rfl

theorem isFinite_of_add (hfinite : (unpacked.add .binary64 other).isFinite = true) :
    unpacked.isFinite = true ∧ other.isFinite = true := by
  cases unpacked with
  | notANumber => cases hfinite
  | infinity sign =>
      cases other with
      | infinity otherSign =>
          rw [UnpackedFloat.add] at hfinite
          split at hfinite <;> cases hfinite
      | _ => cases hfinite
  | _ =>
      cases other with
      | notANumber => cases hfinite
      | infinity otherSign => cases hfinite
      | _ => exact ⟨rfl, rfl⟩

/-- A sum of doubles is finite exactly if the exact sum does not reach half a step
beyond the greatest one. -/
theorem isFinite_unpack_pack_add_iff (hstored : IsStored unpacked) (hother : IsStored other) :
    (pack (unpacked.add .binary64 other)).unpack.isFinite = true ↔
      unpacked.isFinite = true ∧ other.isFinite = true ∧
        |numberOf unpacked + numberOf other| < overflow := by
  suffices hsum : unpacked.isFinite = true → other.isFinite = true →
      ((pack (unpacked.add .binary64 other)).unpack.isFinite = true ↔
        |numberOf unpacked + numberOf other| < overflow) by
    constructor
    · intro hfinite
      obtain ⟨hfirst, hsecond⟩ := isFinite_of_add (isFinite_of_unpack_pack hfinite)
      exact ⟨hfirst, hsecond, (hsum hfirst hsecond).1 hfinite⟩
    · rintro ⟨hfirst, hsecond, hbound⟩
      exact (hsum hfirst hsecond).2 hbound
  intro hfirst hsecond
  cases unpacked with
  | notANumber => cases hfirst
  | infinity sign => cases hfirst
  | zero sign =>
      rw [numberOf_zero, zero_add]
      refine iff_of_true ?_ hother.abs_numberOf_lt
      cases other with
      | notANumber => cases hsecond
      | infinity otherSign => cases hsecond
      | zero otherSign =>
          rw [UnpackedFloat.add]
          split <;> rw [unpack_pack_zero] <;> rfl
      | finite otherSign mantissa exponent hpos => exact hother.isFinite_unpack_pack
  | finite sign mantissa exponent hpos =>
      cases other with
      | notANumber => cases hsecond
      | infinity otherSign => cases hsecond
      | zero otherSign =>
          rw [numberOf_zero, add_zero]
          exact iff_of_true hstored.isFinite_unpack_pack hstored.abs_numberOf_lt
      | finite otherSign otherMantissa otherExponent hotherPos =>
          let lesser := min exponent otherExponent
          let total := sign.apply (decreaseExponent mantissa exponent lesser).1 +
            otherSign.apply (decreaseExponent otherMantissa otherExponent lesser).1
          have htotal : (total : ℚ) * 2 ^ lesser =
              numberOf (.finite sign mantissa exponent hpos) +
                numberOf (.finite otherSign otherMantissa otherExponent hotherPos) := by
            rw [Int.cast_add, add_mul,
              apply_decreaseExponent_mul sign mantissa (Int.min_le_left ..),
              apply_decreaseExponent_mul otherSign otherMantissa (Int.min_le_right ..), numberOf,
              numberOf]
          rw [← htotal]
          exact isFinite_normalize_iff total lesser .positive

theorem neg_apply (sign : Sign) (number : Int) : (-sign).apply number = -sign.apply number := by
  cases sign
  · exact (Int.neg_neg number).symm
  · rfl

theorem sub_eq_add (unpacked other : UnpackedFloat) :
    unpacked.sub .binary64 other = unpacked.add .binary64 other.neg := by
  cases unpacked <;> cases other <;> try rfl
  simp only [UnpackedFloat.sub, UnpackedFloat.neg, UnpackedFloat.add, neg_apply, Int.sub_eq_add_neg]

theorem numberOf_neg (unpacked : UnpackedFloat) : numberOf unpacked.neg = -numberOf unpacked := by
  cases unpacked with
  | finite sign mantissa exponent hpos =>
      rw [UnpackedFloat.neg, numberOf, numberOf, neg_apply, Int.cast_neg, neg_mul]
  | _ => exact neg_zero.symm

theorem isFinite_neg (unpacked : UnpackedFloat) : unpacked.neg.isFinite = unpacked.isFinite := by
  cases unpacked <;> rfl

theorem IsStored.neg (hstored : IsStored unpacked) : IsStored unpacked.neg := by
  intro sign mantissa exponent hpos hneg
  cases unpacked with
  | finite =>
      cases hneg
      exact hstored _ _ _ _ rfl
  | _ => cases hneg

/-! ## Quotients -/

theorem numberOf_finite_ne_zero (sign : Sign) (hpos : 0 < mantissa) (exponent : Int) :
    numberOf (.finite sign mantissa exponent hpos) ≠ 0 := by
  have hmantissa : sign.apply mantissa ≠ 0 := by
    intro hzero
    rw [← natAbs_apply sign mantissa, hzero] at hpos
    exact absurd hpos (by decide)
  exact mul_ne_zero (Int.cast_ne_zero.2 hmantissa) (zpow_ne_zero _ two_ne_zero)

/-- What is divided stands for the exact quotient, in steps of its exponent. -/
theorem dividend_eq (mantissa : Nat) (exponent : Int) (otherMantissa : Nat) (otherExponent : Int) :
    (dividend mantissa exponent otherMantissa otherExponent / otherMantissa : ℚ) *
        2 ^ quotientExponent mantissa exponent otherMantissa otherExponent =
      mantissa * 2 ^ exponent / (otherMantissa * 2 ^ otherExponent) := by
  have hle : quotientExponent mantissa exponent otherMantissa otherExponent ≤
      exponent - otherExponent := Int.min_le_left ..
  rw [dividend]
  generalize quotientExponent mantissa exponent otherMantissa otherExponent = target at hle ⊢
  have hpower : (2 : ℚ) ^ (exponent - otherExponent - target).toNat * 2 ^ target =
      2 ^ exponent / 2 ^ otherExponent := by
    rw [← zpow_natCast, ← zpow_add₀ two_ne_zero, ← zpow_sub₀ two_ne_zero]
    congr 1
    omega
  rw [Nat.cast_mul, Nat.cast_pow, Nat.cast_ofNat, div_mul_eq_mul_div, mul_assoc, hpower]
  field_simp

/-- A quotient of doubles is finite exactly if nothing was divided by zero and the
exact quotient does not reach half a step beyond the greatest double. -/
theorem isFinite_unpack_pack_div_iff (unpacked other : UnpackedFloat) :
    (pack (unpacked.div .binary64 other)).unpack.isFinite = true ↔
      unpacked.isFinite = true ∧ (other.isInf = true ∨ other.isFinite = true ∧
        numberOf other ≠ 0 ∧ |numberOf unpacked / numberOf other| < overflow) := by
  have hnan : (pack .notANumber).unpack.isFinite ≠ true := by decide
  have hlost (sign : Sign) : (pack (.infinity sign)).unpack.isFinite ≠ true := by
    rw [unpack_pack_infinity]
    exact Bool.false_ne_true
  have hnone (sign : Sign) : (pack (.zero sign)).unpack.isFinite = true := by
    rw [unpack_pack_zero]
    rfl
  cases other with
  | notANumber =>
      have hdiv : unpacked.div .binary64 .notANumber = .notANumber := by
        cases unpacked <;> rfl
      rw [hdiv]
      refine iff_of_false hnan ?_
      rintro ⟨-, hinf | ⟨hfinite, -⟩⟩
      · cases hinf
      · cases hfinite
  | infinity otherSign =>
      cases unpacked with
      | notANumber => exact iff_of_false hnan fun hfinite => Bool.false_ne_true hfinite.1
      | infinity sign => exact iff_of_false hnan fun hfinite => Bool.false_ne_true hfinite.1
      | _ => exact iff_of_true (hnone _) ⟨rfl, .inl rfl⟩
  | zero otherSign =>
      refine iff_of_false ?_ ?_
      · cases unpacked with
        | notANumber => exact hnan
        | zero sign => exact hnan
        | _ => exact hlost _
      · rintro ⟨-, hinf | ⟨-, hne, -⟩⟩
        · cases hinf
        · exact hne rfl
  | finite otherSign otherMantissa otherExponent hotherPos =>
      cases unpacked with
      | notANumber => exact iff_of_false hnan fun hfinite => Bool.false_ne_true hfinite.1
      | infinity sign => exact iff_of_false (hlost _) fun hfinite => Bool.false_ne_true hfinite.1
      | zero sign =>
          refine iff_of_true (hnone _) ⟨rfl, .inr ⟨rfl, numberOf_finite_ne_zero _ _ _, ?_⟩⟩
          rw [numberOf_zero, zero_div, abs_zero]
          exact overflow_pos
      | finite sign mantissa exponent hpos =>
          have hquotient : |numberOf (.finite sign mantissa exponent hpos) /
              numberOf (.finite otherSign otherMantissa otherExponent hotherPos)| =
              (dividend mantissa exponent otherMantissa otherExponent / otherMantissa : ℚ) *
                2 ^ quotientExponent mantissa exponent otherMantissa otherExponent := by
            rw [abs_div, abs_numberOf_finite, abs_numberOf_finite, dividend_eq]
          rw [div_finite hpos hotherPos, hquotient, isFinite_roundWithAccuracy_iff _ _ hotherPos
            (enough_quotient hpos hotherPos exponent otherExponent)]
          constructor
          · exact fun hbound => ⟨rfl, .inr ⟨rfl, numberOf_finite_ne_zero _ _ _, hbound⟩⟩
          · rintro ⟨-, hinf | ⟨-, -, hbound⟩⟩
            · cases hinf
            · exact hbound

/-! ## Doubles as programs handle them -/

section Doubles

variable {x y : Float}

theorem isFinite_add_iff : (x + y).isFinite = true ↔
    x.isFinite = true ∧ y.isFinite = true ∧ |value x + value y| < overflow :=
  isFinite_unpack_pack_add_iff (isStored_unpack _) (isStored_unpack _)

theorem isFinite_sub_iff : (x - y).isFinite = true ↔
    x.isFinite = true ∧ y.isFinite = true ∧ |value x - value y| < overflow := by
  change (pack (x.toModel.unpack.sub .binary64 y.toModel.unpack)).unpack.isFinite = true ↔ _
  rw [sub_eq_add, isFinite_unpack_pack_add_iff (isStored_unpack _) (isStored_unpack _).neg,
    isFinite_neg, numberOf_neg, ← sub_eq_add_neg]
  rfl

theorem isFinite_div_iff : (x / y).isFinite = true ↔
    x.isFinite = true ∧ (y.isInf = true ∨ y.isFinite = true ∧ value y ≠ 0 ∧
      |value x / value y| < overflow) :=
  isFinite_unpack_pack_div_iff _ _

theorem abs_value_lt_overflow (x : Float) : |value x| < overflow :=
  (isStored_unpack _).abs_numberOf_lt

/-- Zero is what a finite double stands for that compares equal to zero. -/
theorem beq_zero_iff_value (hfinite : x.isFinite = true) : (x == 0.0) = true ↔ value x = 0 := by
  rw [beq_zero_iff, holds_zero_iff, value]
  change x.toModel.unpack.isFinite = true at hfinite
  cases hunpack : x.toModel.unpack with
  | notANumber =>
      rw [hunpack] at hfinite
      cases hfinite
  | infinity sign =>
      rw [hunpack] at hfinite
      cases hfinite
  | zero sign => exact iff_of_true ⟨sign, rfl⟩ rfl
  | finite sign mantissa exponent hpos =>
      refine iff_of_false ?_ (numberOf_finite_ne_zero _ _ _)
      rintro ⟨otherSign, hzero⟩
      cases hzero

end Doubles

/-- A double that is not less than one. -/
inductive AtLeastOne : UnpackedFloat → Prop
  | infinity : AtLeastOne (.infinity .positive)
  | finite {mantissa : Nat} {exponent : Int} (hpos : 0 < mantissa)
      (hcanonical : IsCanonical mantissa exponent) (hone : (1 : ℚ) ≤ mantissa * 2 ^ exponent) :
      AtLeastOne (.finite .positive mantissa exponent hpos)

theorem AtLeastOne.unpack_pack (hone : AtLeastOne unpacked) :
    AtLeastOne (pack unpacked).unpack := by
  cases hone with
  | infinity =>
      rw [unpack_pack_infinity]
      exact .infinity
  | @finite mantissa exponent hpos hcanonical hone =>
      by_cases hgreatest : exponent ≤ 971
      · rw [unpack_pack_finite _ hpos hcanonical hgreatest]
        exact .finite hpos hcanonical hone
      · rw [unpack_pack_overflow _ hpos (by omega)]
        exact .infinity

/-- What is at least one is at least one when it is cut off. -/
theorem one_le_floor_mul {steps : ℚ} (hcanonical : IsCanonical ⌊steps⌋₊ exponent)
    (hone : 1 ≤ steps * 2 ^ exponent) : (1 : ℚ) ≤ (⌊steps⌋₊ : ℚ) * 2 ^ exponent := by
  by_cases hexponent : exponent ≤ 0
  · obtain ⟨power, rfl⟩ := Int.exists_eq_neg_ofNat hexponent
    have hpower : (0 : ℚ) < 2 ^ power := pow_pos two_pos power
    rw [zpow_neg, zpow_natCast, le_mul_inv_iff₀ hpower, one_mul] at hone ⊢
    have hfloor : 2 ^ power ≤ ⌊steps⌋₊ := Nat.le_floor (by exact_mod_cast hone)
    exact_mod_cast hfloor
  · have hfull := hcanonical.full.resolve_right (by omega)
    have hmantissa : (1 : ℚ) ≤ ⌊steps⌋₊ := by
      exact_mod_cast Nat.le_trans (by decide) hfull
    exact one_le_mul_of_one_le_of_one_le hmantissa (one_le_zpow₀ one_le_two (by omega))

theorem atLeastOne_settle (hcanonical : IsCanonical mantissa exponent)
    (hle : mantissa ≤ rounded) (hrounded : rounded ≤ mantissa + 1)
    (hone : (1 : ℚ) ≤ mantissa * 2 ^ exponent) :
    AtLeastOne (settle .positive rounded exponent) := by
  have hpower : (0 : ℚ) < 2 ^ exponent := zpow_pos two_pos exponent
  have hmore : (1 : ℚ) ≤ rounded * 2 ^ exponent :=
    hone.trans (mul_le_mul_of_nonneg_right (Nat.cast_le.2 hle) hpower.le)
  obtain ⟨hsettled, hsettle⟩ | ⟨hnext, hsettle⟩ :=
    settle_cases .positive hcanonical hle hrounded
  · have hpos : 0 < rounded := by
      apply Nat.pos_of_ne_zero
      rintro rfl
      rw [Nat.cast_zero, zero_mul] at hmore
      exact absurd hmore (by decide)
    rw [hsettle, ofParts_pos _ _ hpos]
    exact .finite hpos hsettled hmore
  · rw [hsettle]
    refine .finite _ (isCanonical_next hcanonical.least) ?_
    rw [hnext] at hmore
    have hstep : ((2 ^ 53 : ℕ) : ℚ) * 2 ^ exponent = (2 ^ 52 : ℕ) * 2 ^ (exponent + 1) := by
      rw [zpow_add_one₀ two_ne_zero]
      push_cast
      ring
    rwa [← hstep]

/-- What is at least one is not rounded to less. -/
theorem atLeastOne_roundWithAccuracy (henough : 2 ^ 52 ≤ mantissa ∨ exponent ≤ -1074)
    (hone : (1 : ℚ) ≤ mantissa * 2 ^ exponent) :
    AtLeastOne (roundWithAccuracy .binary64 .positive mantissa exponent .exact) := by
  let shift := shiftFor mantissa exponent
  let steps : ℚ := mantissa / (2 ^ shift : ℕ)
  have hfloor : ⌊steps⌋₊ = mantissa / 2 ^ shift := Nat.floor_div_eq_div ..
  have hcanonical : IsCanonical ⌊steps⌋₊ (exponent + shift) := by
    rw [hfloor]
    exact isCanonical_shift henough
  have hsteps : steps * 2 ^ (exponent + shift) = mantissa * 2 ^ exponent := by
    have hfraction := fraction_eq mantissa 1 shift exponent
    rw [Nat.cast_one, div_one, Nat.one_mul] at hfraction
    exact hfraction.symm
  rw [roundWithAccuracy_eq_settle]
  apply atLeastOne_settle hcanonical
  · rw [hfloor]
    exact le_roundedFor mantissa exponent .exact
  · rw [hfloor]
    exact roundedFor_le_succ mantissa exponent .exact
  · exact one_le_floor_mul hcanonical (hsteps ▸ hone)

theorem atLeastOne_ofUInt64 {count : UInt64} (hpos : 0 < count.toNat) :
    AtLeastOne count.toFloat.toModel.unpack := by
  have hone : (1 : ℚ) ≤ (count.toNat * 2 ^ extensionFor count.toNat 0 : ℕ) *
      2 ^ (0 - (extensionFor count.toNat 0 : ℤ)) := by
    rw [zero_sub, zpow_neg, zpow_natCast, Nat.cast_mul, Nat.cast_pow, Nat.cast_ofNat,
      mul_inv_cancel_right₀ (pow_ne_zero _ two_ne_zero)]
    exact_mod_cast hpos
  have hrounded := atLeastOne_roundWithAccuracy (enough_extension hpos 0) hone
  rw [← round_eq, ← normalize_natCast hpos 0 .positive] at hrounded
  exact hrounded.unpack_pack

theorem atLeastOne_mul {otherMantissa : Nat} {otherExponent : Int} (hpos : 0 < mantissa)
    (hother : 0 < otherMantissa) (henough : 2 ^ 52 ≤ mantissa * otherMantissa)
    (hone : (1 : ℚ) ≤ mantissa * 2 ^ exponent * (otherMantissa * 2 ^ otherExponent)) :
    AtLeastOne (UnpackedFloat.mul .binary64 (.finite .positive mantissa exponent hpos)
      (.finite .positive otherMantissa otherExponent hother)) := by
  apply atLeastOne_roundWithAccuracy (.inl henough)
  rw [zpow_add₀ two_ne_zero, Nat.cast_mul]
  rwa [mul_mul_mul_comm] at hone

theorem AtLeastOne.mul_unit (hone : AtLeastOne unpacked) :
    AtLeastOne (unpacked.mul .binary64 (.finite .positive (2 ^ 52) (-52) (by decide))) := by
  cases hone with
  | infinity => exact .infinity
  | @finite mantissa exponent hpos hcanonical hone =>
      refine atLeastOne_mul hpos _ (Nat.le_mul_of_pos_left _ hpos) ?_
      have hunit : ((2 ^ 52 : ℕ) : ℚ) * 2 ^ (-52 : ℤ) = 1 := by norm_num
      rwa [hunit, mul_one]

theorem atLeastOne_ofNat {count : Nat} (hpos : 0 < count) :
    AtLeastOne (Float.ofNat count).toModel.unpack := by
  change AtLeastOne (Float.ofScientific count false 0).toModel.unpack
  rw [Float.ofScientific]
  split
  -- A number that a mantissa can hold is multiplied by one.
  · next hshort =>
    have hcount : 0 < count.toUInt64.toNat := by
      rw [Nat.toUInt64, UInt64.toNat_ofNat']
      omega
    have hunit : (Float.ofBits 0x3FF0000000000000).toModel.unpack =
        .finite .positive (2 ^ 52) (-52) (by decide) := rfl
    have hproduct : AtLeastOne (count.toUInt64.toFloat.toModel.unpack.mul .binary64
        (Float.ofBits 0x3FF0000000000000).toModel.unpack) := by
      rw [hunit]
      exact (atLeastOne_ofUInt64 hcount).mul_unit
    exact hproduct.unpack_pack
  · have hpower : (0 : Int) < 2 ^ Format.binary64.exponentBits := by decide
    have hbits : Format.binary64.mantissaBits = 53 := rfl
    have hten : 10 ^ (0 : Int).toNat = 1 := rfl
    have hproduct : AtLeastOne (UnpackedFloat.ofScientific .binary64 count 0) := by
      rw [UnpackedFloat.ofScientific, dif_neg (Nat.ne_of_gt hpos), if_neg (by decide),
        if_neg (by omega), if_pos (by decide)]
      apply atLeastOne_mul
      · rw [hten, Nat.mul_one, Nat.shiftLeft_eq, hbits]
        omega
      · rw [hten, Nat.shiftLeft_eq, hbits, zpow_neg, zpow_natCast, zpow_zero, Nat.cast_mul,
          Nat.cast_pow, Nat.cast_ofNat, mul_inv_cancel_right₀ (pow_ne_zero _ two_ne_zero),
          Nat.cast_one, mul_one, mul_one]
        exact_mod_cast hpos
    exact hproduct.unpack_pack

/-- A quotient by a count is finite exactly if what was divided is. -/
theorem isFinite_div_ofNat_iff {x : Float} {count : Nat} (hpos : 0 < count) :
    (x / Float.ofNat count).isFinite = true ↔ x.isFinite = true := by
  have hcount := atLeastOne_ofNat hpos
  rw [isFinite_div_iff, and_iff_left_iff_imp, value, value]
  intro hfinite
  change (Float.ofNat count).toModel.unpack.isInf = true ∨
    (Float.ofNat count).toModel.unpack.isFinite = true ∧ _
  generalize (Float.ofNat count).toModel.unpack = divisor at hcount ⊢
  cases hcount with
  | infinity => exact .inl rfl
  | @finite mantissa exponent hpositive hcanonical hone =>
      refine .inr ⟨rfl, numberOf_finite_ne_zero _ _ _, ?_⟩
      rw [abs_div, abs_numberOf_finite]
      calc |value x| / (mantissa * 2 ^ exponent) ≤ |value x| := div_le_self (abs_nonneg _) hone
        _ < overflow := abs_value_lt_overflow x

end MetricAlerts.Decimal

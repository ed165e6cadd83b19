import MetricAlerts.Proofs.Decimal.Storage

/-!
# Sums, quotients and roots

What is known about the operands of an operation is followed to its result: that
it is a certain multiple of the least positive double, or at least so many times
as great.  Nothing is lost where the exact result has room in a mantissa, and
nothing positive is lost where the exact result is at least the least positive
double.
-/

namespace MetricAlerts.Decimal

open Float.Model Float.Model.UnpackedFloat

variable {mantissa coefficient power bound : Nat} {exponent : Int} {sign : Sign}
  {value otherValue : Int} {unpacked other : UnpackedFloat}

/-- By how much a mantissa that is too short is made longer. -/
def extensionFor (mantissa : Nat) (exponent : Int) : Nat :=
  (exponent - max (mantissa.log2 + exponent - 52) (-1074)).toNat

theorem round_eq (sign : Sign) (mantissa : Nat) (exponent : Int) :
    UnpackedFloat.round .binary64 sign mantissa exponent =
      roundWithAccuracy .binary64 sign (mantissa * 2 ^ extensionFor mantissa exponent)
        (exponent - extensionFor mantissa exponent) .exact := by
  have htarget : max (totalExponent mantissa exponent - 53) (-1074) =
      max (mantissa.log2 + exponent - 52) (-1074) := by
    rw [totalExponent]
    omega
  delta UnpackedFloat.round
  simp only [targetExponent_eq, htarget, decreaseExponent, Nat.shiftLeft_eq]
  rfl

theorem enough_extension (hpos : 0 < mantissa) (exponent : Int) :
    2 ^ 52 ≤ mantissa * 2 ^ extensionFor mantissa exponent ∨
      exponent - extensionFor mantissa exponent ≤ -1074 := by
  by_cases hbits : 52 ≤ mantissa.log2 + extensionFor mantissa exponent
  · left
    calc 2 ^ 52 ≤ 2 ^ (mantissa.log2 + extensionFor mantissa exponent) :=
          Nat.pow_le_pow_right (by decide) hbits
      _ ≤ mantissa * 2 ^ extensionFor mantissa exponent := by
          rw [Nat.pow_add]
          exact Nat.mul_le_mul_right _ (Nat.log2_self_le (Nat.ne_of_gt hpos))
  · right
    rw [extensionFor] at hbits ⊢
    omega

theorem least_extension (mantissa : Nat) (hleast : -1074 ≤ exponent) :
    -1074 ≤ exponent - extensionFor mantissa exponent := by
  rw [extensionFor]
  omega

theorem units_extension {extension : Nat} (hextended : -1074 ≤ exponent - extension) :
    units (mantissa * 2 ^ extension) (exponent - extension) = units mantissa exponent := by
  rw [← units_shift mantissa hextended, Int.sub_add_cancel]

theorem reaches_round (hleast : -1074 ≤ exponent) (hpos : 0 < bound) (hbound : bound ≤ 2 ^ 53)
    (hvalue : bound ≤ units mantissa exponent) :
    Reaches bound (UnpackedFloat.round .binary64 .positive mantissa exponent) := by
  have hmantissa : 0 < mantissa := Nat.pos_of_mul_pos_right (Nat.lt_of_lt_of_le hpos hvalue)
  have hextended := least_extension mantissa hleast
  rw [round_eq]
  apply reaches_roundWithAccuracy (enough_extension hmantissa exponent) hextended hpos hbound
  rwa [units_extension hextended]

theorem holds_round (sign : Sign) (hleast : -1074 ≤ exponent) (hpos : 0 < mantissa)
    (hvalue : units mantissa exponent = coefficient * 2 ^ power) (hroom : coefficient < 2 ^ 53) :
    Holds (sign.apply (units mantissa exponent))
      (UnpackedFloat.round .binary64 sign mantissa exponent) := by
  have hextended := least_extension mantissa hleast
  rw [← units_extension hextended] at hvalue ⊢
  rw [round_eq]
  exact holds_roundWithAccuracy sign (enough_extension hpos exponent) hextended hvalue hroom

theorem normalize_natCast (hpos : 0 < mantissa) (exponent : Int) (zeroSign : Sign) :
    UnpackedFloat.normalize .binary64 mantissa exponent zeroSign =
      UnpackedFloat.round .binary64 .positive mantissa exponent := by
  have hcompare : compare (mantissa : Int) 0 = .gt := Int.compare_eq_gt.2 (by omega)
  rw [UnpackedFloat.normalize, hcompare]
  rfl

theorem normalize_neg_natCast (hpos : 0 < mantissa) (exponent : Int) (zeroSign : Sign) :
    UnpackedFloat.normalize .binary64 (-mantissa) exponent zeroSign =
      UnpackedFloat.round .binary64 .negative mantissa exponent := by
  have hcompare : compare (-mantissa : Int) 0 = .lt := Int.compare_eq_lt.2 (by omega)
  rw [UnpackedFloat.normalize, hcompare]
  simp only [Int.neg_neg, Int.toNat_natCast]

theorem holds_normalize {total : Int} (zeroSign : Sign) (hleast : -1074 ≤ exponent)
    (hvalue : units total.natAbs exponent = coefficient * 2 ^ power)
    (hroom : coefficient < 2 ^ 53) :
    Holds (total * 2 ^ (exponent + 1074).toNat)
      (UnpackedFloat.normalize .binary64 total exponent zeroSign) := by
  by_cases hzero : total = 0
  · subst hzero
    exact .zero zeroSign (Int.zero_mul _)
  obtain ⟨mantissa, rfl | rfl⟩ := Int.eq_nat_or_neg total
  · have hpos : 0 < mantissa := by omega
    rw [normalize_natCast hpos]
    rw [Int.natAbs_natCast] at hvalue
    simpa [units, Sign.apply] using holds_round .positive hleast hpos hvalue hroom
  · have hpos : 0 < mantissa := by omega
    rw [normalize_neg_natCast hpos]
    rw [Int.natAbs_neg, Int.natAbs_natCast] at hvalue
    simpa [units, Sign.apply, Int.neg_mul] using holds_round .negative hleast hpos hvalue hroom

theorem apply_mul (sign : Sign) (first second : Int) :
    sign.apply (first * second) = sign.apply first * second := by
  cases sign
  · exact (Int.neg_mul first second).symm
  · rfl

/-! ## Sums and differences -/

/-- A mantissa brought to a lesser exponent stands for the same value. -/
theorem units_decreaseExponent {lesser : Int} (hleast : -1074 ≤ lesser) (hle : lesser ≤ exponent) :
    units (decreaseExponent mantissa exponent lesser).1 lesser = units mantissa exponent := by
  have hexponent : exponent - (exponent - lesser).toNat = lesser := by omega
  have hunits : units (mantissa * 2 ^ (exponent - lesser).toNat)
      (exponent - (exponent - lesser).toNat) = units mantissa exponent :=
    units_extension (by omega)
  rw [hexponent] at hunits
  rwa [decreaseExponent, Nat.shiftLeft_eq]

theorem apply_decreaseExponent (sign : Sign) (mantissa : Nat) {lesser : Int}
    (hleast : -1074 ≤ lesser) (hle : lesser ≤ exponent) :
    sign.apply (decreaseExponent mantissa exponent lesser).1 * 2 ^ (lesser + 1074).toNat =
      sign.apply (units mantissa exponent) := by
  rw [← units_decreaseExponent hleast hle, ← apply_mul, units, Int.natCast_mul, Int.natCast_pow]
  rfl

theorem units_natAbs (total : Int) (exponent : Int) :
    units total.natAbs exponent = (total * 2 ^ (exponent + 1074).toNat).natAbs := by
  rw [Int.natAbs_mul, Int.natAbs_pow]
  rfl

theorem Holds.add (hfirst : Holds value unpacked) (hsecond : Holds otherValue other)
    (hvalue : (value + otherValue).natAbs = coefficient * 2 ^ power)
    (hroom : coefficient < 2 ^ 53) :
    Holds (value + otherValue) (unpacked.add .binary64 other) := by
  cases hfirst with
  | zero sign hzero =>
      subst hzero
      rw [Int.zero_add]
      cases hsecond with
      | zero otherSign hzero =>
          simp only [UnpackedFloat.add]
          split <;> exact .zero _ hzero
      | finite otherSign hpos hcanonical hother => exact .finite otherSign hpos hcanonical hother
  | @finite sign mantissa exponent hpos hcanonical hfirst =>
      cases hsecond with
      | zero otherSign hzero =>
          subst hzero
          rw [Int.add_zero]
          exact .finite sign hpos hcanonical hfirst
      | @finite otherSign otherMantissa otherExponent hotherPos hotherCanonical hother =>
          let lesser := min exponent otherExponent
          have hleast : -1074 ≤ lesser := Int.le_min.2 ⟨hcanonical.least, hotherCanonical.least⟩
          let total := sign.apply (decreaseExponent mantissa exponent lesser).1 +
            otherSign.apply (decreaseExponent otherMantissa otherExponent lesser).1
          have htotal : total * 2 ^ (lesser + 1074).toNat = value + otherValue := by
            rw [Int.add_mul, apply_decreaseExponent sign mantissa hleast (Int.min_le_left ..),
              apply_decreaseExponent otherSign otherMantissa hleast (Int.min_le_right ..), hfirst,
              hother]
          have hunits : units total.natAbs lesser = coefficient * 2 ^ power := by
            rw [units_natAbs, htotal, hvalue]
          rw [← htotal]
          exact holds_normalize .positive hleast hunits hroom

theorem apply_units_ne_zero (sign : Sign) (hpos : 0 < mantissa) (exponent : Int) :
    sign.apply (units mantissa exponent) ≠ 0 := by
  intro hzero
  have hunits : 0 < units mantissa exponent := Nat.mul_pos hpos (Nat.two_pow_pos _)
  rw [← natAbs_apply sign (units mantissa exponent), hzero] at hunits
  exact Nat.lt_irrefl 0 hunits

/-- What holds the same value leaves nothing. -/
theorem Holds.sub_self (hfirst : Holds value unpacked) (hsecond : Holds value other) :
    ∃ sign, unpacked.sub .binary64 other = .zero sign := by
  cases hfirst with
  | zero sign hzero =>
      subst hzero
      cases hsecond with
      | zero otherSign hzero =>
          simp only [UnpackedFloat.sub]
          split <;> exact ⟨_, rfl⟩
      | finite otherSign hpos hcanonical hother =>
          exact absurd hother.symm (apply_units_ne_zero otherSign hpos _)
  | @finite sign mantissa exponent hpos hcanonical hfirst =>
      cases hsecond with
      | zero otherSign hzero =>
          exact absurd (hfirst.symm.trans hzero) (apply_units_ne_zero sign hpos _)
      | @finite otherSign otherMantissa otherExponent hotherPos hotherCanonical hother =>
          let lesser := min exponent otherExponent
          have hleast : -1074 ≤ lesser := Int.le_min.2 ⟨hcanonical.least, hotherCanonical.least⟩
          let total := sign.apply (decreaseExponent mantissa exponent lesser).1 -
            otherSign.apply (decreaseExponent otherMantissa otherExponent lesser).1
          have hproduct : total * 2 ^ (lesser + 1074).toNat = 0 := by
            rw [Int.sub_mul, apply_decreaseExponent sign mantissa hleast (Int.min_le_left ..),
              apply_decreaseExponent otherSign otherMantissa hleast (Int.min_le_right ..),
              ← hfirst, ← hother, Int.sub_self]
          have htotal : total = 0 :=
            (Int.mul_eq_zero.1 hproduct).resolve_right (Int.pow_ne_zero (by decide))
          refine ⟨.positive, ?_⟩
          change UnpackedFloat.normalize .binary64 total lesser .positive = _
          rw [htotal]
          rfl

theorem Reaches.add {otherBound : Nat} (hfirst : Reaches bound unpacked)
    (hsecond : Reaches otherBound other) (hpos : 0 < bound + otherBound)
    (hbound : bound + otherBound ≤ 2 ^ 53) :
    Reaches (bound + otherBound) (unpacked.add .binary64 other) := by
  cases hfirst with
  | notANumber => exact .notANumber
  | infinity =>
      cases hsecond with
      | notANumber => exact .notANumber
      | infinity => exact .infinity
      | finite hotherPos hotherCanonical hother => exact .infinity
  | @finite mantissa exponent hpositive hcanonical hfirst =>
      cases hsecond with
      | notANumber => exact .notANumber
      | infinity => exact .infinity
      | @finite otherMantissa otherExponent hotherPositive hotherCanonical hother =>
          let lesser := min exponent otherExponent
          have hleast : -1074 ≤ lesser := Int.le_min.2 ⟨hcanonical.least, hotherCanonical.least⟩
          let total := (decreaseExponent mantissa exponent lesser).1 +
            (decreaseExponent otherMantissa otherExponent lesser).1
          have hunits : units total lesser =
              units mantissa exponent + units otherMantissa otherExponent := by
            rw [← units_decreaseExponent hleast (Int.min_le_left ..),
              ← units_decreaseExponent hleast (Int.min_le_right ..)]
            exact Nat.add_mul ..
          have hvalue : bound + otherBound ≤ units total lesser := by
            rw [hunits]
            exact Nat.add_le_add hfirst hother
          have htotal : 0 < total := Nat.pos_of_mul_pos_right (Nat.lt_of_lt_of_le hpos hvalue)
          have hround := reaches_round hleast hpos hbound hvalue
          rw [← normalize_natCast htotal lesser .positive, Int.natCast_add] at hround
          exact hround

theorem Reaches.zero_add (hreaches : Reaches bound unpacked) (sign : Sign) :
    UnpackedFloat.add .binary64 (.zero sign) unpacked = unpacked := by
  cases hreaches <;> rfl

/-! ## Quotients -/

/-- The exponent of a quotient before it is rounded. -/
def quotientExponent (mantissa : Nat) (exponent : Int) (otherMantissa : Nat)
    (otherExponent : Int) : Int :=
  min (exponent - otherExponent)
    (max (mantissa.log2 + exponent - (otherMantissa.log2 + otherExponent) - 53) (-1074))

/-- What is divided, in multiples of that exponent. -/
def dividend (mantissa : Nat) (exponent : Int) (otherMantissa : Nat) (otherExponent : Int) : Nat :=
  mantissa * 2 ^ (exponent - otherExponent -
    quotientExponent mantissa exponent otherMantissa otherExponent).toNat

theorem div_finite {otherSign : Sign} {otherMantissa : Nat} {otherExponent : Int}
    (hpos : 0 < mantissa) (hother : 0 < otherMantissa) :
    let longer := dividend mantissa exponent otherMantissa otherExponent
    UnpackedFloat.div .binary64 (.finite sign mantissa exponent hpos)
        (.finite otherSign otherMantissa otherExponent hother) =
      roundWithAccuracy .binary64 (sign / otherSign) (longer / otherMantissa)
        (quotientExponent mantissa exponent otherMantissa otherExponent)
        (accuracyOfFraction (longer % otherMantissa) otherMantissa) := by
  intro longer
  have htarget : max (totalExponent mantissa exponent - totalExponent otherMantissa otherExponent -
      53) (-1074) =
      max (mantissa.log2 + exponent - (otherMantissa.log2 + otherExponent) - 53) (-1074) := by
    rw [totalExponent, totalExponent]
    omega
  delta UnpackedFloat.div divCore
  simp only [targetExponent_eq, htarget, Nat.shiftLeft_eq]
  rfl

theorem enough_quotient {otherMantissa : Nat} (hpos : 0 < mantissa) (hother : 0 < otherMantissa)
    (exponent otherExponent : Int) :
    2 ^ 52 ≤ dividend mantissa exponent otherMantissa otherExponent / otherMantissa ∨
      quotientExponent mantissa exponent otherMantissa otherExponent ≤ -1074 := by
  have htarget : quotientExponent mantissa exponent otherMantissa otherExponent =
      min (exponent - otherExponent)
        (max (mantissa.log2 + exponent - (otherMantissa.log2 + otherExponent) - 53) (-1074)) := rfl
  rw [dividend]
  generalize quotientExponent mantissa exponent otherMantissa otherExponent = target at htarget ⊢
  by_cases hleast : target ≤ -1074
  · exact .inr hleast
  · left
    have hbits : 53 + otherMantissa.log2 ≤
        mantissa.log2 + (exponent - otherExponent - target).toNat := by
      omega
    rw [Nat.le_div_iff_mul_le hother]
    calc 2 ^ 52 * otherMantissa ≤ 2 ^ 52 * 2 ^ (otherMantissa.log2 + 1) :=
          Nat.mul_le_mul_left _ (Nat.le_of_lt Nat.lt_log2_self)
      _ = 2 ^ (53 + otherMantissa.log2) := by
          rw [← Nat.pow_add]
          congr 1
          omega
      _ ≤ 2 ^ (mantissa.log2 + (exponent - otherExponent - target).toNat) :=
          Nat.pow_le_pow_right (by decide) hbits
      _ ≤ mantissa * 2 ^ (exponent - otherExponent - target).toNat := by
          rw [Nat.pow_add]
          exact Nat.mul_le_mul_right _ (Nat.log2_self_le (Nat.ne_of_gt hpos))

/-- What is divided stands for the exact quotient by the other power of two. -/
theorem units_dividend_eq (mantissa otherMantissa : Nat) {otherExponent : Int}
    (hleast : -1074 ≤ quotientExponent mantissa exponent otherMantissa otherExponent) :
    units (dividend mantissa exponent otherMantissa otherExponent)
        (quotientExponent mantissa exponent otherMantissa otherExponent) =
      units mantissa (exponent - otherExponent) := by
  have hle : quotientExponent mantissa exponent otherMantissa otherExponent ≤
      exponent - otherExponent := Int.min_le_left ..
  rw [dividend]
  generalize quotientExponent mantissa exponent otherMantissa otherExponent = target at hleast hle
  rw [← units_shift mantissa hleast]
  congr 1
  omega

/-- A double that is a whole number. -/
inductive IsCount (count : Nat) : UnpackedFloat → Prop
  | finite (shift : Nat) (hcount : 0 < count) (hpos : 0 < count * 2 ^ shift) :
      IsCount count (.finite .positive (count * 2 ^ shift) (-shift) hpos)

section Counts

variable {count shift : Nat}

theorem least_quotientExponent (mantissa otherMantissa shift : Nat) (hleast : -1074 ≤ exponent) :
    -1074 ≤ quotientExponent mantissa exponent otherMantissa (-shift) := by
  rw [quotientExponent]
  omega

theorem units_dividend (mantissa otherMantissa shift : Nat) (hleast : -1074 ≤ exponent) :
    units (dividend mantissa exponent otherMantissa (-shift))
        (quotientExponent mantissa exponent otherMantissa (-shift)) =
      units mantissa exponent * 2 ^ shift := by
  rw [units_dividend_eq _ _ (least_quotientExponent mantissa otherMantissa shift hleast),
    Int.sub_neg, units_add mantissa hleast]

theorem Reaches.div (hreaches : Reaches count unpacked) (hcount : IsCount count other) :
    Reaches 1 (unpacked.div .binary64 other) := by
  cases hcount with
  | finite shift hcount hdivisor =>
      cases hreaches with
      | notANumber => exact .notANumber
      | infinity => exact .infinity
      | @finite mantissa exponent hpos hcanonical hbound =>
          have henough := enough_quotient hpos hdivisor exponent (-shift)
          have hleast := least_quotientExponent mantissa (count * 2 ^ shift) shift hcanonical.least
          have hunits := units_dividend mantissa (count * 2 ^ shift) shift hcanonical.least
          have hquotient : 0 < dividend mantissa exponent (count * 2 ^ shift) (-shift) /
              (count * 2 ^ shift) := by
            obtain hfull | htarget := henough
            · omega
            · -- At the least exponent, the quotient counts the least double.
              rw [Int.le_antisymm htarget hleast] at hunits
              apply Nat.div_pos _ hdivisor
              rw [units, Int.add_left_neg, Int.toNat_zero, Nat.pow_zero, Nat.mul_one] at hunits
              rw [hunits]
              exact Nat.mul_le_mul_right _ hbound
          rw [div_finite hpos hdivisor]
          exact reaches_roundWithAccuracy henough hleast (by decide) (by decide)
            (Nat.mul_pos hquotient (Nat.two_pow_pos _))

/-- A quotient with room in a mantissa is a multiple of the power of two of its
exponent. -/
theorem exists_eq_mul_of_quotient {target : Int} {longer divisor quotient : Nat}
    (hleast : -1074 ≤ target) (henough : 2 ^ 52 ≤ longer / divisor ∨ target ≤ -1074)
    (hdivisor : 0 < divisor) (hunits : units longer target = quotient * divisor)
    (hvalue : quotient = coefficient * 2 ^ power) (hroom : coefficient < 2 ^ 53) :
    ∃ shorter, longer = shorter * divisor ∧ units shorter target = quotient := by
  have hdvd : 2 ^ (target + 1074).toNat ∣ quotient := by
    obtain hfull | htarget := henough
    · have hlt : 2 ^ (52 + (target + 1074).toNat) < 2 ^ (53 + power) := by
        apply Nat.lt_of_mul_lt_mul_right (a := divisor)
        calc 2 ^ (52 + (target + 1074).toNat) * divisor
            = 2 ^ 52 * divisor * 2 ^ (target + 1074).toNat := by
              rw [Nat.pow_add, Nat.mul_right_comm]
          _ ≤ units longer target :=
              Nat.mul_le_mul_right _ ((Nat.le_div_iff_mul_le hdivisor).1 hfull)
          _ = coefficient * 2 ^ power * divisor := by rw [hunits, hvalue]
          _ < 2 ^ (53 + power) * divisor := by
              rw [Nat.pow_add]
              exact Nat.mul_lt_mul_of_pos_right
                (Nat.mul_lt_mul_of_pos_right hroom (Nat.two_pow_pos power)) hdivisor
      have hle : (target + 1074).toNat ≤ power := by
        have := (Nat.pow_lt_pow_iff_right (by decide)).1 hlt
        omega
      rw [hvalue]
      exact Nat.dvd_mul_left_of_dvd (Nat.pow_dvd_pow 2 hle) coefficient
    · rw [Int.le_antisymm htarget hleast]
      exact Nat.one_dvd quotient
  obtain ⟨shorter, hshorter⟩ := hdvd
  refine ⟨shorter, ?_, ?_⟩
  · apply Nat.eq_of_mul_eq_mul_right (Nat.two_pow_pos (target + 1074).toNat)
    calc longer * 2 ^ (target + 1074).toNat = quotient * divisor := hunits
      _ = shorter * divisor * 2 ^ (target + 1074).toNat := by
          rw [hshorter, Nat.mul_comm _ shorter, Nat.mul_right_comm]
  · rw [units, Nat.mul_comm, ← hshorter]

theorem div_positive (sign : Sign) : sign / .positive = sign := by
  cases sign <;> rfl

/-- A quotient with room in a mantissa comes out as it is. -/
theorem holds_div_finite {otherMantissa quotient : Nat} {otherExponent : Int} (sign : Sign)
    (hpos : 0 < mantissa) (hdivisor : 0 < otherMantissa)
    (hleast : -1074 ≤ quotientExponent mantissa exponent otherMantissa otherExponent)
    (hunits : units (dividend mantissa exponent otherMantissa otherExponent)
        (quotientExponent mantissa exponent otherMantissa otherExponent) =
      quotient * otherMantissa)
    (hvalue : quotient = coefficient * 2 ^ power) (hroom : coefficient < 2 ^ 53) :
    Holds (sign.apply quotient) (UnpackedFloat.div .binary64 (.finite sign mantissa exponent hpos)
      (.finite .positive otherMantissa otherExponent hdivisor)) := by
  have henough := enough_quotient hpos hdivisor exponent otherExponent
  obtain ⟨shorter, hshorter, hshort⟩ :=
    exists_eq_mul_of_quotient hleast henough hdivisor hunits hvalue hroom
  rw [hshorter, Nat.mul_div_cancel _ hdivisor] at henough
  rw [div_finite hpos hdivisor, hshorter, Nat.mul_div_cancel _ hdivisor, Nat.mul_mod_left,
    div_positive, ← hshort]
  exact holds_roundWithAccuracy sign henough hleast (hshort.trans hvalue) hroom

theorem Holds.div (hholds : Holds (count * value) unpacked) (hcount : IsCount count other)
    (hvalue : value.natAbs = coefficient * 2 ^ power) (hroom : coefficient < 2 ^ 53) :
    Holds value (unpacked.div .binary64 other) := by
  cases hcount with
  | finite shift hcount hdivisor =>
      cases hholds with
      | zero sign hzero =>
          have hvalue : value = 0 := (Int.mul_eq_zero.1 hzero).resolve_left (by omega)
          exact .zero _ hvalue
      | @finite sign mantissa exponent hpos hcanonical hproduct =>
          have hleast := least_quotientExponent mantissa (count * 2 ^ shift) shift hcanonical.least
          have habs : units mantissa exponent = count * value.natAbs := by
            rw [← natAbs_apply sign (units mantissa exponent), ← hproduct, Int.natAbs_mul]
            rfl
          have hunits : units (dividend mantissa exponent (count * 2 ^ shift) (-shift))
              (quotientExponent mantissa exponent (count * 2 ^ shift) (-shift)) =
              value.natAbs * (count * 2 ^ shift) := by
            rw [units_dividend _ _ _ hcanonical.least, habs, Nat.mul_comm count, Nat.mul_assoc]
          have hsign : value = sign.apply value.natAbs := by
            apply Int.eq_of_mul_eq_mul_left (a := count) (by omega)
            rw [hproduct, habs, Int.natCast_mul, Int.mul_comm, apply_mul, Int.mul_comm]
          rw [hsign]
          exact holds_div_finite sign hpos hdivisor hleast hunits hvalue hroom

end Counts

/-- A square is zero or positive. -/
theorem mul_self_eq_zero_or_reaches (unpacked : UnpackedFloat)
    (hcanonical : ∀ sign mantissa exponent hpos,
      unpacked = .finite sign mantissa exponent hpos → IsCanonical mantissa exponent) :
    unpacked.mul .binary64 unpacked = .zero .positive ∨
      Reaches 1 (unpacked.mul .binary64 unpacked) := by
  cases unpacked with
  | notANumber => exact .inr .notANumber
  | infinity sign => cases sign <;> exact .inr .infinity
  | zero sign => cases sign <;> exact .inl rfl
  | finite sign mantissa exponent hpos =>
      obtain ⟨hleast, -, hfull⟩ := hcanonical sign mantissa exponent hpos rfl
      have henough : 2 ^ 52 ≤ mantissa * mantissa ∨ exponent + exponent ≤ -1074 := by
        obtain hfull | hsubnormal := hfull
        · exact .inl (Nat.le_trans hfull (Nat.le_mul_of_pos_left mantissa hpos))
        · right
          omega
      have hsign : sign * sign = .positive := by
        cases sign <;> rfl
      simp only [UnpackedFloat.mul, hsign]
      exact roundWithAccuracy_eq_zero_or_reaches henough

/-- The exponent of a root before it is rounded. -/
def rootExponent (mantissa : Nat) (exponent : Int) : Int :=
  min (exponent / 2) (max ((mantissa.log2 + exponent + 2) / 2 - 53) (-1074))

/-- What the root is taken of, in multiples of the square of that exponent. -/
def radicand (mantissa : Nat) (exponent : Int) : Nat :=
  mantissa * 2 ^ (exponent - 2 * rootExponent mantissa exponent).toNat

theorem sqrt_finite (hpos : 0 < mantissa) (exponent : Int) : ∃ accuracy,
    UnpackedFloat.sqrt .binary64 (.finite .positive mantissa exponent hpos) =
      roundWithAccuracy .binary64 .positive (Nat.sqrt (radicand mantissa exponent))
        (rootExponent mantissa exponent) accuracy := by
  have htotal : totalExponent mantissa exponent + 1 = mantissa.log2 + exponent + 2 := by
    rw [totalExponent]
    omega
  delta UnpackedFloat.sqrt sqrtCore
  simp only [targetExponent_eq, htotal, Nat.shiftLeft_eq]
  exact ⟨_, rfl⟩

theorem enough_root (hpos : 0 < mantissa) (exponent : Int) :
    2 ^ 52 ≤ Nat.sqrt (radicand mantissa exponent) ∨ rootExponent mantissa exponent ≤ -1074 := by
  have htarget : rootExponent mantissa exponent =
      min (exponent / 2) (max ((mantissa.log2 + exponent + 2) / 2 - 53) (-1074)) := rfl
  rw [radicand]
  generalize rootExponent mantissa exponent = target at htarget ⊢
  by_cases hleast : target ≤ -1074
  · exact .inr hleast
  · left
    have hbits : 52 + 52 ≤ mantissa.log2 + (exponent - 2 * target).toNat := by
      omega
    rw [Nat.le_sqrt]
    calc 2 ^ 52 * 2 ^ 52 = 2 ^ (52 + 52) := (Nat.pow_add 2 52 52).symm
      _ ≤ 2 ^ (mantissa.log2 + (exponent - 2 * target).toNat) :=
          Nat.pow_le_pow_right (by decide) hbits
      _ ≤ mantissa * 2 ^ (exponent - 2 * target).toNat := by
          rw [Nat.pow_add]
          exact Nat.mul_le_mul_right _ (Nat.log2_self_le (Nat.ne_of_gt hpos))

theorem Reaches.sqrt (hreaches : Reaches 1 unpacked) : Reaches 1 (unpacked.sqrt .binary64) := by
  cases hreaches with
  | notANumber => exact .notANumber
  | infinity => exact .infinity
  | @finite mantissa exponent hpos hcanonical hbound =>
      obtain ⟨accuracy, hsqrt⟩ := sqrt_finite hpos exponent
      have hleast : -1074 ≤ rootExponent mantissa exponent := by
        have hexponent := hcanonical.least
        rw [rootExponent]
        omega
      have hroot : 0 < Nat.sqrt (radicand mantissa exponent) :=
        Nat.sqrt_pos.2 (Nat.mul_pos hpos (Nat.two_pow_pos _))
      rw [hsqrt]
      exact reaches_roundWithAccuracy (enough_root hpos exponent) hleast (by decide) (by decide)
        (Nat.mul_pos hroot (Nat.two_pow_pos _))

end MetricAlerts.Decimal

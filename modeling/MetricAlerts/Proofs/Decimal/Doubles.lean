import MetricAlerts.Proofs.Decimal.Arithmetic

/-!
# Facts about doubles

The results about stored values, said of doubles as programs handle them: what
compares equal, what a double stands for, and what becomes of many of them that
are added up.
-/

namespace MetricAlerts.Decimal

open Float.Model Float.Model.UnpackedFloat

variable {x y : Float} {value : Int} {bound coefficient power : Nat}

theorem holds_zero_iff {unpacked : UnpackedFloat} :
    Holds 0 unpacked ↔ ∃ sign, unpacked = .zero sign := by
  constructor
  · intro hholds
    cases hholds with
    | zero sign => exact ⟨sign, rfl⟩
    | finite sign hpos hcanonical hvalue =>
        exact absurd hvalue.symm (apply_units_ne_zero sign hpos _)
  · rintro ⟨sign, rfl⟩
    exact .zero sign rfl

/-- Both zeros compare equal to zero, and nothing else does. -/
theorem beq_zero_iff : (x == 0.0) = true ↔ Holds 0 x.toModel.unpack := by
  have hbeq : (x == 0.0) = (x.toModel.unpack.compare (.zero .positive) == some .eq) := rfl
  rw [hbeq, holds_zero_iff]
  cases x.toModel.unpack with
  | notANumber => simp [UnpackedFloat.compare]
  | infinity sign => cases sign <;> simp [UnpackedFloat.compare]
  | zero sign => simp [UnpackedFloat.compare]
  | finite sign mantissa exponent hpos => cases sign <;> simp [UnpackedFloat.compare]

theorem beq_zero_of_reaches (hreaches : Reaches bound x.toModel.unpack) : (x == 0.0) = false := by
  apply Bool.eq_false_iff.2
  intro hzero
  obtain ⟨sign, hsign⟩ := holds_zero_iff.1 (beq_zero_iff.1 hzero)
  rw [hsign] at hreaches
  cases hreaches

/-- What compares equal is stored alike, but for the sign of zero. -/
theorem unpack_eq_of_beq (hbeq : (x == y) = true) :
    x.toModel.unpack = y.toModel.unpack ∨
      Holds 0 x.toModel.unpack ∧ Holds 0 y.toModel.unpack := by
  change x.toModel.unpack.beq y.toModel.unpack = true at hbeq
  rw [beq_iff_ne_notANumber_and_eq] at hbeq
  obtain ⟨-, -, hsame | ⟨hx, hy⟩ | ⟨hx, hy⟩⟩ := hbeq
  · exact .inl hsame
  · rw [hx, hy]
    exact .inr ⟨.zero .positive rfl, .zero .negative rfl⟩
  · rw [hx, hy]
    exact .inr ⟨.zero .negative rfl, .zero .positive rfl⟩

theorem Holds.of_beq (hholds : Holds value y.toModel.unpack) (hbeq : (x == y) = true) :
    Holds value x.toModel.unpack := by
  obtain hsame | ⟨hx, hy⟩ := unpack_eq_of_beq hbeq
  · rwa [hsame]
  · obtain ⟨sign, hsign⟩ := holds_zero_iff.1 hy
    rw [hsign] at hholds
    cases hholds with
    | zero sign hvalue => rwa [hvalue]

theorem toNat_unpackMantissa (bits : BitVec 64) :
    (@unpackMantissa Format.binary64 bits).toNat = bits.toNat % leastNormal := by
  rw [unpackMantissa, BitVec.toNat_cast, BitVec.extractLsb_toNat]
  rfl

/-- The parts of a finite double make up its value. -/
theorem exists_holds_of_parts {negative : Bool} {mantissa : Nat} {exponent : Int}
    (hparts : parts x = .finite negative mantissa exponent) :
    mantissa < 2 ^ 53 ∧ -1074 ≤ exponent ∧
      ∃ sign : Sign, Holds (sign.apply (units mantissa exponent)) x.toModel.unpack := by
  let bits : BitVec 64 := x.toBits.toBitVec
  let sign : Sign := .ofBitVec (@unpackSign .binary64 bits)
  have hexponent : (@unpackExponent .binary64 bits).toNat =
      x.toBits.toNat / leastNormal % 2048 := toNat_unpackExponent bits
  have hmantissa : (@unpackMantissa .binary64 bits).toNat = x.toBits.toNat % leastNormal :=
    toNat_unpackMantissa bits
  have hshort : (@unpackMantissa .binary64 bits).toNat < 2 ^ 52 := BitVec.isLt _
  have hunpack : x.toModel.unpack = UnpackedFloat.unpack .binary64 bits := rfl
  simp only [parts, ← hexponent, ← hmantissa] at hparts
  split at hparts
  · split at hparts <;> cases hparts
  · split at hparts
    · next hsmall =>
        cases hparts
        have hfield : @unpackExponent .binary64 bits = 0#11 := BitVec.eq_of_toNat_eq hsmall
        refine ⟨by omega, by decide, sign, ?_⟩
        rw [hunpack]
        by_cases hzero : (@unpackMantissa .binary64 bits).toNat = 0
        · rw [unpack_zero hfield (BitVec.eq_of_toNat_eq hzero), hzero, units, Nat.zero_mul]
          apply Holds.zero
          cases sign <;> rfl
        · rw [unpack_subnormal hfield (Nat.pos_of_ne_zero hzero)]
          exact .finite sign _ ⟨by decide, by omega, .inr rfl⟩ rfl
    · next hlast hlarge =>
        cases hparts
        have hleast : leastNormal = 2 ^ 52 := rfl
        refine ⟨by omega, by omega, sign, ?_⟩
        rw [hunpack, unpack_normal (by omega) (by omega)]
        exact .finite sign _ ⟨by omega, by omega, .inl (Nat.le_add_right ..)⟩ rfl

/-- A square is zero or positive. -/
theorem holds_zero_or_reaches_mul_self (x : Float) :
    Holds 0 (x * x).toModel.unpack ∨ Reaches 1 (x * x).toModel.unpack := by
  have hsquare := mul_self_eq_zero_or_reaches x.toModel.unpack
    fun _ _ _ _ hunpack => (stored_of_unpack hunpack).1
  obtain hzero | hreaches := hsquare
  · left
    change Holds 0 (pack (x.toModel.unpack.mul _ x.toModel.unpack)).unpack
    rw [hzero]
    exact .zero .positive rfl
  · exact .inr hreaches.unpack_pack

/-- Whether a double is stored as a whole number with a full mantissa. -/
def isStoredCount (count : Nat) : UnpackedFloat → Bool
  | .finite .positive mantissa exponent _ =>
      mantissa == count * 2 ^ (52 - count.log2) && exponent == -(52 - count.log2 : Nat)
  | _ => false

theorem isCount_ofNat {count : Nat} (hpos : 0 < count) (hfew : count < 28) :
    IsCount count (Float.ofNat count).toModel.unpack := by
  have hall : ∀ few < 28, 0 < few → isStoredCount few (Float.ofNat few).toModel.unpack = true := by
    decide +kernel
  have hstored := hall count hfew hpos
  generalize (Float.ofNat count).toModel.unpack = unpacked at hstored
  unfold isStoredCount at hstored
  split at hstored
  · next mantissa exponent hmantissa =>
      rw [Bool.and_eq_true, beq_iff_eq, beq_iff_eq] at hstored
      obtain ⟨rfl, rfl⟩ := hstored
      exact .finite _ hpos hmantissa
  · cases hstored

end MetricAlerts.Decimal

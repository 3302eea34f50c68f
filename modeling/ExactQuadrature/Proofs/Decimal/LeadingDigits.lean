import ExactQuadrature.Proofs.Decimal.Alike
import ExactQuadrature.Proofs.Decimal.HalfAway

/-! # Quotients cut off before they are rounded

The leading digits of a quotient are its whole multiples of some power of ten, with the rest cut off
(`Decimal.coefficient_leadingQuotient`). Rounding half away from zero changes over from one unit to
the next at a half, which is a whole multiple of a tenth of the unit, so that nothing behind the
first place past the scale has a say in it (`floor_cut`). A quotient that is cut off there or later
and then rounded is therefore the exact quotient rounded once (`Decimal.toScale_leadingQuotient`).
-/

namespace ExactQuadrature

/-- **Cutting before rounding.** A number that is cut off at least one place past the scale is
rounded as before. -/
theorem floor_cut (x : ℚ) {scale cut : Int} (finer : scale < cut) :
    ⌊(⌊x * (10 : ℚ) ^ cut⌋ : ℚ) * (10 : ℚ) ^ (-cut) * (10 : ℚ) ^ scale + 1 / 2⌋ =
      ⌊x * (10 : ℚ) ^ scale + 1 / 2⌋ := by
  obtain ⟨more, rfl⟩ : ∃ more : Nat, cut = scale + (more + 1 : Nat) :=
    ⟨(cut - scale - 1).toNat, by omega⟩
  have uncut :
      (10 : ℚ) ^ (-(scale + (more + 1 : Nat))) * (10 : ℚ) ^ (scale + (more + 1 : Nat)) = 1 := by
    rw [← zpow_ten_add, neg_add_cancel, zpow_zero]
  refine eq_of_forall_le_iff fun units => ?_
  rw [Int.le_floor, Int.le_floor]
  -- The half below so many units is a whole number at the cut, and that is not moved by cutting.
  have reached : ∀ y : ℚ, (units : ℚ) ≤ y * (10 : ℚ) ^ scale + 1 / 2 ↔
      (((2 * units - 1) * 5 * tenPow more : Int) : ℚ) ≤
          y * (10 : ℚ) ^ (scale + (more + 1 : Nat)) := by
    intro y
    have half : (((2 * units - 1) * 5 * tenPow more : Int) : ℚ) =
        (units - 1 / 2) * (10 : ℚ) ^ ((more + 1 : Nat) : Int) := by
      rw [zpow_natCast, pow_succ]
      push_cast
      rw [cast_tenPow]
      ring
    rw [half, zpow_ten_add, ← mul_assoc, mul_le_mul_iff_left₀ (zpow_ten_pos _), sub_le_iff_le_add]
  rw [reached, reached, mul_assoc (⌊x * _⌋ : ℚ), uncut, mul_one, Int.cast_le, Int.le_floor]

namespace Decimal

variable {a b : Decimal}

/-- The leading digits are the quotient cut off at the place that their exponent gives. -/
theorem coefficient_leadingQuotient (a b : Decimal) (digits : Nat) :
    (((a.leadingQuotient b digits).coefficient : Nat) : Int) =
      ⌊|a.value| / |b.value| * (10 : ℚ) ^ (-(a.leadingQuotient b digits).exponent)⌋ := by
  unfold leadingQuotient
  dsimp only
  split
  · next zero =>
    rw [(value_eq_zero_iff a).mpr zero, abs_zero, zero_div, zero_mul, Int.floor_zero,
      Int.natCast_zero]
  · generalize (digits : Int) + digitCount b.coefficient - digitCount a.coefficient = places
    generalize digitCount _ - digits = surplus
    dsimp only
    rw [Nat.div_div_eq_div_mul, Int.natCast_div, ← Rat.floor_natCast_div_natCast, abs_value,
      abs_value]
    congr 1
    push_cast
    rw [mul_assoc (b.coefficient : ℚ), mul_div_mul_comm, ← div_div, cast_tenPow_toNat_div,
      mul_div_mul_comm, ← zpow_sub₀ (by norm_num), cast_tenPow, ← zpow_natCast, mul_assoc,
      ← zpow_sub₀ (by norm_num), ← zpow_ten_add]
    congr 2
    ring

/-- The place at which a quotient is cut off lies behind the wanted digits. -/
theorem exponent_leadingQuotient_le (some_value : a.isZero = false) (nonzero : b.value ≠ 0)
    (digits : Nat) :
    (a.leadingQuotient b digits).exponent ≤ a.adjusted - b.adjusted + 1 - digits := by
  simp only [leadingQuotient, some_value, Bool.false_eq_true, ↓reduceIte]
  have counted := (coefficient_ne_zero_iff b).mpr nonzero
  have divisor := digitCount_pos b.coefficient
  generalize shape : (digits : Int) + digitCount b.coefficient - digitCount a.coefficient = places
  have within : a.coefficient * tenPow places.toNat / (b.coefficient * tenPow (-places).toNat) <
      tenPow (digits + 1) := by
    rw [Nat.div_lt_iff_lt_mul (Nat.mul_pos (Nat.pos_of_ne_zero counted) (tenPow_pos _))]
    calc a.coefficient * tenPow places.toNat
        < tenPow (digitCount a.coefficient) * tenPow places.toNat :=
          Nat.mul_lt_mul_of_pos_right (lt_tenPow_digitCount _) (tenPow_pos _)
      _ = tenPow (digits + 1) *
        (tenPow (digitCount b.coefficient - 1) * tenPow (-places).toNat) := by
          rw [← tenPow_add, ← tenPow_add, ← tenPow_add]
          congr 1
          omega
      _ ≤ tenPow (digits + 1) * (b.coefficient * tenPow (-places).toNat) :=
          Nat.mul_le_mul_left _ (Nat.mul_le_mul_right _ (tenPow_le_of_ne_zero counted))
  have surplus := (digitCount_le_iff (Nat.succ_pos digits)).mpr within
  unfold adjusted
  omega

/-- **Quotients are rounded once.** A quotient cut off behind enough digits and then rounded is the
exact quotient rounded. -/
theorem toScale_leadingQuotient (nonzero : b.value ≠ 0) {digits : Nat} {scale : Int}
    (enough : a.adjusted - b.adjusted + scale + 2 ≤ digits) :
    (a.leadingQuotient b digits).toScale scale = a.quotient b scale := by
  have one_value : one.value ≠ 0 := by rw [value_one]; exact one_ne_zero
  have units : quotientUnits (a.leadingQuotient b digits) one scale = quotientUnits a b scale := by
    cases zero : a.isZero with
    | true =>
      have also : (a.leadingQuotient b digits).isZero = true := by
        simp only [leadingQuotient, if_pos zero]
        rfl
      simp only [quotientUnits, zero, also, Bool.true_or, ↓reduceIte]
    | false =>
      have finer := exponent_leadingQuotient_le zero nonzero digits
      have cut := floor_cut (|a.value| / |b.value|)
        (by omega : scale < -(a.leadingQuotient b digits).exponent)
      have leading := coefficient_leadingQuotient a b digits
      rw [← Int.natCast_inj, quotientUnits_eq_floor _ _ _ one_value,
        quotientUnits_eq_floor _ _ _ nonzero, value_one, abs_one, div_one, abs_value, ← cut,
        ← leading, neg_neg, Int.cast_natCast]
  have sign : (a.leadingQuotient b digits).negative = (a.negative != b.negative) := by
    unfold leadingQuotient
    dsimp only
    split <;> rfl
  have positive : one.negative = false := rfl
  simp only [toScale, quotient, units, sign, positive, Bool.bne_false]

/-- The decimal that a rational number is rounded to at a scale. -/
structure IsRounded (scale : Int) (x : ℚ) (d : Decimal) : Prop where
  value : d.value = roundHalfAway scale x
  unit : d.exponent = -scale
  unsigned : d.UnsignedZero

/-- The quotient is the exact one, rounded at the scale. -/
theorem isRounded_quotient (nonzero : b.value ≠ 0) (scale : Int) :
    (a.quotient b scale).IsRounded scale (a.value / b.value) :=
  ⟨value_quotient a b scale nonzero, rfl, quotient_unsigned_zero a b scale⟩

/-- A number is rounded to one decimal only. -/
theorem IsRounded.unique {scale : Int} {x : ℚ} {d e : Decimal} (first : d.IsRounded scale x)
    (second : e.IsRounded scale x) : d = e := by
  have alike : d.Alike e :=
    ⟨first.value.trans second.value.symm, first.unit.trans second.unit.symm⟩
  exact alike.eq_of_unsigned first.unsigned second.unsigned

end Decimal

end ExactQuadrature

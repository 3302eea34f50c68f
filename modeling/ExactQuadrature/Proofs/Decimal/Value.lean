import ExactQuadrature.Decimal.Order
import Mathlib.Data.Rat.Floor
import Mathlib.Tactic.FieldSimp
import Mathlib.Tactic.Linarith
import Mathlib.Tactic.Positivity
import Mathlib.Tactic.Ring

/-! # Decimals as rational numbers

`Decimal.value` turns exact sums, differences and products into those of rational numbers, and
the order of decimals into the order of rational numbers. The leading digit of a nonzero decimal
places its magnitude between two powers of ten (`Decimal.zpow_adjusted_le` and
`Decimal.abs_value_lt_zpow`).
-/

namespace ExactQuadrature

/-- The powers of ten as rational numbers. -/
theorem cast_tenPow (k : Nat) : ((tenPow k : Nat) : ℚ) = (10 : ℚ) ^ k := by
  change ((10 ^ k : Nat) : ℚ) = _
  push_cast
  rfl

theorem cast_tenPow_toNat {k : Int} (nonneg : 0 ≤ k) :
    ((tenPow k.toNat : Nat) : ℚ) = (10 : ℚ) ^ k := by
  rw [cast_tenPow, ← zpow_natCast, Int.toNat_of_nonneg nonneg]

/-- A power of ten is a quotient of two natural ones, one of which is `1`. -/
theorem cast_tenPow_toNat_div (k : Int) :
    ((tenPow k.toNat : Nat) : ℚ) / ((tenPow (-k).toNat : Nat) : ℚ) = (10 : ℚ) ^ k := by
  rw [cast_tenPow, cast_tenPow, ← zpow_natCast, ← zpow_natCast, ← zpow_sub₀ (by norm_num)]
  congr 1
  omega

theorem zpow_ten_pos (k : Int) : (0 : ℚ) < 10 ^ k := zpow_pos (by norm_num) k

theorem zpow_ten_add (k l : Int) : (10 : ℚ) ^ (k + l) = 10 ^ k * 10 ^ l :=
  zpow_add₀ (by norm_num) k l

theorem zpow_ten_lt {k l : Int} : (10 : ℚ) ^ k < 10 ^ l ↔ k < l :=
  zpow_lt_zpow_iff_right₀ (by norm_num)

theorem zpow_ten_le {k l : Int} : (10 : ℚ) ^ k ≤ 10 ^ l ↔ k ≤ l :=
  zpow_le_zpow_iff_right₀ (by norm_num)

namespace Decimal

theorem value_eq (d : Decimal) : d.value = (d.significand : ℚ) * (10 : ℚ) ^ d.exponent := rfl

/-- The value is the number of units times the unit, for every unit that is no coarser. -/
theorem value_eq_unitsAt (d : Decimal) {exponent : Int} (finer : exponent ≤ d.exponent) :
    d.value = (d.unitsAt exponent : ℚ) * (10 : ℚ) ^ exponent := by
  have split : d.exponent = (d.exponent - exponent) + exponent := by ring
  rw [value_eq, unitsAt_eq_mul, Int.cast_mul, Int.cast_natCast,
    cast_tenPow_toNat (sub_nonneg.mpr finer)]
  conv_lhs => rw [split, zpow_ten_add]
  ring

@[simp] theorem value_zero : zero.value = 0 := by
  rw [value_eq]
  simp [zero, significand]

@[simp] theorem value_one : one.value = 1 := by
  rw [value_eq]
  simp [one, significand]

/-- A whole number keeps its value. -/
theorem value_ofInt (n : Int) : (ofInt n).value = n := by
  rw [value_eq]
  unfold ofInt
  rw [significand_ofSignificand, exponent_ofSignificand, zpow_zero, mul_one]

/-- Negating a decimal negates its value. -/
@[simp] theorem value_negate (d : Decimal) : d.negate.value = -d.value := by
  rw [value_eq, value_eq, significand_negate]
  change ((-d.significand : Int) : ℚ) * 10 ^ d.exponent = _
  push_cast
  ring

/-- Decimals are added exactly. -/
@[simp] theorem value_add (a b : Decimal) : (a.add b).value = a.value + b.value := by
  rw [value_eq_unitsAt a (min_le_left a.exponent b.exponent),
    value_eq_unitsAt b (min_le_right a.exponent b.exponent), value_eq, significand_add,
    exponent_add, Int.cast_add]
  ring

/-- Decimals are subtracted exactly. -/
@[simp] theorem value_sub (a b : Decimal) : (a.sub b).value = a.value - b.value := by
  unfold sub
  rw [value_add, value_negate, sub_eq_add_neg]

/-- Decimals are multiplied exactly. -/
@[simp] theorem value_mul (a b : Decimal) : (a.mul b).value = a.value * b.value := by
  rw [value_eq, value_eq, value_eq, significand_mul, exponent_mul, zpow_ten_add, Int.cast_mul]
  ring

/-- A decimal is a zero just if its value is. -/
theorem value_eq_zero_iff (d : Decimal) : d.value = 0 ↔ d.isZero = true := by
  rw [isZero_iff, value_eq, mul_eq_zero, Int.cast_eq_zero]
  exact or_iff_left (ne_of_gt (zpow_ten_pos _))

theorem value_ne_zero_iff (d : Decimal) : d.value ≠ 0 ↔ d.isZero = false := by
  rw [Ne, value_eq_zero_iff, Bool.not_eq_true]

/-- The size of the value is the coefficient times the unit. -/
theorem abs_value (d : Decimal) : |d.value| = (d.coefficient : ℚ) * (10 : ℚ) ^ d.exponent := by
  rw [value_eq, abs_mul, abs_of_pos (zpow_ten_pos _)]
  congr 1
  unfold significand
  cases d.negative <;> simp

theorem isZero_ofInt {n : Int} (nonzero : n ≠ 0) : (ofInt n).isZero = false := by
  rw [← value_ne_zero_iff, value_ofInt]
  exact_mod_cast nonzero

/-- The leading digit of a whole number is not behind the point. -/
theorem adjusted_ofInt_nonneg (n : Int) : 0 ≤ (ofInt n).adjusted := by
  have counted := digitCount_pos (ofInt n).coefficient
  have whole : (ofInt n).exponent = 0 := rfl
  unfold adjusted
  omega

/-- The order of decimals is that of their values. -/
theorem lessThan_iff_value (a b : Decimal) : a.lessThan b = true ↔ a.value < b.value := by
  rw [lessThan_iff a b (min_le_left a.exponent b.exponent) (min_le_right a.exponent b.exponent),
    value_eq_unitsAt a (min_le_left a.exponent b.exponent),
    value_eq_unitsAt b (min_le_right a.exponent b.exponent),
    mul_lt_mul_iff_left₀ (zpow_ten_pos _), Int.cast_lt]

/-- Decimals compare equal just if their values are the same. -/
theorem sameValue_iff_value (a b : Decimal) : a.sameValue b = true ↔ a.value = b.value := by
  unfold sameValue
  rw [order_eq a b (min_le_left a.exponent b.exponent) (min_le_right a.exponent b.exponent),
    beq_iff_eq, Int.compare_eq_eq, value_eq_unitsAt a (min_le_left a.exponent b.exponent),
    value_eq_unitsAt b (min_le_right a.exponent b.exponent)]
  constructor
  · intro same
    rw [same]
  · intro same
    exact_mod_cast mul_right_cancel₀ (ne_of_gt (zpow_ten_pos _)) same

/-- The sign of a nonzero decimal is the sign of its value. -/
theorem negative_iff_value {d : Decimal} (nonzero : d.value ≠ 0) :
    d.negative = true ↔ d.value < 0 := by
  have counted : d.coefficient ≠ 0 := by
    intro none
    refine nonzero ((value_eq_zero_iff d).mpr ?_)
    simp only [isZero, none, beq_self_eq_true]
  have above : (0 : ℚ) < d.coefficient * (10 : ℚ) ^ d.exponent :=
    mul_pos (by exact_mod_cast Nat.pos_of_ne_zero counted) (zpow_ten_pos _)
  rw [value_eq]
  unfold significand
  cases d.negative
  · simp only [Bool.false_eq_true, ↓reduceIte, Int.cast_natCast, false_iff, not_lt]
    exact above.le
  · simp only [↓reduceIte, Int.cast_neg, Int.cast_natCast, true_iff]
    linarith

/-- A value below zero carries a sign. -/
theorem negative_of_value_neg {d : Decimal} (below : d.value < 0) : d.negative = true :=
  (negative_iff_value below.ne).mpr below

/-- A value above zero carries none. -/
theorem negative_of_value_pos {d : Decimal} (above : 0 < d.value) : d.negative = false := by
  rw [← Bool.not_eq_true, negative_iff_value above.ne', not_lt]
  exact above.le

/-- A decimal is positive just if its value is. -/
theorem isPositive_iff_value (d : Decimal) : d.isPositive = true ↔ 0 < d.value := by
  unfold isPositive
  by_cases zero : d.value = 0
  · rw [(value_eq_zero_iff d).mp zero, zero]
    simp
  · have someUnits := (value_ne_zero_iff d).mp zero
    have sign := negative_iff_value zero
    rw [someUnits, Bool.not_false, Bool.and_true, Bool.not_eq_true', ← Bool.not_eq_true, sign,
      not_lt]
    exact ⟨fun notBelow => lt_of_le_of_ne notBelow (Ne.symm zero), le_of_lt⟩

/-- The coefficient is zero just if the value is. -/
theorem coefficient_ne_zero_iff (d : Decimal) : d.coefficient ≠ 0 ↔ d.value ≠ 0 := by
  rw [Ne, Ne, value_eq_zero_iff]
  simp only [isZero, beq_iff_eq]

/-- The power of ten of the leading digit is no larger than the magnitude. -/
theorem zpow_adjusted_le {d : Decimal} (nonzero : d.value ≠ 0) :
    (10 : ℚ) ^ d.adjusted ≤ |d.value| := by
  have counted := (coefficient_ne_zero_iff d).mpr nonzero
  have leading : ((tenPow (digitCount d.coefficient - 1) : Nat) : ℚ) ≤ d.coefficient := by
    exact_mod_cast tenPow_le_of_ne_zero counted
  have some_digit := digitCount_pos d.coefficient
  have shape : d.adjusted = ((digitCount d.coefficient - 1 : Nat) : Int) + d.exponent := by
    unfold adjusted
    omega
  rw [abs_value, shape, zpow_ten_add, zpow_natCast, ← cast_tenPow]
  exact mul_le_mul_of_nonneg_right leading (zpow_ten_pos _).le

/-- The magnitude is below the power of ten after that of the leading digit. -/
theorem abs_value_lt_zpow (d : Decimal) : |d.value| < (10 : ℚ) ^ (d.adjusted + 1) := by
  have above : (d.coefficient : ℚ) < ((tenPow (digitCount d.coefficient) : Nat) : ℚ) := by
    exact_mod_cast lt_tenPow_digitCount d.coefficient
  have shape : d.adjusted + 1 = (digitCount d.coefficient : Int) + d.exponent := by
    unfold adjusted
    omega
  rw [abs_value, shape, zpow_ten_add, zpow_natCast, ← cast_tenPow]
  exact mul_lt_mul_of_pos_right above (zpow_ten_pos _)

/-- The leading digits of two decimals bound their quotient. -/
theorem abs_div_abs_lt_zpow (a : Decimal) {b : Decimal} (nonzero : b.value ≠ 0) :
    |a.value| / |b.value| < (10 : ℚ) ^ (a.adjusted + 1 - b.adjusted) := by
  rw [div_lt_iff₀ (abs_pos.mpr nonzero)]
  calc |a.value| < (10 : ℚ) ^ (a.adjusted + 1) := abs_value_lt_zpow a
    _ = (10 : ℚ) ^ (a.adjusted + 1 - b.adjusted) * (10 : ℚ) ^ b.adjusted := by
        rw [← zpow_ten_add, sub_add_cancel]
    _ ≤ (10 : ℚ) ^ (a.adjusted + 1 - b.adjusted) * |b.value| :=
        mul_le_mul_of_nonneg_left (zpow_adjusted_le nonzero) (zpow_ten_pos _).le

/-- The leading digit of a nonzero decimal is determined by the value. -/
theorem adjusted_lt_iff {d : Decimal} (nonzero : d.value ≠ 0) {k : Int} :
    d.adjusted < k ↔ |d.value| < (10 : ℚ) ^ k := by
  constructor
  · intro below
    exact (abs_value_lt_zpow d).trans_le (zpow_ten_le.mpr below)
  · intro below
    exact zpow_ten_lt.mp ((zpow_adjusted_le nonzero).trans_lt below)

/-- The place of the leading digit depends on the value alone. -/
theorem adjusted_congr {a b : Decimal} (nonzero : a.value ≠ 0) (same : a.value = b.value) :
    a.adjusted = b.adjusted := by
  have other : b.value ≠ 0 := same ▸ nonzero
  refine le_antisymm (Int.lt_add_one_iff.mp ?_) (Int.lt_add_one_iff.mp ?_)
  · rw [adjusted_lt_iff nonzero, same]
    exact abs_value_lt_zpow b
  · rw [adjusted_lt_iff other, ← same]
    exact abs_value_lt_zpow a

/-- A sum is a zero with a sign only if both operands carry a minus sign. -/
theorem negative_add_of_zero {a b : Decimal} (zero : (a.add b).isZero = true) :
    (a.add b).negative = (a.negative && b.negative) := by
  have cancels := (isZero_iff _).mp zero
  rw [significand_add] at cancels
  unfold add
  simp only [cancels, ↓reduceIte]

/-- A zero has no minus sign. -/
def UnsignedZero (d : Decimal) : Prop := d.isZero = true → d.negative = false

instance (d : Decimal) : Decidable d.UnsignedZero :=
  inferInstanceAs (Decidable (d.isZero = true → d.negative = false))

/-- Adding to a decimal that is no signed zero gives none. -/
theorem UnsignedZero.add {a : Decimal} (unsigned : a.UnsignedZero) (b : Decimal) :
    (a.add b).UnsignedZero := by
  intro zero
  rw [negative_add_of_zero zero]
  by_cases none : a.isZero = true
  · rw [unsigned none, Bool.false_and]
  · have first : a.value ≠ 0 := mt (value_eq_zero_iff a).mp none
    have cancels : a.value + b.value = 0 := by
      rw [← value_add]
      exact (value_eq_zero_iff _).mpr zero
    have second : b.value ≠ 0 := by
      intro absent
      rw [absent, add_zero] at cancels
      exact first cancels
    by_contra both
    rw [Bool.not_eq_false, Bool.and_eq_true, negative_iff_value first,
      negative_iff_value second] at both
    linarith

end Decimal

end ExactQuadrature

import ExactQuadrature.Decimal.Rounding
import ExactQuadrature.Proofs.Decimal.Value
import Mathlib.Algebra.Order.Field.Power

/-! # Rounding half away from zero

`roundHalfAway` rounds a rational number to a whole multiple of a power of ten. The quotient of two
decimals is the rounded quotient of their values (`Decimal.value_quotient`), although quotients
far below half a unit are settled by their size and although the operands are brought to a common
power of ten before they are divided.
-/

namespace ExactQuadrature

/-- The whole multiple of `10 ^ (-scale)` nearest to a rational number; a half goes away from
zero. -/
def roundHalfAway (scale : Int) (x : ℚ) : ℚ :=
  if 0 ≤ x then ⌊x * (10 : ℚ) ^ scale + 1 / 2⌋ * (10 : ℚ) ^ (-scale)
  else -(⌊-x * (10 : ℚ) ^ scale + 1 / 2⌋ * (10 : ℚ) ^ (-scale))

/-- A number that is not negative is rounded half up. -/
theorem roundHalfAway_of_nonneg (scale : Int) {x : ℚ} (nonneg : 0 ≤ x) :
    roundHalfAway scale x = ⌊x * (10 : ℚ) ^ scale + 1 / 2⌋ * (10 : ℚ) ^ (-scale) := if_pos nonneg

theorem roundHalfAway_zero (scale : Int) : roundHalfAway scale 0 = 0 := by
  rw [roundHalfAway_of_nonneg scale le_rfl, zero_mul, zero_add]
  have half : ⌊(1 / 2 : ℚ)⌋ = 0 := Int.floor_eq_zero_iff.mpr ⟨by norm_num, by norm_num⟩
  rw [half, Int.cast_zero, zero_mul]

/-- Rounding half away from zero treats both signs alike. -/
theorem roundHalfAway_neg (scale : Int) (x : ℚ) :
    roundHalfAway scale (-x) = -roundHalfAway scale x := by
  rcases lt_trichotomy x 0 with below | zero | above
  · rw [roundHalfAway_of_nonneg scale (by linarith)]
    unfold roundHalfAway
    rw [if_neg (not_le.mpr below), neg_neg]
  · rw [zero, neg_zero, roundHalfAway_zero, neg_zero]
  · rw [roundHalfAway_of_nonneg scale above.le]
    unfold roundHalfAway
    rw [if_neg (by linarith), neg_neg]

/-- What is not negative stays so. -/
theorem roundHalfAway_nonneg (scale : Int) {x : ℚ} (nonneg : 0 ≤ x) :
    0 ≤ roundHalfAway scale x := by
  rw [roundHalfAway_of_nonneg scale nonneg]
  refine mul_nonneg ?_ (zpow_ten_pos _).le
  exact_mod_cast Int.floor_nonneg.mpr (by positivity)

/-- Rounding at most doubles a magnitude: what it does not make zero is at least half a unit. -/
theorem abs_roundHalfAway_le (scale : Int) (x : ℚ) : |roundHalfAway scale x| ≤ 2 * |x| := by
  wlog nonneg : 0 ≤ x generalizing x
  · have mirrored := this (-x) (by linarith)
    rwa [roundHalfAway_neg, abs_neg, abs_neg] at mirrored
  · rw [abs_of_nonneg (roundHalfAway_nonneg scale nonneg), abs_of_nonneg nonneg,
      roundHalfAway_of_nonneg scale nonneg]
    have unit := zpow_ten_pos scale
    have scaled : 0 ≤ x * (10 : ℚ) ^ scale := mul_nonneg nonneg unit.le
    have doubled : ((⌊x * (10 : ℚ) ^ scale + 1 / 2⌋ : Int) : ℚ) ≤ 2 * (x * (10 : ℚ) ^ scale) := by
      rcases lt_or_ge (x * (10 : ℚ) ^ scale) (1 / 2) with small | large
      · have none : ⌊x * (10 : ℚ) ^ scale + 1 / 2⌋ = 0 :=
          Int.floor_eq_zero_iff.mpr ⟨by linarith, by linarith⟩
        rw [none, Int.cast_zero]
        linarith
      · linarith [Int.floor_le (x * (10 : ℚ) ^ scale + 1 / 2)]
    calc ((⌊x * (10 : ℚ) ^ scale + 1 / 2⌋ : Int) : ℚ) * (10 : ℚ) ^ (-scale)
        ≤ 2 * (x * (10 : ℚ) ^ scale) * (10 : ℚ) ^ (-scale) :=
          mul_le_mul_of_nonneg_right doubled (zpow_ten_pos _).le
      _ = 2 * x := by
        rw [zpow_neg]
        field_simp

/-- Rounding keeps the order of numbers. -/
theorem roundHalfAway_mono (scale : Int) {x y : ℚ} (ordered : x ≤ y) :
    roundHalfAway scale x ≤ roundHalfAway scale y := by
  have nonnegative : ∀ {x y : ℚ}, 0 ≤ x → x ≤ y →
      roundHalfAway scale x ≤ roundHalfAway scale y := by
    intro x y nonneg ordered
    rw [roundHalfAway_of_nonneg scale nonneg, roundHalfAway_of_nonneg scale (nonneg.trans ordered)]
    have scaled : x * (10 : ℚ) ^ scale ≤ y * (10 : ℚ) ^ scale :=
      mul_le_mul_of_nonneg_right ordered (zpow_ten_pos scale).le
    have floors : ⌊x * (10 : ℚ) ^ scale + 1 / 2⌋ ≤ ⌊y * (10 : ℚ) ^ scale + 1 / 2⌋ :=
      Int.floor_le_floor (by linarith)
    exact mul_le_mul_of_nonneg_right (Int.cast_le.mpr floors) (zpow_ten_pos _).le
  rcases le_or_gt 0 x with above | below
  · exact nonnegative above ordered
  · rcases le_or_gt 0 y with crossing | both
    · have mirrored := roundHalfAway_nonneg scale (by linarith : 0 ≤ -x)
      rw [roundHalfAway_neg] at mirrored
      exact (neg_nonneg.mp mirrored).trans (roundHalfAway_nonneg scale crossing)
    · have mirrored := nonnegative (by linarith : 0 ≤ -y) (neg_le_neg ordered)
      rwa [roundHalfAway_neg, roundHalfAway_neg, neg_le_neg_iff] at mirrored

/-- What is below half a unit, and nothing else, is rounded to zero. -/
theorem roundHalfAway_eq_zero_iff (scale : Int) {x : ℚ} (nonneg : 0 ≤ x) :
    roundHalfAway scale x = 0 ↔ x < (10 : ℚ) ^ (-scale) / 2 := by
  have unit := zpow_ten_pos scale
  have scaled : 0 ≤ x * (10 : ℚ) ^ scale := mul_nonneg nonneg unit.le
  have half : (10 : ℚ) ^ (-scale) / 2 * (10 : ℚ) ^ scale = 1 / 2 := by
    rw [div_mul_eq_mul_div, ← zpow_ten_add, neg_add_cancel, zpow_zero]
  rw [roundHalfAway_of_nonneg scale nonneg, mul_eq_zero, or_iff_left (zpow_ten_pos _).ne',
    Int.cast_eq_zero, Int.floor_eq_zero_iff, ← mul_lt_mul_iff_left₀ unit, half]
  constructor
  · rintro ⟨_, below⟩
    linarith
  · intro below
    exact ⟨by linarith, by linarith⟩

/-- A whole multiple of `10 ^ (-scale)`. -/
def IsMultiple (scale : Int) (x : ℚ) : Prop := ∃ units : Int, x = units * (10 : ℚ) ^ (-scale)

theorem IsMultiple.zero (scale : Int) : IsMultiple scale 0 := ⟨0, by rw [Int.cast_zero, zero_mul]⟩

theorem IsMultiple.add {scale : Int} {x y : ℚ} (first : IsMultiple scale x)
    (second : IsMultiple scale y) : IsMultiple scale (x + y) := by
  obtain ⟨m, rfl⟩ := first
  obtain ⟨n, rfl⟩ := second
  exact ⟨m + n, by rw [Int.cast_add, add_mul]⟩

theorem IsMultiple.neg {scale : Int} {x : ℚ} (multiple : IsMultiple scale x) :
    IsMultiple scale (-x) := by
  obtain ⟨m, rfl⟩ := multiple
  exact ⟨-m, by rw [Int.cast_neg, neg_mul]⟩

/-- No multiple lies between zero and the unit. -/
theorem IsMultiple.unit_le {scale : Int} {x : ℚ} (multiple : IsMultiple scale x)
    (positive : 0 < x) :
    (10 : ℚ) ^ (-scale) ≤ x := by
  obtain ⟨units, rfl⟩ := multiple
  have unit := zpow_ten_pos (-scale)
  have some_unit : 1 ≤ units := by
    have above := (mul_pos_iff_of_pos_right unit).mp positive
    exact_mod_cast above
  exact le_mul_of_one_le_left unit.le (by exact_mod_cast some_unit)

/-- What is rounded is a multiple of the unit. -/
theorem isMultiple_roundHalfAway (scale : Int) (x : ℚ) :
    IsMultiple scale (roundHalfAway scale x) := by
  unfold roundHalfAway
  split
  · exact ⟨_, rfl⟩
  · refine ⟨-⌊-x * (10 : ℚ) ^ scale + 1 / 2⌋, ?_⟩
    push_cast
    ring

/-- Rounding moves a number by half a unit at most. -/
theorem abs_roundHalfAway_sub_le (scale : Int) (x : ℚ) :
    |roundHalfAway scale x - x| ≤ (10 : ℚ) ^ (-scale) / 2 := by
  wlog nonneg : 0 ≤ x generalizing x
  · have mirrored := this (-x) (by linarith)
    rwa [roundHalfAway_neg, ← neg_sub', abs_neg] at mirrored
  have unit := zpow_ten_pos (-scale)
  have scaled : x * (10 : ℚ) ^ scale * (10 : ℚ) ^ (-scale) = x := by
    rw [mul_assoc, ← zpow_ten_add, add_neg_cancel, zpow_zero, mul_one]
  have low := Int.floor_le (x * (10 : ℚ) ^ scale + 1 / 2)
  have high := Int.lt_floor_add_one (x * (10 : ℚ) ^ scale + 1 / 2)
  have units : |(⌊x * (10 : ℚ) ^ scale + 1 / 2⌋ : ℚ) - x * (10 : ℚ) ^ scale| ≤ 1 / 2 :=
    abs_le.mpr ⟨by linarith, by linarith⟩
  calc |roundHalfAway scale x - x|
      = |(⌊x * (10 : ℚ) ^ scale + 1 / 2⌋ : ℚ) - x * (10 : ℚ) ^ scale| * (10 : ℚ) ^ (-scale) := by
        rw [roundHalfAway_of_nonneg scale nonneg, ← abs_of_pos unit, ← abs_mul, abs_of_pos unit,
          sub_mul, scaled]
    _ ≤ 1 / 2 * (10 : ℚ) ^ (-scale) := mul_le_mul_of_nonneg_right units unit.le
    _ = (10 : ℚ) ^ (-scale) / 2 := by ring

/-- No multiple lies between one unit and two. -/
theorem IsMultiple.abs_le_unit {scale : Int} {x : ℚ} (multiple : IsMultiple scale x)
    (small : |x| < 2 * (10 : ℚ) ^ (-scale)) : |x| ≤ (10 : ℚ) ^ (-scale) := by
  obtain ⟨units, rfl⟩ := multiple
  have unit := zpow_ten_pos (-scale)
  rw [abs_mul, abs_of_pos unit] at small ⊢
  have fewer : |units| < 2 := by
    have below := lt_of_mul_lt_mul_right small unit.le
    exact_mod_cast below
  exact mul_le_of_le_one_left unit.le (by exact_mod_cast (by omega : |units| ≤ 1))

/-- Rounding a sum and rounding its terms differ by one unit at most. -/
theorem abs_roundHalfAway_add_sub_le (scale : Int) (x y : ℚ) :
    |roundHalfAway scale (x + y) - (roundHalfAway scale x + roundHalfAway scale y)| ≤
      (10 : ℚ) ^ (-scale) := by
  have multiple : IsMultiple scale
      (roundHalfAway scale (x + y) - (roundHalfAway scale x + roundHalfAway scale y)) := by
    rw [sub_eq_add_neg]
    exact (isMultiple_roundHalfAway scale _).add
      ((isMultiple_roundHalfAway scale x).add (isMultiple_roundHalfAway scale y)).neg
  apply multiple.abs_le_unit
  -- The three roundings move by half a unit each, which is less than two units together.
  obtain ⟨low, high⟩ := abs_le.mp (abs_roundHalfAway_sub_le scale (x + y))
  obtain ⟨lowX, highX⟩ := abs_le.mp (abs_roundHalfAway_sub_le scale x)
  obtain ⟨lowY, highY⟩ := abs_le.mp (abs_roundHalfAway_sub_le scale y)
  have unit := zpow_ten_pos (-scale)
  rw [abs_lt]
  constructor <;> linarith

/-- Rounding leaves multiples of the unit as they are. -/
theorem roundHalfAway_of_isMultiple {scale : Int} {x : ℚ} (multiple : IsMultiple scale x) :
    roundHalfAway scale x = x := by
  obtain ⟨rounded, roundedUnits⟩ := isMultiple_roundHalfAway scale x
  obtain ⟨units, same⟩ := multiple
  have near := abs_roundHalfAway_sub_le scale x
  have unit := zpow_ten_pos (-scale)
  -- Two multiples less than one unit apart are the same.
  rw [roundedUnits, same, ← sub_mul, abs_mul, abs_of_pos unit] at near
  have apart : |((rounded - units : Int) : ℚ)| < 1 := by
    push_cast
    by_contra far
    have whole := mul_le_mul_of_nonneg_right (not_lt.mp far) unit.le
    linarith
  have none : rounded - units = 0 := Int.abs_lt_one_iff.mp (by exact_mod_cast apart)
  rw [roundedUnits, same, sub_eq_zero.mp none]

/-- Rounding does not take a number past a power of ten that is no less than the unit. -/
theorem abs_roundHalfAway_le_zpow {scale k : Int} (coarse : -scale ≤ k) {x : ℚ}
    (bounded : |x| ≤ (10 : ℚ) ^ k) : |roundHalfAway scale x| ≤ (10 : ℚ) ^ k := by
  have multiple : IsMultiple scale ((10 : ℚ) ^ k) := by
    refine ⟨tenPow (k + scale).toNat, ?_⟩
    rw [Int.cast_natCast, cast_tenPow_toNat (by omega), ← zpow_ten_add]
    congr 1
    ring
  have kept := roundHalfAway_of_isMultiple multiple
  obtain ⟨low, high⟩ := abs_le.mp bounded
  have fromBelow := roundHalfAway_mono scale low
  have fromAbove := roundHalfAway_mono scale high
  rw [roundHalfAway_neg, kept] at fromBelow
  rw [kept] at fromAbove
  exact abs_le.mpr ⟨fromBelow, fromAbove⟩

/-- Rounding a quotient of natural numbers half up adds a half and cuts. -/
theorem roundHalfUp_eq_floor {numerator denominator : Nat} (positive : 0 < denominator) :
    ((roundHalfUp numerator denominator : Nat) : Int) =
      ⌊(numerator : ℚ) / denominator + 1 / 2⌋ := by
  have natural : (0 : ℚ) < denominator := by exact_mod_cast positive
  have shape : (numerator : ℚ) / denominator + 1 / 2 =
      ((2 * numerator + denominator : Nat) : ℚ) / ((2 * denominator : Nat) : ℚ) := by
    push_cast
    field_simp
  rw [shape, Rat.floor_natCast_div_natCast]
  rfl

namespace Decimal

/-- The units of a rounded quotient are those of the magnitudes. -/
theorem quotientUnits_eq_floor (a b : Decimal) (scale : Int) (nonzero : b.value ≠ 0) :
    ((quotientUnits a b scale : Nat) : Int) =
      ⌊|a.value| / |b.value| * (10 : ℚ) ^ scale + 1 / 2⌋ := by
  unfold quotientUnits
  split
  · next small =>
    rw [Bool.or_eq_true, decide_eq_true_eq] at small
    refine (Int.floor_eq_zero_iff.mpr ⟨?_, ?_⟩).symm
    · positivity
    · have tenth : |a.value| / |b.value| * (10 : ℚ) ^ scale < 1 / 2 := by
        rcases small with zero | low
        · rw [(value_eq_zero_iff a).mpr zero, abs_zero, zero_div, zero_mul]
          norm_num
        · have quotient := abs_div_abs_lt_zpow a nonzero
          calc |a.value| / |b.value| * (10 : ℚ) ^ scale
              < (10 : ℚ) ^ (a.adjusted + 1 - b.adjusted) * (10 : ℚ) ^ scale :=
                mul_lt_mul_of_pos_right quotient (zpow_ten_pos _)
            _ = (10 : ℚ) ^ (a.adjusted + 1 - b.adjusted + scale) := (zpow_ten_add _ _).symm
            _ ≤ (10 : ℚ) ^ (-1 : Int) := zpow_ten_le.mpr (by omega)
            _ < 1 / 2 := by norm_num
      linarith
  · have counted : 0 < b.coefficient :=
      Nat.pos_of_ne_zero ((coefficient_ne_zero_iff b).mpr nonzero)
    dsimp only
    rw [roundHalfUp_eq_floor (Nat.mul_pos counted (tenPow_pos _))]
    congr 2
    rw [abs_value, abs_value]
    push_cast
    rw [mul_div_mul_comm, cast_tenPow_toNat_div, mul_div_mul_comm, ← zpow_sub₀ (by norm_num),
      zpow_ten_add, mul_assoc]

/-- A decimal has the size of its value under its sign. -/
theorem value_eq_signed_abs (d : Decimal) :
    d.value = if d.negative then -|d.value| else |d.value| := by
  rw [abs_value, value_eq]
  unfold significand
  cases d.negative <;> simp

/-- **Quotients are rounded once.** The value of a quotient is that of the exact quotient, rounded
half away from zero. -/
theorem value_quotient (a b : Decimal) (scale : Int) (nonzero : b.value ≠ 0) :
    (quotient a b scale).value = roundHalfAway scale (a.value / b.value) := by
  have units := quotientUnits_eq_floor a b scale nonzero
  have rounded : roundHalfAway scale (|a.value| / |b.value|) =
      (quotientUnits a b scale : ℚ) * (10 : ℚ) ^ (-scale) := by
    rw [roundHalfAway_of_nonneg scale (by positivity), ← units, Int.cast_natCast]
  have shape : (quotient a b scale).value =
      if a.negative != b.negative then -((quotientUnits a b scale : ℚ) * (10 : ℚ) ^ (-scale))
      else (quotientUnits a b scale : ℚ) * (10 : ℚ) ^ (-scale) := by
    rw [value_eq]
    unfold quotient significand
    dsimp only
    by_cases none : quotientUnits a b scale = 0
    · simp [none]
    · cases a.negative <;> cases b.negative <;> simp [none]
  rw [shape, ← rounded]
  rw [value_eq_signed_abs a, value_eq_signed_abs b]
  cases a.negative <;> cases b.negative <;>
    simp [neg_div, div_neg, roundHalfAway_neg]

end Decimal

end ExactQuadrature

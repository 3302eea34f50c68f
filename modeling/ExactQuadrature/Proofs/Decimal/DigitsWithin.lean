import ExactQuadrature.Proofs.Decimal.Representation
import ExactQuadrature.Proofs.Outcome
import Mathlib.Tactic.NormNum

/-! # How many digits sums and products need

A rational number that is a whole number of units of a decimal place and lies below a power of ten
has a known number of digits before and after the point (`DigitsWithin`). Sums need one digit more
than their operands and products as many as both together, and exact arithmetic refuses nothing
that has no more digits than the widest range (`DigitsWithin.represents`). The exponents of results
stay low as well (`Decimal.Sized`), which matters where a zero is divided.
-/

namespace ExactQuadrature

/-- A whole number of units of a decimal place. -/
def WholeUnits (places : Nat) (x : ℚ) : Prop :=
  ∃ units : Int, x = units * (10 : ℚ) ^ (-(places : Int))

namespace WholeUnits

variable {places : Nat} {x y : ℚ}

theorem zero (places : Nat) : WholeUnits places 0 := ⟨0, by rw [Int.cast_zero, zero_mul]⟩

/-- Whole numbers of a unit add up to one. -/
theorem add (first : WholeUnits places x) (second : WholeUnits places y) :
    WholeUnits places (x + y) := by
  obtain ⟨m, rfl⟩ := first
  obtain ⟨n, rfl⟩ := second
  refine ⟨m + n, ?_⟩
  rw [Int.cast_add, add_mul]

/-- The opposite of a whole number of units is one. -/
theorem neg (whole : WholeUnits places x) : WholeUnits places (-x) := by
  obtain ⟨m, rfl⟩ := whole
  refine ⟨-m, ?_⟩
  rw [Int.cast_neg, neg_mul]

/-- A product has the fractional digits of both factors. -/
theorem mul {more : Nat} (first : WholeUnits places x) (second : WholeUnits more y) :
    WholeUnits (places + more) (x * y) := by
  obtain ⟨m, rfl⟩ := first
  obtain ⟨n, rfl⟩ := second
  refine ⟨m * n, ?_⟩
  rw [Nat.cast_add, neg_add, zpow_ten_add, Int.cast_mul]
  ring

/-- Units may be made finer. -/
theorem mono {more : Nat} (whole : WholeUnits places x) (finer : places ≤ more) :
    WholeUnits more x := by
  obtain ⟨m, rfl⟩ := whole
  refine ⟨m * tenPow (more - places), ?_⟩
  have split : -(places : Int) = ((more - places : Nat) : Int) + -(more : Int) := by omega
  rw [Int.cast_mul, Int.cast_natCast, cast_tenPow, ← zpow_natCast, mul_assoc, ← zpow_ten_add,
    ← split]

/-- A decimal is a whole number of its own unit, and of every finer one. -/
theorem of_exponent {d : Decimal} (finer : -(places : Int) ≤ d.exponent) :
    WholeUnits places d.value :=
  ⟨_, Decimal.value_eq_unitsAt d finer⟩

end WholeUnits

/-- At most `whole` digits before the point and at most `places` after it. -/
structure DigitsWithin (whole places : Nat) (x : ℚ) : Prop where
  below : |x| < (10 : ℚ) ^ whole
  units : WholeUnits places x

namespace DigitsWithin

variable {whole places more finer : Nat} {x y : ℚ}

/-- A number within some digits is within more of them. -/
theorem mono (within : DigitsWithin whole places x) (wider : whole ≤ more) (fine : places ≤ finer) :
    DigitsWithin more finer x where
  below := within.below.trans_le (pow_le_pow_right₀ (by norm_num) wider)
  units := within.units.mono fine

/-- The opposite number needs the same digits. -/
theorem neg (within : DigitsWithin whole places x) : DigitsWithin whole places (-x) where
  below := by rw [abs_neg]; exact within.below
  units := within.units.neg

/-- A sum needs one digit more. -/
theorem add (first : DigitsWithin whole places x) (second : DigitsWithin whole places y) :
    DigitsWithin (whole + 1) places (x + y) where
  below := by
    have triangle := abs_add_le x y
    have one := first.below
    have other := second.below
    rw [pow_succ]
    linarith [pow_pos (by norm_num : (0 : ℚ) < 10) whole]
  units := first.units.add second.units

/-- A product needs as many digits as its factors together. -/
theorem mul (first : DigitsWithin whole places x) (second : DigitsWithin more finer y) :
    DigitsWithin (whole + more) (places + finer) (x * y) where
  below := by
    rw [abs_mul, pow_add]
    exact mul_lt_mul'' first.below second.below (abs_nonneg x) (abs_nonneg y)
  units := first.units.mul second.units

/-- **Few digits are represented.** -/
theorem represents (within : DigitsWithin whole places x)
    (few : whole + places ≤ Range.exact.precision) : Range.exact.Represents x := by
  have precision : Range.exact.precision = 999999999999999999 := rfl
  have bounded := within.below
  obtain ⟨units, rfl⟩ := within.units
  apply Range.represents_of_units (by decide)
  · change -999999999999999999 - (999999999999999999 - 1) ≤ -(places : Int)
    omega
  · have unit := zpow_ten_pos (-(places : Int))
    rw [abs_mul, abs_of_pos unit, zpow_neg, zpow_natCast, ← div_eq_mul_inv,
      div_lt_iff₀ (by positivity), ← pow_add] at bounded
    refine bounded.trans_le ?_
    rw [← zpow_natCast, zpow_ten_le]
    exact_mod_cast few
  · change -(places : Int) + 999999999999999999 ≤ 999999999999999999 + 1
    omega

end DigitsWithin

/-- A decimal with few digits, in a unit that is not above a given one. -/
structure Decimal.Sized (whole places : Nat) (unit : Int) (d : Decimal) : Prop where
  digits : DigitsWithin whole places d.value
  unit : d.exponent ≤ unit

/-- A decimal of some size is of any larger one. -/
theorem Decimal.Sized.mono {whole places more finer : Nat} {unit coarser : Int} {d : Decimal}
    (sized : d.Sized whole places unit) (wider : whole ≤ more) (fine : places ≤ finer)
    (above : unit ≤ coarser) : d.Sized more finer coarser :=
  ⟨sized.digits.mono wider fine, sized.unit.trans above⟩

theorem Decimal.Sized.zero {whole places : Nat} {unit : Int} (nonneg : 0 ≤ unit) :
    Decimal.zero.Sized whole places unit := by
  refine ⟨⟨?_, ?_⟩, nonneg⟩
  · rw [value_zero, abs_zero]
    positivity
  · rw [value_zero]
    exact .zero places

/-- The leading digit of a decimal is no higher than its size allows. -/
theorem Decimal.Sized.adjusted_le {whole places : Nat} {unit : Int} {d : Decimal}
    (sized : d.Sized whole places unit) : d.adjusted ≤ max unit whole := by
  by_cases zero : d.value = 0
  · have none : d.coefficient = 0 := by
      by_contra counted
      exact (coefficient_ne_zero_iff d).mp counted zero
    have single : digitCount 0 = 1 := by decide
    have low := sized.unit
    unfold adjusted
    rw [none, single]
    omega
  · have below : d.adjusted < (whole : Int) := by
      rw [adjusted_lt_iff zero, zpow_natCast]
      exact sized.digits.below
    omega

namespace Number

/-- A number of few enough digits is kept exactly, in a unit no coarser than its own or ten. -/
theorem exists_settle {whole places : Nat} {d : Decimal}
    (within : DigitsWithin whole places d.value)
    (few : whole + places ≤ Range.exact.precision) :
    ∃ settled : Decimal, settle d = .ok (.finite settled) ∧ settled.value = d.value ∧
      settled.exponent ≤ max d.exponent 1 := by
  obtain ⟨settled, found, value, _, unit⟩ := settle_of_represents (within.represents few)
  exact ⟨settled, found, value, unit⟩

/-- A sum with few digits is found, in a low unit if an operand has one. -/
theorem exists_add {whole places : Nat} {x y : Decimal}
    (within : DigitsWithin whole places (x.value + y.value))
    (few : whole + places ≤ Range.exact.precision) :
    ∃ sum : Decimal, add (.finite x) (.finite y) = .ok (.finite sum) ∧
      sum.value = x.value + y.value ∧ sum.exponent ≤ max (min x.exponent y.exponent) 1 := by
  rw [← Decimal.value_add] at within ⊢
  rw [← Decimal.exponent_add]
  exact exists_settle within few

/-- A product with few digits is found. -/
theorem exists_mul {whole places : Nat} {x y : Decimal}
    (within : DigitsWithin whole places (x.value * y.value))
    (few : whole + places ≤ Range.exact.precision) :
    ∃ product : Decimal, mul (.finite x) (.finite y) = .ok (.finite product) ∧
      product.value = x.value * y.value ∧ product.exponent ≤ max (x.exponent + y.exponent) 1 := by
  rw [← Decimal.value_mul] at within ⊢
  rw [← Decimal.exponent_mul]
  exact exists_settle within few

end Number

end ExactQuadrature

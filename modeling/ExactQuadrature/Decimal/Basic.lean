import ExactQuadrature.Decimal.Digits

/-! # Finite decimals

A decimal keeps its sign, its coefficient and its exponent. Two decimals may stand for the same
rational number and still differ: `2.0` has coefficient `20` and exponent `-1`, `2` has
coefficient `2` and exponent `0`, and a zero may carry a sign. The number a decimal stands for is
`Decimal.value`. -/

namespace ExactQuadrature

/-- The decimal `± coefficient · 10 ^ exponent`. -/
structure Decimal where
  negative : Bool
  coefficient : Nat
  exponent : Int
deriving DecidableEq, Inhabited

namespace Decimal

/-- The decimal with a given signed significand and exponent. A zero significand is unsigned. -/
def ofSignificand (significand : Int) (exponent : Int) : Decimal :=
  ⟨decide (significand < 0), significand.natAbs, exponent⟩

/-- A whole number, with exponent zero. -/
def ofInt (n : Int) : Decimal := ofSignificand n 0

/-- The decimal `0`. -/
def zero : Decimal := ⟨false, 0, 0⟩

/-- The decimal `1`. -/
def one : Decimal := ⟨false, 1, 0⟩

/-- The signed coefficient. -/
def significand (d : Decimal) : Int :=
  if d.negative then -(d.coefficient : Int) else d.coefficient

/-- The rational number that a decimal stands for. -/
def value (d : Decimal) : Rat := d.significand * (10 : Rat) ^ d.exponent

/-- Both signs of zero are zero, at every exponent. -/
def isZero (d : Decimal) : Bool := d.coefficient == 0

/-- A decimal above zero. -/
def isPositive (d : Decimal) : Bool := !d.negative && !d.isZero

/-- The power of ten of the leading digit. -/
def adjusted (d : Decimal) : Int := d.exponent + digitCount d.coefficient - 1

/-- The same decimal with the other sign. -/
def negate (d : Decimal) : Decimal := { d with negative := !d.negative }

/-- The same decimal without its sign. -/
def magnitude (d : Decimal) : Decimal := { d with negative := false }

/-- The number of units `10 ^ exponent` in the magnitude of a decimal that is no coarser. -/
def magnitudeAt (d : Decimal) (exponent : Int) : Nat :=
  d.coefficient * tenPow (d.exponent - exponent).toNat

/-- The signed number of units `10 ^ exponent` in a decimal that is no coarser than that unit. The
unit of a zero may be of any size, so no power of ten is formed for it. -/
def unitsAt (d : Decimal) (exponent : Int) : Int :=
  if d.isZero then 0 else d.significand * tenPow (d.exponent - exponent).toNat

/-- A decimal made from a significand has just that significand. -/
@[simp] theorem significand_ofSignificand (significand exponent : Int) :
    (ofSignificand significand exponent).significand = significand := by
  unfold ofSignificand Decimal.significand
  by_cases below : significand < 0
  · simp only [below, decide_true, if_true]
    omega
  · simp only [below, decide_false, Bool.false_eq_true, if_false]
    omega

@[simp] theorem exponent_ofSignificand (significand exponent : Int) :
    (ofSignificand significand exponent).exponent = exponent := rfl

/-- A decimal is zero exactly when its significand is. -/
theorem isZero_iff (d : Decimal) : d.isZero = true ↔ d.significand = 0 := by
  unfold isZero significand
  cases d.negative <;> simp

/-- The number of units is the significand times a power of ten, also for a zero. -/
theorem unitsAt_eq_mul (d : Decimal) (exponent : Int) :
    d.unitsAt exponent = d.significand * tenPow (d.exponent - exponent).toNat := by
  unfold unitsAt
  split
  · next zero => rw [(isZero_iff d).mp zero, Int.zero_mul]
  · rfl

/-- Changing the sign negates the significand. -/
@[simp] theorem significand_negate (d : Decimal) : d.negate.significand = -d.significand := by
  unfold negate significand
  cases d.negative <;> simp

end Decimal

end ExactQuadrature

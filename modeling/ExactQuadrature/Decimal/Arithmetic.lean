import ExactQuadrature.Decimal.Basic

/-! # Sums, products and order of finite decimals

Nothing here rounds. A sum is written in the finer of the two units and a product in the product
of the units, so trailing zeros of the operands remain visible in the result. A sum that cancels
is an unsigned zero unless both operands carry a minus sign. -/

namespace ExactQuadrature

namespace Decimal

/-- The exact sum, in the finer unit of the two operands. -/
def add (a b : Decimal) : Decimal :=
  let exponent := min a.exponent b.exponent
  let units := a.unitsAt exponent + b.unitsAt exponent
  if units = 0 then ⟨a.negative && b.negative, 0, exponent⟩ else ofSignificand units exponent

/-- The exact difference. -/
def sub (a b : Decimal) : Decimal := a.add b.negate

/-- The exact product. -/
def mul (a b : Decimal) : Decimal :=
  ⟨a.negative != b.negative, a.coefficient * b.coefficient, a.exponent + b.exponent⟩

/-- The order of two magnitudes. Leading digits decide first, so that only decimals of one size
are ever written in a common unit. -/
def compareMagnitude (a b : Decimal) : Ordering :=
  if a.isZero || b.isZero then compare a.coefficient b.coefficient
  else if a.adjusted ≠ b.adjusted then compare a.adjusted b.adjusted
  else
    let exponent := min a.exponent b.exponent
    compare (a.magnitudeAt exponent) (b.magnitudeAt exponent)

/-- The order by value. Zeros are equal whatever their signs and exponents. -/
def order (a b : Decimal) : Ordering :=
  if a.isZero && b.isZero then .eq
  else if a.isZero then (if b.negative then .gt else .lt)
  else if b.isZero then (if a.negative then .lt else .gt)
  else match a.negative, b.negative with
    | false, false => compareMagnitude a b
    | true, true => compareMagnitude b a
    | true, false => .lt
    | false, true => .gt

/-- Equality of values. -/
def sameValue (a b : Decimal) : Bool := order a b == .eq

/-- The strict order of values. -/
def lessThan (a b : Decimal) : Bool := order a b == .lt

/-- The sum is written in the finer unit. -/
@[simp] theorem exponent_add (a b : Decimal) :
    (a.add b).exponent = min a.exponent b.exponent := by
  unfold add
  dsimp only
  split <;> rfl

/-- The sum has as many units as its operands together. -/
theorem significand_add (a b : Decimal) :
    (a.add b).significand =
      a.unitsAt (min a.exponent b.exponent) + b.unitsAt (min a.exponent b.exponent) := by
  unfold add
  dsimp only
  split
  · next cancels =>
    rw [cancels]
    unfold significand
    simp
  · rw [significand_ofSignificand]

/-- The significand of a product is the product of the significands. -/
theorem significand_mul (a b : Decimal) :
    (a.mul b).significand = a.significand * b.significand := by
  unfold mul significand
  cases a.negative <;> cases b.negative <;>
    simp only [bne_self_eq_false, Bool.false_bne, Bool.bne_false, Bool.false_eq_true, if_true,
      if_false, Int.natCast_mul, Int.neg_mul, Int.mul_neg, Int.neg_neg]

/-- The exponent of a product is the sum of the exponents. -/
@[simp] theorem exponent_mul (a b : Decimal) : (a.mul b).exponent = a.exponent + b.exponent := rfl

end Decimal

end ExactQuadrature

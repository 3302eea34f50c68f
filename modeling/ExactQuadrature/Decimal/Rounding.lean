import ExactQuadrature.Decimal.Arithmetic

/-! # Quotients and their rounding

The digits of a quotient go on without end, so a quotient is cut off or rounded. It is rounded
straight from the exact rational number to a whole multiple of a power of ten; a half goes away from
zero, and what rounds to zero carries no sign. It is cut off behind its leading digits, and then
still has the sign of the exact quotient. -/

namespace ExactQuadrature

/-- The whole number nearest to a quotient of natural numbers; a half goes up. -/
def roundHalfUp (numerator denominator : Nat) : Nat :=
  (2 * numerator + denominator) / (2 * denominator)

namespace Decimal

/-- The number of whole units `10 ^ (-scale)` nearest to the magnitude of `a / b`. A quotient that
is far below half a unit is settled by its size, so that no power of ten is larger than the
operands and the result need. -/
def quotientUnits (a b : Decimal) (scale : Int) : Nat :=
  if a.isZero || a.adjusted - b.adjusted + scale + 2 ≤ 0 then 0
  else
    let shift := a.exponent - b.exponent + scale
    roundHalfUp (a.coefficient * tenPow shift.toNat) (b.coefficient * tenPow (-shift).toNat)

/-- The quotient `a / b` rounded half away from zero to `scale` fractional digits. -/
def quotient (a b : Decimal) (scale : Int) : Decimal :=
  let units := quotientUnits a b scale
  ⟨(a.negative != b.negative) && units != 0, units, -scale⟩

/-- The decimal rounded half away from zero to `scale` fractional digits. -/
def toScale (d : Decimal) (scale : Int) : Decimal := quotient d one scale

/-- The leading digits of the quotient `a / b`, as many as wanted; the rest is cut off. -/
def leadingQuotient (a b : Decimal) (digits : Nat) : Decimal :=
  let negative := a.negative != b.negative
  if a.isZero then ⟨negative, 0, a.exponent - b.exponent⟩
  else
    -- These places give the wanted digits, or one more than that.
    let places : Int := digits + digitCount b.coefficient - digitCount a.coefficient
    let whole := a.coefficient * tenPow places.toNat / (b.coefficient * tenPow (-places).toNat)
    let surplus := digitCount whole - digits
    ⟨negative, whole / tenPow surplus, a.exponent - b.exponent - places + surplus⟩

/-- A rounded quotient is a whole multiple of its unit. -/
@[simp] theorem exponent_quotient (a b : Decimal) (scale : Int) :
    (quotient a b scale).exponent = -scale := rfl

/-- A rounded quotient is never a negative zero. -/
theorem quotient_unsigned_zero (a b : Decimal) (scale : Int)
    (zero : (quotient a b scale).isZero = true) : (quotient a b scale).negative = false := by
  unfold quotient isZero at *
  simp only [beq_iff_eq] at zero
  simp [zero]

end Decimal

end ExactQuadrature

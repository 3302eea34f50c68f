import ExactQuadrature.Decimal.Basic

/-! # Limits of representable decimals

A range bounds the number of digits of a coefficient and the power of ten of its leading digit.
Fitting a result into a range may give up trailing zeros, and moves the exponent of a zero to the
nearest one allowed; a result that would lose a nonzero digit, or whose leading digit lies beyond
the range, is refused as inexact. -/

namespace ExactQuadrature

/-- The ways in which decimal arithmetic refuses to give a result. -/
inductive Signal where
  | invalidOperation
  | inexact
  | overflow
deriving DecidableEq, Inhabited

/-- Limits on digits and exponents, which bound the leading digit of a nonzero decimal, and the
signal that a result beyond the largest exponent raises. -/
structure Range where
  precision : Nat
  maxExponent : Int
  minExponent : Int
  beyond : Signal
deriving DecidableEq, Inhabited

namespace Range

/-- The widest range: results in it are exact in practice. -/
def exact : Range := ⟨999999999999999999, 999999999999999999, -999999999999999999, .inexact⟩

/-- The everyday range of twenty-eight digits. -/
def ordinary : Range := ⟨28, 999999, -999999, .overflow⟩

/-- The least exponent of any decimal in the range. -/
def tiny (range : Range) : Int := range.minExponent - (range.precision - 1)

/-- The number of low digits that a decimal has to give up to lie in the range. -/
def excess (range : Range) (d : Decimal) : Nat :=
  max (digitCount d.coefficient - range.precision) (range.tiny - d.exponent).toNat

/-- The decimal itself if it lies in the range, or else one of the same value that does. -/
def fit (range : Range) (d : Decimal) : Except Signal Decimal :=
  if d.isZero then
    .ok { d with exponent := max range.tiny (min d.exponent range.maxExponent) }
  else if range.maxExponent < d.adjusted then .error range.beyond
  else if range.excess d = 0 then .ok d
  else if digitCount d.coefficient ≤ range.excess d then .error .inexact
  else if d.coefficient % tenPow (range.excess d) ≠ 0 then .error .inexact
  else .ok ⟨d.negative, d.coefficient / tenPow (range.excess d), d.exponent + range.excess d⟩

/-- A decimal that lies in a range just as it stands. -/
def Contains (range : Range) (d : Decimal) : Prop :=
  range.tiny ≤ d.exponent ∧
    if d.isZero then d.exponent ≤ range.maxExponent
    else d.adjusted ≤ range.maxExponent ∧ digitCount d.coefficient ≤ range.precision

instance (range : Range) (d : Decimal) : Decidable (range.Contains d) := by
  unfold Contains
  infer_instance

/-- Fitting keeps a decimal that already lies in the range. -/
theorem fit_of_contains {range : Range} {d : Decimal} (inside : range.Contains d) :
    range.fit d = .ok d := by
  obtain ⟨above, rest⟩ := inside
  unfold fit
  by_cases zero : d.isZero = true
  · simp only [zero, if_true] at rest ⊢
    rw [Int.min_eq_left rest, Int.max_eq_right above]
  · simp only [zero, Bool.false_eq_true, if_false] at rest ⊢
    have none : range.excess d = 0 := by
      unfold excess
      omega
    rw [if_neg (by omega), if_pos none]

end Range

end ExactQuadrature

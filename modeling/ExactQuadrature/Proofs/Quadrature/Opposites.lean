import ExactQuadrature.Proofs.Quadrature.Agreement

/-! # Integrals of opposite polynomials

Two decimals are opposite when their values are and their exponents are the same; the sign of a
zero does not matter. Exact arithmetic knows no direction: whether a result fits the widest range
depends on its coefficient and its exponent, and a half is rounded away from zero on either side. So
sums, multiples and rounded quotients of opposite numbers are opposite, or are refused alike
(`Number.Opposes.add`, `Number.Opposes.mul` and `Number.Opposes.divide`), and with them the values
and the integrals of polynomials with opposite coefficients (`Polynomial.Opposes.integral`).
-/

namespace ExactQuadrature

namespace Decimal

/-- The opposite value in the same unit. -/
structure Opposes (d e : Decimal) : Prop where
  value : e.value = -d.value
  unit : e.exponent = d.exponent

namespace Opposes

variable {d d' e e' : Decimal}

/-- A decimal and the one with the other sign are opposite. -/
theorem negate (d : Decimal) : d.Opposes d.negate := ⟨value_negate d, rfl⟩

/-- An opposite is the decimal with the other sign, up to the sign of a zero. -/
theorem alike (opposes : d.Opposes e) : d.negate.Alike e :=
  ⟨by rw [value_negate, opposes.value], opposes.unit.symm⟩

/-- Sums of opposite decimals are opposite. -/
theorem add (left : d.Opposes d') (right : e.Opposes e') : (d.add e).Opposes (d'.add e') where
  value := by rw [value_add, value_add, left.value, right.value, neg_add]
  unit := by rw [exponent_add, exponent_add, left.unit, right.unit]

/-- Products of opposite decimals with the same factor are opposite. -/
theorem mul (left : d.Opposes d') (e : Decimal) : (d.mul e).Opposes (d'.mul e) where
  value := by rw [value_mul, value_mul, left.value, neg_mul]
  unit := by rw [exponent_mul, exponent_mul, left.unit]

/-- A decimal and its mirrored one are opposite. -/
theorem mirrored (d : Decimal) : d.Opposes d.mirrored := by
  refine ⟨value_mirrored d, ?_⟩
  unfold Decimal.mirrored
  split <;> rfl

end Opposes

end Decimal

/-- Fitting looks at the coefficient and the exponent, and leaves the sign alone. -/
theorem Range.fit_negate (range : Range) (d : Decimal) :
    range.fit d.negate = (range.fit d).map Decimal.negate := by
  have leading : d.negate.adjusted = d.adjusted := Decimal.adjusted_negate d
  have zero : d.negate.isZero = d.isZero := rfl
  have excess : range.excess d.negate = range.excess d := rfl
  simp only [fit, leading, zero, excess]
  split_ifs <;> first | rfl | contradiction

namespace Number

/-- Finite numbers that are opposite as decimals. -/
inductive Opposes : Number → Number → Prop where
  | finite {d e : Decimal} (opposes : d.Opposes e) : Opposes (.finite d) (.finite e)

variable {a a' b b' : Number}

/-- Zero is opposite to itself. -/
theorem Opposes.zero : Number.zero.Opposes .zero :=
  .finite ⟨by rw [Decimal.value_zero, neg_zero], rfl⟩

/-- Opposite decimals fit, or are refused, alike. -/
theorem matching_settle {d e : Decimal} (opposes : d.Opposes e) :
    Matching Opposes (settle d) (settle e) := by
  have turned : Matching Opposes (settle d) (settle d.negate) := by
    unfold settle
    rw [Range.fit_negate]
    cases Range.exact.fit d with
    | error signal => exact .error signal
    | ok fitted => exact .ok (.finite (.negate fitted))
  have alike := alike_settle opposes.alike
  generalize settle d = first, settle d.negate = between, settle e = second at turned alike
  cases turned with
  | error fault =>
    cases alike
    exact .error fault
  | ok opposite =>
    obtain ⟨opposite⟩ := opposite
    cases alike with
    | ok same =>
      obtain ⟨same⟩ := same
      exact .ok (.finite ⟨same.value ▸ opposite.value, same.unit ▸ opposite.unit⟩)

/-- Sums of opposite numbers are opposite, or neither is found. -/
theorem Opposes.add (left : a.Opposes a') (right : b.Opposes b') :
    Matching Opposes (a.add b) (a'.add b') := by
  obtain ⟨left⟩ := left
  obtain ⟨right⟩ := right
  exact matching_settle (left.add right)

/-- Products of opposite numbers with the same factor are opposite, or neither is found. -/
theorem Opposes.mul (left : a.Opposes a') (factor : Decimal) :
    Matching Opposes (a.mul (.finite factor)) (a'.mul (.finite factor)) := by
  obtain ⟨left⟩ := left
  exact matching_settle (left.mul factor)

/-- Quotients of opposite numbers are rounded to opposite numbers, ties included. -/
theorem Opposes.divide (left : a.Opposes a') {divisor : Decimal} (nonzero : divisor.isZero = false)
    (range : Range) (scale : Int) :
    Matching Opposes (divide range a (.finite divisor) scale)
      (divide range a' (.finite divisor) scale) := by
  obtain @⟨d, e, left⟩ := left
  have some_value := (Decimal.value_ne_zero_iff divisor).mpr nonzero
  have divides : (Number.finite divisor).isZero = false := nonzero
  rw [← divide_alike (.finite left.alike) divides]
  simp only [Division.divide_finite range some_value, Decimal.adjusted_negate]
  refine .bind_same fun _ => .bind_same fun unit => ?_
  simp only [Decimal.quotient_negate_left, Decimal.contains_mirrored]
  split
  · exact .ok (.finite (.mirrored _))
  · exact .error _

end Number

namespace Rule

variable {left left' right right' : Number}

/-- Rectangles of opposite heights are opposite. -/
theorem opposes_rectangleArea (opposes : left.Opposes left') (width : Decimal) :
    Matching Number.Opposes (rectangleArea (.finite width) left)
      (rectangleArea (.finite width) left') :=
  Fault.matching_ofSignal (opposes.mul width)

/-- Trapezoids of opposite sides are opposite, with ties rounded the other way. -/
theorem opposes_trapezoidArea (leftOpposes : left.Opposes left')
    (rightOpposes : right.Opposes right') (scale : Int) (width : Decimal) :
    Matching Number.Opposes (trapezoidArea scale (.finite width) left right)
      (trapezoidArea scale (.finite width) left' right') := by
  have doubled := (leftOpposes.add rightOpposes).bind fun _ _ sum => sum.mul width
  exact (Fault.matching_ofSignal doubled).bind fun _ _ opposes => opposes.divide rfl .exact scale

end Rule

namespace Polynomial

/-- Equally many coefficients, which are opposite place by place. -/
def Opposes (p n : Polynomial) : Prop := List.Forall₂ Number.Opposes p.coefficients n.coefficients

variable {p n : Polynomial}

/-- Opposite coefficients have opposite values at every point. -/
theorem opposes_evaluateTerms (x : Decimal) {as bs : List Number}
    (opposes : List.Forall₂ Number.Opposes as bs) :
    Matching Number.Opposes (evaluateTerms (.finite x) as) (evaluateTerms (.finite x) bs) := by
  induction opposes with
  | nil => exact .ok .zero
  | cons own later ih =>
    cases later with
    | nil => exact .ok own
    | cons =>
      rw [evaluateTerms_cons, evaluateTerms_cons]
      exact (ih.bind fun _ _ value => value.mul x).bind fun _ _ scaled => scaled.add own

/-- Opposite polynomials have opposite values at every point. -/
theorem Opposes.evaluate (opposes : p.Opposes n) (x : Decimal) :
    Matching Number.Opposes (p.evaluate (.finite x)) (n.evaluate (.finite x)) :=
  Fault.matching_ofSignal (opposes_evaluateTerms x opposes)

/-- The areas over a step of opposite polynomials are opposite. -/
theorem Opposes.area (opposes : p.Opposes n) (rule : Rule) (scale : Int) (grid : Grid)
    (x : Decimal) :
    Matching Number.Opposes (p.area rule scale grid x) (n.area rule scale grid x) := by
  cases rule with
  | rectangles =>
    exact (opposes.evaluate x).bind fun _ _ height => Rule.opposes_rectangleArea height _
  | trapezoids =>
    exact (opposes.evaluate x).bind fun _ _ left => (opposes.evaluate _).bind fun _ _ right =>
      Rule.opposes_trapezoidArea left right _ _

/-- Totals of opposite polynomials that start from opposite numbers are opposite. -/
theorem Opposes.totalFrom (opposes : p.Opposes n) (rule : Rule) (scale : Int) (grid : Grid)
    {total total' : Number} (start : total.Opposes total') (points : List Decimal) :
    Matching Number.Opposes (p.totalFrom rule scale grid total points)
      (n.totalFrom rule scale grid total' points) :=
  Matching.foldlM (fun x _ _ _ totals => (opposes.area rule scale grid x).bind fun _ _ areas =>
    Fault.matching_ofSignal (totals.add areas)) start

/-- **Integration turns round with the sign.** Opposite polynomials have opposite integrals, or none
for the same reason. -/
theorem Opposes.integral (opposes : p.Opposes n) (rule : Rule) (stepping : Stepping)
    (lower upper : Operand) :
    Matching Number.Opposes (p.integral rule stepping lower upper)
      (n.integral rule stepping lower upper) := by
  refine .bind_same fun l => .bind_same fun u => .bind_same fun grid => .bind_same fun scale => ?_
  exact opposes.totalFrom rule scale grid .zero grid.points

end Polynomial

end ExactQuadrature

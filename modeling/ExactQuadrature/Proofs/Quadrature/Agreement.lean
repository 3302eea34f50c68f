import ExactQuadrature.Proofs.Polynomial.Classes
import ExactQuadrature.Proofs.Quadrature.Restatement

/-! # Integrals of polynomials that agree

Polynomials that agree may have zeros of different signs among their coefficients, and then also
among their values and areas. A total starts without a sign and is never a negative zero
(`Polynomial.unsigned_totalFrom`), so that an area that is a zero leaves no trace of its sign in it:
polynomials that agree have the very same integrals (`Polynomial.Alike.integrate`). With that,
agreement is kept by everything that can be computed from polynomials
(`Polynomial.agreement_congruence`).
-/

namespace ExactQuadrature

/-- Numbers that are alike have the very same rounded quotients. -/
theorem divide_alike {a b divisor : Number} (alike : a.Alike b) (nonzero : divisor.isZero = false)
    (range : Range) (scale : Int) :
    divide range a divisor scale = divide range b divisor scale := by
  cases alike with
  | finite alike =>
    cases divisor with
    | finite y =>
      have some_value := (Decimal.value_ne_zero_iff y).mpr nonzero
      simp only [Division.divide_finite range some_value, alike.adjusted,
        Decimal.quotient_congr alike.value some_value]
    | infinite | notANumber =>
      simp only [divide, Division.digitsNeeded, Number.adjusted, alike.adjusted]
      rfl
  | infinite | notANumber => rfl

namespace Rule

/-- Rectangles of heights that are alike are alike. -/
theorem alike_rectangleArea {left left' : Number} (alike : left.Alike left') (width : Number) :
    Matching Number.Alike (rectangleArea width left) (rectangleArea width left') :=
  Fault.matching_ofSignal (alike.mul (.refl width))

/-- Trapezoids of sides that are alike are alike. -/
theorem alike_trapezoidArea {left left' right right' : Number} (leftAlike : left.Alike left')
    (rightAlike : right.Alike right') (scale : Int) (width : Number) :
    Matching Number.Alike (trapezoidArea scale width left right)
      (trapezoidArea scale width left' right') := by
  have doubled := (leftAlike.add rightAlike).bind fun _ _ sum => sum.mul (.refl width)
  refine (Fault.matching_ofSignal doubled).bind fun a b alike => ?_
  rw [divide_alike alike rfl]
  exact .refl Number.Alike.refl _

end Rule

namespace Polynomial

variable {p q : Polynomial}

/-- The areas over a step of polynomials that are alike are alike. -/
theorem Alike.area (alike : p.Alike q) (rule : Rule) (scale : Int) (grid : Grid) (x : Decimal) :
    Matching Number.Alike (p.area rule scale grid x) (q.area rule scale grid x) := by
  cases rule with
  | rectangles => exact (alike.evaluate _).bind fun _ _ height => Rule.alike_rectangleArea height _
  | trapezoids =>
    exact (alike.evaluate _).bind fun _ _ left => (alike.evaluate _).bind fun _ _ right =>
      Rule.alike_trapezoidArea left right _ _

/-- Areas that are alike add up to the very same total. -/
theorem Alike.totalFrom (alike : p.Alike q) (rule : Rule) (scale : Int) (grid : Grid)
    {total : Number} (unsigned : total.UnsignedZero) (points : List Decimal) :
    p.totalFrom rule scale grid total points = q.totalFrom rule scale grid total points := by
  induction points generalizing total with
  | nil => rfl
  | cons x rest ih =>
    have areas := alike.area rule scale grid x
    simp only [Polynomial.totalFrom, List.foldlM_cons]
    generalize p.area rule scale grid x = first, q.area rule scale grid x = second at areas ⊢
    cases areas with
    | error fault => rfl
    | @ok area other areas =>
      rw [bind_ok, bind_ok, areas.add_unsigned unsigned]
      cases added : total.add other with
      | error signal => rfl
      | ok next => exact ih (unsigned.add added)

/-- Polynomials that are alike are integrated in the very same way. -/
theorem Alike.integrate (alike : p.Alike q) (rule : Rule) (stepping : Stepping)
    (lower upper : Operand) :
    p.integrate rule stepping lower upper = q.integrate rule stepping lower upper := by
  have sum : ∀ (scale : Int) (grid : Grid), (rule.sum scale p.integrand grid).run () =
      (rule.sum scale q.integrand grid).run () := by
    intro scale grid
    rw [run_sum, run_sum, alike.totalFrom rule scale grid Number.unsigned_zero]
  simp only [Polynomial.integrate, ExactQuadrature.integrate, sum]

/-- A total that starts without a negative zero does not become one. -/
theorem unsigned_totalFrom {rule : Rule} {scale : Int} {grid : Grid} {total result : Number}
    (unsigned : total.UnsignedZero) {points : List Decimal}
    (found : p.totalFrom rule scale grid total points = .ok result) : result.UnsignedZero := by
  induction points generalizing total with
  | nil =>
    cases found
    exact unsigned
  | cons x rest ih =>
    simp only [Polynomial.totalFrom, List.foldlM_cons] at found
    obtain ⟨next, step, later⟩ := bind_eq_ok.mp found
    obtain ⟨area, _, added⟩ := bind_eq_ok.mp step
    exact ih (unsigned.add (Fault.ofSignal_eq_ok.mp added)) later

/-- An integral that is found is no negative zero. -/
theorem unsigned_integrate {rule : Rule} {stepping : Stepping} {lower upper : Operand}
    {journal : Journal} {total : Number}
    (found : (p.integrate rule stepping lower upper).outcome journal = .ok total) :
    total.UnsignedZero := by
  rw [(p.yields_integral rule stepping lower upper).outcome, integral] at found
  obtain ⟨l, _, found⟩ := bind_eq_ok.mp found
  obtain ⟨u, _, found⟩ := bind_eq_ok.mp found
  obtain ⟨grid, _, found⟩ := bind_eq_ok.mp found
  obtain ⟨scale, _, found⟩ := bind_eq_ok.mp found
  exact unsigned_totalFrom Number.unsigned_zero found

/-- **Agreement is a congruence.** Among polynomials of decimals, agreement is an equivalence
relation, and a collection has as many distinct members as there are classes. Polynomials that agree
have sums and trimmed forms that agree, are written in the same way, have at every point values that
are alike, and are integrated in the very same way, results and failures alike. No integral is a
negative zero. -/
theorem agreement_congruence :
    (Equivalence fun p q : { p : Polynomial // p.IsFinite } => p.1.agrees q.1 = .ok true) ∧
    (∀ ps : List MadePolynomial, (∀ p ∈ ps, p.polynomial.IsFinite) → MadePolynomial.Sharing ps →
      MadePolynomial.countDistinct ps = .ok (MadePolynomial.classes ps).ncard) ∧
    (∀ p p' q q' : { p : Polynomial // p.IsFinite },
      p.1.agrees p'.1 = .ok true → q.1.agrees q'.1 = .ok true →
        Matching (fun sum sum' => sum.agrees sum' = .ok true) (p.1.add q.1) (p'.1.add q'.1) ∧
        p.1.trimmed.agrees p'.1.trimmed = .ok true ∧
        (∃ written, p.1.text = .ok written ∧ p'.1.text = .ok written) ∧
        (∀ x, Matching Number.Alike (p.1.evaluate x) (p'.1.evaluate x)) ∧
        ∀ rule stepping lower upper,
          p.1.integrate rule stepping lower upper = p'.1.integrate rule stepping lower upper) ∧
    ∀ (p : Polynomial) rule stepping lower upper journal total,
      (p.integrate rule stepping lower upper).outcome journal = .ok total → total.UnsignedZero := by
  refine ⟨equivalence_agrees, fun ps => MadePolynomial.countDistinct_eq, ?_, ?_⟩
  · rintro ⟨p, finiteP⟩ ⟨p', finiteP'⟩ ⟨q, finiteQ⟩ ⟨q', finiteQ'⟩ first second
    have alikeP := (agrees_eq_true_iff finiteP finiteP').mp first
    have alikeQ := (agrees_eq_true_iff finiteQ finiteQ').mp second
    refine ⟨?_, ?_, ?_, alikeP.evaluate, alikeP.integrate⟩
    · exact alikeP.matching_add alikeQ finiteP finiteP' finiteQ finiteQ'
    · exact (agrees_eq_true_iff finiteP.trimmed finiteP'.trimmed).mpr alikeP.trimmed
    · obtain ⟨ds, shape⟩ := finiteP.exists_decimals
      exact ⟨_, text_eq shape, (alikeP.text finiteP finiteP').symm.trans (text_eq shape)⟩
  · intro p rule stepping lower upper journal total found
    exact unsigned_integrate found

/-- A polynomial with a negative zero beside one without, and a trimmed form that shares its
numbers: three polynomials in two classes. -/
theorem agreement_congruence_signed :
    let signed : Polynomial := ⟨[.finite ⟨true, 0, -1⟩, .ofInt 1, .zero], List.cons_ne_nil _ _⟩
    let unsigned : Polynomial := ⟨[.finite ⟨false, 0, -1⟩, .ofInt 1, .zero], List.cons_ne_nil _ _⟩
    let all : List MadePolynomial := [⟨signed.trimmed, 0⟩, ⟨signed, 0⟩, ⟨unsigned, 1⟩]
    signed ≠ unsigned ∧ (MadePolynomial.classes all).ncard = 2 ∧
      signed.integrate .trapezoids (.ofWhole 2 3) (.whole 0) (.text "1") =
        unsigned.integrate .trapezoids (.ofWhole 2 3) (.whole 0) (.text "1") := by
  intro signed unsigned all
  have finite : signed.IsFinite := by decide
  have finite' : unsigned.IsFinite := by decide
  obtain ⟨_, counts, congruent, _⟩ := agreement_congruence
  have sharing : MadePolynomial.Sharing all := by
    have single : MadePolynomial.Sharing [⟨unsigned, 1⟩] :=
      MadePolynomial.Sharing.fresh nofun nofun
    have pair : MadePolynomial.Sharing [⟨signed, 0⟩, ⟨unsigned, 1⟩] := single.fresh (by decide)
    exact pair.trimmed (List.mem_cons_self)
  have counted : MadePolynomial.countDistinct all = .ok 2 := by decide +kernel
  have agree : signed.agrees unsigned = .ok true := by decide +kernel
  have both := congruent ⟨signed, finite⟩ ⟨unsigned, finite'⟩ ⟨signed, finite⟩ ⟨unsigned, finite'⟩
    agree agree
  refine ⟨by decide, ?_, both.2.2.2.2 _ _ _ _⟩
  exact Except.ok.inj ((counts all (by decide) sharing).symm.trans counted)

end Polynomial

end ExactQuadrature

import ExactQuadrature.Polynomial.Rendering
import ExactQuadrature.Proofs.Decimal.Plain
import ExactQuadrature.Proofs.Expression.Written
import ExactQuadrature.Proofs.Outcome

/-! # Written polynomials are expressions

A polynomial with finite coefficients has a written form, and this is a written expression
(`Polynomial.chars_eq`): the terms of its nonzero coefficients from the highest power down, or a
lone zero if there are none. The form therefore depends on these terms alone.
-/

namespace ExactQuadrature

namespace WrittenPower

/-- The power as it is rendered. -/
def ofNat (power : Nat) : WrittenPower := if 1 < power then .raised power else .bare

/-- A power is written as the program writes it. -/
theorem chars_ofNat (power : Nat) : (ofNat power).chars = Polynomial.powerChars power := by
  unfold ofNat Polynomial.powerChars
  split <;> rfl

/-- A power other than zero is the one that is written. -/
theorem exponent_ofNat {power : Nat} (positive : power ≠ 0) : (ofNat power).exponent = power := by
  unfold ofNat
  split
  · rfl
  · change 1 = power
    omega

end WrittenPower

namespace WrittenTerm

/-- The rendered term of a coefficient at a power, without its sign. -/
def render (d : Decimal) (power : Nat) : WrittenTerm :=
  if power = 0 then .constant d.plainNumeral
  else if |d.value| = 1 then .monic (.ofNat power)
  else .product d.plainNumeral false (.ofNat power)

theorem exponent_render (d : Decimal) (power : Nat) : (render d power).exponent = power := by
  unfold render
  by_cases constant : power = 0
  · rw [if_pos constant, constant]
    rfl
  · rw [if_neg constant]
    split
    · exact WrittenPower.exponent_ofNat constant
    · exact WrittenPower.exponent_ofNat constant

/-- A rendered term is well formed. -/
theorem wellFormed_render (d : Decimal) {power : Nat} (small : power ≤ largestExponent) :
    (render d power).WellFormed := by
  unfold render
  by_cases constant : power = 0
  · rw [if_pos constant]
    exact d.wellFormed_plainNumeral
  · have exponent := WrittenPower.exponent_ofNat constant
    rw [if_neg constant]
    split
    · exact exponent.le.trans small
    · exact ⟨d.wellFormed_plainNumeral, exponent.le.trans small⟩

theorem chars_ne_nil (d : Decimal) (power : Nat) : (render d power).chars ≠ [] := by
  have digits : d.plainNumeral.chars ≠ [] :=
    List.append_ne_nil_of_left_ne_nil d.wellFormed_plainNumeral.whole.ne_nil _
  have letter : (WrittenPower.ofNat power).chars ≠ [] := by
    unfold WrittenPower.ofNat
    split <;> exact List.cons_ne_nil _ _
  unfold render
  split
  · exact digits
  · split
    · exact letter
    · exact List.append_ne_nil_of_right_ne_nil _ letter

end WrittenTerm

namespace Number

theorem sameValue_finite (x y : Decimal) :
    sameValue (.finite x) (.finite y) = .ok (x.sameValue y) := rfl

theorem lessThan_finite (x y : Decimal) :
    lessThan (.finite x) (.finite y) = .ok (x.lessThan y) := rfl

end Number

namespace Polynomial

/-- A factor of one is not written, and one of minus one is just the sign. -/
theorem factorChars_finite (d : Decimal) :
    factorChars (.finite d) =
      .ok (if d.value = -1 then ['-'] else if d.value = 1 then [] else d.plainChars) := by
  have minus := Decimal.sameValue_iff_value d (.ofInt (-1))
  have one := Decimal.sameValue_iff_value d (.ofInt 1)
  rw [Decimal.value_ofInt, Int.cast_neg, Int.cast_one] at minus
  rw [Decimal.value_ofInt, Int.cast_one] at one
  unfold factorChars Number.ofInt
  rw [Number.sameValue_finite, Number.sameValue_finite, bind_ok]
  by_cases below : d.value = -1
  · rw [if_pos (minus.mpr below), if_pos below]
    rfl
  · rw [if_neg (mt minus.mp below), if_neg below]
    by_cases unit : d.value = 1
    · rw [bind_ok, if_pos (one.mpr unit), if_pos unit]
      rfl
    · rw [bind_ok, if_neg (mt one.mp unit), if_neg unit]
      rfl

/-- A plus joins a positive term to those before it. -/
theorem joinChars_finite {d : Decimal} (nonzero : d.value ≠ 0) (started : Bool) :
    joinChars started (.finite d) = .ok (if started && !d.negative then ['+'] else []) := by
  have above := Decimal.lessThan_iff_value .zero d
  rw [Decimal.value_zero] at above
  cases started with
  | false => rfl
  | true =>
    unfold joinChars Number.zero
    rw [Number.lessThan_finite, bind_ok, Bool.true_and]
    rcases lt_or_gt_of_ne nonzero with negative | positive
    · rw [Bool.eq_false_iff.mpr (mt above.mp negative.not_gt),
        Decimal.negative_of_value_neg negative]
      rfl
    · rw [above.mpr positive, Decimal.negative_of_value_pos positive]
      rfl

/-- Factor and power are the sign and the rendered term. -/
theorem factor_eq_render {d : Decimal} (nonzero : d.value ≠ 0) {power : Nat}
    (positive : power ≠ 0) :
    (if d.value = -1 then ['-'] else if d.value = 1 then [] else d.plainChars) ++
        powerChars power =
      Decimal.signText d.negative ++ (WrittenTerm.render d power).chars := by
  have units : |d.value| = 1 ↔ d.value = 1 ∨ d.value = -1 := abs_eq zero_le_one
  unfold WrittenTerm.render
  rw [if_neg positive, ← WrittenPower.chars_ofNat]
  by_cases below : d.value = -1
  · have signed : d.negative = true := Decimal.negative_of_value_neg (by linarith)
    rw [if_pos below, if_pos (units.mpr (.inr below)), signed]
    rfl
  · rw [if_neg below]
    by_cases unit : d.value = 1
    · have unsigned : d.negative = false := Decimal.negative_of_value_pos (by linarith)
      rw [if_pos unit, if_pos (units.mpr (.inl unit)), unsigned]
      rfl
    · rw [if_neg unit, if_neg (fun either => (units.mp either).elim unit below),
        Decimal.plainChars_eq, (Decimal.value_ne_zero_iff d).mp nonzero, Bool.not_false,
        Bool.and_true, List.append_assoc]
      change _ = _ ++ (d.plainNumeral.chars ++ [] ++ (WrittenPower.ofNat power).chars)
      rw [List.append_nil]

/-- The sign before a rendered term, given whether any term is written before it. -/
def signChars (started negative : Bool) : List Char :=
  (if started && !negative then ['+'] else []) ++ Decimal.signText negative

/-- A nonzero coefficient is rendered as its term with its sign. -/
theorem termChars_finite {d : Decimal} (nonzero : d.isZero = false) (started : Bool) (power : Nat) :
    termChars started (.finite d) power =
      .ok (signChars started d.negative ++ (WrittenTerm.render d power).chars) := by
  have some_value := (Decimal.value_ne_zero_iff d).mpr nonzero
  unfold termChars signChars
  rw [show (Number.finite d).isZero = false from nonzero, if_neg Bool.false_ne_true,
    joinChars_finite some_value, bind_ok, List.append_assoc]
  by_cases constant : power = 0
  · rw [if_pos constant]
    unfold WrittenTerm.render
    rw [if_pos constant, show (Number.finite d).plainChars = d.plainChars from rfl,
      Decimal.plainChars_eq, nonzero, Bool.not_false, Bool.and_true]
    rfl
  · rw [if_neg constant, factorChars_finite, bind_ok, ← factor_eq_render some_value constant,
      ← List.append_assoc]
    rfl

/-- A zero is not written. -/
theorem termChars_zero {d : Decimal} (zero : d.isZero = true) (started : Bool) (power : Nat) :
    termChars started (.finite d) power = .ok [] := by
  unfold termChars
  rw [show (Number.finite d).isZero = true from zero]
  rfl

/-- The terms to be rendered: the nonzero decimals of a list with their places, last one first. -/
def places (ds : List Decimal) : List (Decimal × Nat) :=
  ds.zipIdx.reverse.filter fun place => !place.1.isZero

/-- Rendered terms with their signs. -/
def rendered (places : List (Decimal × Nat)) : List (Bool × WrittenTerm) :=
  places.map fun place => (place.1.negative, .render place.1 place.2)

/-- Terms behind the first are written with their signs. -/
theorem termsChars_started (listed : List (Decimal × Nat)) :
    termsChars true (listed.map (Prod.map Number.finite id)) =
      .ok ((rendered (listed.filter fun place => !place.1.isZero)).flatMap fun term =>
        WrittenExpression.signChar term.1 :: term.2.chars) := by
  induction listed with
  | nil => rfl
  | cons place lower ih =>
    obtain ⟨d, power⟩ := place
    rw [List.map_cons, termsChars]
    cases zero : d.isZero
    · have sign : signChars true d.negative = [WrittenExpression.signChar d.negative] := by
        cases d.negative <;> rfl
      rw [List.filter_cons_of_pos (by rw [zero]; rfl)]
      change termChars true (.finite d) power >>= _ = _
      rw [termChars_finite zero, bind_ok, Bool.true_or, ih, bind_ok, sign]
      rfl
    · rw [List.filter_cons_of_neg (by rw [zero]; exact Bool.false_ne_true)]
      change termChars true (.finite d) power >>= _ = _
      rw [termChars_zero zero, bind_ok, Bool.true_or, ih]
      rfl

end Polynomial

namespace WrittenExpression

/-- The expression with the given terms, whose first sign is left out if it is a plus. Without a
term it is a lone zero. -/
def ofTerms : List (Bool × WrittenTerm) → WrittenExpression
  | [] => ⟨none, .constant ⟨['0'], []⟩, []⟩
  | (negative, first) :: rest => ⟨if negative then some true else none, first, rest⟩

/-- The first term is written without a plus, the others with their signs. -/
theorem chars_ofTerms_cons (negative : Bool) (first : WrittenTerm)
    (rest : List (Bool × WrittenTerm)) :
    (ofTerms ((negative, first) :: rest)).chars =
      Polynomial.signChars false negative ++ first.chars ++
        rest.flatMap fun term => signChar term.1 :: term.2.chars := by
  cases negative <;> rfl

end WrittenExpression

namespace Polynomial

open WrittenExpression

/-- The terms that are not zero make up the text. -/
theorem termsChars_fresh (listed : List (Decimal × Nat)) :
    termsChars false (listed.map (Prod.map Number.finite id)) =
      .ok (match rendered (listed.filter fun place => !place.1.isZero) with
        | [] => []
        | first :: rest => (ofTerms (first :: rest)).chars) := by
  induction listed with
  | nil => rfl
  | cons place lower ih =>
    obtain ⟨d, power⟩ := place
    rw [List.map_cons, termsChars]
    cases zero : d.isZero
    · have written : (signChars false d.negative ++
          (WrittenTerm.render d power).chars).isEmpty = false := by
        rw [List.isEmpty_eq_false_iff]
        exact List.append_ne_nil_of_right_ne_nil _ (WrittenTerm.chars_ne_nil d power)
      rw [List.filter_cons_of_pos (by rw [zero]; rfl)]
      change termChars false (.finite d) power >>= _ = _
      rw [termChars_finite zero, bind_ok, written, Bool.not_false, Bool.or_true,
        termsChars_started, bind_ok]
      change _ = Except.ok (ofTerms ((d.negative, WrittenTerm.render d power) :: _)).chars
      rw [chars_ofTerms_cons]
      rfl
    · rw [List.filter_cons_of_neg (by rw [zero]; exact Bool.false_ne_true)]
      change termChars false (.finite d) power >>= _ = _
      rw [termChars_zero zero, bind_ok]
      change (termsChars false _ >>= _) = _
      rw [ih]
      rfl

/-- **Written polynomials are expressions.** -/
theorem chars_eq {p : Polynomial} {ds : List Decimal} (finite : p.coefficients = ds.map .finite) :
    p.chars = .ok (ofTerms (rendered (places ds))).chars := by
  unfold chars
  rw [finite, List.zipIdx_map, ← List.map_reverse, termsChars_fresh, bind_ok]
  unfold places
  cases ds.zipIdx.reverse.filter fun place => !place.1.isZero with
  | nil => rfl
  | cons first rest =>
    obtain ⟨d, power⟩ := first
    have written : (ofTerms (rendered ((d, power) :: rest))).chars.isEmpty = false := by
      rw [List.isEmpty_eq_false_iff]
      change (ofTerms ((d.negative, WrittenTerm.render d power) :: rendered rest)).chars ≠ []
      rw [chars_ofTerms_cons]
      exact List.append_ne_nil_of_left_ne_nil
        (List.append_ne_nil_of_right_ne_nil _ (WrittenTerm.chars_ne_nil d power)) _
    change Except.ok (if (ofTerms (rendered ((d, power) :: rest))).chars.isEmpty = true then _
      else _) = _
    rw [written]
    rfl

/-- The text of a polynomial is the expression of its rendered terms. -/
theorem text_eq {p : Polynomial} {ds : List Decimal} (finite : p.coefficients = ds.map .finite) :
    p.text = .ok (String.ofList (ofTerms (rendered (places ds))).chars) := by
  unfold text
  rw [chars_eq finite]
  rfl

end Polynomial

end ExactQuadrature

import ExactQuadrature.Polynomial.Basic
import ExactQuadrature.Proofs.Decimal.Representation
import ExactQuadrature.Proofs.Outcome
import Mathlib.Algebra.BigOperators.Ring.Finset

/-! # The value of a polynomial at a point

The value that is found for a polynomial at a decimal is the sum of its coefficients times the
powers of the point, without any rounding (`Polynomial.value_evaluate`), although it is found by
Horner's scheme and every product and sum has to fit the widest range.
-/

namespace ExactQuadrature

open Finset

namespace Polynomial

/-- A polynomial has at least one coefficient. -/
theorem decimals_ne_nil {p : Polynomial} {ds : List Decimal}
    (finite : p.coefficients = ds.map .finite) :
    ds ≠ [] := by
  rintro rfl
  exact p.nonempty finite

/-- The polynomial with some coefficients as a function of rational numbers. -/
def exactValue (ds : List Decimal) (x : ℚ) : ℚ :=
  ∑ power ∈ range ds.length, (ds.getD power .zero).value * x ^ power

theorem exactValue_singleton (d : Decimal) (x : ℚ) : exactValue [d] x = d.value := by
  rw [exactValue, List.length_singleton, sum_range_one, List.getD_cons_zero, pow_zero, mul_one]

/-- One step of Horner's scheme. -/
theorem exactValue_cons (d : Decimal) (rest : List Decimal) (x : ℚ) :
    exactValue (d :: rest) x = exactValue rest x * x + d.value := by
  simp only [exactValue, List.length_cons]
  rw [sum_range_succ', List.getD_cons_zero, pow_zero, mul_one, sum_mul]
  congr 1
  refine sum_congr rfl fun power _ => ?_
  rw [List.getD_cons_succ, pow_succ, mul_assoc]

/-- Zeros have no value at any point. -/
theorem exactValue_zeros {zeros : List Decimal} (none : ∀ z ∈ zeros, z.isZero = true) (x : ℚ) :
    exactValue zeros x = 0 := by
  induction zeros with
  | nil => rfl
  | cons z rest ih =>
    obtain ⟨own, others⟩ := List.forall_mem_cons.mp none
    rw [exactValue_cons, ih others, zero_mul, zero_add, Decimal.value_eq_zero_iff, own]

/-- A further coefficient multiplies by the point and is added. -/
theorem evaluateTerms_cons (x : Number) (c next : Number) (rest : List Number) :
    evaluateTerms x (c :: next :: rest) =
      (evaluateTerms x (next :: rest) >>= (·.mul x)) >>= (·.add c) := by
  simp only [evaluateTerms]
  cases evaluateTerms x (next :: rest) <;> rfl

/-- A value that is found is the exact one. -/
theorem value_evaluateTerms {x : Decimal} {ds : List Decimal} {result : Number}
    (found : evaluateTerms (.finite x) (ds.map .finite) = .ok result) :
    ∃ value : Decimal, result = .finite value ∧ value.value = exactValue ds x.value := by
  induction ds generalizing result with
  | nil =>
    cases found
    exact ⟨.zero, rfl, Decimal.value_zero⟩
  | cons d rest ih =>
    cases rest with
    | nil =>
      cases found
      exact ⟨d, rfl, (exactValue_singleton d x.value).symm⟩
    | cons next rest =>
      rw [List.map_cons, List.map_cons, evaluateTerms_cons] at found
      obtain ⟨_, inner, added⟩ := bind_eq_ok.mp found
      obtain ⟨_, evaluated, multiplied⟩ := bind_eq_ok.mp inner
      obtain ⟨value, rfl, same⟩ := ih evaluated
      obtain ⟨product, rfl, productValue⟩ := Number.value_of_mul multiplied
      obtain ⟨sum, rfl, sumValue⟩ := Number.value_of_add added
      exact ⟨sum, rfl, by rw [sumValue, productValue, same, exactValue_cons d]⟩

/-- **Values are exact.** -/
theorem value_evaluate {p : Polynomial} {ds : List Decimal}
    (finite : p.coefficients = ds.map .finite)
    {x : Decimal} {result : Number} (found : p.evaluate (.finite x) = .ok result) :
    ∃ value : Decimal, result = .finite value ∧ value.value = exactValue ds x.value := by
  rw [evaluate, finite, Fault.ofSignal_eq_ok] at found
  exact value_evaluateTerms found

end Polynomial

end ExactQuadrature

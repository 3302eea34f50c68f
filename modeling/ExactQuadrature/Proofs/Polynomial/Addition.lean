import ExactQuadrature.Proofs.Expression.Sum
import ExactQuadrature.Proofs.Polynomial.Evaluation
import Mathlib.Data.List.GetD

/-! # The value of a sum of polynomials

A sum of two polynomials has at every place the exact sum of the two coefficients there
(`Polynomial.coefficients_of_add`), and so at every point the sum of both values, however long the
polynomials are (`Polynomial.exactValue_of_add`).
-/

namespace ExactQuadrature

open Finset

namespace Polynomial

variable {p q r : Polynomial} {ds es : List Decimal}

/-- Places past the end of a polynomial add nothing to its value. -/
theorem exactValue_eq_sum (ds : List Decimal) {n : Nat} (long : ds.length ≤ n) (x : ℚ) :
    exactValue ds x = ∑ power ∈ range n, (ds.getD power .zero).value * x ^ power := by
  refine sum_subset (range_mono long) fun power _ past => ?_
  rw [List.getD_eq_default _ _ (not_lt.mp (mt mem_range.mpr past)), Decimal.value_zero, zero_mul]

/-- A list of decimals holds its values, and zeros behind them. -/
theorem placeHolds_getD (ds : List Decimal) (place : Nat) :
    PlaceHolds (ds.map Number.finite)[place]? (ds.getD place .zero).value := by
  rw [List.getElem?_map, List.getD_eq_getElem?_getD]
  cases ds[place]? with
  | none =>
    rw [Option.getD_none, Decimal.value_zero]
    exact .absent
  | some d => exact .present d

/-- The coefficients of a sum: as many as the longer operand has, each with the exact value. -/
theorem coefficients_of_add (finiteP : p.coefficients = ds.map .finite)
    (finiteQ : q.coefficients = es.map .finite) (added : p.add q = .ok r) :
    ∃ cs : List Decimal, r.coefficients = cs.map .finite ∧ cs.length = max ds.length es.length ∧
      (∀ place, (cs.getD place .zero).value = (ds.getD place .zero).value +
          (es.getD place .zero).value) ∧
      ∀ c ∈ cs, c.Collected := by
  obtain ⟨total, places⟩ := add_eq_ok_iff.mp added
  rw [finiteP, finiteQ] at total places
  have found : ∀ (place : Nat) (c : Number), r.coefficients[place]? = some c →
      ∃ d : Decimal, c = .finite d ∧
        d.value = (ds.getD place .zero).value + (es.getD place .zero).value ∧ d.Collected :=
    fun place c there =>
      placeHolds_of_addTerms (placeHolds_getD ds place) (placeHolds_getD es place)
        (places place c there)
  have each : ∀ c ∈ r.coefficients, ∃ d : Decimal, c = .finite d := by
    intro c present
    obtain ⟨place, there⟩ := List.mem_iff_getElem?.mp present
    obtain ⟨d, shape, _⟩ := found place c there
    exact ⟨d, shape⟩
  obtain ⟨cs, shape⟩ := exists_map_eq each
  rw [shape] at total found
  simp only [List.length_map] at total
  have own : ∀ (place : Nat) (d : Decimal), cs[place]? = some d →
      d.value = (ds.getD place .zero).value + (es.getD place .zero).value ∧ d.Collected := by
    intro place d there
    obtain ⟨_, same, holds⟩ := found place (.finite d) (by rw [List.getElem?_map, there]; rfl)
    cases same
    exact holds
  refine ⟨cs, shape, total, ?_, ?_⟩
  · intro place
    rw [List.getD_eq_getElem?_getD]
    cases there : cs[place]? with
    | some d => exact (own place d there).1
    | none =>
      have past := List.getElem?_eq_none_iff.mp there
      rw [Option.getD_none, List.getD_eq_default _ _ (by omega),
        List.getD_eq_default _ _ (by omega), Decimal.value_zero, add_zero]
  · intro c present
    obtain ⟨place, there⟩ := List.mem_iff_getElem?.mp present
    exact (own place c there).2

/-- **Values add up.** At every point a sum of polynomials has the sum of their values. -/
theorem exactValue_of_add (finiteP : p.coefficients = ds.map .finite)
    (finiteQ : q.coefficients = es.map .finite) (added : p.add q = .ok r) :
    ∃ cs : List Decimal, r.coefficients = cs.map .finite ∧
      ∀ x, exactValue cs x = exactValue ds x + exactValue es x := by
  obtain ⟨cs, shape, total, values, _⟩ := coefficients_of_add finiteP finiteQ added
  refine ⟨cs, shape, fun x => ?_⟩
  rw [exactValue_eq_sum cs total.le, exactValue_eq_sum ds (le_max_left ds.length es.length),
    exactValue_eq_sum es (le_max_right ds.length es.length), ← sum_add_distrib]
  refine sum_congr rfl fun power _ => ?_
  rw [values, add_mul]

end Polynomial

end ExactQuadrature

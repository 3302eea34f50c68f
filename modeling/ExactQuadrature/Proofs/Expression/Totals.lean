import ExactQuadrature.Proofs.Expression.Meaning
import ExactQuadrature.Proofs.Polynomial.Totals

/-! # Sums of terms down to the representation

The sum of the terms of an expression has totals as its coefficients: at every place the total of
the coefficients written for that power, among zeros that leave no trace (`Expression.isTotal_sum`).
An expression has a digit for every digit that these totals need, so the totals lie in the widest
range as they stand unless the expression is longer than that range has digits
(`WrittenExpression.exists_total`).
-/

namespace ExactQuadrature

namespace Expression

open ExactQuadrature.Polynomial
open Decimal (total finest)

/-- What is added up for some terms: the zero polynomial and a monomial for every term. -/
def operands (terms : List Term) : List (List Decimal) :=
  [.zero] :: terms.map fun term => monomialList term.coefficient term.exponent

theorem operands_append (before after : List Term) :
    operands (before ++ after) =
      operands before ++ after.map fun term => monomialList term.coefficient term.exponent := by
  rw [operands, List.map_append]
  rfl

/-- The lowest place has a coefficient in every operand. -/
theorem column_operands_zero (terms : List Term) : column (operands terms) 0 ≠ [] :=
  List.cons_ne_nil _ _

theorem isTotal_zero : Polynomial.zero.IsTotal (operands []) := by
  intro place
  cases place with
  | zero => decide
  | succ place => rfl

/-- Terms have a sum as long as all running totals lie in the widest range as they stand, and its
coefficients are totals. -/
theorem isTotal_sum {terms : List Term}
    (within : ∀ before, before <+: terms → TotalsWithin (operands before)) :
    ∃ p, sum terms = .ok p ∧ p.IsTotal (operands terms) := by
  induction terms using List.reverseRecOn with
  | nil => exact ⟨.zero, rfl, isTotal_zero⟩
  | append_singleton terms term ih =>
    have earlier := List.prefix_append terms [term]
    obtain ⟨running, found, isTotal⟩ := ih fun before inside => within before (inside.trans earlier)
    have both := within _ List.prefix_rfl
    rw [operands_append] at both ⊢
    obtain ⟨p, added, all⟩ := isTotal.standsFor.add
      (standsFor_singleton (coefficients_monomial term.coefficient term.exponent))
      (within terms earlier) both
    exact ⟨p, by rw [sum_snoc, found, bind_ok]; exact added, all⟩

/-- The zeros of monomials add nothing to the values of totals. -/
theorem value_total_column (terms : List Term) (place : Nat) :
    (total (column (operands terms) place)).value = valueAt terms place := by
  induction terms using List.reverseRecOn with
  | nil =>
    cases place with
    | zero => exact Decimal.value_zero
    | succ place => exact Decimal.value_zero
  | append_singleton terms term ih =>
    rw [operands_append, column_append, ← Decimal.total_add_total, Decimal.value_add, ih,
      valueAt_snoc, List.map_singleton, column_singleton, monomialList, getElem?_replicate_concat]
    congr 1
    rcases Nat.lt_trichotomy place term.exponent with below | rfl | above
    · rw [if_pos below, if_neg (by omega)]
      exact Decimal.value_zero
    · rw [if_neg (lt_irrefl _), if_pos rfl, if_pos rfl, Option.toList_some, Decimal.value_total,
        List.map_singleton, List.sum_singleton]
    · rw [if_neg (by omega), if_neg (by omega), if_neg (by omega)]
      exact Decimal.value_zero

/-- The zeros of monomials are in the unit one. -/
theorem le_finest_column {terms : List Term} {bound : Int} (nonpos : bound ≤ 0)
    (each : ∀ term ∈ terms, bound ≤ term.coefficient.exponent) (place : Nat) :
    bound ≤ finest (column (operands terms) place) := by
  refine Decimal.le_finest nonpos fun d present => ?_
  obtain ⟨ds, listed, there⟩ := List.mem_filterMap.mp present
  have inside := List.mem_of_getElem? there
  rcases List.mem_cons.mp listed with rfl | own
  · rw [List.mem_singleton.mp inside]
    exact nonpos
  · obtain ⟨term, known, rfl⟩ := List.mem_map.mp own
    rcases List.mem_append.mp inside with zero | last
    · rw [List.eq_of_mem_replicate zero]
      exact nonpos
    · rw [List.mem_singleton.mp last]
      exact each term known

/-- Terms in another order have the same sum, where they have one. -/
theorem totalAt?_operands_perm {terms others : List Term} (perm : terms.Perm others) (place : Nat) :
    totalAt? (operands terms) place = totalAt? (operands others) place :=
  totalAt?_perm ((perm.map _).cons _) place

/-- The zero polynomial that every sum begins with counts only once. -/
theorem operands_append_perm (before after : List Term) :
    (operands before ++ operands after).Perm (operands (before ++ after) ++ [[.zero]]) := by
  rw [operands_append]
  exact (List.perm_middle.trans (List.perm_append_singleton _ _).symm)

end Expression

namespace WrittenExpression

open Expression ExactQuadrature.Polynomial

/-- The exponent of a coefficient is that of its last digit. -/
theorem exponent_toTerm (negative : Bool) (term : WrittenTerm) :
    (term.toTerm negative).coefficient.exponent = -(term.numeral.fraction.length : Int) := by
  cases negative <;> cases term <;> rfl

/-- The totals of every running sum lie in the widest range as they stand, if the numerals have no
more digits than the range. -/
theorem totalsWithin_running {e : WrittenExpression} (formed : e.WellFormed)
    (few : wholeDigits e.signedTerms + fractionDigits e.signedTerms ≤ Range.exact.precision)
    {before : List Term} (within : before <+: e.terms) : TotalsWithin (operands before) := by
  intro place
  have below := (digitsWithin_running formed within place).below
  rw [← value_total_column] at below
  refine Range.contains_of_digits below ?_ ?_ few
  · rw [Decimal.exponent_total]
    refine le_finest_column (by omega) (fun term present => ?_) place
    obtain ⟨written, listed, rfl⟩ := List.mem_map.mp (within.subset present)
    rw [exponent_toTerm, neg_le_neg_iff, Nat.cast_le]
    exact List.single_le_sum (fun _ _ => Nat.zero_le _) _ (List.mem_map.mpr ⟨written, listed, rfl⟩)
  · rw [Decimal.exponent_total]
    exact Decimal.finest_nonpos _

/-- **The sum of an expression** exists, and its coefficients are totals, if the numerals have no
more digits than the widest range. -/
theorem exists_total {e : WrittenExpression} (formed : e.WellFormed)
    (few : wholeDigits e.signedTerms + fractionDigits e.signedTerms ≤ Range.exact.precision) :
    ∃ p, Expression.sum e.terms = .ok p ∧ p.IsTotal (operands e.terms) :=
  isTotal_sum fun _ within => totalsWithin_running formed few within

end WrittenExpression

end ExactQuadrature

import ExactQuadrature.Proofs.Polynomial.Addition
import ExactQuadrature.Proofs.Polynomial.Trimming
import Mathlib.LinearAlgebra.Vandermonde

/-! # Evaluation without rounding

Horner's scheme finds a value exactly when all its products and sums are represented in the widest
range (`Polynomial.Evaluable`), and then the value is exact; else it is refused as inexact. Values
therefore add up, and trimming keeps them. A polynomial is determined by its values at as many whole
numbers as it has coefficients (`Polynomial.values_unique`), so that the trimmed coefficients are
the shortest with their values (`Polynomial.evaluation_exact`).
-/

namespace ExactQuadrature

open Finset

namespace Polynomial

variable {p q r : Polynomial} {ds es : List Decimal} {x : Decimal}

/-- No product and no sum of Horner's scheme at a point exceeds the widest range. The scheme starts
with the last coefficient as it stands. -/
def Evaluable (ds : List Decimal) (x : ℚ) : Prop :=
  ∀ place, place + 1 < ds.length →
    Range.exact.Represents (exactValue (ds.drop (place + 1)) x * x) ∧
      Range.exact.Represents (exactValue (ds.drop place) x)

theorem evaluable_singleton (d : Decimal) (x : ℚ) : Evaluable [d] x := by
  intro place inside
  rw [List.length_singleton] at inside
  omega

/-- One step of Horner's scheme. -/
theorem evaluable_cons {d next : Decimal} {rest : List Decimal} {x : ℚ} :
    Evaluable (d :: next :: rest) x ↔
      Evaluable (next :: rest) x ∧ Range.exact.Represents (exactValue (next :: rest) x * x) ∧
        Range.exact.Represents (exactValue (next :: rest) x * x + d.value) := by
  rw [← exactValue_cons]
  constructor
  · intro all
    refine ⟨fun place inside => ?_, all 0 (by simp only [List.length_cons]; omega)⟩
    exact all (place + 1) (Nat.succ_lt_succ inside)
  · rintro ⟨later, first⟩ place inside
    cases place with
    | zero => exact first
    | succ place => exact later place (Nat.lt_of_succ_lt_succ inside)

/-- **Values are found** where the range allows it. -/
theorem evaluateTerms_of_evaluable (evaluable : Evaluable ds x.value) :
    ∃ value : Decimal, evaluateTerms (.finite x) (ds.map .finite) = .ok (.finite value) ∧
      value.value = exactValue ds x.value := by
  induction ds with
  | nil => exact ⟨.zero, rfl, Decimal.value_zero⟩
  | cons d rest ih =>
    cases rest with
    | nil => exact ⟨d, rfl, (exactValue_singleton d x.value).symm⟩
    | cons next rest =>
      obtain ⟨later, scaledFits, sumFits⟩ := evaluable_cons.mp evaluable
      obtain ⟨value, found, same⟩ := ih later
      rw [← same] at scaledFits sumFits
      obtain ⟨scaled, multiplied, scaledValue⟩ := Number.mul_of_represents scaledFits
      rw [← scaledValue] at sumFits
      obtain ⟨sum, added, sumValue⟩ := Number.add_of_represents sumFits
      refine ⟨sum, ?_, by rw [sumValue, scaledValue, same, exactValue_cons d]⟩
      rw [List.map_cons] at found
      rw [List.map_cons, List.map_cons, evaluateTerms_cons, found, bind_ok, multiplied, bind_ok,
        added]

/-- Values are refused where the range does not allow them. -/
theorem evaluateTerms_eq_error (exceeded : ¬Evaluable ds x.value) :
    evaluateTerms (.finite x) (ds.map .finite) = .error .inexact := by
  induction ds with
  | nil => exact absurd (fun _ inside => nomatch inside) exceeded
  | cons d rest ih =>
    cases rest with
    | nil => exact absurd (evaluable_singleton d x.value) exceeded
    | cons next rest =>
      rw [List.map_cons, List.map_cons, evaluateTerms_cons, ← List.map_cons]
      -- The first step that exceeds the range is a later one, this product, or this sum.
      by_cases later : Evaluable (next :: rest) x.value
      · obtain ⟨value, found, same⟩ := evaluateTerms_of_evaluable later
        rw [evaluable_cons, not_and, ← same] at exceeded
        rw [found, bind_ok]
        by_cases scaledFits : Range.exact.Represents (value.value * x.value)
        · obtain ⟨scaled, multiplied, scaledValue⟩ := Number.mul_of_represents scaledFits
          have sumExceeds := not_and.mp (exceeded later) scaledFits
          rw [multiplied, bind_ok]
          rw [← scaledValue, ← Decimal.value_add] at sumExceeds
          exact Number.settle_eq_error sumExceeds
        · rw [← Decimal.value_mul] at scaledFits
          have refused : Number.mul (.finite value) (.finite x) = .error .inexact :=
            Number.settle_eq_error scaledFits
          rw [refused, bind_error]
      · rw [ih later, bind_error, bind_error]

/-- An operand that is a number is the point of evaluation. -/
theorem evaluateAt_eq (p : Polynomial) {offered : Operand} {x : Number}
    (given : offered.toNumber "value" = .ok x) : p.evaluateAt offered = p.evaluate x := by
  rw [evaluateAt, given, bind_ok]

/-- Where the digits suffice the exact value is found. -/
theorem evaluate_of_evaluable (finite : p.coefficients = ds.map .finite)
    (evaluable : Evaluable ds x.value) :
    ∃ value : Decimal, p.evaluate (.finite x) = .ok (.finite value) ∧
      value.value = exactValue ds x.value := by
  obtain ⟨value, found, same⟩ := evaluateTerms_of_evaluable evaluable
  exact ⟨value, by rw [evaluate, finite, found, Fault.ofSignal_ok], same⟩

/-- Zeros at the end add nothing to a value. -/
theorem exactValue_append_zeros (ds : List Decimal) {zeros : List Decimal}
    (none : ∀ z ∈ zeros, z.isZero = true) (x : ℚ) :
    exactValue (ds ++ zeros) x = exactValue ds x := by
  induction ds with
  | nil => exact exactValue_zeros none x
  | cons d rest ih => rw [List.cons_append, exactValue_cons, ih, exactValue_cons]

/-- Without zeros at the end Horner's scheme has fewer steps, and the others are the same. -/
theorem Evaluable.of_append_zeros {zeros : List Decimal} {x : ℚ}
    (none : ∀ z ∈ zeros, z.isZero = true)
    (evaluable : Evaluable (ds ++ zeros) x) : Evaluable ds x := by
  intro place inside
  have kept := evaluable place (by rw [List.length_append]; omega)
  rwa [List.drop_append_of_le_length (by omega), List.drop_append_of_le_length (by omega),
    exactValue_append_zeros _ none, exactValue_append_zeros _ none] at kept

/-- Trimming does not change values. -/
theorem exactValue_trimmedList (ds : List Decimal) (x : ℚ) :
    exactValue (trimmedList ds) x = exactValue ds x := by
  obtain ⟨zeros, none, shape⟩ := exists_zeros ds
  conv_rhs => rw [shape]
  exact (exactValue_append_zeros _ none x).symm

/-- Trimming does not need more digits. -/
theorem Evaluable.trimmed {x : ℚ} (evaluable : Evaluable ds x) : Evaluable (trimmedList ds) x := by
  obtain ⟨zeros, none, shape⟩ := exists_zeros ds
  rw [shape] at evaluable
  exact evaluable.of_append_zeros none

theorem monomialList_succ (c : Decimal) (exponent : Nat) :
    monomialList c (exponent + 1) = .zero :: monomialList c exponent := by
  rw [monomialList, List.replicate_succ, List.cons_append, monomialList]

/-- A monomial has the value of its power. -/
theorem exactValue_monomialList (c : Decimal) (exponent : Nat) (x : ℚ) :
    exactValue (monomialList c exponent) x = c.value * x ^ exponent := by
  induction exponent with
  | zero => rw [pow_zero, mul_one]; exact exactValue_singleton c x
  | succ exponent ih =>
    rw [monomialList_succ, exactValue_cons, ih, Decimal.value_zero, add_zero, pow_succ, mul_assoc]

/-- For a monomial the scheme multiplies by the point again and again. -/
theorem evaluable_monomialList {c : Decimal} {exponent : Nat} {x : ℚ}
    (fits : ∀ power < exponent, Range.exact.Represents (c.value * x ^ (power + 1))) :
    Evaluable (monomialList c exponent) x := by
  induction exponent with
  | zero => exact evaluable_singleton c x
  | succ exponent ih =>
    have later := ih fun power below => fits power (Nat.lt_succ_of_lt below)
    have product : exactValue (monomialList c exponent) x * x = c.value * x ^ (exponent + 1) := by
      rw [exactValue_monomialList, pow_succ, mul_assoc]
    obtain ⟨next, rest, shape⟩ : ∃ next rest, monomialList c exponent = next :: rest :=
      List.exists_cons_of_ne_nil (List.append_ne_nil_of_right_ne_nil _ (List.cons_ne_nil _ _))
    rw [monomialList_succ]
    rw [shape] at later product ⊢
    refine evaluable_cons.mpr ⟨later, ?_, ?_⟩
    · exact product ▸ fits exponent (Nat.lt_succ_self _)
    · rw [product, Decimal.value_zero, add_zero]
      exact fits exponent (Nat.lt_succ_self _)

/-- **Values determine coefficients.** Lists of decimals with the same values at as many whole
numbers as the longer one has decimals have the same values place by place. -/
theorem values_unique {n : Nat} (first : ds.length ≤ n) (second : es.length ≤ n)
    (same : ∀ k < n, exactValue ds k = exactValue es k) (place : Nat) :
    (ds.getD place .zero).value = (es.getD place .zero).value := by
  by_cases inside : place < n
  · have distinct : Function.Injective fun k : Fin n => ((k : Nat) : ℚ) :=
      fun _ _ equal => Fin.ext (Nat.cast_injective equal)
    -- The differences of the coefficients solve a homogeneous Vandermonde system.
    have none := Matrix.eq_zero_of_forall_index_sum_mul_pow_eq_zero
      (v := fun k : Fin n => (ds.getD k .zero).value - (es.getD k .zero).value) distinct fun k => by
        have agreed := same k k.isLt
        rw [exactValue_eq_sum ds first, exactValue_eq_sum es second, ← sub_eq_zero,
          ← sum_sub_distrib] at agreed
        simp only [sub_mul]
        rw [← agreed]
        exact Fin.sum_univ_eq_sum_range (fun power =>
            (ds.getD power .zero).value * (k : ℚ) ^ power -
          (es.getD power .zero).value * (k : ℚ) ^ power) n
    exact sub_eq_zero.mp (congrFun none ⟨place, inside⟩)
  · rw [List.getD_eq_default _ _ (by omega), List.getD_eq_default _ _ (by omega)]

/-- **Trimmed coefficients are shortest.** -/
theorem length_trimmedList_le (present : es ≠ [])
    (same : ∀ place, (ds.getD place .zero).value = (es.getD place .zero).value) :
    (trimmedList ds).length ≤ es.length := by
  by_cases none : ds = []
  · rw [none]
    exact Nat.zero_le _
  · obtain ⟨top, last, length, there, ends⟩ := trimmedList_ends none
    rw [length]
    rcases ends with rfl | nonzero
    · exact List.length_pos_iff.mpr present
    · by_contra shorter
      -- Past its end the shorter list has nothing, where the trimmed one has its last decimal.
      obtain ⟨zeros, _, shape⟩ := exists_zeros ds
      have value := same top
      rw [List.getD_eq_default es _ (by omega), Decimal.value_zero, List.getD_eq_getElem?_getD,
        shape, List.getElem?_append_left (by omega), there, Option.getD_some] at value
      rw [(Decimal.value_eq_zero_iff last).mp value] at nonzero
      cases nonzero

/-- Lists of one length with the same value at every place have the same values. -/
theorem map_value_eq (length : ds.length = es.length)
    (same : ∀ place, (ds.getD place .zero).value = (es.getD place .zero).value) :
    ds.map Decimal.value = es.map Decimal.value := by
  refine List.ext_getElem (by simp only [List.length_map, length]) fun place inside alsoInside => ?_
  rw [List.length_map] at inside alsoInside
  have own := same place
  rw [List.getD_eq_getElem _ _ inside, List.getD_eq_getElem _ _ alsoInside] at own
  rw [List.getElem_map, List.getElem_map, own]

/-- **Evaluation is exact.** At a decimal that is offered as a number, a whole number or a text, the
value of a polynomial is the sum of its coefficients times the powers of the point, as long as no
step of Horner's scheme exceeds the widest range, and refused otherwise. So, within the range, the
value of a sum is the sum of the values, trimming keeps values, and a monomial is a coefficient
times a power. The trimmed coefficients have the same values everywhere; no coefficients that have
these values at enough whole numbers are fewer, and if they are as many they have the same
values. -/
theorem evaluation_exact (finiteP : p.coefficients = ds.map .finite) {offered : Operand}
    (given : offered.toNumber "value" = .ok (.finite x)) :
    (Evaluable ds x.value → ∃ v : Decimal, p.evaluateAt offered = .ok (.finite v) ∧
      v.value = ∑ power ∈ range ds.length, (ds.getD power .zero).value * x.value ^ power) ∧
    (¬Evaluable ds x.value → p.evaluateAt offered = .error (.signal .inexact)) ∧
    (∀ (q : Polynomial) es, q.coefficients = es.map .finite →
      (∀ place, Range.exact.Represents (ds.getD place .zero).value ∧
        Range.exact.Represents ((ds.getD place .zero).value + (es.getD place .zero).value)) →
      ∃ r cs, p.add q = .ok r ∧ r.coefficients = cs.map .finite ∧
        (Evaluable ds x.value → Evaluable es x.value → Evaluable cs x.value →
          ∃ v w s : Decimal, p.evaluateAt offered = .ok (.finite v) ∧
            q.evaluateAt offered = .ok (.finite w) ∧ r.evaluateAt offered = .ok (.finite s) ∧
            s.value = v.value + w.value)) ∧
    (Evaluable ds x.value → ∃ v t : Decimal, p.evaluateAt offered = .ok (.finite v) ∧
      p.trimmed.evaluateAt offered = .ok (.finite t) ∧ t.value = v.value) ∧
    (∀ (factor : Operand) (c : Decimal) (k : Nat), factor.toNumber "coefficient" = .ok (.finite c) →
      (∀ power < k, Range.exact.Represents (c.value * x.value ^ (power + 1))) →
        ∃ (m : Polynomial) (v : Decimal), monomialOf factor k = .ok m ∧
          m.evaluateAt offered = .ok (.finite v) ∧ v.value = c.value * x.value ^ k) ∧
    ∃ ts : List Decimal, p.trimmed.coefficients = ts.map .finite ∧
      (∀ y, exactValue ts y = exactValue ds y) ∧
      ∀ (q : Polynomial) es, q.coefficients = es.map .finite →
        (∀ n < max ds.length es.length, exactValue es n = exactValue ds n) →
          ts.length ≤ es.length ∧
            (es.length = ts.length → es.map Decimal.value = ts.map Decimal.value) := by
  have atX : ∀ s : Polynomial, s.evaluateAt offered = s.evaluate (.finite x) :=
    fun s => s.evaluateAt_eq given
  have trimmed := coefficients_trimmed finiteP
  simp only [atX]
  refine ⟨evaluate_of_evaluable finiteP, ?_, ?_, ?_, ?_, trimmedList ds, trimmed,
    exactValue_trimmedList ds, ?_⟩
  · intro exceeded
    rw [evaluate, finiteP, evaluateTerms_eq_error exceeded]
    rfl
  · intro q es finiteQ fits
    obtain ⟨r, added⟩ : ∃ r, p.add q = .ok r := by
      refine exists_add fun place _ => ?_
      rw [finiteP, finiteQ]
      exact exists_addTerms (placeHolds_getD ds place) (placeHolds_getD es place) (fits place).1
        (fits place).2
    obtain ⟨cs, finiteR, values⟩ := exactValue_of_add finiteP finiteQ added
    refine ⟨r, cs, added, finiteR, fun first second both => ?_⟩
    obtain ⟨v, foundP, vValue⟩ := evaluate_of_evaluable finiteP first
    obtain ⟨w, foundQ, wValue⟩ := evaluate_of_evaluable finiteQ second
    obtain ⟨s, foundR, sValue⟩ := evaluate_of_evaluable finiteR both
    exact ⟨v, w, s, foundP, foundQ, foundR, by rw [sValue, values, vValue, wValue]⟩
  · intro evaluable
    obtain ⟨v, found, vValue⟩ := evaluate_of_evaluable finiteP evaluable
    obtain ⟨t, foundTrimmed, tValue⟩ := evaluate_of_evaluable trimmed evaluable.trimmed
    exact ⟨v, t, found, foundTrimmed, by rw [tValue, exactValue_trimmedList, vValue]⟩
  · intro factor c k coefficient fits
    have made : monomialOf factor k = .ok (monomial (.finite c) k) := by
      rw [monomialOf, if_neg (by omega), coefficient, bind_ok, Int.toNat_natCast]
      rfl
    obtain ⟨v, found, value⟩ :=
      evaluate_of_evaluable (coefficients_monomial c k) (evaluable_monomialList fits)
    exact ⟨_, v, made, found, by rw [value, exactValue_monomialList]⟩
  · intro q es finiteQ same
    have places := values_unique (le_max_right ds.length es.length) (le_max_left _ _) same
    have shortest :=
      length_trimmedList_le (decimals_ne_nil finiteQ) fun place => (places place).symm
    refine ⟨shortest, fun length => map_value_eq length fun place => ?_⟩
    rw [places place]
    exact (values_unique (le_max_right (trimmedList ds).length ds.length) (le_max_left _ _)
      (fun n _ => (exactValue_trimmedList ds n).symm) place)

/-- A polynomial with a zero at its end, at a point with thirty places: sixty are needed to tell its
value from `1`. -/
theorem evaluation_exact_long :
    let p : Polynomial := ⟨[.ofInt 1, .zero, .ofInt 1, .zero], List.cons_ne_nil _ _⟩
    ∃ v t : Decimal, p.evaluateAt (.text "1e-30") = .ok (.finite v) ∧
      p.trimmed.evaluateAt (.text "1e-30") = .ok (.finite t) ∧ t.value = v.value ∧
      v.value = 1 + 1 / 10 ^ 60 := by
  intro p
  have given : (Operand.text "1e-30").toNumber "value" = .ok (.finite ⟨false, 1, -30⟩) := by
    decide +kernel
  have finite : p.coefficients = [.one, .zero, .one, .zero].map Number.finite := rfl
  obtain ⟨found, refused, _, trimmed, _⟩ := evaluation_exact finite given
  have evaluable : Evaluable [.one, .zero, .one, .zero] (⟨false, 1, -30⟩ : Decimal).value := by
    by_contra exceeded
    have notRefused : p.evaluateAt (.text "1e-30") ≠ .error (.signal .inexact) := by decide +kernel
    exact notRefused (refused exceeded)
  obtain ⟨v, foundV, value⟩ := found evaluable
  obtain ⟨w, t, foundW, foundT, same⟩ := trimmed evaluable
  obtain rfl := Number.finite.inj (Except.ok.inj (foundV.symm.trans foundW))
  refine ⟨v, t, foundV, foundT, same, ?_⟩
  have point : (⟨false, 1, -30⟩ : Decimal).value = 1 / 10 ^ 30 := by
    rw [Decimal.value_eq]
    norm_num [Decimal.significand]
  rw [value, point]
  simp only [List.length_cons, List.length_nil, sum_range_succ, range_zero, sum_empty,
    List.getD_cons_zero, List.getD_cons_succ, Decimal.value_one, Decimal.value_zero]
  norm_num

end Polynomial

end ExactQuadrature

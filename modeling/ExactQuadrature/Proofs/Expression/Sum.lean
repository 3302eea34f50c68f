import ExactQuadrature.Proofs.Decimal.Representation
import ExactQuadrature.Proofs.Polynomial.Places
import Mathlib.Algebra.BigOperators.Group.List.Basic

/-! # Sums of terms

Terms are added one after the other to the zero polynomial. What holds of the sum so far
(`Polynomial.IsSum`) is preserved by every further term (`Polynomial.IsSum.add`), so it holds of the
sum of all (`Expression.isSum_of_sum`): it reaches up to the largest power mentioned, every
coefficient has the exact value, and none is a zero with a sign. There is a sum as long as
exact arithmetic can represent the running sums (`Expression.exists_sum`).
-/

namespace ExactQuadrature

/-- A decimal as sums leave it: no signed zero, and in a unit not above ten. -/
structure Decimal.Collected (d : Decimal) : Prop where
  unsigned : d.UnsignedZero
  unit : d.exponent ≤ 1

theorem Decimal.Collected.zero : Decimal.zero.Collected := ⟨fun _ => rfl, zero_le_one⟩

/-- A sum in exact arithmetic has the exact value, and is left as its first operand is. -/
theorem Number.collected_of_add {x y : Decimal} {result : Number} (collected : x.Collected)
    (added : Number.add (.finite x) (.finite y) = .ok result) :
    ∃ sum : Decimal, result = .finite sum ∧ sum.value = x.value + y.value ∧ sum.Collected := by
  obtain ⟨sum, shape, same, sign, low⟩ := Number.value_of_settle added
  refine ⟨sum, shape, same.trans (Decimal.value_add x y), fun zero => ?_, ?_⟩
  · rw [sign]
    apply collected.unsigned.add y
    rw [← Decimal.value_eq_zero_iff, ← same]
    exact (Decimal.value_eq_zero_iff sum).mpr zero
  · have unit := collected.unit
    rw [Decimal.exponent_add] at low
    omega

namespace Polynomial

/-- A place of a polynomial holds a value: it has a coefficient with that value, or none and the
value is zero. -/
inductive PlaceHolds : Option Number → ℚ → Prop where
  | absent : PlaceHolds none 0
  | present (d : Decimal) : PlaceHolds (some (.finite d)) d.value

/-- Coefficients that are added hold the sum of their values. -/
theorem placeHolds_of_addTerms {a b : Option Number} {v w : ℚ} {c : Number}
    (first : PlaceHolds a v) (second : PlaceHolds b w) (added : addTerms a b = .ok c) :
    ∃ d : Decimal, c = .finite d ∧ d.value = v + w ∧ d.Collected := by
  rw [addTerms_eq] at added
  obtain ⟨started, start, rest⟩ := bind_eq_ok.mp added
  have begins : ∃ d : Decimal, started = .finite d ∧ d.value = v ∧ d.Collected := by
    cases first with
    | absent =>
      cases start
      exact ⟨.zero, rfl, Decimal.value_zero, .zero⟩
    | present x =>
      obtain ⟨d, shape, value, collected⟩ := Number.collected_of_add .zero start
      rw [Decimal.value_zero, zero_add] at value
      exact ⟨d, shape, value, collected⟩
  obtain ⟨d, rfl, rfl, collected⟩ := begins
  cases second with
  | absent =>
    cases rest
    exact ⟨d, rfl, (add_zero _).symm, collected⟩
  | present y => exact Number.collected_of_add collected rest

/-- Coefficients are added if the first value and the sum are represented. -/
theorem exists_addTerms {a b : Option Number} {v w : ℚ} (first : PlaceHolds a v)
    (second : PlaceHolds b w) (fits : Range.exact.Represents v)
    (sumFits : Range.exact.Represents (v + w)) : ∃ c, addTerms a b = .ok c := by
  have begins : ∃ d : Decimal, d.value = v ∧
      a.elim (.ok .zero) (Number.add .zero) = .ok (.finite d) := by
    cases first with
    | absent => exact ⟨.zero, Decimal.value_zero, rfl⟩
    | present x =>
      have sum : Range.exact.Represents (Decimal.zero.value + x.value) := by
        rwa [Decimal.value_zero, zero_add]
      obtain ⟨d, added, value⟩ := Number.add_of_represents sum
      rw [Decimal.value_zero, zero_add] at value
      exact ⟨d, value, added⟩
  obtain ⟨d, rfl, start⟩ := begins
  rw [addTerms_eq, start, bind_ok]
  cases second with
  | absent => exact ⟨.finite d, rfl⟩
  | present y =>
    obtain ⟨sum, added, _⟩ := Number.add_of_represents sumFits
    exact ⟨.finite sum, added⟩

end Polynomial

namespace Expression

/-- The sum of the coefficients of all terms with a power. -/
def valueAt (terms : List Term) (power : Nat) : ℚ :=
  ((terms.filter fun term => term.exponent = power).map fun term => term.coefficient.value).sum

/-- The largest power that any term mentions. -/
def largestPower (terms : List Term) : Nat := (terms.map Term.exponent).foldr max 0

/-- One more term adds its coefficient at its own power. -/
theorem valueAt_snoc (terms : List Term) (term : Term) (power : Nat) :
    valueAt (terms ++ [term]) power =
      valueAt terms power + if term.exponent = power then term.coefficient.value else 0 := by
  unfold valueAt
  rw [List.filter_append, List.map_append, List.sum_append]
  congr 1
  by_cases own : term.exponent = power
  · rw [if_pos own, List.filter_singleton, decide_eq_true own]
    exact List.sum_singleton
  · rw [if_neg own, List.filter_singleton, decide_eq_false own]
    rfl

/-- One more term may raise the largest power. -/
theorem largestPower_snoc (terms : List Term) (term : Term) :
    largestPower (terms ++ [term]) = max (largestPower terms) term.exponent := by
  unfold largestPower
  induction terms with
  | nil => simp
  | cons first rest ih =>
    rw [List.cons_append, List.map_cons, List.foldr_cons, ih, List.map_cons, List.foldr_cons,
      max_assoc]

end Expression

namespace Polynomial

open Expression

/-- What holds of the sum of terms. -/
structure IsSum (p : Polynomial) (terms : List Term) : Prop where
  length : p.coefficients.length = 1 + largestPower terms
  values : ∀ place : Nat, PlaceHolds p.coefficients[place]? (valueAt terms place)
  collected : ∀ d : Decimal, .finite d ∈ p.coefficients → d.Collected

theorem isSum_zero : zero.IsSum [] where
  length := rfl
  values := by
    intro place
    cases place with
    | zero =>
      have held := PlaceHolds.present .zero
      rwa [Decimal.value_zero] at held
    | succ place => exact .absent
  collected := by
    intro d present
    cases List.mem_singleton.mp present
    exact .zero

/-- The polynomial of a term holds its coefficient at its power and zeros below. -/
theorem placeHolds_toPolynomial (term : Term) (place : Nat) :
    PlaceHolds term.toPolynomial.coefficients[place]?
      (if term.exponent = place then term.coefficient.value else 0) := by
  unfold Term.toPolynomial
  rw [getElem?_monomial]
  rcases Nat.lt_trichotomy place term.exponent with below | rfl | above
  · rw [if_pos below, if_neg (by omega)]
    have held := PlaceHolds.present .zero
    rwa [Decimal.value_zero] at held
  · rw [if_neg (lt_irrefl _), if_pos rfl, if_pos rfl]
    exact .present term.coefficient
  · rw [if_neg (by omega), if_neg (by omega), if_neg (by omega)]
    exact .absent

/-- A further term preserves what holds of a sum. -/
theorem IsSum.add {p r : Polynomial} {terms : List Term} {term : Term} (sum : p.IsSum terms)
    (added : p.add term.toPolynomial = .ok r) : r.IsSum (terms ++ [term]) := by
  obtain ⟨total, places⟩ := add_eq_ok_iff.mp added
  have each : ∀ (place : Nat) (c : Number), r.coefficients[place]? = some c →
      ∃ d : Decimal, c = .finite d ∧ d.value = valueAt (terms ++ [term]) place ∧
        d.Collected := by
    intro place c found
    rw [valueAt_snoc]
    exact placeHolds_of_addTerms (sum.values place) (placeHolds_toPolynomial term place)
      (places place c found)
  have reach : (term.toPolynomial).coefficients.length = term.exponent + 1 := length_monomial _ _
  refine ⟨?_, ?_, ?_⟩
  · rw [total, sum.length, reach, largestPower_snoc]
    omega
  · intro place
    cases found : r.coefficients[place]? with
    | some c =>
      obtain ⟨d, rfl, value, _⟩ := each place c found
      rw [← value]
      exact .present d
    | none =>
      rw [List.getElem?_eq_none_iff, total] at found
      have first := sum.values place
      have second := placeHolds_toPolynomial term place
      rw [List.getElem?_eq_none (by omega)] at first second
      rw [valueAt_snoc]
      generalize valueAt terms place = v at first
      generalize (if term.exponent = place then term.coefficient.value else 0) = w at second
      cases first
      cases second
      rw [add_zero]
      exact .absent
  · intro d present
    obtain ⟨place, found⟩ := List.mem_iff_getElem?.mp present
    obtain ⟨own, same, _, collected⟩ := each place _ found
    cases same
    exact collected

end Polynomial

namespace Expression

theorem sum_snoc (terms : List Term) (term : Term) :
    sum (terms ++ [term]) = sum terms >>= fun total => total.add term.toPolynomial := by
  unfold sum
  rw [List.foldlM_append]
  congr 1
  funext total
  exact List.foldlM_cons.trans (bind_pure _)

/-- **The meaning of a sum.** -/
theorem isSum_of_sum {terms : List Term} {p : Polynomial} (added : sum terms = .ok p) :
    p.IsSum terms := by
  induction terms using List.reverseRecOn generalizing p with
  | nil =>
    cases added
    exact Polynomial.isSum_zero
  | append_singleton terms term ih =>
    rw [sum_snoc] at added
    obtain ⟨total, before, last⟩ := bind_eq_ok.mp added
    exact (ih before).add last

/-- A sum that fails raises a signal. -/
theorem sum_eq_error {terms : List Term} {fault : Fault} (failed : sum terms = .error fault) :
    ∃ raised, fault = .signal raised := by
  induction terms using List.reverseRecOn with
  | nil => cases failed
  | append_singleton terms term ih =>
    rw [sum_snoc] at failed
    rcases bind_eq_error.mp failed with earlier | ⟨total, _, last⟩
    · exact ih earlier
    · exact Polynomial.add_eq_error last

/-- Terms have a sum if every coefficient of every running sum is represented. -/
theorem exists_sum {terms : List Term}
    (fits : ∀ before, before <+: terms → ∀ power, Range.exact.Represents (valueAt before power)) :
    ∃ p, sum terms = .ok p := by
  induction terms using List.reverseRecOn with
  | nil => exact ⟨.zero, rfl⟩
  | append_singleton terms term ih =>
    have earlier := List.prefix_append terms [term]
    obtain ⟨total, before⟩ := ih fun start within => fits start (within.trans earlier)
    have held := isSum_of_sum before
    rw [sum_snoc, before, bind_ok]
    refine Polynomial.exists_add fun place _ => ?_
    refine Polynomial.exists_addTerms (held.values place)
      (Polynomial.placeHolds_toPolynomial term place) (fits terms earlier place) ?_
    rw [← valueAt_snoc]
    exact fits _ (List.prefix_rfl) place

end Expression

end ExactQuadrature

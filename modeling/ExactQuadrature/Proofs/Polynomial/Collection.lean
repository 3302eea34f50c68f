import ExactQuadrature.Proofs.Decimal.Plain
import ExactQuadrature.Proofs.Expression.Sum

/-! # Sums of terms with different powers

Where no power is mentioned twice, nothing but zeros is added to the coefficient of a term. Exact
arithmetic settles such a coefficient once (`Number.Settles`) and then keeps it, so the
sum has the settled coefficients of its terms and zeros between them
(`Expression.exists_collection`).
-/

namespace ExactQuadrature

/-- A number settles a decimal if it is the sum of zero and the decimal, and adding a zero on either
side changes it no more. -/
structure Number.Settles (x : Decimal) (c : Number) : Prop where
  first : Number.add .zero (.finite x) = .ok c
  left : Number.add .zero c = .ok c
  right : Number.add c .zero = .ok c

namespace Number.Settles

/-- Adding zero to a nonzero decimal writes it in a unit not above one. -/
theorem add_zero_eq {x y : Decimal} (nonzero : x.value ≠ 0) (value : y.value = x.value)
    (places : min y.exponent 0 = x.exponent) : Decimal.zero.add y = x ∧ y.add .zero = x := by
  constructor
  · apply Decimal.eq_of_value_eq
    · rw [Decimal.value_add, Decimal.value_zero, zero_add, value]
    · rw [Decimal.exponent_add, min_comm]
      exact places
    · rwa [Decimal.value_add, Decimal.value_zero, zero_add, value]
  · apply Decimal.eq_of_value_eq
    · rw [Decimal.value_add, Decimal.value_zero, add_zero, value]
    · rw [Decimal.exponent_add]
      exact places
    · rwa [Decimal.value_add, Decimal.value_zero, add_zero, value]

/-- A nonzero decimal in a unit not above one is settled, with its value and with as many places
after the point. -/
theorem exists_finite {x : Decimal} (nonzero : x.value ≠ 0) (fine : x.exponent ≤ 0)
    (unit : Range.exact.Contains x ∨ x.exponent = 0)
    (represented : Range.exact.Represents x.value) :
    ∃ y : Decimal, Number.Settles x (.finite y) ∧ y.value = x.value ∧
      min y.exponent 0 = x.exponent := by
  have someDigits := (Decimal.value_ne_zero_iff x).mp nonzero
  obtain ⟨y, fits⟩ := Range.fit_of_represents represented
  have value := (Range.value_of_fit fits).1
  have places : min y.exponent 0 = x.exponent := by
    rcases unit with inside | whole
    · have kept := Range.fit_of_contains inside
      rw [kept] at fits
      cases fits
      exact min_eq_left fine
    · obtain ⟨_, ⟨_, rfl⟩ | ⟨excess, kept, _, rfl⟩⟩ := Range.fit_cases someDigits fits
      · exact min_eq_left fine
      · change min (x.exponent + _) 0 = _
        omega
  have settled : Number.settle x = .ok (.finite y) := by
    unfold Number.settle
    rw [fits]
    rfl
  have begins := (add_zero_eq nonzero rfl (min_eq_left fine)).1
  obtain ⟨goesOn, ends⟩ := add_zero_eq nonzero value places
  refine ⟨y, ⟨?_, ?_, ?_⟩, value, places⟩
  · change Number.settle (Decimal.zero.add x) = _
    rw [begins, settled]
  · change Number.settle (Decimal.zero.add y) = _
    rw [goesOn, settled]
  · change Number.settle (y.add .zero) = _
    rw [ends, settled]

end Number.Settles

namespace Polynomial

open Expression

/-- What a place of the sum of terms with different powers has: the settled coefficient of the term
with this power, or a zero or nothing if there is no such term. -/
inductive Collected (terms : List Term) (place : Nat) : Option Number → Prop where
  | mentioned {term : Term} {c : Number} (present : term ∈ terms) (own : term.exponent = place)
      (settles : Number.Settles term.coefficient c) : Collected terms place (some c)
  | skipped (other : ∀ term ∈ terms, term.exponent ≠ place) : Collected terms place (some .zero)
  | beyond (other : ∀ term ∈ terms, term.exponent ≠ place) : Collected terms place none

namespace Collected

variable {terms : List Term} {place : Nat} {a : Option Number} {term : Term}

/-- A coefficient that is collected is added to zero as it stands. -/
theorem start (held : Collected terms place a) :
    a.elim (.ok .zero) (Number.add .zero) = .ok (a.getD .zero) := by
  cases held with
  | mentioned present own settles => exact settles.left
  | skipped other => rfl
  | beyond other => rfl

/-- Adding a zero keeps it. -/
theorem keep (held : Collected terms place a) :
    Number.add (a.getD .zero) .zero = .ok (a.getD .zero) := by
  cases held with
  | mentioned present own settles => exact settles.right
  | skipped other => rfl
  | beyond other => rfl

/-- A term of another power keeps it. -/
theorem snoc (held : Collected terms place a) (other : term.exponent ≠ place) :
    Collected (terms ++ [term]) place (some (a.getD .zero)) := by
  have apart : (∀ earlier ∈ terms, earlier.exponent ≠ place) →
      ∀ earlier ∈ terms ++ [term], earlier.exponent ≠ place := by
    intro before earlier present
    rcases List.mem_append.mp present with known | last
    · exact before earlier known
    · rwa [List.mem_singleton.mp last]
  cases held with
  | mentioned present own settles =>
    exact .mentioned (List.mem_append_left _ present) own settles
  | skipped before => exact .skipped (apart before)
  | beyond before => exact .skipped (apart before)

/-- At the place of a new term there is nothing but zero before. -/
theorem getD_eq_zero (held : Collected terms place a)
    (fresh : ∀ other ∈ terms, other.exponent ≠ place) : a.getD .zero = .zero := by
  cases held with
  | mentioned present own settles => exact absurd own (fresh _ present)
  | skipped other => rfl
  | beyond other => rfl

/-- A further term with a power of its own is collected at every place that the sum has. -/
theorem add {c : Number} (held : Collected terms place a)
    (fresh : ∀ other ∈ terms, other.exponent ≠ term.exponent)
    (settles : Number.Settles term.coefficient c)
    (inside : a ≠ none ∨ place ≤ term.exponent) :
    ∃ b, addTerms a term.toPolynomial.coefficients[place]? = .ok b ∧
      Collected (terms ++ [term]) place (some b) := by
  unfold Term.toPolynomial
  rw [getElem?_monomial, addTerms_eq, held.start, bind_ok]
  rcases Nat.lt_trichotomy place term.exponent with below | rfl | above
  · rw [if_pos below]
    exact ⟨_, held.keep, held.snoc (by omega)⟩
  · rw [if_neg (lt_irrefl _), if_pos rfl, held.getD_eq_zero fresh]
    exact ⟨c, settles.first,
      .mentioned (List.mem_append_right _ (List.mem_singleton.mpr rfl)) rfl settles⟩
  · rw [if_neg (by omega), if_neg (by omega)]
    exact ⟨_, rfl, held.snoc (by omega)⟩

end Collected

/-- What holds of the sum of terms with different powers. -/
structure Collects (p : Polynomial) (terms : List Term) : Prop where
  length : p.coefficients.length = 1 + largestPower terms
  places : ∀ place : Nat, Collected terms place p.coefficients[place]?

theorem collects_zero : zero.Collects [] where
  length := rfl
  places := by
    intro place
    cases place with
    | zero => exact .skipped fun _ absent => nomatch absent
    | succ place => exact .beyond fun _ absent => nomatch absent

/-- A further term with a power of its own is collected. -/
theorem Collects.add {p : Polynomial} {terms : List Term} (collected : p.Collects terms)
    {term : Term} {c : Number} (fresh : ∀ other ∈ terms, other.exponent ≠ term.exponent)
    (settles : Number.Settles term.coefficient c) :
    ∃ r, p.add term.toPolynomial = .ok r ∧ r.Collects (terms ++ [term]) := by
  have reach : term.toPolynomial.coefficients.length = term.exponent + 1 := length_monomial _ _
  have each : ∀ place < max p.coefficients.length term.toPolynomial.coefficients.length,
      ∃ b, addTerms p.coefficients[place]? term.toPolynomial.coefficients[place]? = .ok b ∧
        Collected (terms ++ [term]) place (some b) := by
    intro place inside
    refine (collected.places place).add fresh settles ?_
    rw [Ne, List.getElem?_eq_none_iff]
    omega
  obtain ⟨r, added⟩ := exists_add fun place inside =>
    (each place inside).imp fun b both => both.1
  obtain ⟨total, sums⟩ := add_eq_ok_iff.mp added
  refine ⟨r, added, ?_, ?_⟩
  · rw [total, collected.length, reach, largestPower_snoc]
    omega
  · intro place
    cases found : r.coefficients[place]? with
    | some b =>
      have inside := (List.getElem?_eq_some_iff.mp found).1
      obtain ⟨other, there, known⟩ := each place (total ▸ inside)
      have same : other = b := Except.ok.inj (there.symm.trans (sums place b found))
      exact same ▸ known
    | none =>
      rw [List.getElem?_eq_none_iff, total] at found
      have held := collected.places place
      rw [List.getElem?_eq_none (by omega)] at held
      cases held with
      | beyond other =>
        refine .beyond fun earlier present => ?_
        rcases List.mem_append.mp present with known | last
        · exact other earlier known
        · rw [List.mem_singleton.mp last]
          omega

end Polynomial

namespace Expression

/-- **Terms with different powers are collected.** -/
theorem exists_collection {terms : List Term} (distinct : (terms.map Term.exponent).Nodup)
    (settled : ∀ term ∈ terms, ∃ c, Number.Settles term.coefficient c) :
    ∃ p, sum terms = .ok p ∧ p.Collects terms := by
  induction terms using List.reverseRecOn with
  | nil => exact ⟨.zero, rfl, Polynomial.collects_zero⟩
  | append_singleton terms term ih =>
    rw [List.map_append, List.map_singleton, List.nodup_append] at distinct
    obtain ⟨earlier, _, apart⟩ := distinct
    obtain ⟨total, before, collected⟩ :=
      ih earlier fun other present => settled other (List.mem_append_left _ present)
    obtain ⟨c, settles⟩ := settled term (List.mem_append_right _ (List.mem_singleton.mpr rfl))
    have fresh : ∀ other ∈ terms, other.exponent ≠ term.exponent := fun other present =>
      apart _ (List.mem_map.mpr ⟨other, present, rfl⟩) _ (List.mem_singleton.mpr rfl)
    obtain ⟨p, added, all⟩ := collected.add fresh settles
    refine ⟨p, ?_, all⟩
    rw [sum_snoc, before, bind_ok, added]

end Expression

end ExactQuadrature

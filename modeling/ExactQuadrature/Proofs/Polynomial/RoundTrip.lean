import ExactQuadrature.Polynomial.Agreement
import ExactQuadrature.Proofs.Expression.Meaning
import ExactQuadrature.Proofs.Polynomial.Collection
import ExactQuadrature.Proofs.Polynomial.Trimming
import Mathlib.Data.List.MinMax

/-! # Reading written polynomials

The written form of a polynomial with finite coefficients is read as a polynomial with the values of
the trimmed one, and this has the same written form again (`Polynomial.reread_normalizes`). Every
rendered term is read with the value of its coefficient and with as many places after the point
(`WrittenTerm.exists_settled`), no two of them have one power, and so exact arithmetic collects
them as they are.
-/

namespace ExactQuadrature

/-- The rational number that a finite number stands for. -/
def Number.value? : Number → Option ℚ
  | .finite d => some d.value
  | _ => none

namespace WrittenTerm

/-- Decimals of one value and form are rendered alike. -/
theorem render_congr {a b : Decimal} (same : a.value = b.value) {power : Nat}
    (form : a.plainNumeral = b.plainNumeral ∨ power ≠ 0 ∧ |a.value| = 1) :
    render a power = render b power := by
  unfold render
  rw [same]
  rcases form with numerals | ⟨positive, unit⟩
  · rw [numerals]
  · rw [same] at unit
    rw [if_neg positive, if_neg positive, if_pos unit, if_pos unit]

/-- A rendered term has the decimal of its plain form as its coefficient, or a one with its sign. -/
theorem toTerm_render (d : Decimal) (power : Nat) :
    (power ≠ 0 ∧ |d.value| = 1) ∧
        (render d power).toTerm d.negative = ⟨⟨d.negative, 1, 0⟩, power⟩ ∨
      (render d power).toTerm d.negative = ⟨d.plainForm, power⟩ := by
  have plain : (if d.negative then (d.plainNumeral.toDecimal false).negate
      else d.plainNumeral.toDecimal false) = d.plainForm := by
    rw [Decimal.toDecimal_plainNumeral]
    unfold Decimal.plainForm Decimal.negate
    cases d.negative <;> rfl
  have exponent := exponent_render d power
  unfold toTerm
  rw [exponent]
  unfold render
  by_cases constant : power = 0
  · rw [if_pos constant]
    exact .inr (congrArg (Term.mk · power) plain)
  · rw [if_neg constant]
    by_cases unit : |d.value| = 1
    · rw [if_pos unit]
      refine .inl ⟨⟨constant, unit⟩, ?_⟩
      cases d.negative <;> rfl
    · rw [if_neg unit]
      exact .inr (congrArg (Term.mk · power) plain)

end WrittenTerm

namespace Polynomial

/-- A rendered term is settled as a decimal with the same value that is rendered alike. -/
theorem exists_settled {d : Decimal} (inside : Range.exact.Contains d) (nonzero : d.isZero = false)
    (power : Nat) :
    ∃ y : Decimal,
      Number.Settles ((WrittenTerm.render d power).toTerm d.negative).coefficient (.finite y) ∧
        y.value = d.value ∧ term? (d, power) = term? (y, power) := by
  have some_value := (Decimal.value_ne_zero_iff d).mpr nonzero
  -- Whatever has the value of `d` and is rendered alike at `power` appears as the same term.
  have alike : ∀ y : Decimal, y.value = d.value →
      (d.plainNumeral = y.plainNumeral ∨ power ≠ 0 ∧ |d.value| = 1) →
        term? (d, power) = term? (y, power) := by
    intro y same form
    have present : y.isZero = false := (Decimal.value_ne_zero_iff y).mp (same ▸ some_value)
    have sign : d.negative = y.negative := by
      rw [Bool.eq_iff_iff, Decimal.negative_iff_value some_value,
        Decimal.negative_iff_value (same ▸ some_value), same]
    unfold term?
    dsimp only
    rw [nonzero, present, sign, WrittenTerm.render_congr same.symm form]
  rcases WrittenTerm.toTerm_render d power with ⟨unit, shape⟩ | shape
  · have value : (⟨d.negative, 1, 0⟩ : Decimal).value = d.value := by
      rw [Decimal.value_eq, zpow_zero, mul_one]
      rcases (abs_eq zero_le_one).mp unit.2 with one | minus
      · have unsigned : d.negative = false := Decimal.negative_of_value_pos (by linarith)
        rw [one, unsigned]
        rfl
      · have signed : d.negative = true := Decimal.negative_of_value_neg (by linarith)
        rw [minus, signed]
        rfl
    have contained : Range.exact.Contains ⟨d.negative, 1, 0⟩ := by
      cases d.negative <;> decide
    obtain ⟨y, settles, same, _⟩ := Number.Settles.exists_finite (value ▸ some_value) le_rfl
      (.inr rfl) contained.represents
    rw [shape]
    exact ⟨y, settles, same.trans value, alike y (same.trans value) (.inr unit)⟩
  · have value := d.value_plainForm
    have unit : Range.exact.Contains d.plainForm ∨ d.plainForm.exponent = 0 := by
      rcases Int.lt_or_le 0 d.exponent with coarse | fine
      · exact .inr (min_eq_right coarse.le)
      · have kept : d.plainForm = d :=
          Decimal.eq_of_value_eq value (min_eq_left fine) (value ▸ some_value)
        exact .inl (kept.symm ▸ inside)
    obtain ⟨y, settles, same, places⟩ := Number.Settles.exists_finite (value ▸ some_value)
      (min_le_right _ _) unit (value ▸ inside.represents)
    rw [shape]
    refine ⟨y, settles, same.trans value, alike y (same.trans value) (.inl ?_)⟩
    exact Decimal.plainNumeral_congr (same.trans value).symm places.symm

/-- A decimal read back at a place: the value is the same, and so is the rendered term. -/
def ReadBack (place : Nat) (d e : Decimal) : Prop :=
  e.value = d.value ∧ term? (d, place) = term? (e, place)

/-- A zero may be read back as plain zero. -/
theorem readBack_zero {d : Decimal} (zero : d.isZero = true) (place : Nat) :
    ReadBack place d .zero := by
  refine ⟨?_, ?_⟩
  · rw [Decimal.value_zero, (Decimal.value_eq_zero_iff d).mpr zero]
  · unfold term?
    dsimp only
    rw [zero]
    rfl

end Polynomial

namespace WrittenExpression

open ExactQuadrature.Polynomial

/-- The terms of an expression are those it was made of. -/
theorem signedTerms_ofTerms (first : Bool × WrittenTerm) (rest : List (Bool × WrittenTerm)) :
    (ofTerms (first :: rest)).signedTerms = first :: rest := by
  obtain ⟨negative, term⟩ := first
  cases negative <;> rfl

/-- An expression writes its own text. -/
theorem writes_chars {e : WrittenExpression} (formed : e.WellFormed) :
    e.Writes (String.ofList e.chars) := ⟨formed, (String.toList_ofList).symm⟩

end WrittenExpression

namespace Expression

/-- The largest power is one that is reached and bounds the others. -/
theorem largestPower_eq {terms : List Term} {top : Nat}
    (reached : ∃ term ∈ terms, term.exponent = top)
    (bounded : ∀ term ∈ terms, term.exponent ≤ top) : largestPower terms = top := by
  obtain ⟨term, present, rfl⟩ := reached
  apply le_antisymm
  · refine List.max_le_of_forall_le _ _ fun power listed => ?_
    obtain ⟨other, known, rfl⟩ := List.mem_map.mp listed
    exact bounded other known
  · exact List.le_max_of_le (List.mem_map.mpr ⟨term, present, rfl⟩) le_rfl

end Expression

namespace Polynomial

open WrittenExpression

/-- The terms that the written form of decimals is read as, if any of them is not zero. -/
def shownTerms (ds : List Decimal) : List Term :=
  (places ds).map fun place => (WrittenTerm.render place.1 place.2).toTerm place.1.negative

/-- The terms that are shown are those of coefficients other than zero. -/
theorem mem_shownTerms {ds : List Decimal} {term : Term} :
    term ∈ shownTerms ds ↔ ∃ (d : Decimal) (place : Nat), ds[place]? = some d ∧ d.isZero = false ∧
      (WrittenTerm.render d place).toTerm d.negative = term := by
  unfold shownTerms
  rw [List.mem_map]
  constructor
  · rintro ⟨⟨d, place⟩, known, same⟩
    obtain ⟨there, nonzero⟩ := mem_places.mp known
    exact ⟨d, place, there, nonzero, same⟩
  · rintro ⟨d, place, there, nonzero, same⟩
    exact ⟨(d, place), mem_places.mpr ⟨there, nonzero⟩, same⟩

theorem exponent_shown (d : Decimal) (place : Nat) :
    ((WrittenTerm.render d place).toTerm d.negative).exponent = place :=
  WrittenTerm.exponent_render d place

/-- No power is shown twice. -/
theorem nodup_shownTerms (ds : List Decimal) : ((shownTerms ds).map Term.exponent).Nodup := by
  have powers : (shownTerms ds).map Term.exponent = (places ds).map Prod.snd := by
    unfold shownTerms
    rw [List.map_map]
    exact List.map_congr_left fun place _ => exponent_shown place.1 place.2
  rw [powers]
  exact nodup_places ds

/-- The coefficients that are shown settle. -/
theorem settled_shownTerms {ds : List Decimal} (contained : ∀ d ∈ ds, Range.exact.Contains d) :
    ∀ term ∈ shownTerms ds, ∃ c, Number.Settles term.coefficient c := by
  intro term present
  obtain ⟨d, place, there, nonzero, rfl⟩ := mem_shownTerms.mp present
  obtain ⟨y, settles, _⟩ := exists_settled (contained d (List.mem_of_getElem? there)) nonzero place
  exact ⟨_, settles⟩

/-- The rendered terms make a well-formed expression. -/
theorem wellFormed_rendered {ds : List Decimal} (small : ds.length ≤ largestExponent + 1) :
    (ofTerms (rendered (places ds))).WellFormed := by
  unfold WrittenExpression.WellFormed
  have formed : ∀ term ∈ rendered (places ds), term.2.WellFormed := by
    intro term present
    obtain ⟨⟨d, place⟩, known, rfl⟩ := List.mem_map.mp present
    have inside := (List.getElem?_eq_some_iff.mp (mem_places.mp known).1).1
    exact WrittenTerm.wellFormed_render d (by omega)
  cases shape : rendered (places ds) with
  | nil =>
    intro term present
    rw [List.mem_singleton.mp present]
    exact ⟨.inl rfl, fun _ absent => nomatch absent⟩
  | cons first rest =>
    rw [signedTerms_ofTerms, ← shape]
    exact formed

/-- Its terms are those that are shown. -/
theorem terms_rendered {ds : List Decimal} (present : places ds ≠ []) :
    (ofTerms (rendered (places ds))).terms = shownTerms ds := by
  unfold shownTerms WrittenExpression.terms
  cases shape : places ds with
  | nil => exact absurd shape present
  | cons first rest =>
    change List.map _ (ofTerms (_ :: rendered rest)).signedTerms = _
    rw [signedTerms_ofTerms]
    change List.map _ (rendered (first :: rest)) = _
    exact List.map_map

/-- What collects the terms of decimals reads the decimals back. -/
theorem readBack_of_collects {ds : List Decimal} (contained : ∀ d ∈ ds, Range.exact.Contains d)
    {q : Polynomial} (collected : q.Collects (shownTerms ds)) {place : Nat} {c : Number}
    {d : Decimal} (there : q.coefficients[place]? = some c) (known : ds[place]? = some d) :
    ∃ e, c = .finite e ∧ ReadBack place d e := by
  have held := collected.places place
  rw [there] at held
  cases held with
  | mentioned present own settles =>
    obtain ⟨other, power, otherThere, nonzero, rfl⟩ := mem_shownTerms.mp present
    obtain rfl : power = place := (exponent_shown other power).symm.trans own
    obtain rfl : d = other := Option.some.inj (known.symm.trans otherThere)
    obtain ⟨y, also, value, alike⟩ :=
      exists_settled (contained d (List.mem_of_getElem? known)) nonzero power
    exact ⟨y, Except.ok.inj (settles.first.symm.trans also.first), value, alike⟩
  | skipped other =>
    refine ⟨.zero, rfl, readBack_zero ?_ place⟩
    by_contra nonzero
    have shown := mem_shownTerms.mpr ⟨d, place, known, Bool.eq_false_iff.mpr nonzero, rfl⟩
    exact other _ shown (exponent_shown d place)

/-- Decimals end in a nonzero one, or there is only one. -/
def EndsTrimmed (ds : List Decimal) : Prop :=
  ∃ top d, ds.length = top + 1 ∧ ds[top]? = some d ∧ (top = 0 ∨ d.isZero = false)

/-- The largest power that is shown is the degree. -/
theorem largestPower_shownTerms {ds : List Decimal} (ends : EndsTrimmed ds)
    (present : places ds ≠ []) : 1 + Expression.largestPower (shownTerms ds) = ds.length := by
  obtain ⟨top, last, count, found, final⟩ := ends
  have bounded : ∀ term ∈ shownTerms ds, term.exponent ≤ top := by
    intro term known
    obtain ⟨d, place, there, _, rfl⟩ := mem_shownTerms.mp known
    have inside := (List.getElem?_eq_some_iff.mp there).1
    rw [exponent_shown]
    omega
  have reached : ∃ term ∈ shownTerms ds, term.exponent = top := by
    obtain ⟨⟨d, place⟩, known⟩ := List.exists_mem_of_ne_nil _ present
    obtain ⟨there, nonzero⟩ := mem_places.mp known
    have inside := (List.getElem?_eq_some_iff.mp there).1
    rcases final with single | lastNonzero
    · exact ⟨_, mem_shownTerms.mpr ⟨d, place, there, nonzero, rfl⟩, by
        rw [exponent_shown]
        omega⟩
    · exact ⟨_, mem_shownTerms.mpr ⟨last, top, found, lastNonzero, rfl⟩, exponent_shown last top⟩
  rw [Expression.largestPower_eq reached bounded, count, add_comm]

/-- Decimals of which none is shown are all zero, and a lone zero is read. -/
theorem read_lone_zero {ds : List Decimal} (ends : EndsTrimmed ds) (absent : places ds = []) :
    ds.length = 1 ∧ (∀ (place : Nat) (d : Decimal), ds[place]? = some d → d.isZero = true) ∧
      Expression.sum (ofTerms (rendered (places ds))).terms = .ok .zero := by
  obtain ⟨top, last, count, found, final⟩ := ends
  have hidden : ∀ (place : Nat) (d : Decimal), ds[place]? = some d → d.isZero = true := by
    intro place d there
    by_contra nonzero
    have shown := mem_places.mpr ⟨there, Bool.eq_false_iff.mpr nonzero⟩
    rw [absent] at shown
    cases shown
  refine ⟨?_, hidden, ?_⟩
  · rcases final with single | nonzero
    · rw [count, single]
    · rw [hidden top last found] at nonzero
      cases nonzero
  · rw [absent]
    rfl

/-- Decimals without needless zeros at their end are read back from their written form. -/
theorem read_rendered {ds : List Decimal} (contained : ∀ d ∈ ds, Range.exact.Contains d)
    (small : ds.length ≤ largestExponent + 1) (ends : EndsTrimmed ds) :
    ∃ (q : Polynomial) (es : List Decimal),
      Expression.read (String.ofList (ofTerms (rendered (places ds))).chars) = .ok q ∧
        q.coefficients = es.map .finite ∧ es.length = ds.length ∧
          ∀ (place : Nat) (d e : Decimal), ds[place]? = some d → es[place]? = some e →
            ReadBack place d e := by
  have writes := writes_chars (wellFormed_rendered small)
  by_cases absent : places ds = []
  · obtain ⟨single, hidden, added⟩ := read_lone_zero ends absent
    refine ⟨.zero, [.zero], ?_, rfl, single.symm, ?_⟩
    · rw [writes.read_eq_sum]
      exact added
    · intro place d e there same
      have zero : e = .zero := List.mem_singleton.mp (List.mem_of_getElem? same)
      rw [zero]
      exact readBack_zero (hidden place d there) place
  · obtain ⟨q, added, collected⟩ :=
      Expression.exists_collection (nodup_shownTerms ds) (settled_shownTerms contained)
    have length : q.coefficients.length = ds.length := by
      rw [collected.length, largestPower_shownTerms ends absent]
    have finite : ∃ es : List Decimal, q.coefficients = es.map .finite := by
      refine exists_map_eq fun c present => ?_
      obtain ⟨place, there⟩ := List.mem_iff_getElem?.mp present
      have inside := (List.getElem?_eq_some_iff.mp there).1
      obtain ⟨e, same, _⟩ :=
        readBack_of_collects contained collected there (List.getElem?_eq_getElem (length ▸ inside))
      exact ⟨e, same⟩
    obtain ⟨es, finite⟩ := finite
    refine ⟨q, es, ?_, finite, ?_, ?_⟩
    · rw [writes.read_eq_sum, terms_rendered absent]
      exact added
    · rw [← length, finite, List.length_map]
    · intro place d e known same
      have there : q.coefficients[place]? = some (.finite e) := by
        rw [finite, List.getElem?_map, same]
        rfl
      obtain ⟨other, shown, back⟩ := readBack_of_collects contained collected there known
      cases shown
      exact back

/-- Read a polynomial from its own written form. -/
def reread (p : Polynomial) : Work Polynomial := do
  let written ← Work.ofExcept p.text
  PolynomialFormat.expression.read written

/-- Rereading a polynomial gives what its own text is read as. -/
theorem outcome_reread {p q : Polynomial} {text : String} (written : p.text = .ok text)
    (parsed : Expression.read text = .ok q) (journal : Journal) :
    p.reread.outcome journal = .ok q := by
  unfold reread
  rw [Work.outcome_ofExcept_bind, written, bind_ok, PolynomialFormat.outcome_read_expression,
    parsed]

theorem agreeTerms_self (ds : List Decimal) :
    agreeTerms false (ds.map .finite) (ds.map .finite) = .ok true := by
  induction ds with
  | nil => rfl
  | cons d rest ih =>
    have same : d.sameValue d = true := (Decimal.sameValue_iff_value d d).mpr rfl
    have own : Number.agrees false (.finite d) (.finite d) = .ok true := by
      change Except.ok (d.sameValue d && d.exponent == d.exponent) = _
      rw [same, beq_self_eq_true]
      rfl
    rw [List.map_cons, agreeTerms, own, bind_ok]
    exact ih

/-- **Written polynomials are a normal form.** A polynomial of finite decimals, whose trimmed degree
may be mentioned by an expression, is written like its trimmed form. What is written is read as
a polynomial with the values of the trimmed one, which is written in the same way, and reading
that once more gives the same values with the same exponents. Every finite decimal there is
lies in the widest range. -/
theorem reread_normalizes {p : Polynomial}
    (finite : ∀ c ∈ p.coefficients, ∃ d : Decimal, c = .finite d ∧ Range.exact.Contains d)
    (small : p.trimmed.degree ≤ largestExponent) :
    ∃ (text : String) (q : Polynomial),
      p.text = .ok text ∧ p.trimmed.text = .ok text ∧
      (∀ journal, p.reread.outcome journal = .ok q) ∧
      q.coefficients.length = p.trimmed.coefficients.length ∧
      q.coefficients.map Number.value? = p.trimmed.coefficients.map Number.value? ∧
      q.text = .ok text ∧
      ∃ r : Polynomial, (∀ journal, q.reread.outcome journal = .ok r) ∧ r.agrees q = .ok true := by
  obtain ⟨ds, shape⟩ : ∃ ds : List Decimal, p.coefficients = ds.map .finite :=
    exists_map_eq fun c present => (finite c present).imp fun d both => both.1
  have nonempty : ds ≠ [] := by
    rintro rfl
    exact p.nonempty shape
  have trimmedShape : p.trimmed.coefficients = (trimmedList ds).map .finite := by
    rw [← trimTerms_map, ← shape]
    rfl
  have contained : ∀ d ∈ trimmedList ds, Range.exact.Contains d := by
    intro d present
    obtain ⟨zeros, _, whole⟩ := exists_zeros ds
    have listed : Number.finite d ∈ p.coefficients := by
      rw [shape, whole]
      exact List.mem_map.mpr ⟨d, List.mem_append_left _ present, rfl⟩
    obtain ⟨other, same, inside⟩ := finite _ listed
    cases same
    exact inside
  have count : (trimmedList ds).length ≤ largestExponent + 1 := by
    unfold degree at small
    rw [trimmedShape, List.length_map] at small
    omega
  obtain ⟨q, es, parsed, read, length, back⟩ :=
    read_rendered contained count (trimmedList_ends nonempty)
  have written : p.text = .ok (String.ofList (ofTerms (rendered (places ds))).chars) :=
    text_eq shape
  have trimmedWritten : p.trimmed.text =
      .ok (String.ofList (ofTerms (rendered (places ds))).chars) := by
    rw [text_eq trimmedShape, rendered_trimmedList]
  have again : q.text = .ok (String.ofList (ofTerms (rendered (places ds))).chars) := by
    rw [text_eq read, ← rendered_trimmedList ds,
      ← rendered_congr length.symm fun place d e known same =>
      (back place d e known same).2]
  rw [rendered_trimmedList] at parsed
  refine ⟨_, q, written, trimmedWritten, outcome_reread written parsed, ?_, ?_, again, q,
    outcome_reread again parsed, ?_⟩
  · rw [read, trimmedShape, List.length_map, List.length_map, length]
  · rw [read, trimmedShape, List.map_map, List.map_map]
    apply List.ext_getElem
    · rw [List.length_map, List.length_map, length]
    · intro place inside alsoInside
      rw [List.length_map] at inside alsoInside
      rw [List.getElem_map, List.getElem_map]
      have same :=
        back place _ _ (List.getElem?_eq_getElem alsoInside) (List.getElem?_eq_getElem inside)
      exact congrArg some same.1
  · unfold agrees
    rw [read]
    exact agreeTerms_self es

/-- A zero with a sign, a positive exponent, a minus one with a place after its point and a zero at
the end. -/
theorem reread_normalizes_scales :
    ∃ q : Polynomial,
      (⟨[.finite ⟨false, 50, -2⟩, .finite ⟨true, 0, 2⟩, .finite ⟨false, 1, 3⟩,
        .finite ⟨true, 10, -1⟩, .finite ⟨true, 0, -2⟩], by decide⟩ : Polynomial).reread.outcome
          (Journal.new false []) = .ok q ∧
      q.coefficients.map Number.value? = [some (1 / 2), some 0, some 1000, some (-1)] ∧
      q.text = .ok "-x^3+1000x^2+0.50" := by
  have finite : ∀ c ∈ (⟨[.finite ⟨false, 50, -2⟩, .finite ⟨true, 0, 2⟩, .finite ⟨false, 1, 3⟩,
      .finite ⟨true, 10, -1⟩, .finite ⟨true, 0, -2⟩], by decide⟩ : Polynomial).coefficients,
      ∃ d : Decimal, c = .finite d ∧ Range.exact.Contains d := by
    intro c present
    simp only [List.mem_cons, List.not_mem_nil, or_false] at present
    rcases present with rfl | rfl | rfl | rfl | rfl <;> exact ⟨_, rfl, by decide⟩
  obtain ⟨text, q, written, _, read, _, values, again, _⟩ := reread_normalizes finite (by decide)
  have same : text = "-x^3+1000x^2+0.50" := Except.ok.inj (written.symm.trans (by decide +kernel))
  refine ⟨q, read _, ?_, again.trans (congrArg Except.ok same)⟩
  rw [values]
  change [some (Decimal.value ⟨false, 50, -2⟩), some (Decimal.value ⟨true, 0, 2⟩),
    some (Decimal.value ⟨false, 1, 3⟩), some (Decimal.value ⟨true, 10, -1⟩)] = _
  norm_num [Decimal.value_eq, Decimal.significand]

end Polynomial

end ExactQuadrature

import ExactQuadrature.Proofs.Calculation.Independence
import ExactQuadrature.Proofs.Polynomial.RoundTrip
import ExactQuadrature.Proofs.Quadrature.Restatement

/-! # Both formats of polynomials have the same integrals

A line of coefficients may be replaced by the written form of its polynomial. What is read from that
form restates the polynomial (`Polynomial.exists_restated`), so the results by rectangles have equal
values and those by trapezoids are written alike (`Calculation.run_formats`).
-/

namespace ExactQuadrature

namespace Polynomial

/-- Terms are restated by terms of the same values if nothing but zeros comes after them. -/
theorem restatedTerms_append {ds es zeros : List Decimal} (some_term : ds ≠ [])
    (length : es.length = ds.length) (none : ∀ z ∈ zeros, z.isZero = true)
    (units : ∀ e ∈ es, e.exponent ≤ 1)
    (same : ∀ (place : Nat) (d e : Decimal), ds[place]? = some d → es[place]? = some e →
      e.value = d.value) : RestatedTerms (ds ++ zeros) es := by
  induction ds generalizing es with
  | nil => exact absurd rfl some_term
  | cons d rest ih =>
    obtain ⟨e, others, rfl⟩ := List.exists_cons_of_length_eq_add_one length
    have first := same 0 d e rfl rfl
    obtain ⟨unit, otherUnits⟩ := List.forall_mem_cons.mp units
    cases rest with
    | nil =>
      obtain rfl : others = [] := List.eq_nil_of_length_eq_zero (Nat.succ.inj length)
      exact .last first unit none
    | cons next rest =>
      apply RestatedTerms.cons first unit
      exact ih (List.cons_ne_nil _ _) (Nat.succ.inj length) otherUnits
        fun place d' e' there alsoThere => same (place + 1) d' e' there alsoThere

/-- The written form of a polynomial is read as a restatement of it. -/
theorem exists_restated {p : Polynomial} {ds : List Decimal}
    (finite : p.coefficients = ds.map .finite)
    (contained : ∀ d ∈ ds, Range.exact.Contains d) (few : ds.length ≤ largestExponent + 1) :
    ∃ (text : String) (q : Polynomial), p.text = .ok text ∧ Expression.read text = .ok q ∧
      p.Restated q := by
  have some_term := decimals_ne_nil finite
  obtain ⟨zeros, none, shape⟩ := exists_zeros ds
  have fewer : (trimmedList ds).length ≤ largestExponent + 1 := by
    have total := congrArg List.length shape
    rw [List.length_append] at total
    omega
  have kept : ∀ d ∈ trimmedList ds, Range.exact.Contains d := fun d present =>
    contained d (shape ▸ List.mem_append_left _ present)
  obtain ⟨q, es, parsed, read, length, back⟩ :=
    read_rendered kept fewer (trimmedList_ends some_term)
  obtain ⟨_, es', alsoRead, sized⟩ := @PolynomialFormat.exists_sized .expression _ _ parsed
  obtain rfl : es' = es := by
    rw [read] at alsoRead
    exact (List.map_injective_iff.mpr (fun a b same => Number.finite.inj same) alsoRead).symm
  rw [rendered_trimmedList] at parsed
  refine ⟨_, q, text_eq finite, parsed, ds, es', finite, read, ?_⟩
  rw [shape]
  obtain ⟨top, _, count, _⟩ := trimmedList_ends some_term
  apply restatedTerms_append _ length none fun e present => (sized e present).unit
  · exact fun place d e there alsoThere => (back place d e there alsoThere).1
  · intro empty
    rw [empty] at count
    cases count

/-- **Integrals depend on values.** -/
theorem restated_total {p q : Polynomial} (restated : p.Restated q) (rule : Rule)
    {stepping : Stepping} {scale : Int} (places : stepping.places = .ok scale) (nonneg : 0 ≤ scale)
    {bounds : Bounds} (lower : bounds.lower.exponent ≤ 0) {total : Number}
    (found : p.total rule stepping bounds = .ok total) :
    ∃ other, q.total rule stepping bounds = .ok other ∧ RestatedBy rule total other := by
  obtain ⟨grid, made, rest⟩ := bind_eq_ok.mp found
  obtain ⟨width, widthFound, _⟩ := bind_eq_ok.mp made
  obtain ⟨same, alsoMade, lowerSame, _, rfl⟩ := Grid.make_of_stepWidth widthFound
  obtain rfl : grid = same := Except.ok.inj (made.symm.trans alsoMade)
  obtain ⟨_, _, dx, shape, parts⟩ := Grid.isStepWidth_of_found widthFound
  cases places.symm.trans parts.places
  have high := parts.notFine
  have fine : grid.width.exponent ≤ 0 := by
    rw [Number.finite.inj shape, parts.rounded.unit]
    omega
  simp only [places, bind_ok] at rest
  simp only [Polynomial.total, made, places, bind_ok]
  exact restated_totalFrom restated rule nonneg high (lowerSame ▸ lower) fine rest

end Polynomial

namespace Calculation

/-- An input of two lines yields its bounds and the answer to its only polynomial. -/
theorem yieldOf_pair {stepping : Stepping} (format : PolynomialFormat) {first line : String}
    {bounds : Bounds} {p : Polynomial} (start : Bounds.read first = .ok bounds)
    (parsed : format.parse line = .ok p) :
    yieldOf stepping format [first, line] =
      ⟨boundsLine bounds :: (Yield.ofAnswers [answer stepping bounds p]).lines,
        (Yield.ofAnswers [answer stepping bounds p]).fault⟩ := by
  have polynomials : [line].map format.parse = [p].map .ok := by
    rw [List.map_singleton, parsed, List.map_singleton]
  have given : inputOf format [first, line] = .ok (bounds, [p]) := by
    simp only [inputOf, start, bind_ok, mapM_eq_ok.mpr polynomials]
    rfl
  simp only [yieldOf, given, List.map_cons, List.map_nil]

/-- An answer consists of two totals. -/
theorem answer_eq_ok {stepping : Stepping} {bounds : Bounds} {p : Polynomial} {text : String} :
    answer stepping bounds p = .ok text ↔ ∃ rectangles trapezoids,
      p.total .rectangles stepping bounds = .ok rectangles ∧
      p.total .trapezoids stepping bounds = .ok trapezoids ∧
      text = resultText rectangles trapezoids := by
  simp only [answer, bind_eq_ok]
  constructor
  · rintro ⟨rectangles, first, trapezoids, second, same⟩
    exact ⟨rectangles, trapezoids, first, second, (Except.ok.inj same).symm⟩
  · rintro ⟨rectangles, trapezoids, first, second, rfl⟩
    exact ⟨rectangles, first, trapezoids, second, rfl⟩

/-- **Both formats give the same integrals.** Where a line of coefficients is integrated, the
written form of its polynomial is integrated as an expression. The result by trapezoids is the same
decimal, and the result by rectangles has the same value. -/
theorem run_formats {stepping : Stepping} {scale : Int} (places : stepping.places = .ok scale)
    (nonneg : 0 ≤ scale) {first line : String} {bounds : Bounds} {p : Polynomial}
    (start : Bounds.read first = .ok bounds) (read : CoefficientLine.read line = .ok p)
    (short : line.length ≤ Range.exact.precision)
    (few : p.coefficients.length ≤ largestExponent + 1) (journal : Journal)
    (succeeds : ((run stepping .coefficients [first, line]).run journal).1.fault = none) :
    ∃ (text : String) (rectangles restated trapezoids : Decimal),
      p.text = .ok text ∧
      ((run stepping .coefficients [first, line]).run journal).1 =
        ⟨[boundsLine bounds, resultText (.finite rectangles) (.finite trapezoids)], none⟩ ∧
      (∀ other, ((run stepping .expression [first, text]).run other).1 =
        ⟨[boundsLine bounds, resultText (.finite restated) (.finite trapezoids)], none⟩) ∧
      restated.value = rectangles.value := by
  obtain ⟨ds, found, finite⟩ := CoefficientLine.read_eq_ok read
  have contained : ∀ d ∈ ds, Range.exact.Contains d := by
    intro d present
    obtain ⟨_, each⟩ := CoefficientLine.scanned_of_decimals? _ found
    obtain ⟨part, _, within, scanned⟩ := each d present
    rw [String.length_toList] at within
    exact Numeral.contains_of_scanSigned? scanned (within.trans short)
  rw [finite, List.length_map] at few
  obtain ⟨text, q, written, parsed, restated⟩ := Polynomial.exists_restated finite contained few
  have lower := (Bounds.sized_of_read start).1.unit
  rw [(run_yields stepping .coefficients [first, line] journal).1,
    yieldOf_pair .coefficients start read] at succeeds ⊢
  cases answered : answer stepping bounds p with
  | error fault =>
    rw [answered] at succeeds
    cases succeeds
  | ok answerText =>
    obtain ⟨rectangles, trapezoids, first', second, rfl⟩ := answer_eq_ok.mp answered
    obtain ⟨rectangles', firstAlso, firstBoth⟩ :=
      Polynomial.restated_total restated .rectangles places nonneg lower first'
    obtain ⟨trapezoids', secondAlso, secondBoth⟩ :=
      Polynomial.restated_total restated .trapezoids places nonneg lower second
    obtain rfl := secondBoth.same rfl
    have also := answer_eq_ok.mpr ⟨_, _, firstAlso, secondAlso, rfl⟩
    obtain ⟨sameRectangles, _⟩ := firstBoth.restated
    obtain ⟨_, _⟩ := secondBoth.restated
    refine ⟨text, _, _, _, written, rfl, fun other => ?_, sameRectangles⟩
    rw [(run_yields stepping .expression [first, text] other).1,
      yieldOf_pair .expression start parsed, also]
    rfl

/-- A zero with a sign, a zero at the end, and places that the written form keeps. -/
theorem run_formats_zeros :
    ∃ rectangles restated trapezoids : Decimal,
      ((run (.ofWhole 2 1) .coefficients ["0,1", "1.00,-0,2,0.00"]).run (Journal.new false [])).1 =
        ⟨["bounds: 0, 1", resultText (.finite rectangles) (.finite trapezoids)], none⟩ ∧
      ((run (.ofWhole 2 1) .expression ["0,1", "2x^2+1.00"]).run (Journal.new false [])).1 =
        ⟨["bounds: 0, 1", resultText (.finite restated) (.finite trapezoids)], none⟩ ∧
      restated.value = rectangles.value := by
  have read : CoefficientLine.read "1.00,-0,2,0.00" = .ok ⟨[.finite ⟨false, 100, -2⟩,
      .finite ⟨true, 0, 0⟩, .finite ⟨false, 2, 0⟩, .finite ⟨false, 0, -2⟩],
        List.cons_ne_nil _ _⟩ := by
    decide +kernel
  have places : (Stepping.ofWhole 2 1).places = .ok 1 := rfl
  obtain ⟨text, rectangles, restated, trapezoids, written, first, second, same⟩ :=
    run_formats places (by decide) read_unit read (by decide) (by decide) (Journal.new false [])
      (by decide +kernel)
  obtain rfl : text = "2x^2+1.00" := Except.ok.inj (written.symm.trans (by decide +kernel))
  rw [boundsLine_unit] at first second
  exact ⟨rectangles, restated, trapezoids, first, second _, same⟩

end Calculation

end ExactQuadrature

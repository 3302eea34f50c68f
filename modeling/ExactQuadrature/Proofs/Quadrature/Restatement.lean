import ExactQuadrature.Proofs.Calculation.Yield
import ExactQuadrature.Proofs.Polynomial.Evaluation
import ExactQuadrature.Proofs.Quadrature.Points

/-! # Integrals of polynomials with equal values

Coefficients may be written in other units, and zeros left out at the end of a polynomial, without
an influence on what an integration finds. All sums and products then have the same values
(`Number.Restated`), although their units differ; the quotients that the trapezoid rule rounds
are even the same decimals, because a quotient depends on values alone
(`Decimal.quotient_congr`). If a polynomial has an integral, the restated one therefore has one with
this value, and by the trapezoid rule the very same one (`Polynomial.restated_total`).
-/

namespace ExactQuadrature

/-- A rounded quotient depends on the value of the dividend alone. -/
theorem Decimal.quotient_congr {a b : Decimal} (same : b.value = a.value) {divisor : Decimal}
    (nonzero : divisor.value ≠ 0) (scale : Int) :
    b.quotient divisor scale = a.quotient divisor scale := by
  have rounded := isRounded_quotient (a := b) nonzero scale
  rw [same] at rounded
  exact rounded.unique (isRounded_quotient nonzero scale)

namespace Number

/-- A decimal with the same value, in a unit that is not above ten. -/
inductive Restated : Number → Number → Prop where
  | finite {d e : Decimal} (same : e.value = d.value) (unit : e.exponent ≤ 1) :
    Restated (.finite d) (.finite e)

variable {a a' b b' result : Number}

/-- Whether a result is settled depends on its value alone. -/
theorem restated_settle {d e : Decimal} (same : e.value = d.value) (unit : e.exponent ≤ 1)
    (settled : settle d = .ok result) : ∃ other, settle e = .ok other ∧ result.Restated other := by
  obtain ⟨kept, rfl, value, _⟩ := value_of_settle settled
  have represented := represents_of_settle settled
  rw [← same] at represented
  obtain ⟨other, also, otherValue, _, low⟩ := settle_of_represents represented
  exact ⟨.finite other, also, .finite (by rw [otherValue, same, value]) (by omega)⟩

/-- A sum that is found is restated by the sum of the restated numbers. -/
theorem Restated.add (left : a.Restated a') (right : b.Restated b') (added : a.add b = .ok result) :
    ∃ other, a'.add b' = .ok other ∧ result.Restated other := by
  cases left with
  | finite leftSame leftUnit =>
    cases right with
    | finite rightSame rightUnit =>
      apply restated_settle _ _ added
      · rw [Decimal.value_add, Decimal.value_add, leftSame, rightSame]
      · rw [Decimal.exponent_add]
        exact (min_le_left _ _).trans leftUnit

/-- A product that is found is restated by the product of the restated number. -/
theorem Restated.mul (left : a.Restated a') {x : Decimal} (fine : x.exponent ≤ 0)
    (multiplied : a.mul (.finite x) = .ok result) :
    ∃ other, a'.mul (.finite x) = .ok other ∧ result.Restated other := by
  cases left with
  | finite same unit =>
    apply restated_settle _ _ multiplied
    · rw [Decimal.value_mul, Decimal.value_mul, same]
    · rw [Decimal.exponent_mul]
      omega

end Number

namespace Polynomial

/-- The same values in other units, as far as there are any before zeros at the end. -/
inductive RestatedTerms : List Decimal → List Decimal → Prop where
  | last {d e : Decimal} {zeros : List Decimal} (same : e.value = d.value) (unit : e.exponent ≤ 1)
    (none : ∀ z ∈ zeros, z.isZero = true) : RestatedTerms (d :: zeros) [e]
  | cons {d e : Decimal} {ds es : List Decimal} (same : e.value = d.value) (unit : e.exponent ≤ 1)
    (later : RestatedTerms ds es) : RestatedTerms (d :: ds) (e :: es)

/-- Restated terms have the same value at a point. -/
theorem RestatedTerms.evaluate {ds es : List Decimal} (restated : RestatedTerms ds es)
    {x : Decimal} (fine : x.exponent ≤ 0) {result : Number}
    (found : evaluateTerms (.finite x) (ds.map .finite) = .ok result) :
    ∃ other, evaluateTerms (.finite x) (es.map .finite) = .ok other ∧ result.Restated other := by
  induction restated generalizing result with
  | @last d e zeros same unit none =>
    obtain ⟨value, rfl, sum⟩ := value_evaluateTerms found
    rw [exactValue_cons, exactValue_zeros none, zero_mul, zero_add] at sum
    exact ⟨.finite e, rfl, .finite (same.trans sum.symm) unit⟩
  | @cons d e ds es same unit later ih =>
    -- Neither list ends here, so both are evaluated by one more step of Horner's scheme.
    obtain ⟨nextD, restD, rfl⟩ : ∃ next rest, ds = next :: rest := by
      cases later <;> exact ⟨_, _, rfl⟩
    obtain ⟨nextE, restE, rfl⟩ : ∃ next rest, es = next :: rest := by
      cases later <;> exact ⟨_, _, rfl⟩
    rw [List.map_cons, List.map_cons, evaluateTerms_cons] at found ⊢
    obtain ⟨scaled, inner, added⟩ := bind_eq_ok.mp found
    obtain ⟨value, evaluated, multiplied⟩ := bind_eq_ok.mp inner
    obtain ⟨value', evaluated', valueRestated⟩ := ih evaluated
    obtain ⟨scaled', multiplied', scaledRestated⟩ := valueRestated.mul fine multiplied
    obtain ⟨sum', added', sumRestated⟩ := scaledRestated.add (.finite same unit) added
    rw [List.map_cons] at evaluated'
    simp only [evaluated', bind_ok, multiplied', added']
    exact ⟨sum', rfl, sumRestated⟩

/-- A polynomial with the same values, up to zeros at the end of the first. -/
def Restated (p q : Polynomial) : Prop :=
  ∃ ds es : List Decimal, p.coefficients = ds.map .finite ∧ q.coefficients = es.map .finite ∧
    RestatedTerms ds es

/-- A value that is found is restated by the value of the restated polynomial. -/
theorem Restated.evaluate {p q : Polynomial} (restated : p.Restated q) {x : Decimal}
    (fine : x.exponent ≤ 0) {result : Number} (found : p.evaluate (.finite x) = .ok result) :
    ∃ other, q.evaluate (.finite x) = .ok other ∧ result.Restated other := by
  obtain ⟨ds, es, shape, otherShape, terms⟩ := restated
  simp only [Polynomial.evaluate, shape, otherShape, Fault.ofSignal_eq_ok] at found ⊢
  exact terms.evaluate fine found

end Polynomial

namespace Rule

/-- Restated heights give the very same trapezoid. -/
theorem restated_trapezoidArea {scale : Int} (nonneg : 0 ≤ scale) (high : scale ≤ 2000054)
    {width : Decimal} (fine : width.exponent ≤ 0) {left left' right right' area : Number}
    (leftRestated : left.Restated left') (rightRestated : right.Restated right')
    (found : trapezoidArea scale (.finite width) left right = .ok area) :
    trapezoidArea scale (.finite width) left' right' = .ok area ∧ area.Restated area := by
  obtain ⟨doubled, both, divided⟩ := bind_eq_ok.mp found
  obtain ⟨sum, added, multiplied⟩ := bind_eq_ok.mp (Fault.ofSignal_eq_ok.mp both)
  obtain ⟨sum', added', sumRestated⟩ := leftRestated.add rightRestated added
  obtain ⟨doubled', multiplied', doubledRestated⟩ := sumRestated.mul fine multiplied
  cases doubledRestated with
  | @finite d e same unit =>
    have two : (Decimal.ofInt 2).adjusted = 0 := by decide
    have precision : (Range.exact.precision : Int) = 999999999999999999 := rfl
    have highest : Range.exact.maxExponent = 999999999999999999 := rfl
    obtain ⟨unit', unitFound, nonzero, provided, rfl⟩ := Division.divide_eq_ok divided
    have ordinary : unit' = scale := Division.unitScale_exact high unitFound
    subst unit'
    have digits : max (e.adjusted - (Decimal.ofInt 2).adjusted) 0 + scale + 3 ≤
        Range.exact.precision := by
      by_cases zero : e.value = 0
      · have none : e.coefficient = 0 := not_not.mp (mt (Decimal.coefficient_ne_zero_iff e).mp
          (not_not.mpr zero))
        have single : digitCount 0 = 1 := by decide
        simp only [Decimal.adjusted, none, single] at *
        omega
      · rwa [Decimal.adjusted_congr zero same]
    have divisor : (Decimal.ofInt 2).value ≠ 0 := (Decimal.value_ne_zero_iff _).mpr nonzero
    refine ⟨?_, .finite rfl (by rw [Decimal.exponent_quotient]; omega)⟩
    simp only [trapezoidArea, added', bind_ok, multiplied', Fault.ofSignal_ok]
    obtain also | ⟨coarse, _⟩ :=
      Division.divide_cases (a := e) nonzero unitFound (by omega) digits (by omega)
    · rw [← Decimal.quotient_congr same divisor]
      exact also
    · omega

end Rule

/-- All points of a grid are at least as fine as units, if its lower bound is. -/
theorem Grid.exponent_point_le {grid : Grid} (fine : grid.lower.exponent ≤ 0) (k : Nat) :
    (grid.point k).exponent ≤ 0 := by
  induction k with
  | zero => exact fine
  | succ k ih =>
    rw [point_succ, Decimal.exponent_add]
    exact (min_le_left _ _).trans ih

namespace Polynomial

variable {p q : Polynomial} {grid : Grid} {scale : Int}

/-- What a rule finds for a restated polynomial: the same value, and by trapezoids the same
decimal. -/
structure RestatedBy (rule : Rule) (a b : Number) : Prop where
  restated : a.Restated b
  same : rule = .trapezoids → b = a

/-- An area that is found over a step is restated by that of the restated polynomial. -/
theorem restated_area (restated : p.Restated q) (rule : Rule) (nonneg : 0 ≤ scale)
    (high : scale ≤ 2000054) (lower : grid.lower.exponent ≤ 0) (width : grid.width.exponent ≤ 0)
    {k : Nat} {area : Number} (found : p.area rule scale grid (grid.point k) = .ok area) :
    ∃ other, q.area rule scale grid (grid.point k) = .ok other ∧ RestatedBy rule area other := by
  have here := Grid.exponent_point_le lower k
  have next := Grid.exponent_point_le lower (k + 1)
  cases rule with
  | rectangles =>
    obtain ⟨height, evaluated, multiplied⟩ := bind_eq_ok.mp found
    obtain ⟨height', evaluated', heightRestated⟩ := restated.evaluate here evaluated
    obtain ⟨area', multiplied', areaRestated⟩ :=
      heightRestated.mul width (Fault.ofSignal_eq_ok.mp multiplied)
    refine ⟨area', ?_, areaRestated, nofun⟩
    simp only [Polynomial.area, evaluated', bind_ok, Rule.rectangleArea, multiplied',
      Fault.ofSignal_ok]
  | trapezoids =>
    obtain ⟨left, leftFound, rest⟩ := bind_eq_ok.mp found
    obtain ⟨right, rightFound, areaFound⟩ := bind_eq_ok.mp rest
    obtain ⟨left', leftFound', leftRestated⟩ := restated.evaluate here leftFound
    obtain ⟨right', rightFound', rightRestated⟩ := restated.evaluate next rightFound
    obtain ⟨also, areaRestated⟩ :=
      Rule.restated_trapezoidArea nonneg high width leftRestated rightRestated areaFound
    refine ⟨area, ?_, areaRestated, fun _ => rfl⟩
    rw [Grid.point_succ] at rightFound'
    simp only [Polynomial.area, leftFound', bind_ok, rightFound', also]

/-- **Integrals depend on values.** A restated polynomial has the same integral by value, and by
the trapezoid rule the same decimal. -/
theorem restated_totalFrom (restated : p.Restated q) (rule : Rule) (nonneg : 0 ≤ scale)
    (high : scale ≤ 2000054) (lower : grid.lower.exponent ≤ 0) (width : grid.width.exponent ≤ 0)
    {total : Number} (found : p.totalFrom rule scale grid .zero grid.points = .ok total) :
    ∃ other, q.totalFrom rule scale grid .zero grid.points = .ok other ∧
      RestatedBy rule total other := by
  apply foldlM_related _ ⟨.finite rfl zero_le_one, fun _ => rfl⟩ found
  intro x present before after before' both step
  rw [Grid.points_eq] at present
  obtain ⟨k, _, rfl⟩ := List.mem_map.mp present
  obtain ⟨area, areaFound, added⟩ := bind_eq_ok.mp step
  obtain ⟨area', areaFound', areaBoth⟩ :=
    restated_area restated rule nonneg high lower width areaFound
  rw [Fault.ofSignal_eq_ok] at added
  obtain ⟨after', added', afterRestated⟩ := both.restated.add areaBoth.restated added
  refine ⟨after', ?_, afterRestated, fun trapezoids => ?_⟩
  · simp only [areaFound', bind_ok, added', Fault.ofSignal_ok]
  · rw [both.same trapezoids, areaBoth.same trapezoids, added] at added'
    exact (Except.ok.inj added').symm

end Polynomial

end ExactQuadrature

import ExactQuadrature.Proofs.Quadrature.Comparison
import ExactQuadrature.Proofs.Quadrature.Opposites

/-! # Integration keeps order and turns round with the sign

An area over a step grows with the values at the points that its rule looks at, because the width of
a step is positive and rounding keeps order (`Rule.areaValue_mono`). Over all steps, a polynomial
that is nowhere above another at these points has no larger integral, and one that is nowhere
negative there has no negative integral. Opposite polynomials have opposite integrals, although
every trapezoid is rounded (`Polynomial.integration_monotone_odd`).
-/

namespace ExactQuadrature

open Finset

namespace Rule

/-- At how many points, from the lower bound onwards, a rule looks in the course of some steps. -/
def samples : Rule → Nat → Nat
  | rectangles, steps => steps
  | trapezoids, steps => steps + 1

/-- **One step.** No larger values at the points that a rule looks at, no larger area. -/
theorem areaValue_mono (rule : Rule) (scale : Int) {f g : ℚ → ℚ} {lower width : ℚ}
    (forward : 0 < width) {steps k : Nat} (inside : k < steps)
    (below : ∀ k < rule.samples steps, f (lower + k * width) ≤ g (lower + k * width)) :
    rule.areaValue scale f width (lower + k * width) ≤
      rule.areaValue scale g width (lower + k * width) := by
  cases rule with
  | rectangles => exact mul_le_mul_of_nonneg_left (below k inside) forward.le
  | trapezoids =>
    have next : lower + k * width + width = lower + (k + 1 : Nat) * width := by
      push_cast
      ring
    have left := below k (Nat.lt_succ_of_lt inside)
    have right := below (k + 1) (Nat.succ_lt_succ inside)
    simp only [areaValue, next]
    apply roundHalfAway_mono
    exact div_le_div_of_nonneg_right (mul_le_mul_of_nonneg_left (add_le_add left right) forward.le)
      zero_le_two

/-- The areas under zero are zero. -/
theorem areaValue_zero (rule : Rule) (scale : Int) (width x : ℚ) :
    rule.areaValue scale (fun _ => 0) width x = 0 := by
  cases rule with
  | rectangles => exact mul_zero width
  | trapezoids => simp only [areaValue, add_zero, mul_zero, zero_div, roundHalfAway_zero]

/-- **All steps.** -/
theorem sum_areaValue_mono (rule : Rule) (scale : Int) {f g : ℚ → ℚ} {lower width : ℚ}
    (forward : 0 < width) {steps : Nat}
    (below : ∀ k < rule.samples steps, f (lower + k * width) ≤ g (lower + k * width)) :
    ∑ k ∈ range steps, rule.areaValue scale f width (lower + k * width) ≤
      ∑ k ∈ range steps, rule.areaValue scale g width (lower + k * width) :=
  sum_le_sum fun _ inside => rule.areaValue_mono scale forward (mem_range.mp inside) below

end Rule

namespace Polynomial

variable {p q : Polynomial} {ds es : List Decimal} {scale : Int} {stepping : Stepping}
  {lower upper : Operand} {l u width : Number}

/-- **Order and sign.** Where the bounds have a step width, the integral that is found for a
polynomial is no larger than that of another one if this holds for their values at all sample
points; it has no minus sign if no value at a sample point has one. The integrals of a polynomial
and of one with the opposite coefficients are opposite, ties included, or neither is found. If
bounds and coefficients have few digits, all integrals are found. -/
theorem integration_monotone_odd (finiteP : p.coefficients = ds.map .finite)
    (finiteQ : q.coefficients = es.map .finite)
    (offered : Grid.Offered stepping lower upper scale l u width) :
    ∃ a b dx : Decimal, l = .finite a ∧ u = .finite b ∧ width = .finite dx ∧
      let steps := ⌈(b.value - a.value) / dx.value⌉₊
      let point := fun k : Nat => a.value + k * dx.value
      (∀ (rule : Rule) first second P Q,
        (p.integrate rule stepping lower upper).outcome first = .ok P →
        (q.integrate rule stepping lower upper).outcome second = .ok Q →
          ∃ x y : Decimal, P = .finite x ∧ Q = .finite y ∧
            ((∀ k < rule.samples steps, exactValue ds (point k) ≤ exactValue es (point k)) →
              x.value ≤ y.value)) ∧
      (∀ (rule : Rule) journal P, (p.integrate rule stepping lower upper).outcome journal = .ok P →
        (∀ k < rule.samples steps, 0 ≤ exactValue ds (point k)) →
          ∃ x : Decimal, P = .finite x ∧ 0 ≤ x.value ∧ x.negative = false) ∧
      (∀ n, p.Opposes n → ∀ (rule : Rule) first second,
        Matching Number.Opposes ((p.integrate rule stepping lower upper).outcome first)
          ((n.integrate rule stepping lower upper).outcome second)) ∧
      (∀ length, p.Sized length → q.Sized length → a.Sized length length 0 →
          b.Sized length length 0 →
        demand length (max p.degree q.degree) ≤ Range.exact.precision →
          ∀ (rule : Rule) (journal : Journal),
            (∃ P, (p.integrate rule stepping lower upper).outcome journal = .ok P) ∧
            ∃ Q, (q.integrate rule stepping lower upper).outcome journal = .ok Q) := by
  obtain ⟨grid, made, rfl, rfl, rfl⟩ := offered.exists_grid
  have value : ∀ {s : Polynomial} {fs : List Decimal}, s.coefficients = fs.map .finite →
      ∀ {rule : Rule} {journal : Journal} {total : Number},
        (s.integrate rule stepping lower upper).outcome journal = .ok total →
          ∃ t : Decimal, total = .finite t ∧ t.value = ∑ k ∈ range grid.stepCount,
            rule.areaValue scale (exactValue fs) grid.width.value
              (grid.lower.value + k * grid.width.value) := by
    intro s fs finite rule journal total found
    rw [(yields_integral _ _ _ _ _).outcome] at found
    exact value_integral finite offered made found
  refine ⟨grid.lower, grid.upper, grid.width, rfl, rfl, rfl, ?_, ?_, ?_, ?_⟩
  · intro rule first second P Q foundP foundQ
    obtain ⟨x, rfl, xValue⟩ := value finiteP foundP
    obtain ⟨y, rfl, yValue⟩ := value finiteQ foundQ
    refine ⟨x, y, rfl, rfl, fun below => ?_⟩
    rw [xValue, yValue]
    exact rule.sum_areaValue_mono scale grid.width_pos below
  · intro rule journal P foundP nonneg
    obtain ⟨x, rfl, xValue⟩ := value finiteP foundP
    have above : 0 ≤ x.value := by
      have zeros := rule.sum_areaValue_mono scale grid.width_pos (f := fun _ => 0) nonneg
      simp only [Rule.areaValue_zero, sum_const_zero] at zeros
      exact xValue ▸ zeros
    refine ⟨x, rfl, above, ?_⟩
    -- A positive value has no minus sign, and an integral that is zero has none either.
    rcases above.eq_or_lt with zero | positive
    · exact unsigned_integrate foundP x rfl ((Decimal.value_eq_zero_iff x).mp zero.symm)
    · exact Decimal.negative_of_value_pos positive
  · intro n opposes rule first second
    rw [(yields_integral _ _ _ _ _).outcome, (yields_integral _ _ _ _ _).outcome]
    exact opposes.integral rule stepping lower upper
  · intro length sizedP sizedQ lowerSized upperSized few rule journal
    have each : ∀ s : Polynomial, s.Sized length → s.degree ≤ max p.degree q.degree →
        ∃ total, (s.integrate rule stepping lower upper).outcome journal = .ok total := by
      intro s sized below
      exact integrate_found offered sized lowerSized upperSized
        ((demand_mono length below).trans few) rule journal
    exact ⟨each p sizedP (le_max_left _ _), each q sizedQ (le_max_right _ _)⟩

/-- Two opposite constants of half a unit for every step: all their trapezoids end in a half, and
are rounded away from zero on either side of it. -/
theorem integration_monotone_odd_constants :
    let below : Polynomial := ⟨[.finite ⟨true, 1, -3⟩], List.cons_ne_nil _ _⟩
    let above : Polynomial := ⟨[.finite ⟨false, 1, -3⟩], List.cons_ne_nil _ _⟩
    ∃ x y : Decimal,
      (below.integrate .trapezoids (.ofWhole 2 3) (.whole 0) (.text "1")).outcome
        (Journal.new false []) = .ok (.finite x) ∧
      (above.integrate .trapezoids (.ofWhole 2 3) (.whole 0) (.text "1")).outcome
        (Journal.new false []) = .ok (.finite y) ∧
      x = ⟨true, 2, -3⟩ ∧ x.value ≤ y.value ∧ x.Opposes y := by
  intro below above
  have ofBelow : (below.integrate .trapezoids (.ofWhole 2 3) (.whole 0) (.text "1")).outcome
      (Journal.new false []) = .ok (.finite ⟨true, 2, -3⟩) := by decide +kernel
  have finiteBelow : below.coefficients = [⟨true, 1, -3⟩].map Number.finite := rfl
  have finiteAbove : above.coefficients = [⟨false, 1, -3⟩].map Number.finite := rfl
  have turned : below.Opposes above := .cons (.finite (.negate _)) .nil
  obtain ⟨_, _, _, _, _, _, ordered, _, opposite, _⟩ :=
    integration_monotone_odd finiteBelow finiteAbove offered_halves
  have both := opposite above turned .trapezoids (Journal.new false []) (Journal.new false [])
  rw [ofBelow] at both
  obtain ⟨_, ofAbove, ⟨opposes⟩⟩ := both.exists_ok
  obtain ⟨x, y, xShape, yShape, smaller⟩ := ordered .trapezoids _ _ _ _ ofBelow ofAbove
  obtain rfl := Number.finite.inj xShape
  obtain rfl := Number.finite.inj yShape
  refine ⟨_, _, ofBelow, ofAbove, rfl, smaller fun k _ => ?_, opposes⟩
  rw [exactValue_singleton, exactValue_singleton, Decimal.value_eq, Decimal.value_eq]
  norm_num [Decimal.significand]

end Polynomial

end ExactQuadrature

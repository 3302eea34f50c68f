import ExactQuadrature.Proofs.Polynomial.Evaluation
import ExactQuadrature.Proofs.Quadrature.Sizes
import Mathlib.Algebra.Order.BigOperators.Group.Finset

/-! # Rectangles and trapezoids compared

On one grid both rules look at the same points. Without rounding the trapezoids exceed the
rectangles by half a step width times the difference of the values at both ends (`sum_trapezoids`),
because the values in between are counted twice by halves. Every trapezoid is rounded once, which
moves it by half a unit at most, so the two integrals of a polynomial differ from that by half a
unit for every step (`Polynomial.trapezoids_near_rectangles`).
-/

namespace ExactQuadrature

open Finset

/-- Trapezoids without rounding telescope: they differ from rectangles by the ends alone. -/
theorem sum_trapezoids (f : Nat → ℚ) (width : ℚ) (n : Nat) :
    ∑ k ∈ range n, width * (f k + f (k + 1)) / 2 =
      width * ∑ k ∈ range n, f k + width * (f n - f 0) / 2 := by
  calc ∑ k ∈ range n, width * (f k + f (k + 1)) / 2
      = ∑ k ∈ range n, (width * f k + width / 2 * (f (k + 1) - f k)) :=
        sum_congr rfl fun k _ => by ring
    _ = width * ∑ k ∈ range n, f k + width / 2 * (f n - f 0) := by
        rw [sum_add_distrib, ← mul_sum, ← mul_sum, sum_range_sub]
    _ = width * ∑ k ∈ range n, f k + width * (f n - f 0) / 2 := by ring

/-- Errors of single numbers add up. -/
theorem abs_sum_sub_sum_le {first second : Nat → ℚ} {error : ℚ}
    (each : ∀ k, |first k - second k| ≤ error) (n : Nat) :
    |∑ k ∈ range n, first k - ∑ k ∈ range n, second k| ≤ n * error := by
  rw [← sum_sub_distrib]
  calc |∑ k ∈ range n, (first k - second k)|
      ≤ ∑ k ∈ range n, |first k - second k| := abs_sum_le_sum_abs _ _
    _ ≤ ∑ _k ∈ range n, error := sum_le_sum fun k _ => each k
    _ = n * error := by rw [sum_const, card_range, nsmul_eq_mul]

/-- Rounded numbers differ from exact ones by half a unit each. -/
theorem abs_sum_roundHalfAway_sub_le (scale : Int) (areas : Nat → ℚ) (n : Nat) :
    |∑ k ∈ range n, roundHalfAway scale (areas k) - ∑ k ∈ range n, areas k| ≤
      n * (10 : ℚ) ^ (-scale) / 2 := by
  rw [mul_div_assoc]
  exact abs_sum_sub_sum_le (fun k => abs_roundHalfAway_sub_le scale (areas k)) n

/-- A sum of rounded areas is a multiple of the unit. -/
theorem isMultiple_sum_roundHalfAway (scale : Int) (areas : Nat → ℚ) (n : Nat) :
    IsMultiple scale (∑ k ∈ range n, roundHalfAway scale (areas k)) := by
  induction n with
  | zero => exact .zero scale
  | succ n ih =>
    rw [sum_range_succ]
    exact ih.add (isMultiple_roundHalfAway scale (areas n))

/-- Rounded trapezoids are near rectangles of the same heights, and meet them where none is
moved. -/
theorem rounded_trapezoids (scale : Int) (f : Nat → ℚ) (width : ℚ) (n : Nat) :
    let rectangles := ∑ k ∈ range n, width * f k
    let trapezoids := ∑ k ∈ range n, roundHalfAway scale (width * (f k + f (k + 1)) / 2)
    let ends := width * (f n - f 0) / 2
    |trapezoids - (rectangles + ends)| ≤ n * (10 : ℚ) ^ (-scale) / 2 ∧
      IsMultiple scale trapezoids ∧
      ((∀ k < n, IsMultiple scale (width * (f k + f (k + 1)) / 2)) →
        trapezoids = rectangles + ends) := by
  intro rectangles trapezoids ends
  have exactly : rectangles + ends = ∑ k ∈ range n, width * (f k + f (k + 1)) / 2 := by
    rw [sum_trapezoids, mul_sum]
  rw [exactly]
  refine ⟨abs_sum_roundHalfAway_sub_le _ _ _, isMultiple_sum_roundHalfAway _ _ _, ?_⟩
  intro multiples
  exact sum_congr rfl fun k within =>
    roundHalfAway_of_isMultiple (multiples k (mem_range.mp within))

namespace Rule

/-- The exact value of the area that a rule finds over a step, given the function of values. -/
def areaValue (rule : Rule) (scale : Int) (f : ℚ → ℚ) (width x : ℚ) : ℚ :=
  match rule with
  | rectangles => width * f x
  | trapezoids => roundHalfAway scale (width * (f x + f (x + width)) / 2)

/-- A trapezoid that is found has the rounded value. -/
theorem value_trapezoidArea {scale : Int} (high : scale ≤ 2000054) {width left right : Decimal}
    {area : Number}
    (found : trapezoidArea scale (.finite width) (.finite left) (.finite right) = .ok area) :
    ∃ a : Decimal, area = .finite a ∧
      a.value = roundHalfAway scale (width.value * (left.value + right.value) / 2) := by
  obtain ⟨_, both, divided⟩ := bind_eq_ok.mp found
  obtain ⟨_, added, multiplied⟩ := bind_eq_ok.mp (Fault.ofSignal_eq_ok.mp both)
  obtain ⟨sum, rfl, sumValue⟩ := Number.value_of_add added
  obtain ⟨doubled, rfl, doubledValue⟩ := Number.value_of_mul multiplied
  obtain ⟨unit, unitFound, nonzero, _, rfl⟩ := Division.divide_eq_ok divided
  have same : unit = scale := Division.unitScale_exact high unitFound
  refine ⟨_, rfl, ?_⟩
  rw [Decimal.value_quotient _ _ _ ((Decimal.value_ne_zero_iff _).mpr nonzero), same,
    Decimal.value_ofInt, doubledValue, sumValue, mul_comm width.value, Int.cast_ofNat]

end Rule

namespace Polynomial

variable {p : Polynomial} {ds : List Decimal} {rule : Rule} {scale : Int} {grid : Grid}
  {stepping : Stepping} {lower upper : Operand} {l u width : Number}

/-- An area that is found over a step has the value that the rule prescribes. -/
theorem value_area (finite : p.coefficients = ds.map .finite) (high : scale ≤ 2000054) {x : Decimal}
    {area : Number} (found : p.area rule scale grid x = .ok area) :
    ∃ a : Decimal, area = .finite a ∧
      a.value = rule.areaValue scale (exactValue ds) grid.width.value x.value := by
  cases rule with
  | rectangles =>
    obtain ⟨_, evaluated, multiplied⟩ := bind_eq_ok.mp found
    obtain ⟨height, rfl, heightValue⟩ := value_evaluate finite evaluated
    obtain ⟨a, rfl, value⟩ := Number.value_of_mul (Fault.ofSignal_eq_ok.mp multiplied)
    exact ⟨a, rfl, by rw [value, heightValue, Rule.areaValue, mul_comm]⟩
  | trapezoids =>
    obtain ⟨_, leftFound, rest⟩ := bind_eq_ok.mp found
    obtain ⟨_, rightFound, areaFound⟩ := bind_eq_ok.mp rest
    obtain ⟨left, rfl, leftValue⟩ := value_evaluate finite leftFound
    obtain ⟨right, rfl, rightValue⟩ := value_evaluate finite rightFound
    obtain ⟨a, rfl, value⟩ := Rule.value_trapezoidArea high areaFound
    exact ⟨a, rfl, by rw [value, leftValue, rightValue, Rule.areaValue, Decimal.value_add]⟩

/-- A total that is found is the exact sum of the areas. -/
theorem value_totalFrom (finite : p.coefficients = ds.map .finite) (high : scale ≤ 2000054)
    {points : List Decimal} {start : Decimal} {total : Number}
    (found : p.totalFrom rule scale grid (.finite start) points = .ok total) :
    ∃ t : Decimal, total = .finite t ∧ t.value = start.value +
      (points.map fun x => rule.areaValue scale (exactValue ds) grid.width.value x.value).sum := by
  induction points generalizing start with
  | nil =>
    cases found
    exact ⟨start, rfl, by rw [List.map_nil, List.sum_nil, add_zero]⟩
  | cons x rest ih =>
    simp only [totalFrom, List.foldlM_cons] at found
    obtain ⟨_, step, later⟩ := bind_eq_ok.mp found
    obtain ⟨_, areaFound, added⟩ := bind_eq_ok.mp step
    obtain ⟨area, rfl, areaValue⟩ := value_area finite high areaFound
    obtain ⟨next, rfl, nextValue⟩ := Number.value_of_add (Fault.ofSignal_eq_ok.mp added)
    obtain ⟨t, rfl, value⟩ := ih later
    exact ⟨t, rfl, by rw [value, nextValue, areaValue, List.map_cons, List.sum_cons, add_assoc]⟩

/-- **Integrals are sums.** The integral that is found for a polynomial is the exact sum of the
areas over the steps of its grid. -/
theorem value_integral (finite : p.coefficients = ds.map .finite)
    (offered : Grid.Offered stepping lower upper scale l u width)
    (made : Grid.make stepping l u = .ok grid) {total : Number}
    (found : p.integral rule stepping lower upper = .ok total) :
    ∃ t : Decimal, total = .finite t ∧ t.value = ∑ k ∈ range grid.stepCount,
      rule.areaValue scale (exactValue ds) grid.width.value
        (grid.lower.value + k * grid.width.value) := by
  simp only [integral, offered.lowerGiven, offered.upperGiven, made, offered.places, bind_ok]
    at found
  obtain ⟨t, rfl, value⟩ := value_totalFrom finite offered.notFine found
  refine ⟨t, rfl, ?_⟩
  rw [value, Decimal.value_zero, zero_add, Grid.points_eq, List.map_map, Function.comp_def]
  simp only [Grid.value_point]
  rfl

/-- The integral by trapezoids is near the integral by rectangles. -/
theorem near_integrals (finite : p.coefficients = ds.map .finite)
    (offered : Grid.Offered stepping lower upper scale l u width)
    (made : Grid.make stepping l u = .ok grid) {R T : Number}
    (rectangles : p.integral .rectangles stepping lower upper = .ok R)
    (trapezoids : p.integral .trapezoids stepping lower upper = .ok T) :
    let f := fun k : Nat => exactValue ds (grid.lower.value + k * grid.width.value)
    let ends := grid.width.value * (f grid.stepCount - exactValue ds grid.lower.value) / 2
    ∃ r t : Decimal, R = .finite r ∧ T = .finite t ∧
      |t.value - (r.value + ends)| ≤ grid.stepCount * (10 : ℚ) ^ (-scale) / 2 ∧
      IsMultiple scale t.value ∧
      ((∀ k < grid.stepCount, IsMultiple scale (grid.width.value * (f k + f (k + 1)) / 2)) →
        t.value = r.value + ends) := by
  intro f ends
  obtain ⟨r, rfl, rValue⟩ := value_integral finite offered made rectangles
  obtain ⟨t, rfl, tValue⟩ := value_integral finite offered made trapezoids
  have start : exactValue ds grid.lower.value = f 0 := by
    simp only [f, Nat.cast_zero, zero_mul, add_zero]
  have next : ∀ k : Nat, grid.lower.value + k * grid.width.value + grid.width.value =
      grid.lower.value + (k + 1 : Nat) * grid.width.value := by
    intro k
    push_cast
    ring
  have rounded : t.value = ∑ k ∈ range grid.stepCount,
      roundHalfAway scale (grid.width.value * (f k + f (k + 1)) / 2) := by
    simp only [tValue, Rule.areaValue, next]
    rfl
  refine ⟨r, t, rfl, rfl, ?_⟩
  simp only [ends, start, rValue, rounded]
  exact rounded_trapezoids scale f grid.width.value grid.stepCount

/-- The integral of a polynomial of few digits between bounds of few digits is found. -/
theorem integrate_found {a b : Decimal}
    (offered : Grid.Offered stepping lower upper scale (.finite a) (.finite b) width) {length : Nat}
    (sized : p.Sized length) (lowerSized : a.Sized length length 0)
    (upperSized : b.Sized length length 0)
    (few : demand length p.degree ≤ Range.exact.precision) (rule : Rule) (journal : Journal) :
    ∃ total, (p.integrate rule stepping lower upper).outcome journal = .ok total := by
  obtain ⟨_, _, _, rfl, parts⟩ := Grid.isStepWidth_of_found offered.found
  have increasing := (Decimal.lessThan_iff_value a b).mpr parts.ordered
  have small : ∃ scale, stepping.places = .ok scale ∧
      FoundAt scale (p.total rule stepping ⟨a, b, increasing⟩) fun _ => True :=
    total_found rule offered.found lowerSized upperSized sized few
  obtain ⟨asked, alsoPlaces, ⟨total, returned, _⟩ | ⟨coarse, _⟩⟩ := small
  · refine ⟨.finite total, ?_⟩
    rw [(p.yields_integral _ _ _ _).outcome]
    simp only [integral, offered.lowerGiven, offered.upperGiven, bind_ok]
    exact returned
  · cases alsoPlaces.symm.trans offered.places
    have notCoarse := offered.notCoarse
    omega

/-- **Trapezoids are near rectangles.** Where the bounds have a step width, the integrals that are
found by both rules differ by half a step width times the difference of the values at both ends, up
to half a unit for every step; and not at all from that if no trapezoid has to be rounded. The
integral by trapezoids is a multiple of the unit. If bounds and coefficients have few digits, both
integrals are found. -/
theorem trapezoids_near_rectangles (finite : p.coefficients = ds.map .finite)
    (offered : Grid.Offered stepping lower upper scale l u width) :
    ∃ a b dx : Decimal, l = .finite a ∧ u = .finite b ∧ width = .finite dx ∧
      let steps := ⌈(b.value - a.value) / dx.value⌉₊
      let point := fun k : Nat => a.value + k * dx.value
      let ends := dx.value * (exactValue ds (point steps) - exactValue ds a.value) / 2
      (∀ first second R T, (p.integrate .rectangles stepping lower upper).outcome first = .ok R →
        (p.integrate .trapezoids stepping lower upper).outcome second = .ok T →
          ∃ r t : Decimal, R = .finite r ∧ T = .finite t ∧
            |t.value - (r.value + ends)| ≤ steps * (10 : ℚ) ^ (-scale) / 2 ∧
            IsMultiple scale t.value ∧
            ((∀ k < steps, IsMultiple scale
                (dx.value * (exactValue ds (point k) + exactValue ds (point (k + 1))) / 2)) →
              t.value = r.value + ends)) ∧
      (∀ length, p.Sized length → a.Sized length length 0 → b.Sized length length 0 →
        demand length p.degree ≤ Range.exact.precision → ∀ (rule : Rule) (journal : Journal),
          ∃ total, (p.integrate rule stepping lower upper).outcome journal = .ok total) := by
  obtain ⟨grid, made, rfl, rfl, rfl⟩ := offered.exists_grid
  refine ⟨grid.lower, grid.upper, grid.width, rfl, rfl, rfl, ?_, ?_⟩
  · intro first second R T rectangles trapezoids
    rw [(p.yields_integral _ _ _ _).outcome] at rectangles trapezoids
    exact near_integrals finite offered made rectangles trapezoids
  · intro length sized lowerSized upperSized few
    exact integrate_found offered sized lowerSized upperSized few

/-- Two steps from `0` to `1` at three places. -/
theorem offered_halves : Grid.Offered (.ofWhole 2 3) (.whole 0) (.text "1") 3
    (.finite .zero) (.finite .one) (.finite ⟨false, 500, -3⟩) where
  lowerGiven := rfl
  upperGiven := by decide +kernel
  found := by decide +kernel
  places := rfl
  notCoarse := by decide

/-- The width of the two steps has the value one half. -/
theorem value_half : (⟨false, 500, -3⟩ : Decimal).value = 1 / 2 := by
  rw [Decimal.value_eq]
  norm_num [Decimal.significand]

/-- The square over two steps from `0` to `1` at three places: both trapezoids end in a half, and
the integrals differ by as much as they may. -/
theorem trapezoids_near_rectangles_square :
    let square : Polynomial := ⟨[.zero, .zero, .ofInt 1], List.cons_ne_nil _ _⟩
    ∃ r t : Decimal,
      (square.integrate .rectangles (.ofWhole 2 3) (.whole 0) (.text "1")).outcome
        (Journal.new false []) = .ok (.finite r) ∧
      (square.integrate .trapezoids (.ofWhole 2 3) (.whole 0) (.text "1")).outcome
        (Journal.new false []) = .ok (.finite t) ∧
      |t.value - (r.value + 1 / 4)| ≤ 1 / 1000 := by
  intro square
  have rectangles : (square.integrate .rectangles (.ofWhole 2 3) (.whole 0) (.text "1")).outcome
      (Journal.new false []) = .ok (.finite ⟨false, 125000000, -9⟩) := by decide +kernel
  have trapezoids : (square.integrate .trapezoids (.ofWhole 2 3) (.whole 0) (.text "1")).outcome
      (Journal.new false []) = .ok (.finite ⟨false, 376, -3⟩) := by decide +kernel
  have finite : square.coefficients = [.zero, .zero, .one].map Number.finite := rfl
  obtain ⟨a, b, dx, lower, upper, width, near, _⟩ :=
    trapezoids_near_rectangles finite offered_halves
  obtain rfl := Number.finite.inj lower
  obtain rfl := Number.finite.inj upper
  obtain rfl := Number.finite.inj width
  obtain ⟨r, t, rShape, tShape, bounded, _⟩ := near _ _ _ _ rectangles trapezoids
  have values : ∀ x, exactValue [.zero, .zero, .one] x = x ^ 2 := by
    intro x
    rw [exactValue_cons, exactValue_cons, exactValue_singleton, Decimal.value_zero,
      Decimal.value_one]
    ring
  refine ⟨r, t, rShape ▸ rectangles, tShape ▸ trapezoids, ?_⟩
  simp only [value_half, values, Decimal.value_zero, Decimal.value_one] at bounded
  norm_num at bounded
  exact bounded

end Polynomial

end ExactQuadrature

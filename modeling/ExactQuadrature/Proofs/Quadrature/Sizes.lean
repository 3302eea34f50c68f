import ExactQuadrature.Proofs.Calculation.Yield
import ExactQuadrature.Proofs.Quadrature.Points

/-! # Sizes of widths, values and totals

The digits that an integration needs are bounded by those of its bounds and coefficients. The width
of a step is at most twice the interval, so all points lie near the interval; every
coefficient adds the digits of a point to the value of a polynomial there; and all steps
together are at most three times as long as the interval, so the total needs only two digits more
than the largest area. Where the widest range has that many digits, an integration can only be
refused because its scale is too coarse (`Polynomial.total_found`).
-/

namespace ExactQuadrature

/-- An outcome is a decimal of some kind, unless the scale is so coarse that no digit of a quotient
would be looked at. -/
def FoundAt (scale : Int) (outcome : Except Fault Number) (kind : Decimal → Prop) : Prop :=
  (∃ d : Decimal, outcome = .ok (.finite d) ∧ kind d) ∨
    scale < -2 ∧ outcome = .error .precisionOutOfRange

/-- The places after the point that the finest ordinary unit has. -/
def finestPlaces : Nat := 1000026

namespace Grid

/-- A grid whose bounds come from short texts, and whose width is a rounded part of the interval. -/
structure Sized (length : Nat) (grid : Grid) : Prop where
  lower : grid.lower.Sized length length 0
  upper : grid.upper.Sized length length 0
  width : grid.width.Sized (length + 1) finestPlaces 999999
  narrow : grid.width.value ≤ 2 * (grid.upper.value - grid.lower.value)

/-- Every grid of an interval between short texts is of this kind. -/
theorem sized_of_make {length : Nat} {stepping : Stepping} {lower upper : Decimal} {grid : Grid}
    (lowerSized : lower.Sized length length 0) (upperSized : upper.Sized length length 0)
    (made : make stepping (.finite lower) (.finite upper) = .ok grid) : grid.Sized length := by
  obtain ⟨width, found, _⟩ := bind_eq_ok.mp made
  obtain ⟨same, alsoMade, rfl, rfl, rfl⟩ := make_of_stepWidth found
  obtain rfl : grid = same := Except.ok.inj (made.symm.trans alsoMade)
  obtain ⟨count, scale, dx, shape, parts⟩ := isStepWidth_of_found found
  obtain rfl : grid.width = dx := Number.finite.inj shape
  have exponent := parts.rounded.unit
  have notCoarse := parts.notCoarse
  have positive := parts.forward
  have narrow : grid.width.value ≤ 2 * (grid.upper.value - grid.lower.value) := by
    have counted : (1 : ℚ) ≤ count := by exact_mod_cast parts.some_step
    have length := sub_pos.mpr parts.ordered
    have rounded := abs_roundHalfAway_le (min scale 1000026)
      ((grid.upper.value - grid.lower.value) / count)
    rw [← parts.rounded.value, abs_of_pos positive,
      abs_of_nonneg (div_nonneg length.le (by linarith))] at rounded
    linarith [div_le_self length.le counted]
  refine ⟨lowerSized, upperSized, ⟨⟨?_, ?_⟩, by omega⟩, narrow⟩
  · have above := (abs_lt.mp lowerSized.digits.below).1
    have below := (abs_lt.mp upperSized.digits.below).2
    rw [abs_of_pos positive, pow_succ]
    linarith
  · exact WholeUnits.of_exponent (by simp only [finestPlaces]; omega)

/-- A scale that bounds from texts of some length can be divided to, or that is refused for them: it
has an ordinary unit, or it is so coarse that no digit of a quotient would be looked at, although
its digits fit into a machine word. -/
def HandledScale (length : Nat) (scale : Int) : Prop :=
  -999999 ≤ scale ∧ scale ≤ 2000054 ∨
    -9223372036854775811 ≤ scale ∧ length + scale + 4 < 1

/-- The length of the interval between short texts has few digits before its point. -/
theorem exists_sub_of_sized {length : Nat} {lower upper : Decimal}
    (lowerSized : lower.Sized length length 0)
    (upperSized : upper.Sized length length 0) (few : 2 * length + 1 ≤ Range.exact.precision) :
    ∃ span : Decimal, (Number.finite upper).sub (.finite lower) = .ok (.finite span) ∧
      span.adjusted ≤ length + 1 := by
  have within : DigitsWithin (length + 1) length (upper.value + lower.negate.value) := by
    rw [Decimal.value_negate]
    exact upperSized.digits.add lowerSized.digits.neg
  obtain ⟨span, subtracted, spanValue, spanUnit⟩ := Number.exists_add within (by omega)
  have leading : span.adjusted ≤ max 1 ((length + 1 : Nat) : Int) := by
    have upperUnit := upperSized.unit
    exact Decimal.Sized.adjusted_le ⟨spanValue ▸ within, by omega⟩
  exact ⟨span, subtracted, by omega⟩

/-- The length of such an interval can be divided to a scale that is handled, unless that is too
coarse. -/
theorem divide_span {length : Nat} {count scale : Int} {span : Decimal}
    (leading : span.adjusted ≤ length + 1) (some_step : 1 ≤ count)
    (handled : HandledScale length scale) (few : 2000060 + 2 * length ≤ Range.exact.precision) :
    (∃ width, divide .ordinary (.finite span) (.finite (.ofInt count)) scale = .ok width) ∨
      scale < -2 ∧ divide .ordinary (.finite span) (.finite (.ofInt count)) scale =
        .error .precisionOutOfRange := by
  have divisor := Decimal.adjusted_ofInt_nonneg count
  have precision : (Range.exact.precision : Int) = 999999999999999999 := rfl
  have nonzero := Decimal.isZero_ofInt (by omega : count ≠ 0)
  rcases handled with ⟨low, high⟩ | ⟨asked, coarse⟩
  · have widest : Range.exact.maxExponent = 999999999999999999 := rfl
    have highest : Range.ordinary.maxExponent = 999999 := rfl
    have finest : Range.ordinary.tiny = -1000026 := rfl
    have digits : (Range.ordinary.precision : Int) = 28 := rfl
    have unit := Division.unitScale_eq_ok .ordinary scale (by omega) (by omega)
    exact (Division.divide_cases nonzero unit (by omega) (by omega) (by omega)).imp_left
      fun found => ⟨_, found⟩
  · refine .inr ⟨by omega, ?_⟩
    have refused : ¬(1 ≤ max (span.adjusted - (Decimal.ofInt count).adjusted) 0 + scale + 3 ∧
        max (span.adjusted - (Decimal.ofInt count).adjusted) 0 + scale + 3 ≤
          Range.exact.precision) := by omega
    rw [Division.divide_eq_error _ ((Decimal.value_ne_zero_iff _).mpr nonzero) refused,
      if_neg (by omega)]

/-- Short texts have a step width if the scale is handled, unless no step is wanted, the
interval is too narrow, or the scale is too coarse. -/
theorem stepWidth_cases {length : Nat} {count scale : Int} {lower upper : Decimal}
    (ordered : lower.value < upper.value) (lowerSized : lower.Sized length length 0)
    (upperSized : upper.Sized length length 0) (handled : HandledScale length scale)
    (few : 2000060 + 2 * length ≤ Range.exact.precision) :
    (∃ width, stepWidth (.ofWhole count scale) (.finite lower) (.finite upper) = .ok width) ∨
      (∃ reason, stepWidth (.ofWhole count scale) (.finite lower) (.finite upper) =
        .error (.refused reason)) ∨
      scale < -2 ∧ stepWidth (.ofWhole count scale) (.finite lower) (.finite upper) =
        .error .precisionOutOfRange := by
  rcases Int.lt_or_le count 1 with none | some_step
  · exact .inr (.inl ⟨_, stepWidth_of_lt_one ordered none scale⟩)
  obtain ⟨span, difference, leading⟩ := exists_sub_of_sized lowerSized upperSized (by omega)
  rw [stepWidth_of_lt ordered some_step, difference, Fault.ofSignal_ok, bind_ok]
  rcases divide_span leading some_step handled few with ⟨width, found⟩ | ⟨coarse, refused⟩
  · rw [found, bind_ok]
    split
    · exact .inr (.inl ⟨_, rfl⟩)
    · exact .inl ⟨_, rfl⟩
  · rw [refused, bind_error]
    exact .inr (.inr ⟨coarse, rfl⟩)

/-- All steps together are at most three times as long as the interval. -/
theorem Sized.steps_le {length : Nat} {grid : Grid} (sized : grid.Sized length) :
    grid.stepCount * grid.width.value ≤ 3 * (grid.upper.value - grid.lower.value) := by
  have positive := grid.width_pos
  have narrow := sized.narrow
  have partial_steps : (grid.stepCount : ℚ) <
      (grid.upper.value - grid.lower.value) / grid.width.value + 1 :=
    Nat.ceil_lt_add_one (div_nonneg (by linarith) positive.le)
  rw [← sub_lt_iff_lt_add, lt_div_iff₀ positive] at partial_steps
  linarith

/-- Every point up to the first one that is not below the upper bound lies near the interval. -/
theorem Sized.point {length : Nat} {grid : Grid} (sized : grid.Sized length) {k : Nat}
    (within : k ≤ grid.stepCount) :
    (grid.point k).Sized (length + 1) (length + finestPlaces) 0 := by
  have units : WholeUnits (length + finestPlaces) (grid.point k).value ∧
      (grid.point k).exponent ≤ 0 := by
    clear within
    induction k with
    | zero => exact ⟨sized.lower.digits.units.mono (by omega), sized.lower.unit⟩
    | succ k ih =>
      rw [point_succ, Decimal.value_add, Decimal.exponent_add]
      exact ⟨ih.1.add (sized.width.digits.units.mono (by omega)), (min_le_left _ _).trans ih.2⟩
  refine ⟨⟨?_, units.1⟩, units.2⟩
  have lower := abs_lt.mp sized.lower.digits.below
  have upper := abs_lt.mp sized.upper.digits.below
  have narrow := sized.narrow
  have positive := grid.width_pos
  have forward : 0 ≤ k * grid.width.value := mul_nonneg (Nat.cast_nonneg k) positive.le
  have reached : k * grid.width.value ≤ 3 * (grid.upper.value - grid.lower.value) := by
    refine le_trans ?_ sized.steps_le
    exact mul_le_mul_of_nonneg_right (by exact_mod_cast within) positive.le
  rw [value_point, abs_lt, pow_succ]
  constructor <;> linarith

end Grid

namespace Rule

/-- The area of a trapezoid is found, and rounded once. -/
theorem trapezoidArea_found {whole places more finer : Nat} {left right width : Decimal}
    {scale : Int} (leftSized : left.Sized whole places 1) (rightSized : right.Sized whole places 1)
    (widthSized : width.Sized more finer 999999) (low : -999999 ≤ scale) (high : scale ≤ 2000054)
    (few : 3000058 + (whole + more + (places + finer)) ≤ Range.exact.precision) :
    FoundAt scale (trapezoidArea scale (.finite width) (.finite left) (.finite right)) fun area =>
      area.value = roundHalfAway scale ((left.value + right.value) * width.value / 2) ∧
        -scale = area.exponent := by
  obtain ⟨sum, added, sumValue, sumUnit⟩ :=
    Number.exists_add (leftSized.digits.add rightSized.digits) (by omega)
  have product := (leftSized.digits.add rightSized.digits).mul widthSized.digits
  rw [← sumValue] at product
  obtain ⟨doubled, multiplied, doubledValue, doubledUnit⟩ := Number.exists_mul product (by omega)
  have leading : doubled.adjusted ≤ max 1000000 ((whole + 1 + more : Nat) : Int) := by
    have leftUnit := leftSized.unit
    have widthUnit := widthSized.unit
    rw [← doubledValue] at product
    exact Decimal.Sized.adjusted_le ⟨product, by omega⟩
  have two : (Decimal.ofInt 2).adjusted = 0 := by decide
  have precision : (Range.exact.precision : Int) = 999999999999999999 := rfl
  have highest : Range.exact.maxExponent = 999999999999999999 := rfl
  have finest : Range.exact.tiny = -1999999999999999997 := rfl
  have unit := Division.unitScale_eq_ok .exact scale (by omega) (by omega)
  rw [min_eq_left (by omega)] at unit
  have quotient := Division.divide_cases (a := doubled) (b := .ofInt 2) (by decide) unit (by omega)
    (by omega) (by omega)
  have both : (Number.finite left).add (.finite right) >>= (·.mul (.finite width)) =
      .ok (.finite doubled) := by rw [added, bind_ok, multiplied]
  simp only [trapezoidArea, both, Fault.ofSignal_ok, bind_ok]
  rcases quotient with found | ⟨coarse, refused⟩
  · refine .inl ⟨_, found, ?_, rfl⟩
    have nonzero : (Decimal.ofInt 2).value ≠ 0 := by rw [Decimal.value_ofInt]; norm_num
    rw [Decimal.value_quotient _ _ _ nonzero, Decimal.value_ofInt, doubledValue, sumValue,
      Int.cast_ofNat]
  · exact .inr ⟨coarse, refused⟩

end Rule

namespace Polynomial

/-- **Values have few digits.** Every coefficient adds the digits of the point, and one more. -/
theorem exists_evaluateTerms {whole places more finer : Nat} {x : Decimal}
    (point : x.Sized more finer 0) {ds : List Decimal} (each : ∀ d ∈ ds, d.Sized whole places 1)
    {degree : Nat} (length : ds.length ≤ degree + 1)
    (few : whole + degree * (more + 1) + (places + degree * finer) ≤ Range.exact.precision) :
    ∃ value : Decimal, evaluateTerms (.finite x) (ds.map .finite) = .ok (.finite value) ∧
      value.Sized (whole + degree * (more + 1)) (places + degree * finer) 1 := by
  induction ds generalizing degree with
  | nil => exact ⟨.zero, rfl, .zero zero_le_one⟩
  | cons c rest ih =>
    obtain ⟨own, others⟩ := List.forall_mem_cons.mp each
    cases rest with
    | nil => exact ⟨c, rfl, own.mono (by omega) (by omega) le_rfl⟩
    | cons next rest =>
      obtain ⟨degree, rfl⟩ : ∃ lower, degree = lower + 1 := by
        refine ⟨degree - 1, ?_⟩
        simp only [List.length_cons] at length
        omega
      have grown : whole + degree * (more + 1) + more + 1 = whole + (degree + 1) * (more + 1) := by
        ring
      have refined : places + degree * finer + finer = places + (degree + 1) * finer := by ring
      obtain ⟨inner, innerFound, innerSized⟩ := ih others (Nat.le_of_succ_le_succ length) (by omega)
      have product := innerSized.digits.mul point.digits
      obtain ⟨scaled, multiplied, scaledValue, scaledUnit⟩ := Number.exists_mul product (by omega)
      rw [← scaledValue] at product
      have sum := product.add (own.digits.mono (by omega) (by omega))
      obtain ⟨value, added, same, unit⟩ := Number.exists_add sum (by omega)
      have coarse := innerSized.unit
      have fine := point.unit
      refine ⟨value, ?_, ⟨?_, by omega⟩⟩
      · simp only [List.map_cons, evaluateTerms] at innerFound ⊢
        simp only [innerFound, bind_ok, multiplied, added]
      · rw [same, ← grown, ← refined]
        exact sum

/-- A polynomial whose coefficients come from a text of some length. -/
def Sized (length : Nat) (p : Polynomial) : Prop :=
  ∃ ds : List Decimal, p.coefficients = ds.map .finite ∧ ∀ d ∈ ds, d.Sized length length 1

/-- The digits that suffice to integrate a polynomial, if all texts have some length. -/
def demand (length degree : Nat) : Nat := 2 * (degree + 2) * (length + 2000000)

variable {length : Nat} {p : Polynomial} {grid : Grid}

/-- Digits before the point of the values at grid points. -/
def valueWhole (length degree : Nat) : Nat := length + degree * (length + 2)

/-- Digits after the point of the values at grid points. -/
def valuePlaces (length degree : Nat) : Nat := length + degree * (length + finestPlaces)

/-- The digits demanded are those of values, and as many more for widths, areas and totals. -/
theorem demand_eq (length degree : Nat) :
    demand length degree = valueWhole length degree + valuePlaces length degree +
      (degree * 2999972 + 2 * length + 8000000) := by
  simp only [demand, valueWhole, valuePlaces, finestPlaces]
  ring

/-- A polynomial of a higher degree demands no fewer digits. -/
theorem demand_mono (length : Nat) {degree higher : Nat} (below : degree ≤ higher) :
    demand length degree ≤ demand length higher := by
  unfold demand
  gcongr

/-- The value of a polynomial of few digits at a point of few digits is found. -/
theorem exists_evaluate (sized : p.Sized length) {x : Decimal}
    (point : x.Sized (length + 1) (length + finestPlaces) 0)
    (few : demand length p.degree ≤ Range.exact.precision) :
    ∃ value : Decimal, p.evaluate (.finite x) = .ok (.finite value) ∧
      value.Sized (valueWhole length p.degree) (valuePlaces length p.degree) 1 := by
  obtain ⟨ds, finite, each⟩ := sized
  have count : ds.length ≤ p.degree + 1 := by
    simp only [degree, finite, List.length_map]
    omega
  have enough :
      valueWhole length p.degree + valuePlaces length p.degree ≤ Range.exact.precision := by
    rw [demand_eq] at few
    omega
  obtain ⟨value, found, small⟩ := exists_evaluateTerms point each count enough
  refine ⟨value, ?_, small⟩
  simp only [evaluate, finite, found, Fault.ofSignal_ok]

/-- The area over every step is small, and in a unit that does not depend on the step. -/
theorem area_found (rule : Rule) {scale : Int} (sized : p.Sized length) (spaced : grid.Sized length)
    (low : -999999 ≤ scale) (high : scale ≤ 2000054)
    (few : demand length p.degree ≤ Range.exact.precision) {k : Nat} (within : k < grid.stepCount) :
    FoundAt scale (p.area rule scale grid (grid.point k)) fun area =>
      |area.value| ≤ 2 * 10 ^ valueWhole length p.degree * grid.width.value ∧
        WholeUnits (2000054 + valuePlaces length p.degree) area.value := by
  obtain ⟨left, leftFound, leftSized⟩ := exists_evaluate sized (spaced.point within.le) few
  obtain ⟨right, rightFound, rightSized⟩ := exists_evaluate sized (spaced.point within) few
  rw [demand_eq] at few
  have widthPlaces : finestPlaces = 1000026 := rfl
  have widthSized := spaced.width
  have positive := grid.width_pos
  cases rule with
  | rectangles =>
    have product := leftSized.digits.mul widthSized.digits
    obtain ⟨area, multiplied, value, _⟩ := Number.exists_mul product (by omega)
    refine .inl ⟨area, ?_, ?_, ?_⟩
    · simp only [Polynomial.area, leftFound, bind_ok, Rule.rectangleArea, multiplied,
        Fault.ofSignal_ok]
    · have height := leftSized.digits.below.le
      rw [value, abs_mul, abs_of_pos positive]
      exact mul_le_mul_of_nonneg_right (by linarith [abs_nonneg left.value]) positive.le
    · rw [value]
      exact product.units.mono (by omega)
  | trapezoids =>
    rw [Grid.point_succ] at rightFound
    simp only [Polynomial.area, leftFound, rightFound, bind_ok]
    obtain ⟨area, found, value, unit⟩ | coarse :=
      Rule.trapezoidArea_found leftSized rightSized widthSized low high (by omega)
    · refine .inl ⟨area, found, ?_, WholeUnits.of_exponent (by omega)⟩
      rw [value]
      refine (abs_roundHalfAway_le _ _).trans ?_
      have heights := abs_add_le left.value right.value
      have one := leftSized.digits.below.le
      have other := rightSized.digits.below.le
      rw [abs_div, abs_mul, abs_of_pos positive, abs_two, mul_div_cancel₀ _ two_ne_zero]
      exact mul_le_mul_of_nonneg_right (by linarith) positive.le
    · exact .inr coarse

/-- Areas that are all found, and small, have a total. -/
theorem totalFrom_found {rule : Rule} {scale : Int} {bound : ℚ} (whole places : Nat)
    (few : whole + places ≤ Range.exact.precision) {points : List Decimal}
    (each : ∀ x ∈ points, FoundAt scale (p.area rule scale grid x) fun area =>
      |area.value| ≤ bound ∧ WholeUnits places area.value)
    {start : Decimal} (units : WholeUnits places start.value)
    (room : |start.value| + points.length * bound < 10 ^ whole) :
    FoundAt scale (p.totalFrom rule scale grid (.finite start) points) fun _ => True := by
  induction points generalizing start with
  | nil => exact .inl ⟨start, rfl, trivial⟩
  | cons x rest ih =>
    obtain ⟨own, others⟩ := List.forall_mem_cons.mp each
    simp only [totalFrom, List.foldlM_cons]
    obtain ⟨area, found, small, areaUnits⟩ | ⟨coarse, refused⟩ := own
    · have sumUnits := units.add areaUnits
      have triangle := abs_add_le start.value area.value
      have nonneg : 0 ≤ bound := (abs_nonneg _).trans small
      have later : 0 ≤ rest.length * bound := mul_nonneg (Nat.cast_nonneg _) nonneg
      rw [List.length_cons, Nat.cast_succ] at room
      obtain ⟨sum, added, value, _⟩ :=
        Number.exists_add ⟨by linarith, sumUnits⟩ few
      rw [← value] at sumUnits triangle
      simp only [found, bind_ok, added, Fault.ofSignal_ok]
      exact ih others sumUnits (by linarith)
    · simp only [refused, bind_error]
      exact .inr ⟨coarse, rfl⟩

/-- **Totals have few digits.** Where an interval has a step width, and the widest range has the
digits that a polynomial demands, its integral is found, unless the scale is too coarse. -/
theorem total_found (rule : Rule) {stepping : Stepping} {bounds : Bounds} {width : Number}
    (found : Grid.stepWidth stepping (.finite bounds.lower) (.finite bounds.upper) = .ok width)
    (lower : bounds.lower.Sized length length 0) (upper : bounds.upper.Sized length length 0)
    (sized : p.Sized length) (few : demand length p.degree ≤ Range.exact.precision) :
    ∃ scale, stepping.places = .ok scale ∧
      FoundAt scale (p.total rule stepping bounds) fun _ => True := by
  obtain ⟨_, scale, _, _, parts⟩ := Grid.isStepWidth_of_found found
  obtain ⟨grid, made, _⟩ := Grid.make_of_stepWidth found
  have spaced := Grid.sized_of_make lower upper made
  refine ⟨scale, parts.places, ?_⟩
  simp only [total, made, parts.places, bind_ok]
  rw [Grid.points_eq]
  apply totalFrom_found (valueWhole length p.degree + length + 2)
    (2000054 + valuePlaces length p.degree)
  · rw [demand_eq] at few
    omega
  · intro x present
    obtain ⟨k, within, rfl⟩ := List.mem_map.mp present
    exact area_found rule sized spaced parts.notCoarse parts.notFine few (List.mem_range.mp within)
  · rw [Decimal.value_zero]
    exact .zero _
  · have steps := spaced.steps_le
    have above := (abs_lt.mp spaced.lower.digits.below).1
    have below := (abs_lt.mp spaced.upper.digits.below).2
    have height : (0 : ℚ) < 10 ^ valueWhole length p.degree := by positivity
    rw [Decimal.value_zero, abs_zero, zero_add, List.length_map, List.length_range]
    calc (grid.stepCount : ℚ) * (2 * 10 ^ valueWhole length p.degree * grid.width.value)
        = 2 * 10 ^ valueWhole length p.degree * (grid.stepCount * grid.width.value) := by ring
      _ ≤ 2 * 10 ^ valueWhole length p.degree * (6 * 10 ^ length) :=
        mul_le_mul_of_nonneg_left (by linarith) (by positivity)
      _ < 10 ^ (valueWhole length p.degree + length + 2) := by
        rw [pow_add, pow_add]
        linarith [mul_pos height (pow_pos (by norm_num : (0 : ℚ) < 10) length)]

end Polynomial

end ExactQuadrature

import ExactQuadrature.Grid
import ExactQuadrature.Proofs.Division

/-! # Step widths

A step width exists only for an interval whose bounds are in order and for a positive whole number
of steps. It is then the rounded quotient of the length of the interval by that number, and
positive (`Grid.isStepWidth_of_found`), so that the interval has a grid (`Grid.make_of_stepWidth`).
What is given for an integration, and the step width found for it, is `Grid.Offered`.
-/

namespace ExactQuadrature

namespace Stepping

/-- A number of steps that passes is a count of at least one. -/
theorem checkPositive_eq_ok {stepping : Stepping} (checked : stepping.checkPositive = .ok ()) :
    ∃ count, stepping.subdivisions.count? = some count ∧ 1 ≤ count := by
  unfold checkPositive at checked
  cases counted : stepping.subdivisions.count? with
  | none =>
    rw [counted] at checked
    cases checked
  | some count =>
    rw [counted] at checked
    dsimp only at checked
    split at checked
    · cases checked
    · exact ⟨count, rfl, by omega⟩

/-- A setting that counts steps and is taken as a divisor is a whole number. -/
theorem divisor_eq_ok {stepping : Stepping} {count : Int} {divisor : Number}
    (counted : stepping.subdivisions.count? = some count)
    (offered : (Operand.ofSetting stepping.subdivisions).toNumber "divisor" = .ok divisor) :
    stepping.subdivisions = .whole count ∧ divisor = .finite (.ofInt count) := by
  cases setting : stepping.subdivisions with
  | truth value =>
    rw [setting] at offered
    cases offered
  | text value =>
    rw [setting] at counted
    cases counted
  | whole value =>
    rw [setting] at counted offered
    cases counted
    cases offered
    exact ⟨rfl, rfl⟩

end Stepping

namespace Grid

/-- Bounds that are not in order have no step width. -/
theorem stepWidth_of_not_lt (stepping : Stepping) {lower upper : Decimal}
    (unordered : ¬lower.value < upper.value) :
    stepWidth stepping (.finite lower) (.finite upper) =
      .error (.refused (.boundsNotIncreasing (.finite lower) (.finite upper))) := by
  have order : lower.lessThan upper = false := by
    rwa [← Bool.not_eq_true, Decimal.lessThan_iff_value]
  have increasing : (Number.finite lower).lessThan (.finite upper) = .ok false :=
    congrArg Except.ok order
  simp only [stepWidth, increasing, Fault.ofSignal_ok, bind_ok, Bool.not_false, ↓reduceIte,
    Fault.refuse]

variable {lower upper : Decimal} {count : Int}

/-- Between bounds in order, at least one step has to be wanted. -/
theorem stepWidth_of_lt_one (ordered : lower.value < upper.value) (none : count < 1) (scale : Int) :
    stepWidth (.ofWhole count scale) (.finite lower) (.finite upper) =
      .error (.refused (.subdivisionsNotPositive (.whole count))) := by
  have increasing : (Number.finite lower).lessThan (.finite upper) = .ok true :=
    congrArg Except.ok ((Decimal.lessThan_iff_value lower upper).mpr ordered)
  have refused : (Stepping.ofWhole count scale).checkPositive =
      .error (.refused (.subdivisionsNotPositive (.whole count))) := if_pos none
  simp only [stepWidth, increasing, Fault.ofSignal_ok, bind_ok, Bool.not_true, Bool.false_eq_true,
    ↓reduceIte, refused, bind_error]

/-- Between bounds in order, the exact length is divided by the number of steps. -/
theorem stepWidth_of_lt (ordered : lower.value < upper.value) (some_step : 1 ≤ count)
    (scale : Int) :
    stepWidth (.ofWhole count scale) (.finite lower) (.finite upper) = (do
      let length ← Fault.ofSignal ((Number.finite upper).sub (.finite lower))
      let width ← divide .ordinary length (.finite (.ofInt count)) scale
      if width.isZero then
        Fault.refuse
          (.intervalTooNarrow (.finite lower) (.finite upper) (.whole count) (.whole scale))
      else return width) := by
  have increasing : (Number.finite lower).lessThan (.finite upper) = .ok true :=
    congrArg Except.ok ((Decimal.lessThan_iff_value lower upper).mpr ordered)
  have checked : (Stepping.ofWhole count scale).checkPositive = .ok () := if_neg (by omega)
  have divisor :
      (Operand.ofSetting (Stepping.ofWhole count scale).subdivisions).toNumber "divisor" =
      .ok (.finite (.ofInt count)) := rfl
  have places : (Stepping.ofWhole count scale).places = .ok scale := rfl
  simp only [stepWidth, increasing, Fault.ofSignal_ok, bind_ok, Bool.not_true, Bool.false_eq_true,
    ↓reduceIte, checked, divisor, places]
  rfl

/-- The width of steps between two bounds: the length of the interval over a positive number of
steps, rounded to a unit that is no finer than the finest ordinary one. -/
structure IsStepWidth (stepping : Stepping) (lower upper : Decimal) (count scale : Int)
    (dx : Decimal) : Prop where
  wanted : stepping.subdivisions = .whole count
  some_step : 1 ≤ count
  places : stepping.places = .ok scale
  notCoarse : -999999 ≤ scale
  notFine : scale ≤ 2000054
  ordered : lower.value < upper.value
  forward : 0 < dx.value
  rounded : dx.IsRounded (min scale 1000026) ((upper.value - lower.value) / count)

/-- A step width that is found is the rounded part of the interval. -/
theorem isStepWidth_of_found {stepping : Stepping} {lower upper : Decimal} {width : Number}
    (found : stepWidth stepping (.finite lower) (.finite upper) = .ok width) :
    ∃ (count scale : Int) (dx : Decimal), width = .finite dx ∧
      IsStepWidth stepping lower upper count scale dx := by
  obtain ⟨increasing, compared, found⟩ := bind_eq_ok.mp found
  rw [Fault.ofSignal_eq_ok] at compared
  have order : increasing = lower.lessThan upper := (Except.ok.inj compared).symm
  split at found
  · cases found
  · next inOrder =>
    rw [order, Bool.not_eq_true', Bool.not_eq_false, Decimal.lessThan_iff_value] at inOrder
    obtain ⟨_, checked, found⟩ := bind_eq_ok.mp found
    obtain ⟨count, counted, some_step⟩ := Stepping.checkPositive_eq_ok checked
    obtain ⟨_, subtracted, found⟩ := bind_eq_ok.mp found
    rw [Fault.ofSignal_eq_ok] at subtracted
    obtain ⟨length, rfl, value⟩ := Number.value_of_add (y := lower.negate) subtracted
    rw [Decimal.value_negate, ← sub_eq_add_neg] at value
    obtain ⟨divisor, offered, found⟩ := bind_eq_ok.mp found
    obtain ⟨wanted, rfl⟩ := Stepping.divisor_eq_ok counted offered
    obtain ⟨scale, places, found⟩ := bind_eq_ok.mp found
    obtain ⟨_, divided, found⟩ := bind_eq_ok.mp found
    obtain ⟨unit, unitFound, nonzero, _, rfl⟩ := Division.divide_eq_ok divided
    obtain ⟨rfl, notCoarse, notFine⟩ := Division.unitScale_ordinary unitFound
    have rounded :=
      Decimal.isRounded_quotient (a := length) ((Decimal.value_ne_zero_iff _).mpr nonzero)
      (min scale 1000026)
    rw [value, Decimal.value_ofInt] at rounded
    split at found
    · cases found
    · next wide =>
      refine ⟨count, scale, _, (Except.ok.inj found).symm, wanted, some_step, places, notCoarse,
        notFine,
        inOrder, lt_of_le_of_ne ?_ (Ne.symm (mt (Decimal.value_eq_zero_iff _).mp wide)), rounded⟩
      rw [rounded.value]
      refine roundHalfAway_nonneg _ (div_nonneg (sub_nonneg.mpr inOrder.le) ?_)
      exact_mod_cast (by omega : (0 : Int) ≤ count)

/-- A step width that is found for whole settings is the rounded part of the interval. -/
theorem isStepWidth_ofWhole {lower upper : Decimal} {count scale : Int} {width : Number}
    (found : stepWidth (.ofWhole count scale) (.finite lower) (.finite upper) = .ok width) :
    ∃ dx : Decimal, width = .finite dx ∧
      IsStepWidth (.ofWhole count scale) lower upper count scale dx := by
  obtain ⟨_, _, dx, shape, parts⟩ := isStepWidth_of_found found
  cases parts.wanted
  cases parts.places
  exact ⟨dx, shape, parts⟩

/-- An interval has a step width for scales that have an ordinary unit only. -/
theorem scale_of_stepWidth {stepping : Stepping} {lower upper : Decimal} {width : Number}
    {scale : Int}
    (found : stepWidth stepping (.finite lower) (.finite upper) = .ok width)
    (places : stepping.places = .ok scale) : -999999 ≤ scale ∧ scale ≤ 2000054 := by
  obtain ⟨_, asked, _, _, parts⟩ := isStepWidth_of_found found
  obtain rfl : asked = scale := Except.ok.inj (parts.places.symm.trans places)
  exact ⟨parts.notCoarse, parts.notFine⟩

/-- Only an interval between decimals has a step width. -/
theorem finite_of_stepWidth {stepping : Stepping} {lower upper width : Number}
    (found : stepWidth stepping lower upper = .ok width) :
    ∃ l u : Decimal, lower = .finite l ∧ upper = .finite u := by
  obtain ⟨increasing, compared, found⟩ := bind_eq_ok.mp found
  rw [Fault.ofSignal_eq_ok] at compared
  split at found
  · cases found
  · next inOrder =>
    obtain ⟨_, checked, found⟩ := bind_eq_ok.mp found
    obtain ⟨count, counted, _⟩ := Stepping.checkPositive_eq_ok checked
    obtain ⟨length, subtracted, found⟩ := bind_eq_ok.mp found
    rw [Fault.ofSignal_eq_ok] at subtracted
    obtain ⟨divisor, offered, found⟩ := bind_eq_ok.mp found
    obtain ⟨_, rfl⟩ := Stepping.divisor_eq_ok counted offered
    obtain ⟨_, _, found⟩ := bind_eq_ok.mp found
    obtain ⟨_, divided, _⟩ := bind_eq_ok.mp found
    have finiteLength : ∀ negative, length ≠ .infinite negative := by
      rintro negative rfl
      exact Division.divide_infinite divided
    -- An infinite bound makes the length infinite, unless the bounds are not in order.
    rcases lower with l | s | _ <;> rcases upper with u | t | _
    case finite.finite => exact ⟨l, u, rfl, rfl⟩
    case finite.infinite =>
      cases subtracted
      exact absurd rfl (finiteLength _)
    case infinite.finite =>
      cases subtracted
      exact absurd rfl (finiteLength _)
    case infinite.infinite =>
      have ordered :
          increasing = ((if s = t then .eq else if s then .lt else .gt : Ordering) == .lt) :=
        (Except.ok.inj compared).symm
      cases s <;> cases t
      case true.false =>
        cases subtracted
        exact absurd rfl (finiteLength _)
      all_goals exact absurd (by rw [ordered]; rfl) inOrder
    all_goals cases compared

/-- An interval with a step width has a grid. -/
theorem make_of_stepWidth {stepping : Stepping} {lower upper : Decimal} {width : Number}
    (found : stepWidth stepping (.finite lower) (.finite upper) = .ok width) :
    ∃ grid : Grid, make stepping (.finite lower) (.finite upper) = .ok grid ∧
      grid.lower = lower ∧ grid.upper = upper ∧ width = .finite grid.width := by
  obtain ⟨_, _, dx, rfl, parts⟩ := isStepWidth_of_found found
  have forward := (Decimal.isPositive_iff_value dx).mpr parts.forward
  refine ⟨⟨lower, upper, dx, forward⟩, ?_, rfl, rfl, rfl⟩
  unfold make
  rw [found]
  simp only [bind_ok, forward, ↓reduceDIte]
  rfl

/-- The steps of a grid go forward. -/
theorem width_pos (grid : Grid) : 0 < grid.width.value :=
  (Decimal.isPositive_iff_value grid.width).mp grid.positive

/-- Offered bounds with a step width between them, at a scale at which a digit of every quotient is
looked at. -/
structure Offered (stepping : Stepping) (lower upper : Operand) (scale : Int)
    (l u width : Number) : Prop where
  lowerGiven : lower.toNumber "lower bound" = .ok l
  upperGiven : upper.toNumber "upper bound" = .ok u
  found : stepWidth stepping l u = .ok width
  places : stepping.places = .ok scale
  notCoarse : -2 ≤ scale

variable {stepping : Stepping} {lower upper : Operand} {scale : Int} {l u width : Number}

/-- Such bounds have a grid of steps of that width. -/
theorem Offered.exists_grid (offered : Offered stepping lower upper scale l u width) :
    ∃ grid : Grid, make stepping l u = .ok grid ∧ l = .finite grid.lower ∧
      u = .finite grid.upper ∧ width = .finite grid.width := by
  obtain ⟨a, b, rfl, rfl⟩ := finite_of_stepWidth offered.found
  obtain ⟨grid, made, rfl, rfl, rfl⟩ := make_of_stepWidth offered.found
  exact ⟨grid, made, rfl, rfl, rfl⟩

/-- The unit of such a scale is an ordinary one. -/
theorem Offered.notFine (offered : Offered stepping lower upper scale l u width) :
    scale ≤ 2000054 := by
  obtain ⟨a, b, rfl, rfl⟩ := finite_of_stepWidth offered.found
  exact (scale_of_stepWidth offered.found offered.places).2

end Grid

end ExactQuadrature

import ExactQuadrature.Proofs.Quadrature.ExactSums

/-! # How many steps are taken

The width of the steps is rounded, and every step adds the same error to the next. Together the
wanted steps miss the end of the interval by half a unit each at most (`abs_count_mul_sub_le`), and
since the width is at least one unit, at least half and at most one and a half times as many steps
are taken as are wanted (`Grid.stepWidth_accepts`). Where the errors add up to one width at most,
the two numbers differ by one at most, and else by as many widths as the errors are long
(`Grid.steps_near_subdivisions`). Whatever function is integrated, a rule that returns a total has
taken these steps (`Rule.notes_of_sum`).
-/

namespace ExactQuadrature

section Drift

variable {scale count : Int} {width span error : ℚ}

/-- Steps of a rounded width miss the end of the interval by half a unit each at most. -/
theorem abs_count_mul_sub_le (some_step : 1 ≤ count)
    (rounded : width = roundHalfAway scale (span / count)) :
    |count * width - span| ≤ count * (10 : ℚ) ^ (-scale) / 2 := by
  have counted : (0 : ℚ) < count := by exact_mod_cast (by omega : 0 < count)
  have near := abs_roundHalfAway_sub_le scale (span / count)
  calc |count * width - span|
      = count * |width - span / count| := by
        rw [← abs_of_pos counted, ← abs_mul, abs_of_pos counted, mul_sub,
          mul_div_cancel₀ _ counted.ne']
    _ ≤ count * ((10 : ℚ) ^ (-scale) / 2) := by
        rw [rounded]
        exact mul_le_mul_of_nonneg_left near counted.le
    _ = count * (10 : ℚ) ^ (-scale) / 2 := by ring

/-- An error at the end changes the number of steps by as many widths as it is long. -/
theorem abs_div_sub_le (forward : 0 < width) (near : |count * width - span| ≤ error) :
    |span / width - count| ≤ error / width := by
  rw [abs_sub_comm] at near
  rw [le_div_iff₀ forward]
  calc |span / width - count| * width
      = |span - count * width| := by
        rw [← abs_of_pos forward, ← abs_mul, abs_of_pos forward, sub_mul,
          div_mul_cancel₀ _ forward.ne']
    _ ≤ error := near

/-- The number of steps differs from the wanted one by as many whole widths as the errors add up
to. -/
theorem ceil_within_drift {ratio drift : ℚ} (nonneg : 0 ≤ ratio) (near : |ratio - count| ≤ drift) :
    count - ⌊drift⌋ ≤ (⌈ratio⌉₊ : Int) ∧ (⌈ratio⌉₊ : Int) ≤ count + ⌈drift⌉ := by
  obtain ⟨low, high⟩ := abs_le.mp near
  have cut := Int.lt_floor_add_one drift
  have raised := Int.le_ceil drift
  rw [Int.natCast_ceil_eq_ceil nonneg, Int.le_ceil_iff, Int.ceil_le]
  push_cast
  constructor <;> linarith

/-- When the number of steps differs from the wanted one by one at most. -/
theorem ceil_near_iff {ratio : ℚ} (nonneg : 0 ≤ ratio) :
    (count - 1 ≤ (⌈ratio⌉₊ : Int) ∧ (⌈ratio⌉₊ : Int) ≤ count + 1) ↔
      (count : ℚ) - 2 < ratio ∧ ratio ≤ count + 1 := by
  rw [Int.natCast_ceil_eq_ceil nonneg, Int.le_ceil_iff, Int.ceil_le]
  push_cast
  rw [sub_sub, one_add_one_eq_two]

/-- Errors of half a width for every wanted step leave half of the steps, or add half as many. -/
theorem ceil_within_halves {ratio : ℚ} (near : |ratio - count| ≤ count / 2) :
    ⌈(count : ℚ) / 2⌉₊ ≤ ⌈ratio⌉₊ ∧ ⌈ratio⌉₊ ≤ ⌈3 * (count : ℚ) / 2⌉₊ := by
  obtain ⟨low, high⟩ := abs_le.mp near
  exact ⟨Nat.ceil_le_ceil (by linarith), Nat.ceil_le_ceil (by linarith)⟩

end Drift

namespace Rule

variable {rule : Rule} {scale : Int} {f : Decimal → Decimal} {grid : Grid} {total : Number}

/-- The number of values that a rule asks for on every step. -/
def callsPerStep : Rule → Nat
  | rectangles => 1
  | trapezoids => 2

/-- A rule calls the function as often at every step. -/
theorem length_notes (rule : Rule) (grid : Grid) (n : Nat) :
    (notes rule grid n).length = rule.callsPerStep * n := by
  induction n with
  | zero => rfl
  | succ n ih => cases rule <;> simp only [notes, List.length_cons, ih, callsPerStep] <;> omega

/-- A rule that finds an area has asked for the values it needs. -/
theorem notes_of_areaAt {k : Nat} {area : Number} {after : List Decimal}
    (found : (rule.areaAt scale (.observed f) grid (grid.point k)).run (notes rule grid k) =
      .ok (area, after)) : after = notes rule grid (k + 1) := by
  cases rule with
  | rectangles | trapezoids =>
    simp only [areaAt, StateT.run_bind, Integrand.observed_run, bind_ok] at found
    obtain ⟨_, _, returned⟩ := bind_eq_ok.mp found
    exact (congrArg Prod.snd (Except.ok.inj returned)).symm

/-- **Every total takes all steps.** Whatever function is integrated, a rule that returns a total
has asked for values on every step of the grid, and nowhere else. -/
theorem notes_of_sum {after : List Decimal}
    (found : (rule.sum scale (.observed f) grid).run [] = .ok (total, after)) :
    after = notes rule grid grid.stepCount := by
  rw [sum, Grid.points_eq] at found
  -- The induction is on how many steps have been taken, from the first one.
  generalize grid.stepCount = n at found ⊢
  induction n generalizing total after with
  | zero =>
    cases found
    rfl
  | succ n ih =>
    rw [List.range_succ, List.map_append, List.foldlM_append, StateT.run_bind] at found
    obtain ⟨⟨before, notes⟩, earlier, last⟩ := bind_eq_ok.mp found
    obtain rfl := ih earlier
    rw [List.map_singleton, List.foldlM_cons, StateT.run_bind] at last
    obtain ⟨⟨next, later⟩, stepped, ended⟩ := bind_eq_ok.mp last
    cases ended
    rw [StateT.run_bind] at stepped
    obtain ⟨⟨area, noted⟩, areaFound, added⟩ := bind_eq_ok.mp stepped
    obtain ⟨_, _, returned⟩ := bind_eq_ok.mp added
    rw [← notes_of_areaAt areaFound]
    exact (congrArg Prod.snd (Except.ok.inj returned)).symm

/-- On an interval with a step width, a rule that returns a total has asked for so many values. -/
theorem length_of_observe {stepping : Stepping} {lower upper dx : Decimal}
    (found : Grid.stepWidth stepping (.finite lower) (.finite upper) = .ok (.finite dx))
    {journal : Journal} {points : List Decimal}
    (observed : (observe rule stepping f lower upper).outcome journal = .ok (total, points)) :
    points.length = rule.callsPerStep * ⌈(upper.value - lower.value) / dx.value⌉₊ := by
  obtain ⟨grid, made, rfl, rfl, width⟩ := Grid.make_of_stepWidth found
  obtain rfl := Number.finite.inj width
  obtain ⟨_, _, _, _, parts⟩ := Grid.isStepWidth_of_found found
  rw [outcome_observe made parts.places] at observed
  obtain ⟨⟨_, notes⟩, summed, returned⟩ := bind_eq_ok.mp observed
  cases returned
  rw [notes_of_sum summed, List.length_reverse, length_notes]
  rfl

end Rule

namespace Grid

variable {lower upper dx : Decimal} {count scale : Int} {width : Number}

/-- What arithmetic has to provide for a step width: the exact length of the interval, and the
digits of its quotient. -/
structure WithinLimits (lower upper : Decimal) (count scale : Int) : Prop where
  length : Range.exact.Represents (upper.value - lower.value)
  digits : max ((upper.sub lower).adjusted - (Decimal.ofInt count).adjusted) 0 + scale + 3 ≤
    Range.exact.precision

/-- The length of an interval, where there is one. -/
theorem exists_length (represented : Range.exact.Represents (upper.value - lower.value))
    (ordered : lower.value < upper.value) :
    ∃ length : Decimal, (Number.finite upper).sub (.finite lower) = .ok (.finite length) ∧
      length.value = upper.value - lower.value ∧ length.adjusted = (upper.sub lower).adjusted := by
  rw [sub_eq_add_neg, ← Decimal.value_negate] at represented
  obtain ⟨length, subtracted, value⟩ := Number.add_of_represents represented
  rw [Decimal.value_negate, ← sub_eq_add_neg] at value
  refine ⟨length, subtracted, value, Decimal.adjusted_congr ?_ ?_⟩
  · rw [value]
    exact (sub_pos.mpr ordered).ne'
  · rw [value, Decimal.value_sub]

/-- Within the limits, only a width that is rounded to zero is refused. -/
theorem stepWidth_of_limits (ordered : lower.value < upper.value) (some_step : 1 ≤ count)
    (notCoarse : -2 ≤ scale) (notFine : scale ≤ 1000026)
    (limits : WithinLimits lower upper count scale) :
    ∃ dx : Decimal, dx.IsRounded scale ((upper.value - lower.value) / count) ∧
      stepWidth (.ofWhole count scale) (.finite lower) (.finite upper) =
        if dx.isZero then .error (.refused (.intervalTooNarrow (.finite lower) (.finite upper)
          (.whole count) (.whole scale)))
        else .ok (.finite dx) := by
  obtain ⟨length, subtracted, value, leading⟩ := exists_length limits.length ordered
  have divisor := (Decimal.value_ne_zero_iff _).mpr (Decimal.isZero_ofInt (by omega : count ≠ 0))
  have digits := limits.digits
  rw [← leading] at digits
  have rounded := Decimal.isRounded_quotient (a := length) divisor scale
  rw [value, Decimal.value_ofInt] at rounded
  refine ⟨length.quotient (.ofInt count) scale, rounded, ?_⟩
  rw [stepWidth_of_lt ordered some_step, subtracted, Fault.ofSignal_ok, bind_ok,
    Division.exists_divide Range.admissible_ordinary
      (Division.contains_unit_ordinary.mpr ⟨by omega, notFine⟩) divisor (by omega) digits
      (fun coarse => by omega), bind_ok]
  rfl

/-- An interval whose length is not represented has no step width. -/
theorem stepWidth_unrepresented (ordered : lower.value < upper.value) (some_step : 1 ≤ count)
    (unrepresented : ¬Range.exact.Represents (upper.value - lower.value)) (scale : Int) :
    stepWidth (.ofWhole count scale) (.finite lower) (.finite upper) =
      .error (.signal .inexact) := by
  rw [← Decimal.value_sub] at unrepresented
  have refused : (Number.finite upper).sub (.finite lower) = .error .inexact :=
    Number.settle_eq_error unrepresented
  rw [stepWidth_of_lt ordered some_step, refused]
  rfl

/-- A length with more digits than can be provided has no step width. -/
theorem stepWidth_unprovided (ordered : lower.value < upper.value) (some_step : 1 ≤ count)
    (notFine : scale ≤ 1000026) (represented : Range.exact.Represents (upper.value - lower.value))
    (many : (Range.exact.precision : Int) <
      max ((upper.sub lower).adjusted - (Decimal.ofInt count).adjusted) 0 + scale + 3) :
    stepWidth (.ofWhole count scale) (.finite lower) (.finite upper) =
      .error .precisionOutOfRange := by
  obtain ⟨length, subtracted, value, leading⟩ := exists_length represented ordered
  have divisor := (Decimal.value_ne_zero_iff _).mpr (Decimal.isZero_ofInt (by omega : count ≠ 0))
  have highest : Range.exact.maxExponent = 999999999999999999 := rfl
  have high : length.adjusted ≤ Range.exact.maxExponent := by
    refine Range.adjusted_le_of_represents ?_ (value ▸ represented)
    rw [value]
    exact (sub_pos.mpr ordered).ne'
  have whole := Decimal.adjusted_ofInt_nonneg count
  rw [← leading] at many
  rw [stepWidth_of_lt ordered some_step, subtracted, Fault.ofSignal_ok, bind_ok,
    Division.divide_eq_error _ divisor (by omega), if_neg (by omega)]
  rfl

/-- Within the limits, an interval with its bounds in order has a step width if the ideal width of a
positive number of steps is at least half a unit, and is refused otherwise. -/
theorem exists_stepWidth_iff (notCoarse : -2 ≤ scale) (notFine : scale ≤ 1000026)
    (limits : lower.value < upper.value → 1 ≤ count → WithinLimits lower upper count scale) :
    ((∃ width, stepWidth (.ofWhole count scale) (.finite lower) (.finite upper) = .ok width) ↔
      lower.value < upper.value ∧ 1 ≤ count ∧
        (10 : ℚ) ^ (-scale) / 2 ≤ (upper.value - lower.value) / count) ∧
    ((¬∃ width, stepWidth (.ofWhole count scale) (.finite lower) (.finite upper) = .ok width) →
      ∃ reason, stepWidth (.ofWhole count scale) (.finite lower) (.finite upper) =
        .error (.refused reason)) := by
  by_cases ordered : lower.value < upper.value
  case neg =>
    rw [stepWidth_of_not_lt _ ordered]
    exact ⟨⟨nofun, fun both => absurd both.1 ordered⟩, fun _ => ⟨_, rfl⟩⟩
  by_cases some_step : 1 ≤ count
  case neg =>
    rw [stepWidth_of_lt_one ordered (by omega)]
    exact ⟨⟨nofun, fun both => absurd both.2.1 some_step⟩, fun _ => ⟨_, rfl⟩⟩
  obtain ⟨dx, rounded, shape⟩ :=
    stepWidth_of_limits ordered some_step notCoarse notFine (limits ordered some_step)
  have ideal : 0 ≤ (upper.value - lower.value) / count :=
    div_nonneg (by linarith) (by exact_mod_cast (by omega : 0 ≤ count))
  have narrow := roundHalfAway_eq_zero_iff scale ideal
  rw [← rounded.value, Decimal.value_eq_zero_iff] at narrow
  rw [shape]
  cases zero : dx.isZero with
  | true =>
    have below := narrow.mp zero
    exact ⟨⟨nofun, fun both => absurd both.2.2 (not_le.mpr below)⟩, fun _ => ⟨_, rfl⟩⟩
  | false =>
    have enough := not_lt.mp (mt narrow.mpr (Bool.eq_false_iff.mp zero))
    exact ⟨⟨fun _ => ⟨ordered, some_step, enough⟩, fun _ => ⟨_, rfl⟩⟩,
      fun none => absurd ⟨_, rfl⟩ none⟩

/-- A positive width is at least one unit, and so twice as long as its rounding error may be. -/
theorem steps_within_halves (forward : 0 < dx.value) (some_step : 1 ≤ count)
    (rounded : dx.IsRounded scale ((upper.value - lower.value) / count)) :
    ⌈(count : ℚ) / 2⌉₊ ≤ ⌈(upper.value - lower.value) / dx.value⌉₊ ∧
      ⌈(upper.value - lower.value) / dx.value⌉₊ ≤ ⌈3 * (count : ℚ) / 2⌉₊ := by
  have multiple : IsMultiple scale dx.value := rounded.value ▸ isMultiple_roundHalfAway _ _
  have near := abs_count_mul_sub_le some_step rounded.value
  have counted : (0 : ℚ) ≤ count := by exact_mod_cast (by omega : 0 ≤ count)
  refine ceil_within_halves ((abs_div_sub_le forward near).trans ?_)
  rw [div_le_iff₀ forward]
  linarith [mul_le_mul_of_nonneg_left (multiple.unit_le forward) counted]

/-- **Which intervals have a step width.** Within the limits of arithmetic these are the ones whose
bounds are in order, for a positive number of steps and an ideal width of at least half a unit; all
others are refused. The width is then a positive multiple of the unit, with which the wanted steps
miss the end of the interval by half a unit each at most, and both rules take at least half and at
most one and a half times as many steps as are wanted. Beyond the limits the length of the interval
is found to be inexact, or the digits of the width are not provided. -/
theorem stepWidth_accepts (lower upper : Decimal) (count : Int) (notCoarse : -2 ≤ scale)
    (notFine : scale ≤ 1000026) :
    ((lower.value < upper.value → 1 ≤ count → WithinLimits lower upper count scale) →
      ((∃ width, stepWidth (.ofWhole count scale) (.finite lower) (.finite upper) = .ok width) ↔
        lower.value < upper.value ∧ 1 ≤ count ∧
          (10 : ℚ) ^ (-scale) / 2 ≤ (upper.value - lower.value) / count) ∧
      ((¬∃ width, stepWidth (.ofWhole count scale) (.finite lower) (.finite upper) = .ok width) →
        ∃ reason, stepWidth (.ofWhole count scale) (.finite lower) (.finite upper) =
          .error (.refused reason))) ∧
    (lower.value < upper.value → 1 ≤ count →
      (¬Range.exact.Represents (upper.value - lower.value) →
        stepWidth (.ofWhole count scale) (.finite lower) (.finite upper) =
          .error (.signal .inexact)) ∧
      (Range.exact.Represents (upper.value - lower.value) →
        ¬WithinLimits lower upper count scale →
          stepWidth (.ofWhole count scale) (.finite lower) (.finite upper) =
            .error .precisionOutOfRange)) ∧
    ∀ width, stepWidth (.ofWhole count scale) (.finite lower) (.finite upper) = .ok width →
      ∃ dx : Decimal, width = .finite dx ∧ 0 < dx.value ∧ IsMultiple scale dx.value ∧
        |count * dx.value - (upper.value - lower.value)| ≤ count * (10 : ℚ) ^ (-scale) / 2 ∧
        let steps := ⌈(upper.value - lower.value) / dx.value⌉₊
        (⌈(count : ℚ) / 2⌉₊ ≤ steps ∧ steps ≤ ⌈3 * (count : ℚ) / 2⌉₊) ∧
          ∀ (rule : Rule) (f : Decimal → Decimal) journal total points,
            (observe rule (.ofWhole count scale) f lower upper).outcome journal =
                .ok (total, points) →
              points.length = rule.callsPerStep * steps := by
  refine ⟨exists_stepWidth_iff notCoarse notFine, ?_, ?_⟩
  · intro ordered some_step
    refine ⟨fun unrepresented => stepWidth_unrepresented ordered some_step unrepresented scale, ?_⟩
    intro represented beyond
    refine stepWidth_unprovided ordered some_step notFine represented (not_le.mp fun digits => ?_)
    exact beyond ⟨represented, digits⟩
  · intro width found
    obtain ⟨dx, rfl, parts⟩ := isStepWidth_ofWhole found
    have rounded := parts.rounded
    rw [min_eq_left notFine] at rounded
    exact ⟨dx, rfl, parts.forward, rounded.value ▸ isMultiple_roundHalfAway _ _,
      abs_count_mul_sub_le parts.some_step rounded.value,
      steps_within_halves parts.forward parts.some_step rounded,
      fun rule f journal total points => rule.length_of_observe found⟩

/-- Ten steps of half a unit each are wanted, and five of one unit are taken: just enough for a
width. -/
theorem stepWidth_accepts_half :
    (-2 : Int) ≤ 0 ∧ (0 : Int) ≤ 1000026 ∧ ∃ dx : Decimal,
      stepWidth (.ofWhole 10 0) (.finite .zero) (.finite (.ofInt 5)) = .ok (.finite dx) ∧
      |10 * dx.value - 5| ≤ 5 ∧ 5 ≤ ⌈5 / dx.value⌉₊ ∧ ⌈5 / dx.value⌉₊ ≤ 15 := by
  refine ⟨by decide, by decide, ?_⟩
  have five : (Decimal.ofInt 5).value = 5 := Decimal.value_ofInt 5
  have limits : WithinLimits .zero (.ofInt 5) 10 0 := by
    refine ⟨⟨.ofInt 5, by decide, ?_⟩, by decide⟩
    rw [Decimal.value_zero, sub_zero]
  obtain ⟨accepts, _, each⟩ :=
    stepWidth_accepts .zero (.ofInt 5) 10 (by decide : (-2 : Int) ≤ 0) (by decide)
  obtain ⟨width, found⟩ := (accepts fun _ _ => limits).1.mpr
    ⟨by rw [five, Decimal.value_zero]; norm_num, by decide,
      by rw [five, Decimal.value_zero]; norm_num⟩
  obtain ⟨dx, rfl, _, _, near, ⟨atLeast, atMost⟩, _⟩ := each width found
  have fewest : ⌈(10 : ℚ) / 2⌉₊ = 5 := by norm_num
  have most : ⌈3 * (10 : ℚ) / 2⌉₊ = 15 := by norm_num
  rw [five, Decimal.value_zero, sub_zero] at near atLeast atMost
  push_cast at near atLeast atMost
  rw [fewest] at atLeast
  rw [most] at atMost
  refine ⟨dx, found, ?_, atLeast, atMost⟩
  norm_num at near
  exact near

/-- Two intervals beyond the limits that are wide enough for a thousand steps: one takes more digits
than are provided, and the length of the other is past the widest range. -/
theorem stepWidth_beyond_limits :
    let far : Decimal := ⟨false, 1, 999999999999999999⟩
    let farther : Decimal := ⟨false, 9, 999999999999999999⟩
    (far.negate.value < far.value ∧
      (10 : ℚ) ^ (-6 : Int) / 2 ≤ (far.value - far.negate.value) / 1000 ∧
      stepWidth (.ofWhole 1000 6) (.finite far.negate) (.finite far) =
        .error .precisionOutOfRange) ∧
    (farther.negate.value < farther.value ∧
      (10 : ℚ) ^ (-6 : Int) / 2 ≤ (farther.value - farther.negate.value) / 1000 ∧
      stepWidth (.ofWhole 1000 6) (.finite farther.negate) (.finite farther) =
        .error (.signal .inexact)) := by
  have large : ∀ d : Decimal, d.negative = false → 1 ≤ d.coefficient → 0 ≤ d.exponent →
      d.negate.value < d.value ∧ (10 : ℚ) ^ (-6 : Int) / 2 ≤ (d.value - d.negate.value) / 1000 := by
    intro d positive counted whole
    have one : 1 ≤ d.value := by
      rw [Decimal.value_eq_signed_abs, positive, if_neg Bool.false_ne_true, Decimal.abs_value]
      exact one_le_mul_of_one_le_of_one_le (by exact_mod_cast counted)
        (one_le_zpow₀ (by norm_num) whole)
    have unit : (10 : ℚ) ^ (-6 : Int) / 2 ≤ 1 / 1000 := by norm_num
    rw [Decimal.value_negate]
    constructor <;> linarith
  intro far farther
  obtain ⟨order, wide⟩ := large far rfl (by decide) (by decide)
  obtain ⟨order', wide'⟩ := large farther rfl (by decide) (by decide)
  exact ⟨⟨order, wide, by decide +kernel⟩, ⟨order', wide', by decide +kernel⟩⟩

/-- **When the number of steps is nearly the wanted one.** On an interval with a step width the
numbers of steps taken and wanted differ by as many whole widths as the rounding errors of the
wanted steps add up to, and so by one at most where these fit into one width. They differ by one at
most exactly if the length lies above two widths less than wanted, and not above one width more. -/
theorem steps_near_subdivisions
    (found : stepWidth (.ofWhole count scale) (.finite lower) (.finite upper) = .ok width) :
    ∃ dx : Decimal, width = .finite dx ∧ 0 < dx.value ∧
      let length := upper.value - lower.value
      let steps := ⌈length / dx.value⌉₊
      let drift := count * (10 : ℚ) ^ (-(min scale 1000026)) / 2 / dx.value
      (count - ⌊drift⌋ ≤ (steps : Int) ∧ (steps : Int) ≤ count + ⌈drift⌉) ∧
      (drift ≤ 1 → (steps : Int) = count - 1 ∨ (steps : Int) = count ∨ (steps : Int) = count + 1) ∧
      (((steps : Int) = count - 1 ∨ (steps : Int) = count ∨ (steps : Int) = count + 1) ↔
        (count - 2) * dx.value < length ∧ length ≤ (count + 1) * dx.value) ∧
      ∀ (rule : Rule) (f : Decimal → Decimal) journal total points,
        (observe rule (.ofWhole count scale) f lower upper).outcome journal = .ok (total, points) →
          points.length = rule.callsPerStep * steps := by
  obtain ⟨dx, rfl, parts⟩ := isStepWidth_ofWhole found
  have forward := parts.forward
  refine ⟨dx, rfl, forward, ?_⟩
  intro length steps drift
  have ratio : 0 ≤ length / dx.value := div_nonneg (sub_nonneg.mpr parts.ordered.le) forward.le
  have near := abs_div_sub_le forward (abs_count_mul_sub_le parts.some_step parts.rounded.value)
  have within : count - ⌊drift⌋ ≤ (steps : Int) ∧ (steps : Int) ≤ count + ⌈drift⌉ :=
    ceil_within_drift ratio near
  refine ⟨within, ?_, ?_, fun rule f journal total points => rule.length_of_observe found⟩
  · intro small
    have low : ⌊drift⌋ ≤ 1 := Int.floor_le_iff.mpr (by push_cast; linarith)
    have high : ⌈drift⌉ ≤ 1 := Int.ceil_le.mpr (by exact_mod_cast small)
    omega
  · rw [← lt_div_iff₀ forward, ← div_le_iff₀ forward, ← ceil_near_iff ratio]
    change _ ↔ count - 1 ≤ (steps : Int) ∧ (steps : Int) ≤ count + 1
    omega

/-- A thousand rounding errors add up to half a width, and one more step is taken than wanted. -/
theorem steps_near_subdivisions_thousand :
    ∃ dx : Decimal,
      stepWidth (.ofWhole 1000 6) (.finite .zero) (.finite ⟨false, 10000004, -7⟩) =
        .ok (.finite dx) ∧
      ∀ (rule : Rule) (f : Decimal → Decimal) journal total points,
        (observe rule (.ofWhole 1000 6) f .zero ⟨false, 10000004, -7⟩).outcome journal =
          .ok (total, points) → points.length ≤ rule.callsPerStep * 1001 := by
  have found : stepWidth (.ofWhole 1000 6) (.finite .zero) (.finite ⟨false, 10000004, -7⟩) =
      .ok (.finite ⟨false, 1000, -6⟩) := by decide +kernel
  obtain ⟨dx, same, _, _, near, _, calls⟩ := steps_near_subdivisions found
  obtain rfl := Number.finite.inj same
  have width : (⟨false, 1000, -6⟩ : Decimal).value = 1 / 1000 := by
    rw [Decimal.value_eq]
    norm_num [Decimal.significand]
  rw [width] at near calls
  have steps := near (by norm_num)
  refine ⟨_, found, fun rule f journal total points observed => ?_⟩
  rw [calls rule f journal total points observed]
  exact Nat.mul_le_mul_left _ (by omega)

/-- The errors of ten steps of a coarse unit add up to five widths, and fourteen steps are taken. -/
theorem steps_far_from_subdivisions :
    stepWidth (.ofWhole 10 0) (.finite .zero) (.finite (.ofInt 14)) = .ok (.finite .one) ∧
    ((observe .rectangles (.ofWhole 10 0) id .zero (.ofInt 14)).outcome (Journal.new false [])).map
      (·.2.length) = .ok (Rule.rectangles.callsPerStep * 14) ∧
    ((observe .trapezoids (.ofWhole 10 0) id .zero (.ofInt 14)).outcome (Journal.new false [])).map
      (·.2.length) = .ok (Rule.trapezoids.callsPerStep * 14) ∧
    ¬(14 = 10 - 1 ∨ 14 = 10 ∨ 14 = 10 + 1) := by
  decide +kernel

end Grid

end ExactQuadrature

import ExactQuadrature.Proofs.Journal.Outcome
import ExactQuadrature.Proofs.Quadrature.Points
import ExactQuadrature.Rule
import Mathlib.Algebra.BigOperators.Ring.Finset
import Mathlib.Tactic.IntervalCases
import Mathlib.Tactic.NormNum

/-! # What the quadrature rules compute

A rule walks its grid step by step. If the area of every step is found and the running totals are
decimals of the widest range, the rule returns the sum of the areas (`Rule.sum_of_steps`). For a
function from decimals to decimals the areas of rectangles are exact products and those of
trapezoids are exact up to one rounding each, and the function is called at the points of the grid
in order (`integrate_exact_sums`).
-/

namespace ExactQuadrature

open Finset

namespace Integrand

/-- A function from decimals to decimals that notes every point it is called with, the latest
first. -/
def observed (f : Decimal → Decimal) : Integrand (List Decimal) := fun x => do
  modify (x :: ·)
  return .finite (f x)

/-- A function under observation is called once more and gives its own value. -/
theorem observed_run (f : Decimal → Decimal) (x : Decimal) (notes : List Decimal) :
    (observed f x).run notes = .ok (.finite (f x), x :: notes) := rfl

end Integrand

/-- The exact running total of decimals, from zero. -/
def runningTotal (areas : Nat → Decimal) : Nat → Decimal
  | 0 => .zero
  | k + 1 => (runningTotal areas k).add (areas k)

/-- The total after some steps has the sum of the values of the areas. -/
theorem value_runningTotal (areas : Nat → Decimal) (n : Nat) :
    (runningTotal areas n).value = ∑ k ∈ range n, (areas k).value := by
  induction n with
  | zero => rw [runningTotal, Decimal.value_zero, sum_range_zero]
  | succ n ih => rw [runningTotal, Decimal.value_add, ih, sum_range_succ]

namespace Rule

variable {σ : Type} {rule : Rule} {scale : Int} {f : Integrand σ} {grid : Grid}

/-- **One step.** A rule that finds an area adds it to the total, as long as the range holds the
new total. -/
theorem step_run {x total area : Decimal} {before after : σ}
    (found : (rule.areaAt scale f grid x).run before = .ok (.finite area, after))
    (inside : Range.exact.Contains (total.add area)) :
    (do
      let area ← rule.areaAt scale f grid x
      Fault.ofSignal (Number.add (.finite total) area) : StateT σ (Except Fault) Number).run
        before =
      .ok (.finite (total.add area), after) := by
  rw [StateT.run_bind, found, bind_ok]
  dsimp only
  rw [Number.add_finite inside]
  rfl

/-- **All steps.** If every step of a grid finds its area and the range holds the running totals,
the rule returns the last of them. -/
theorem sum_of_steps {areas : Nat → Decimal} (states : Nat → σ)
    (steps : ∀ k < grid.stepCount,
      (rule.areaAt scale f grid (grid.point k)).run (states k) =
        .ok (.finite (areas k), states (k + 1)))
    (inside : ∀ k ≤ grid.stepCount, Range.exact.Contains (runningTotal areas k)) :
    (rule.sum scale f grid).run (states 0) =
      .ok (.finite (runningTotal areas grid.stepCount), states grid.stepCount) := by
  unfold sum
  rw [Grid.points_eq]
  -- The induction is on how many steps have been taken; all of them are within the grid.
  suffices prefixes : ∀ n ≤ grid.stepCount,
      (((List.range n).map grid.point).foldlM (fun total x => do
        let area ← rule.areaAt scale f grid x
        Fault.ofSignal (Number.add total area)) Number.zero : StateT σ (Except Fault) Number).run
          (states 0) = .ok (.finite (runningTotal areas n), states n) from
    prefixes grid.stepCount le_rfl
  intro n within
  induction n with
  | zero => rfl
  | succ n ih =>
    rw [List.range_succ, List.map_append, List.foldlM_append, StateT.run_bind, ih (by omega),
      bind_ok]
    dsimp only
    rw [List.map_singleton, List.foldlM_cons, StateT.run_bind,
      step_run (steps n within) (inside (n + 1) within)]
    rfl

/-- The exact area of the rectangle over the step with a number. -/
def rectangle (f : Decimal → Decimal) (grid : Grid) (k : Nat) : Decimal :=
  (f (grid.point k)).mul grid.width

/-- Twice the exact area of the trapezoid over the step with a number. -/
def doubledTrapezoid (f : Decimal → Decimal) (grid : Grid) (k : Nat) : Decimal :=
  ((f (grid.point k)).add (f (grid.point (k + 1)))).mul grid.width

/-- The rounded area of the trapezoid over the step with a number. -/
def trapezoid (scale : Int) (f : Decimal → Decimal) (grid : Grid) (k : Nat) : Decimal :=
  (doubledTrapezoid f grid k).quotient (.ofInt 2) scale

/-- The areas that a rule adds up. -/
def areas (rule : Rule) (scale : Int) (f : Decimal → Decimal) (grid : Grid) : Nat → Decimal :=
  match rule with
  | rectangles => rectangle f grid
  | trapezoids => trapezoid scale f grid

/-- The points at which a rule asks for a value in the course of some first steps, the latest
first. -/
def notes (rule : Rule) (grid : Grid) : Nat → List Decimal
  | 0 => []
  | k + 1 => match rule with
    | rectangles => grid.point k :: notes rule grid k
    | trapezoids => grid.point (k + 1) :: grid.point k :: notes rule grid k

/-- The decimals that a rule forms over a step stay within the widest range, and a quotient has
all its digits. -/
def StepInRange (rule : Rule) (scale : Int) (f : Decimal → Decimal) (grid : Grid) (k : Nat) :
    Prop :=
  match rule with
  | rectangles => Range.exact.Contains (rectangle f grid k)
  | trapezoids =>
    Range.exact.Contains ((f (grid.point k)).add (f (grid.point (k + 1)))) ∧
      Range.exact.Contains (doubledTrapezoid f grid k) ∧
      (doubledTrapezoid f grid k).adjusted + scale + 3 ≤ Range.exact.precision

instance (rule : Rule) (scale : Int) (f : Decimal → Decimal) (grid : Grid) (k : Nat) :
    Decidable (StepInRange rule scale f grid k) :=
  match rule with
  | rectangles => inferInstanceAs (Decidable (Range.exact.Contains _))
  | trapezoids => inferInstanceAs (Decidable (_ ∧ _ ∧ _))

/-- All decimals that a rule forms for a function on a grid stay within the widest range. -/
structure InRange (rule : Rule) (scale : Int) (f : Decimal → Decimal) (grid : Grid) : Prop where
  steps : ∀ k < grid.stepCount, StepInRange rule scale f grid k
  totals : ∀ k ≤ grid.stepCount,
    Range.exact.Contains (runningTotal (areas rule scale f grid) k)

/-- A finite quotient by two has a result as long as its digits can be provided. -/
theorem divide_by_two {doubled : Decimal} {scale : Int} (low : -2 ≤ scale)
    (high : scale ≤ 2000054) (digits : doubled.adjusted + scale + 3 ≤ Range.exact.precision) :
    divide .exact (.finite doubled) (.ofInt 2) scale =
      .ok (.finite (doubled.quotient (.ofInt 2) scale)) := by
  have leading : (Decimal.ofInt 2).adjusted = 0 := by decide
  have precision : (Range.exact.precision : Int) = 999999999999999999 := rfl
  have highest : Range.exact.maxExponent = 999999999999999999 := rfl
  have finest : Range.exact.tiny = -1999999999999999997 := rfl
  have unit := (Division.contains_unit .exact scale).mpr ⟨by omega, by omega, by decide⟩
  have two := (Decimal.value_ne_zero_iff _).mpr (Decimal.isZero_ofInt (by decide : (2 : Int) ≠ 0))
  exact Division.exists_divide Range.admissible_exact unit two (by omega) (by omega)
    fun coarse => by omega

/-- Over a step in range a rule finds its area, and asks for the values it needs in order. -/
theorem areaAt_observed {f : Decimal → Decimal} (low : -2 ≤ scale) (high : scale ≤ 2000054)
    {k : Nat}
    (inside : StepInRange rule scale f grid k) :
    (rule.areaAt scale (Integrand.observed f) grid (grid.point k)).run (notes rule grid k) =
      .ok (.finite (areas rule scale f grid k), notes rule grid (k + 1)) := by
  cases rule with
  | rectangles =>
    change (do
      let height ← Integrand.observed f (grid.point k)
      rectangleArea (.finite grid.width) height : StateT _ (Except Fault) Number).run _ = _
    rw [StateT.run_bind, Integrand.observed_run, bind_ok]
    change (rectangleArea (.finite grid.width) (.finite (f (grid.point k))) >>= _) = _
    unfold rectangleArea
    rw [Number.mul_finite inside]
    rfl
  | trapezoids =>
    obtain ⟨heights, doubled, digits⟩ := inside
    change (do
      let left ← Integrand.observed f (grid.point k)
      let right ← Integrand.observed f (grid.point (k + 1))
      trapezoidArea scale (.finite grid.width) left right :
        StateT _ (Except Fault) Number).run _ = _
    rw [StateT.run_bind, Integrand.observed_run, bind_ok]
    dsimp only
    rw [StateT.run_bind, Integrand.observed_run, bind_ok]
    change (trapezoidArea scale (.finite grid.width) (.finite (f (grid.point k)))
      (.finite (f (grid.point (k + 1)))) >>= _) = _
    unfold trapezoidArea
    rw [Number.add_finite heights, bind_ok, Number.mul_finite doubled, Fault.ofSignal_ok, bind_ok,
      show (f (grid.point k) |>.add (f (grid.point (k + 1)))).mul grid.width =
        doubledTrapezoid f grid k from rfl, divide_by_two low high digits]
    rfl

/-- The rectangle rule calls the function at every point in order. -/
theorem notes_rectangles (grid : Grid) (n : Nat) :
    (notes rectangles grid n).reverse = (List.range n).map grid.point := by
  induction n with
  | zero => rfl
  | succ n ih =>
    rw [List.range_succ, List.map_append, List.map_singleton, ← ih]
    exact List.reverse_cons

/-- The trapezoid rule calls the function at both ends of every step in order. -/
theorem notes_trapezoids (grid : Grid) (n : Nat) :
    (notes trapezoids grid n).reverse =
      (List.range n).flatMap fun k => [grid.point k, grid.point (k + 1)] := by
  induction n with
  | zero => rfl
  | succ n ih =>
    rw [List.range_succ, List.flatMap_append, List.flatMap_singleton, ← ih]
    change (grid.point (n + 1) :: grid.point n :: notes trapezoids grid n).reverse = _
    rw [List.reverse_cons, List.reverse_cons, List.append_assoc]
    rfl

/-- A trapezoid has the value of the mean height times the width, rounded once. -/
theorem value_trapezoid (scale : Int) (f : Decimal → Decimal) (grid : Grid) (k : Nat) :
    (trapezoid scale f grid k).value = roundHalfAway scale
      (grid.width.value * ((f (grid.point k)).value + (f (grid.point (k + 1))).value) / 2) := by
  have two : (Decimal.ofInt 2).value = 2 := Decimal.value_ofInt 2
  unfold trapezoid doubledTrapezoid
  rw [Decimal.value_quotient _ _ _ (by rw [two]; norm_num), two, Decimal.value_mul,
    Decimal.value_add, mul_comm]

end Rule

/-- What integrating a function between two offered bounds comes to. -/
def integration {σ : Type} (rule : Rule) (stepping : Stepping) (f : Integrand σ) (initial : σ)
    (lower upper : Operand) : Except Fault (Number × σ) := do
  let lower ← lower.toNumber "lower bound"
  let upper ← upper.toNumber "upper bound"
  let grid ← Grid.make stepping lower upper
  let scale ← stepping.places
  (rule.sum scale f grid).run initial

/-- Integration is a task around a sum, and the journal has no influence on that. -/
theorem yields_integration {σ : Type} (rule : Rule) (stepping : Stepping) (f : Integrand σ)
    (initial : σ) (lower upper : Operand) :
    (integrate rule stepping f initial lower upper).Yields
      (integration rule stepping f initial lower upper) :=
  (Work.yields_ofExcept _).bind fun _ => (Work.yields_ofExcept _).bind fun _ =>
    (Work.yields_ofExcept _).bind fun _ => (Work.yields_ofExcept _).bind fun _ =>
      (Work.yields_ofExcept _).within rule.title rfl

/-- The total of a rule for a function on an interval, and the points at which the rule asked for a
value, in order. -/
def observe (rule : Rule) (stepping : Stepping) (f : Decimal → Decimal) (lower upper : Decimal) :
    Work (Number × List Decimal) := do
  let (total, notes) ← integrate rule stepping (.observed f) []
    (.number (.finite lower)) (.number (.finite upper))
  return (total, notes.reverse)

/-- On a grid, observing a rule comes to its sum with the notes taken. -/
theorem outcome_observe {stepping : Stepping} {scale : Int} {lower upper : Decimal} {grid : Grid}
    (made : Grid.make stepping (.finite lower) (.finite upper) = .ok grid)
    (places : stepping.places = .ok scale) (rule : Rule) (f : Decimal → Decimal)
    (journal : Journal) :
    (observe rule stepping f lower upper).outcome journal =
      (rule.sum scale (.observed f) grid).run [] >>= fun result =>
        .ok (result.1, result.2.reverse) := by
  have observed : (observe rule stepping f lower upper).Yields _ :=
    (yields_integration rule stepping (.observed f) [] (.number (.finite lower))
      (.number (.finite upper))).bind fun result => Work.yields_pure (result.1, result.2.reverse)
  have lowerGiven : (Operand.number (.finite lower)).toNumber "lower bound" =
      .ok (.finite lower) := rfl
  have upperGiven : (Operand.number (.finite upper)).toNumber "upper bound" =
      .ok (.finite upper) := rfl
  rw [observed.outcome, integration, lowerGiven, bind_ok, upperGiven, bind_ok, made, bind_ok,
    places, bind_ok]

/-- On an interval that has a step width, a rule returns the running total of its areas and asks
for values in order, if everything stays in range. -/
theorem observe_outcome {stepping : Stepping} {scale : Int} {f : Decimal → Decimal}
    {lower upper : Decimal} {grid : Grid} {rule : Rule}
    (made : Grid.make stepping (.finite lower) (.finite upper) = .ok grid)
    (places : stepping.places = .ok scale) (low : -2 ≤ scale) (high : scale ≤ 2000054)
    (inside : rule.InRange scale f grid) (journal : Journal) :
    (observe rule stepping f lower upper).outcome journal =
      .ok (.finite (runningTotal (rule.areas scale f grid) grid.stepCount),
        (rule.notes grid grid.stepCount).reverse) := by
  have summed : (rule.sum scale (.observed f) grid).run [] =
      .ok (.finite (runningTotal (rule.areas scale f grid) grid.stepCount),
        rule.notes grid grid.stepCount) :=
    Rule.sum_of_steps (rule.notes grid)
      (fun k below => Rule.areaAt_observed low high (inside.steps k below)) inside.totals
  rw [outcome_observe made places, summed, bind_ok]

/-- **The rules compute their sums.** On an interval with a step width, the width is positive and
the points of the grid are the multiples of it above the lower bound, as far as they are below the
upper one. The rectangle rule asks for a value at each of them, in order, and returns the
exact sum of its areas; the trapezoid rule asks for two values on every step and returns the sum
of its areas, each rounded once. -/
theorem integrate_exact_sums {stepping : Stepping} {scale : Int} (f : Decimal → Decimal)
    {lower upper : Decimal} {width : Number}
    (found : Grid.stepWidth stepping (.finite lower) (.finite upper) = .ok width)
    (places : stepping.places = .ok scale) (notCoarse : -2 ≤ scale) :
    ∃ grid : Grid, grid.lower = lower ∧ grid.upper = upper ∧ width = .finite grid.width ∧
      0 < grid.width.value ∧
      grid.stepCount = ⌈(upper.value - lower.value) / grid.width.value⌉₊ ∧
      (∀ k, (grid.point k).value = lower.value + k * grid.width.value) ∧
      (∀ k, (grid.point k).value < upper.value ↔ k < grid.stepCount) ∧
      (Rule.InRange .rectangles scale f grid → ∀ journal, ∃ total : Decimal,
        (observe .rectangles stepping f lower upper).outcome journal =
          .ok (.finite total, (List.range grid.stepCount).map grid.point) ∧
        total.value = grid.width.value * ∑ k ∈ range grid.stepCount, (f (grid.point k)).value) ∧
      (Rule.InRange .trapezoids scale f grid → ∀ journal, ∃ total : Decimal,
        (observe .trapezoids stepping f lower upper).outcome journal =
          .ok (.finite total,
            (List.range grid.stepCount).flatMap fun k => [grid.point k, grid.point (k + 1)]) ∧
        total.value = ∑ k ∈ range grid.stepCount, roundHalfAway scale
          (grid.width.value *
            ((f (grid.point k)).value + (f (grid.point (k + 1))).value) / 2)) := by
  obtain ⟨grid, made, rfl, rfl, rfl⟩ := Grid.make_of_stepWidth found
  have high := (Grid.scale_of_stepWidth found places).2
  refine ⟨grid, rfl, rfl, rfl, grid.width_pos, rfl, grid.value_point, grid.point_lt_upper_iff,
    ?_, ?_⟩
  · intro inside journal
    refine ⟨runningTotal (Rule.areas .rectangles scale f grid) grid.stepCount, ?_, ?_⟩
    · rw [observe_outcome made places notCoarse high inside, Rule.notes_rectangles]
    · rw [value_runningTotal, mul_sum]
      refine sum_congr rfl fun k _ => ?_
      change ((f (grid.point k)).mul grid.width).value = _
      rw [Decimal.value_mul, mul_comm]
  · intro inside journal
    refine ⟨runningTotal (Rule.areas .trapezoids scale f grid) grid.stepCount, ?_, ?_⟩
    · rw [observe_outcome made places notCoarse high inside, Rule.notes_trapezoids]
    · rw [value_runningTotal]
      exact sum_congr rfl fun k _ => Rule.value_trapezoid scale f grid k

/-- The square over two steps from `0` to `1` at three places: both trapezoids end in a half, and
both are rounded away from zero. -/
theorem integrate_exact_sums_square :
    ∃ total : Decimal,
      (observe .trapezoids (Stepping.ofWhole 2 3) (fun x => x.mul x) .zero .one).outcome
          (Journal.new false []) =
        .ok (.finite total, [.zero, ⟨false, 500, -3⟩, ⟨false, 500, -3⟩, ⟨false, 1000, -3⟩]) ∧
      total.value = 376 / 1000 := by
  have half : (⟨false, 500, -3⟩ : Decimal).value = 1 / 2 := by
    rw [Decimal.value_eq]
    norm_num [Decimal.significand]
  have steps : (⟨.zero, .one, ⟨false, 500, -3⟩, by decide⟩ : Grid).stepCount = 2 := by
    unfold Grid.stepCount
    rw [Decimal.value_one, Decimal.value_zero, half]
    norm_num
  have asked : ((List.range 2).flatMap fun k =>
      [(⟨.zero, .one, ⟨false, 500, -3⟩, by decide⟩ : Grid).point k,
        (⟨.zero, .one, ⟨false, 500, -3⟩, by decide⟩ : Grid).point (k + 1)]) =
      [.zero, ⟨false, 500, -3⟩, ⟨false, 500, -3⟩, ⟨false, 1000, -3⟩] := by decide +kernel
  have inside : Rule.InRange .trapezoids 3 (fun x => x.mul x)
      ⟨.zero, .one, ⟨false, 500, -3⟩, by decide⟩ := by
    constructor <;> intro k bounded <;> rw [steps] at bounded <;> interval_cases k <;>
      decide +kernel
  have found : Grid.stepWidth (Stepping.ofWhole 2 3) (.finite .zero) (.finite .one) =
      .ok (.finite ⟨false, 500, -3⟩) := by decide +kernel
  have places : (Stepping.ofWhole 2 3).places = .ok 3 := rfl
  obtain ⟨⟨l, u, w, _⟩, lower, upper, width, _, _, points, _, _, trapezoids⟩ :=
    integrate_exact_sums (fun x => x.mul x) found places (by decide)
  obtain rfl : l = .zero := lower
  obtain rfl : u = .one := upper
  obtain rfl : w = ⟨false, 500, -3⟩ := (Number.finite.inj width).symm
  obtain ⟨total, returned, value⟩ := trapezoids inside (Journal.new false [])
  rw [steps] at returned value
  rw [asked] at returned
  refine ⟨total, returned, ?_⟩
  dsimp only at points value
  rw [value, sum_range_succ, sum_range_succ, sum_range_zero, Decimal.value_mul, Decimal.value_mul,
    Decimal.value_mul, points, points, points, half, Decimal.value_zero]
  norm_num [roundHalfAway]

end ExactQuadrature

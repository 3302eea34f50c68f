import ExactQuadrature.Decimal.Order
import ExactQuadrature.Division
import ExactQuadrature.Operand

/-! # Grids of equal steps

A grid walks an interval in steps of one width, which is the length of the interval divided by the
wanted number of steps and rounded to a given scale. It starts at the lower bound and goes on, one
exact addition after the other, for as long as it stays below the upper bound. Since the width is
rounded, the number of steps may differ from the wanted one. -/

namespace ExactQuadrature

/-- How finely an interval is divided, and to what scale results are rounded. Both are settings,
and meant to hold whole numbers. -/
structure Stepping where
  subdivisions : SettingValue
  scale : SettingValue
deriving DecidableEq, Inhabited

namespace Stepping

/-- A wanted number of steps and a scale. -/
def ofWhole (subdivisions scale : Int) : Stepping := ⟨.whole subdivisions, .whole scale⟩

/-- Make sure that at least one step is wanted. -/
def checkPositive (stepping : Stepping) : Except Fault Unit :=
  match stepping.subdivisions.count? with
  | none => .error .uncountable
  | some count =>
    if count < 1 then Fault.refuse (.subdivisionsNotPositive stepping.subdivisions) else .ok ()

/-- The number of fractional digits that results are rounded to. -/
def places (stepping : Stepping) : Except Fault Int :=
  match stepping.scale.count? with
  | none => .error .uncountable
  | some count => .ok count

end Stepping

/-- An interval with a positive step width. -/
structure Grid where
  lower : Decimal
  upper : Decimal
  width : Decimal
  positive : width.isPositive = true
deriving DecidableEq

namespace Grid

/-- The width of the steps in which an interval is walked. -/
def stepWidth (stepping : Stepping) (lower upper : Number) : Except Fault Number := do
  let increasing ← Fault.ofSignal (lower.lessThan upper)
  if !increasing then Fault.refuse (.boundsNotIncreasing lower upper)
  else do
    stepping.checkPositive
    let length ← Fault.ofSignal (upper.sub lower)
    let divisor ← (Operand.ofSetting stepping.subdivisions).toNumber "divisor"
    let width ← divide .ordinary length divisor (← stepping.places)
    if width.isZero then
      Fault.refuse (.intervalTooNarrow lower upper stepping.subdivisions stepping.scale)
    else return width

/-- The grid of an interval. Only an interval of finite length has one. -/
def make (stepping : Stepping) (lower upper : Number) : Except Fault Grid := do
  match lower, upper, ← stepWidth stepping lower upper with
  | .finite l, .finite u, .finite w =>
    if positive : w.isPositive = true then return ⟨l, u, w, positive⟩
    else .error (.signal .invalidOperation)
  | _, _, _ => .error (.signal .invalidOperation)

/-- A unit in which every point of the grid from `x` onwards is a whole number. -/
def unitFrom (grid : Grid) (x : Decimal) : Int :=
  min x.exponent (min grid.upper.exponent grid.width.exponent)

/-- The number of units between a point and the upper bound. -/
def distance (grid : Grid) (x : Decimal) : Nat :=
  (grid.upper.unitsAt (grid.unitFrom x) - x.unitsAt (grid.unitFrom x)).toNat

/-- A step below the upper bound makes the distance to it smaller. -/
theorem distance_step (grid : Grid) (x : Decimal) (below : x.lessThan grid.upper = true) :
    grid.distance (x.add grid.width) < grid.distance x := by
  have same : grid.unitFrom (x.add grid.width) = grid.unitFrom x := by
    simp only [unitFrom, Decimal.exponent_add]
    omega
  have atPoint : grid.unitFrom x ≤ x.exponent := by unfold unitFrom; omega
  have atUpper : grid.unitFrom x ≤ grid.upper.exponent := by unfold unitFrom; omega
  have atWidth : grid.unitFrom x ≤ grid.width.exponent := by unfold unitFrom; omega
  have apart := (Decimal.lessThan_iff x grid.upper atPoint atUpper).mp below
  have forward : 0 < grid.width.unitsAt (grid.unitFrom x) := by
    have positive := grid.positive
    simp only [Decimal.isPositive, Decimal.isZero, Bool.and_eq_true, Bool.not_eq_true',
      beq_eq_false_iff_ne] at positive
    rw [Decimal.unitsAt_eq, positive.1]
    have units := mt (Decimal.magnitudeAt_eq_zero (grid.unitFrom x)).mp positive.2
    simp only [Bool.false_eq_true, if_false]
    omega
  unfold distance
  rw [same, Decimal.unitsAt_add x grid.width atPoint atWidth]
  omega

/-- The points of the grid from a given one onwards, each below the upper bound. -/
def pointsFrom (grid : Grid) (x : Decimal) : List Decimal :=
  if _below : x.lessThan grid.upper = true then x :: grid.pointsFrom (x.add grid.width) else []
termination_by grid.distance x
decreasing_by exact grid.distance_step x _below

/-- The left ends of all steps. -/
def points (grid : Grid) : List Decimal := grid.pointsFrom grid.lower

end Grid

end ExactQuadrature

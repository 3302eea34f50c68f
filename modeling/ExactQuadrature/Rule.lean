import ExactQuadrature.Grid
import ExactQuadrature.Journal.Basic
import ExactQuadrature.Polynomial.Basic

/-! # Quadrature rules

Both rules sum up areas over the steps of a grid. The rectangle rule takes the value of the
function at the left end of every step; its areas are exact. The trapezoid rule takes the mean of
the values at both ends; each of its areas is rounded to the scale before it is added.

The function under integration may keep a state of its own, so that it can be observed how a rule
calls it. Applying a rule to a function between two bounds is a task, named after the rule. The
bounds and the step width are its details. -/

namespace ExactQuadrature

/-- The two ways of summing up areas. -/
inductive Rule where
  | rectangles
  | trapezoids
deriving DecidableEq, Inhabited

/-- A function from decimals to numbers that may keep a state. -/
abbrev Integrand (σ : Type) := Decimal → StateT σ (Except Fault) Number

namespace Integrand

/-- A function without a state. -/
def ofFunction (f : Decimal → Except Fault Number) : Integrand Unit := fun x => StateT.lift (f x)

/-- The identity, which notes every point it is called with, the latest first. -/
def recording : Integrand (List Decimal) := fun x => do
  modify (x :: ·)
  return .finite x

end Integrand

namespace Rule

/-- What a rule is called in reports. -/
def title : Rule → String
  | rectangles => "rectangles"
  | trapezoids => "trapezoids"

/-- The area of a rectangle. -/
def rectangleArea (width height : Number) : Except Fault Number :=
  Fault.ofSignal (height.mul width)

/-- The area of a trapezoid, rounded to the scale. -/
def trapezoidArea (scale : Int) (width left right : Number) : Except Fault Number := do
  let doubled ← Fault.ofSignal ((left.add right) >>= (·.mul width))
  divide .exact doubled (.ofInt 2) scale

variable {σ : Type}

/-- The area that a rule finds over the step that starts at a point. -/
def areaAt (rule : Rule) (scale : Int) (f : Integrand σ) (grid : Grid) (x : Decimal) :
    StateT σ (Except Fault) Number := do
  match rule with
  | rectangles =>
    let height ← f x
    rectangleArea (.finite grid.width) height
  | trapezoids =>
    let left ← f x
    let right ← f (x.add grid.width)
    trapezoidArea scale (.finite grid.width) left right

/-- The sum of the areas over all steps. -/
def sum (rule : Rule) (scale : Int) (f : Integrand σ) (grid : Grid) :
    StateT σ (Except Fault) Number :=
  grid.points.foldlM (fun total x => do
    let area ← rule.areaAt scale f grid x
    Fault.ofSignal (total.add area)) Number.zero

end Rule

/-! ### Integrals as recorded work -/

/-- Apply a rule to a function between two offered bounds. The function starts from the given
state, and its last state is part of the result. -/
def integrate {σ : Type} (rule : Rule) (stepping : Stepping) (f : Integrand σ) (initial : σ)
    (lower upper : Operand) : Work (Number × σ) := do
  let lower ← Work.ofExcept (lower.toNumber "lower bound")
  let upper ← Work.ofExcept (upper.toNumber "upper bound")
  let grid ← Work.ofExcept (Grid.make stepping lower upper)
  let details :=
    [("lower", lower.scientific), ("upper", upper.scientific),
      ("dx", (Number.finite grid.width).scientific)]
  let places ← Work.ofExcept stepping.places
  Work.within rule.title details (Work.ofExcept ((rule.sum places f grid).run initial))

namespace Polynomial

/-- A polynomial as a function under integration. -/
def integrand (p : Polynomial) : Integrand Unit := .ofFunction fun x => p.evaluate (.finite x)

/-- The integral of a polynomial by a rule. -/
def integrate (p : Polynomial) (rule : Rule) (stepping : Stepping) (lower upper : Operand) :
    Work Number := do
  let (total, _) ← ExactQuadrature.integrate rule stepping p.integrand () lower upper
  return total

end Polynomial

/-- The total of a rule for the identity, and the points at which it asked for a value, in
order. -/
def sample (rule : Rule) (stepping : Stepping) (lower upper : Operand) :
    Work (Number × List Decimal) := do
  let (total, points) ← integrate rule stepping .recording [] lower upper
  return (total, points.reverse)

end ExactQuadrature

import ExactQuadrature.Reading
import ExactQuadrature.Rule

/-! # Calculations

The first line of an input gives the bounds and every later line a polynomial. All lines are read
before anything is integrated, so a malformed input yields no output at all. The output repeats
the bounds and then gives both integrals of every polynomial, line by line; a fault during
integration leaves the lines before it in place. -/

namespace ExactQuadrature

namespace Calculation

/-- The lines yielded, and the fault that ended the calculation early, if there was one. -/
structure Yield where
  lines : List String
  fault : Option Fault
deriving DecidableEq, Inhabited

/-- The line that repeats the bounds. -/
def boundsLine (bounds : Bounds) : String :=
  "bounds: " ++ (Number.finite bounds.lower).plain ++ ", " ++ (Number.finite bounds.upper).plain

/-- The line with the integrals of one polynomial. -/
def resultLine (stepping : Stepping) (bounds : Bounds) (p : Polynomial) : Work String := do
  let written ← Work.ofExcept p.text
  Work.within "integrating" [("polynomial", written)] do
    let lower := Operand.number (.finite bounds.lower)
    let upper := Operand.number (.finite bounds.upper)
    let rectangles ← p.integrate .rectangles stepping lower upper
    let trapezoids ← p.integrate .trapezoids stepping lower upper
    return "integrated using rectangles: " ++ rectangles.scientific ++
      ", integrated using trapezoids: " ++ trapezoids.scientific

/-- The bounds and the polynomials of an input. -/
def readInput (format : PolynomialFormat) : List String → Work (Bounds × List Polynomial)
  | [] => throw (.refused .emptyInput)
  | first :: rest => do
    let bounds ← Work.ofExcept (Bounds.read first)
    let polynomials ← Work.within "parsing" [("lines", toString rest.length)]
      (rest.mapM format.read)
    return (bounds, polynomials)

/-- The result lines of polynomials, up to the first fault. -/
def resultLines (stepping : Stepping) (bounds : Bounds) : List Polynomial → StateM Journal Yield
  | [] => return ⟨[], none⟩
  | p :: rest => do
    match ← (resultLine stepping bounds p).run with
    | .error fault => return ⟨[], some fault⟩
    | .ok line =>
      let later ← resultLines stepping bounds rest
      return ⟨line :: later.lines, later.fault⟩

/-- All output lines of an input. -/
def run (stepping : Stepping) (format : PolynomialFormat) (lines : List String) :
    StateM Journal Yield := do
  match ← (readInput format lines).run with
  | .error fault => return ⟨[], some fault⟩
  | .ok (bounds, polynomials) =>
    let results ← resultLines stepping bounds polynomials
    return ⟨boundsLine bounds :: results.lines, results.fault⟩

end Calculation

end ExactQuadrature

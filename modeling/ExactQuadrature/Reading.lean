import ExactQuadrature.Expression.Grammar
import ExactQuadrature.Journal.Basic
import ExactQuadrature.Polynomial.Rendering

/-! # Reading the lines of an input

A bounds line holds two signed numerals separated by a comma, with blanks allowed on both sides of
each. The first must be less than the second in value.

A polynomial may be given as a line of signed numerals separated by commas, lowest power first.
Blanks may surround the commas, but not the line. Every numeral keeps its sign, also that of a
negative zero, its digits and its scale. Or it is given as an expression. Every polynomial that is
read is noted as an event, with the text it was read from and its written form. -/

namespace ExactQuadrature

/-! ### Bounds of integration -/

/-- The ends of an interval that is not empty. -/
structure Bounds where
  lower : Decimal
  upper : Decimal
  increasing : lower.lessThan upper = true
deriving DecidableEq

namespace Bounds

/-- The two decimals of a bounds line, in any order of value. -/
def decimals? (cs : List Char) : Option (Decimal × Decimal) := do
  let (lower, rest) ← Numeral.scanSigned? (cs.dropWhile Text.isBlank)
  match rest.dropWhile Text.isBlank with
  | ',' :: more =>
    let (upper, rest) ← Numeral.scanSigned? (more.dropWhile Text.isBlank)
    if rest.all Text.isBlank then some (lower, upper) else none
  | _ => none

/-- The bounds that a line gives. -/
def read (text : String) : Except Fault Bounds :=
  match decimals? text.toList with
  | none => Fault.refuse (.notBounds text)
  | some (lower, upper) =>
    if increasing : lower.lessThan upper = true then .ok ⟨lower, upper, increasing⟩
    else Fault.refuse (.boundsReversed (.finite lower) (.finite upper))

end Bounds

/-! ### Lines of coefficients -/

namespace CoefficientLine

/-- The decimals of a line of separated numerals. -/
def decimals? (cs : List Char) : Option (List Decimal) :=
  match _scanned : Numeral.scanSigned? cs with
  | none => none
  | some (d, []) => some [d]
  | some (d, next :: rest) =>
    match _separator : (next :: rest).dropWhile Text.isBlank with
    | ',' :: more => (decimals? (more.dropWhile Text.isBlank)).map (d :: ·)
    | _ => none
termination_by cs.length
decreasing_by
  have shorter := Numeral.scanSigned?_length _scanned
  have first := (List.dropWhile_suffix Text.isBlank (l := next :: rest)).length_le
  have second := (List.dropWhile_suffix Text.isBlank (l := more)).length_le
  rw [_separator] at first
  simp only [List.length_cons] at *
  omega

/-- The polynomial that a line of coefficients stands for. -/
def read (text : String) : Except Fault Polynomial :=
  match decimals? text.toList with
  | some decimals => Polynomial.ofList (decimals.map .finite)
  | none => Fault.refuse (.notCoefficients text)

end CoefficientLine

/-! ### Polynomials as recorded work -/

/-- The two ways of writing polynomials in an input. -/
inductive PolynomialFormat where
  | coefficients
  | expression
deriving DecidableEq, Inhabited

namespace PolynomialFormat

/-- What texts of a format are called in reports. -/
def title : PolynomialFormat → String
  | coefficients => "coefficients"
  | expression => "expression"

/-- The kind of input line that holds a format. -/
def line : PolynomialFormat → InputLine
  | coefficients => .coefficients
  | expression => .expression

/-- The polynomial that a text of a format stands for. -/
def parse : PolynomialFormat → String → Except Fault Polynomial
  | coefficients => CoefficientLine.read
  | expression => Expression.read

/-- Read a polynomial and note it. -/
def read (format : PolynomialFormat) (text : String) : Work Polynomial := do
  let polynomial ← Work.ofExcept (format.parse text)
  let written ← Work.ofExcept polynomial.text
  Work.event ("parsed " ++ format.title ++ " " ++ Text.quoted text ++ " as " ++ written)
  return polynomial

/-- Read a polynomial from a line that may be missing. -/
def readLine (format : PolynomialFormat) : Option String → Work Polynomial
  | some text => format.read text
  | none => throw (.refused (.missingLine format.line))

end PolynomialFormat

/-- The bounds on a line that may be missing. -/
def Bounds.readLine : Option String → Except Fault Bounds
  | some text => Bounds.read text
  | none => Fault.refuse (.missingLine .bounds)

end ExactQuadrature

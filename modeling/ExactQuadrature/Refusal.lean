import ExactQuadrature.Decimal.Notation
import ExactQuadrature.Settings.Value

/-! # Refused arguments

Every value, text or request that the library cannot accept is refused for a stated reason. A
reason keeps what was refused; its wording is decided in one place, `Refusal.message`. -/

namespace ExactQuadrature

/-- The largest exponent an expression may mention. -/
def largestExponent : Nat := 2147483647

/-- What is wrong with the text of an expression. Positions count characters from zero. -/
inductive Misreading where
  | illegalCharacter (character : Char) (position : Nat)
  | unexpectedToken (text : String) (position : Nat)
  | unexpectedEnd
  | fractionalExponent (text : String) (position : Nat)
  | oversizedExponent (text : String) (position : Nat)
deriving DecidableEq, Inhabited

namespace Misreading

/-- The wording of a misreading. -/
def message : Misreading → String
  | illegalCharacter character position =>
    "Illegal character " ++ Text.quoted character.toString ++ " at position " ++ toString position
  | unexpectedToken text position =>
    "Unexpected " ++ Text.quoted text ++ " at position " ++ toString position
  | unexpectedEnd => "Unexpected end of expression"
  | fractionalExponent text position =>
    "Exponent " ++ text ++ " at position " ++ toString position ++ " is not an integer"
  | oversizedExponent text position =>
    "Exponent " ++ text ++ " at position " ++ toString position ++ " is larger than " ++
      toString largestExponent

end Misreading

/-- The kinds of input line that must not be missing. -/
inductive InputLine where
  | expression
  | coefficients
  | bounds
deriving DecidableEq, Inhabited

namespace InputLine

/-- What an input line is called when it is missing. -/
def title : InputLine → String
  | expression => "Expression"
  | coefficients => "CSV line"
  | bounds => "Bounds line"

end InputLine

/-- The reasons for which an argument is refused. -/
inductive Refusal where
  | notExact (role shown : String)
  | notDecimal (role shown : String)
  | notFinite (role shown : String)
  | notNumeric (role kind : String)
  | divisionByZero (dividend : Number)
  | missingCoefficients
  | noCoefficient
  | negativeExponent (exponent : Int)
  | absentDegree (asked : Int) (degree : Nat)
  | boundsNotIncreasing (lower upper : Number)
  | subdivisionsNotPositive (count : SettingValue)
  | intervalTooNarrow (lower upper : Number) (count scale : SettingValue)
  | misread (fault : Misreading)
  | notAnExpression (text : String) (fault : Misreading)
  | notCoefficients (text : String)
  | notBounds (text : String)
  | boundsReversed (lower upper : Number)
  | missingLine (line : InputLine)
  | emptyInput
deriving DecidableEq, Inhabited

namespace Refusal

/-- The wording of a refusal. -/
def message : Refusal → String
  | notExact role shown => role ++ " must be an exact decimal, not " ++ shown
  | notDecimal role shown => role ++ " " ++ shown ++ " is not a decimal number"
  | notFinite role shown => role ++ " must be finite, not " ++ shown
  | notNumeric role kind => role ++ " must be a decimal number, not " ++ kind
  | divisionByZero dividend => "Cannot divide " ++ dividend.scientific ++ " by zero"
  | missingCoefficients => "Coefficients cannot be None"
  | noCoefficient => "A polynomial needs at least one coefficient"
  | negativeExponent exponent => "Exponent must be non-negative, got " ++ toString exponent
  | absentDegree asked degree =>
    "Cannot access coefficient of degree " ++ toString asked ++ " in a polynomial of degree " ++
      toString degree
  | boundsNotIncreasing lower upper =>
    "Lower bound " ++ lower.scientific ++ " must be less than upper bound " ++ upper.scientific
  | subdivisionsNotPositive count => "Subdivision count must be positive, got " ++ count.shown
  | intervalTooNarrow lower upper count scale =>
    "Interval [" ++ lower.scientific ++ ", " ++ upper.scientific ++ "] is too narrow for " ++
      count.shown ++ " steps at scale " ++ scale.shown
  | misread fault => fault.message
  | notAnExpression text fault =>
    Text.quoted text ++ " is not a polynomial expression: " ++ fault.message
  | notCoefficients text => Text.quoted text ++ " is not a line of comma-separated numbers"
  | notBounds text => "Unable to find valid bounds in " ++ Text.quoted text
  | boundsReversed lower upper =>
    "Lower bound " ++ lower.scientific ++ " should be less than upper bound " ++ upper.scientific
  | missingLine line => line.title ++ " cannot be None"
  | emptyInput => "Input is empty; expected a bounds line"

end Refusal

end ExactQuadrature

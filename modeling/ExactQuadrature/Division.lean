import ExactQuadrature.Decimal.Rounding
import ExactQuadrature.Fault

/-! # Division to a fixed scale

Division is the only operation that rounds. It first forms the leading digits of the quotient, to at
least two places past the scale, and cuts off the rest; these digits are then rounded, half away
from zero, to a whole multiple of `10 ^ (-scale)`. The result is never a negative zero. A scale so
negative that no digit of the quotient would be looked at is refused, as are one beyond the digits
that arithmetic provides for and a result beyond the widest range. -/

namespace ExactQuadrature

namespace Division

/-- The number of leading digits of the quotient that are formed to decide the result. -/
def digitsNeeded (dividend divisor : Number) (scale : Int) : Int :=
  max (dividend.adjusted - divisor.adjusted) 0 + scale + 3

/-- Whether a number of digits can be provided. Counts beyond a machine word, which go from
`-2 ^ 63` to `2 ^ 63 - 1`, are not even asked for. -/
def checkDigits (digits : Int) : Except Fault Unit :=
  if digits < -9223372036854775808 ∨ 9223372036854775807 < digits then .error .precisionUnbounded
  else if digits < 1 ∨ (Range.exact.precision : Int) < digits then .error .precisionOutOfRange
  else .ok ()

/-- The scale of the unit `10 ^ (-scale)` in a range. A unit finer than the finest of the range
gives way to that one. -/
def unitScale (range : Range) (scale : Int) : Except Signal Int :=
  if 2 * (range.maxExponent + range.precision) < scale.natAbs then .error .invalidOperation
  else if range.maxExponent < -scale then .error range.beyond
  else .ok (min scale (-range.tiny))

/-- A quiet not-a-number keeps as many low digits of its payload as the quotient has digits. -/
def shortenPayload (digits : Int) : Number → Number
  | .notANumber negative signaling payload =>
    .notANumber negative signaling <|
      if (digitCount payload : Int) ≤ digits then payload else payload % tenPow digits.toNat
  | other => other

/-- A decimal rounded to a scale, if that lies in the widest range. -/
def quantize (d : Decimal) (scale : Int) : Except Signal Number :=
  let result := d.toScale scale
  if Range.exact.Contains result then .ok (.finite result) else .error .invalidOperation

/-- The quotient by a divisor that is not zero, cut off behind a number of digits and then rounded.
Infinities and not-a-numbers have no rounded quotients, except that a finite number over an infinity
is zero and a quiet not-a-number passes through. -/
def rounded (dividend divisor : Number) (digits scale : Int) (range : Range) :
    Except Signal Number :=
  match dividend, divisor with
  | .finite a, .finite b => do
    let unit ← unitScale range scale
    quantize (a.leadingQuotient b digits.toNat) unit
  | .infinite _, .infinite _ => .error .invalidOperation
  | .finite _, .infinite _ => do return .finite ⟨false, 0, -(← unitScale range scale)⟩
  | .infinite _, .finite _ => do
    let _ ← unitScale range scale
    .error .invalidOperation
  | _, _ => do
    let result ← Number.propagate dividend divisor
    let _ ← unitScale range scale
    return shortenPayload digits result

end Division

/-- The quotient of two numbers, rounded once to `scale` fractional digits. The range is that in
which the unit of the result has to exist. -/
def divide (range : Range) (dividend divisor : Number) (scale : Int) : Except Fault Number :=
  if divisor.isZero then Fault.refuse (.divisionByZero dividend)
  else do
    let digits := Division.digitsNeeded dividend divisor scale
    Division.checkDigits digits
    Fault.ofSignal (Division.rounded dividend divisor digits scale range)

end ExactQuadrature

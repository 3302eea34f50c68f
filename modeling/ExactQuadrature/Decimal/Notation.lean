import ExactQuadrature.Decimal.Number

/-! # Written forms of numbers

A number has two written forms. The scientific form shows sign, coefficient and exponent, so that
reading it gives the same decimal again; it uses an exponent mark only where positional notation
would hide the coefficient or run to more than five leading zeros. The plain form is positional
whatever the exponent, and leaves the sign of a zero out. -/

namespace ExactQuadrature

namespace Decimal

/-- Digits with a point before the last `places` of them, and a zero before a leading point. -/
def positional (digits : List Char) (places : Nat) : List Char :=
  let padded := List.replicate (places + 1 - digits.length) '0' ++ digits
  let whole := padded.take (padded.length - places)
  if places = 0 then whole else whole ++ '.' :: padded.drop (padded.length - places)

/-- One digit before the point, if there are more digits, and the exponent with its sign. -/
def exponential (digits : List Char) (exponent : Int) : List Char :=
  let mantissa := match digits with
    | first :: second :: rest => first :: '.' :: second :: rest
    | _ => digits
  mantissa ++ 'E' :: (if exponent < 0 then '-' else '+') :: Nat.toDigits 10 exponent.natAbs

/-- The sign of a written number. -/
def signText (negative : Bool) : List Char := if negative then ['-'] else []

/-- The characters of the scientific form. -/
def scientificChars (d : Decimal) : List Char :=
  let digits := Nat.toDigits 10 d.coefficient
  signText d.negative ++
    if d.exponent ≤ 0 ∧ -6 ≤ d.adjusted then positional digits (-d.exponent).toNat
    else exponential digits d.adjusted

/-- The characters of the plain form. -/
def plainChars (d : Decimal) : List Char :=
  let digits := Nat.toDigits 10 d.coefficient
  signText (d.negative && !d.isZero) ++
    if 0 < d.exponent ∧ !d.isZero then digits ++ List.replicate d.exponent.toNat '0'
    else positional digits (-d.exponent).toNat

end Decimal

namespace Number

/-- The words for numbers without digits. -/
def wordChars : Number → List Char
  | .infinite negative => Decimal.signText negative ++ "Infinity".toList
  | .notANumber negative signaling payload =>
    Decimal.signText negative ++ (if signaling then "sNaN" else "NaN").toList ++
      if payload = 0 then [] else Nat.toDigits 10 payload
  | .finite _ => []

/-- The characters of the scientific form. -/
def scientificChars : Number → List Char
  | .finite d => d.scientificChars
  | other => other.wordChars

/-- The characters of the plain form. -/
def plainChars : Number → List Char
  | .finite d => d.plainChars
  | other => other.wordChars

/-- The scientific form, which keeps sign, coefficient and exponent. -/
def scientific (n : Number) : String := String.ofList n.scientificChars

/-- The plain form: positional, and without a sign on zero. -/
def plain (n : Number) : String := String.ofList n.plainChars

end Number

end ExactQuadrature

import ExactQuadrature.Decimal.Notation

/-! # Binary floating-point numbers in decimal

A finite double is a whole number times a power of two, so its decimal digits are a matter of
exact rational arithmetic. Two choices of digits are offered: a fixed number of significant
digits, nearest to the value with ties to the even digit, and the fewest digits that read back to
the same double.

A double is written positionally, with at least one digit after the point, as long as its leading
digit is neither too small nor too large; otherwise it is written with an exponent of at least two
digits and no needless point. The natural form uses the fewest digits that read back and stays
positional below `10 ^ 16`; the brief form has three significant digits and stays positional below
`100`. -/

namespace ExactQuadrature

/-- The magnitude `significand · 2 ^ exponent` of a finite double. -/
structure Binary64 where
  significand : Nat
  exponent : Int
deriving DecidableEq, Inhabited

namespace Binary64

/-- The leading bit of a normal significand, `2 ^ 52`; the fifty-two bits below it are stored. -/
def hiddenBit : Nat := 1 <<< 52

/-- The magnitude that the bits of a finite double describe. -/
def ofFloat (x : Float) : Binary64 :=
  let bits := x.toBits.toNat
  let fraction : Nat := bits % hiddenBit
  let field : Nat := bits / hiddenBit % 2048
  if field = 0 then ⟨fraction, -1074⟩ else ⟨hiddenBit + fraction, (field : Int) - 1075⟩

/-- The rational number that a magnitude is. -/
def value (m : Binary64) : Rat := m.significand * (2 : Rat) ^ m.exponent

/-- The point halfway to the next larger double. -/
def upperEnd (m : Binary64) : Rat := (2 * m.significand + 1 : Nat) * (2 : Rat) ^ (m.exponent - 1)

/-- The point halfway to the next smaller double, which is nearer below a power of two. -/
def lowerEnd (m : Binary64) : Rat :=
  if m.significand = hiddenBit ∧ -1074 < m.exponent then
    (4 * m.significand - 1 : Nat) * (2 : Rat) ^ (m.exponent - 2)
  else (2 * m.significand - 1 : Nat) * (2 : Rat) ^ (m.exponent - 1)

/-- Whether a rational number is read as this double. Halfway points go to the even one. -/
def readsBack (m : Binary64) (r : Rat) : Bool :=
  if m.significand % 2 = 0 then m.lowerEnd ≤ r && r ≤ m.upperEnd
  else m.lowerEnd < r && r < m.upperEnd

end Binary64

/-- The power of ten of the leading digit of a positive rational number. -/
def leadingExponent (r : Rat) : Int :=
  let guess := (digitCount r.num.natAbs : Int) - digitCount r.den
  if (10 : Rat) ^ guess ≤ r then guess else guess - 1

/-- The whole number nearest to a rational number; a half goes to the even one. -/
def roundHalfEven (r : Rat) : Int :=
  let below := r.floor
  let rest := r - below
  if rest < 1 / 2 ∨ (rest = 1 / 2 ∧ below % 2 = 0) then below else below + 1

/-- The decimal of `digits` significant digits nearest to a positive rational number. -/
def roundSignificant (digits : Nat) (r : Rat) : Decimal :=
  let unit := leadingExponent r + 1 - digits
  ⟨false, (roundHalfEven (r / (10 : Rat) ^ unit)).toNat, unit⟩

namespace Binary64

/-- A decimal of `digits` significant digits that reads back, the nearest one if it does. -/
def withDigits? (m : Binary64) (digits : Nat) : Option Decimal :=
  let unit := leadingExponent m.value + 1 - digits
  let below := (m.value / (10 : Rat) ^ unit).floor.toNat
  [roundSignificant digits m.value, ⟨false, below, unit⟩, ⟨false, below + 1, unit⟩].find?
    fun d => m.readsBack d.value

/-- The shortest decimal that reads back. Seventeen digits are always enough. -/
def shortest (m : Binary64) : Decimal :=
  ((List.range 17).findSome? fun k => m.withDigits? (k + 1)).getD (roundSignificant 17 m.value)

/-! ### Written forms -/

/-- The digits of a decimal without the zeros at its end. -/
def significantDigits (d : Decimal) : List Char :=
  ((Nat.toDigits 10 d.coefficient).reverse.dropWhile (· == '0')).reverse

/-- Digits with a point after the first, if more follow. -/
def pointed : List Char → List Char
  | first :: second :: rest => first :: '.' :: second :: rest
  | digits => digits

/-- An exponent with its sign and at least two digits. -/
def exponentText (exponent : Int) : List Char :=
  let digits := Nat.toDigits 10 exponent.natAbs
  (if exponent < 0 then '-' else '+') :: List.replicate (2 - digits.length) '0' ++ digits

/-- Digits whose first stands at the power of ten `leading`, with a digit after the point. -/
def positional (digits : List Char) (leading : Int) : List Char :=
  if leading < 0 then
    '0' :: '.' :: List.replicate (-leading - 1).toNat '0' ++ digits
  else
    let places := leading.toNat + 1
    let padded := digits ++ List.replicate (places + 1 - digits.length) '0'
    padded.take places ++ '.' :: padded.drop places

/-- A positive decimal, positional while its leading digit lies between `10 ^ (-4)` and the
bound. -/
def layout (positionalBelow : Int) (d : Decimal) : List Char :=
  let digits := significantDigits d
  let leading := d.adjusted
  if -4 ≤ leading ∧ leading < positionalBelow then positional digits leading
  else pointed digits ++ 'e' :: exponentText leading

/-- The text of a double, given that of a positive finite one. -/
def signedText (x : Float) (positive : Binary64 → List Char) : String :=
  if x.isNaN then "nan"
  else
    let sign := if x.toBits.toNat < 1 <<< 63 then [] else ['-']
    let magnitude := ofFloat x
    String.ofList <| sign ++
      if x.isInf then ['i', 'n', 'f']
      else if magnitude.significand = 0 then ['0', '.', '0']
      else positive magnitude

/-- The natural form of a double. -/
def naturalText (x : Float) : String := signedText x fun m => layout 16 m.shortest

/-- The brief form of a double. -/
def briefText (x : Float) : String :=
  signedText x fun m => layout 2 (roundSignificant 3 m.value)

end Binary64

end ExactQuadrature

import ExactQuadrature.Decimal.Arithmetic
import ExactQuadrature.Decimal.Range

/-! # Numbers of exact arithmetic

A number is a finite decimal, an infinity, or a not-a-number. Sums and products of finite
decimals are exact: a result that does not fit the widest range is refused, never rounded.
A quiet not-a-number passes through an operation unchanged, the left operand first; a signaling
one, the difference of equal infinities and the product of zero and infinity are invalid. -/

namespace ExactQuadrature

/-- A decimal, an infinity, or a not-a-number with a whole number as its payload. -/
inductive Number where
  | finite (decimal : Decimal)
  | infinite (negative : Bool)
  | notANumber (negative signaling : Bool) (payload : Nat)
deriving DecidableEq, Inhabited

namespace Number

/-- The number `0`. -/
def zero : Number := .finite .zero

/-- A whole number. -/
def ofInt (n : Int) : Number := .finite (.ofInt n)

/-- Only finite decimals can be zero. -/
def isZero : Number → Bool
  | .finite d => d.isZero
  | _ => false

/-- Neither infinite nor a not-a-number. -/
def isFinite : Number → Bool
  | .finite _ => true
  | _ => false

/-- A not-a-number that makes every operation on it invalid. -/
def isSignaling : Number → Bool
  | .notANumber _ signaling _ => signaling
  | _ => false

/-- A not-a-number of either kind. -/
def isNotANumber : Number → Bool
  | .notANumber .. => true
  | _ => false

/-- The power of ten of the leading digit; zero for anything that has no digits. -/
def adjusted : Number → Int
  | .finite d => d.adjusted
  | _ => 0

/-- The number with the other sign. A not-a-number has no opposite. -/
def opposite : Number → Number
  | .finite d => .finite d.negate
  | .infinite negative => .infinite !negative
  | other => other

/-- The exact result of an operation on finite decimals, if it lies in the widest range. -/
def settle (d : Decimal) : Except Signal Number := (Range.exact.fit d).map .finite

/-- The outcome of an operation with a not-a-number among its operands. -/
def propagate (a b : Number) : Except Signal Number :=
  if a.isSignaling || b.isSignaling then .error .invalidOperation
  else .ok (if a.isNotANumber then a else b)

/-- The exact sum. -/
def add (a b : Number) : Except Signal Number :=
  match a, b with
  | .finite x, .finite y => settle (x.add y)
  | .infinite s, .infinite t => if s = t then .ok a else .error .invalidOperation
  | .infinite _, .finite _ => .ok a
  | .finite _, .infinite _ => .ok b
  | _, _ => propagate a b

/-- The exact difference. -/
def sub (a b : Number) : Except Signal Number := add a b.opposite

/-- The exact product. -/
def mul (a b : Number) : Except Signal Number :=
  match a, b with
  | .finite x, .finite y => settle (x.mul y)
  | .infinite s, .infinite t => .ok (.infinite (s != t))
  | .infinite s, .finite y =>
    if y.isZero then .error .invalidOperation else .ok (.infinite (s != y.negative))
  | .finite x, .infinite t =>
    if x.isZero then .error .invalidOperation else .ok (.infinite (x.negative != t))
  | _, _ => propagate a b

/-- The order of two numbers. A not-a-number of either kind has no place in it. -/
def order (a b : Number) : Except Signal Ordering :=
  match a, b with
  | .finite x, .finite y => .ok (x.order y)
  | .infinite s, .infinite t =>
    .ok (if s = t then .eq else if s then .lt else .gt)
  | .infinite s, .finite _ => .ok (if s then .lt else .gt)
  | .finite _, .infinite t => .ok (if t then .gt else .lt)
  | _, _ => .error .invalidOperation

/-- The strict order of two numbers. -/
def lessThan (a b : Number) : Except Signal Bool := (order a b).map (· == .lt)

/-- Equality of values. A quiet not-a-number equals nothing; a signaling one cannot be asked. -/
def sameValue (a b : Number) : Except Signal Bool :=
  if a.isSignaling || b.isSignaling then .error .invalidOperation
  else match order a b with
    | .ok ordering => .ok (ordering == .eq)
    | .error _ => .ok false

/-- The exact sum of finite decimals inside the widest range. -/
theorem add_finite {x y : Decimal} (inside : Range.exact.Contains (x.add y)) :
    add (.finite x) (.finite y) = .ok (.finite (x.add y)) := by
  show settle (x.add y) = _
  unfold settle
  rw [Range.fit_of_contains inside]
  rfl

/-- The exact product of finite decimals inside the widest range. -/
theorem mul_finite {x y : Decimal} (inside : Range.exact.Contains (x.mul y)) :
    mul (.finite x) (.finite y) = .ok (.finite (x.mul y)) := by
  show settle (x.mul y) = _
  unfold settle
  rw [Range.fit_of_contains inside]
  rfl

end Number

end ExactQuadrature

import ExactQuadrature.Polynomial.Basic

/-! # Written polynomials

A polynomial is written with its highest power first. Terms with a zero coefficient are left out,
a coefficient of one is left out before the variable, and a polynomial without any other term is
written `0`. Coefficients are in plain form, so a written polynomial can be read as an expression.

A not-a-number has no sign to write after another term, and a signaling one cannot be compared
with one; such polynomials have no written form. -/

namespace ExactQuadrature

namespace Polynomial

/-- The variable to a positive power. -/
def powerChars (power : Nat) : List Char :=
  if 1 < power then 'x' :: '^' :: Nat.toDigits 10 power else ['x']

/-- A coefficient before the variable. -/
def factorChars (c : Number) : Except Signal (List Char) := do
  if ← c.sameValue (.ofInt (-1)) then return ['-']
  if ← c.sameValue (.ofInt 1) then return []
  return c.plainChars

/-- The sign that joins a positive term to the terms before it. A term below zero brings its own
sign along. -/
def joinChars (started : Bool) (c : Number) : Except Signal (List Char) := do
  if started then return if ← Number.zero.lessThan c then ['+'] else []
  else return []

/-- One term, given whether any term is written before it. -/
def termChars (started : Bool) (c : Number) (power : Nat) : Except Signal (List Char) := do
  if c.isZero then return []
  let join ← joinChars started c
  if power = 0 then return join ++ c.plainChars
  return join ++ (← factorChars c) ++ powerChars power

/-- The terms of coefficients with their powers, given whether any term is written before them. -/
def termsChars (started : Bool) : List (Number × Nat) → Except Signal (List Char)
  | [] => return []
  | (c, power) :: lower => do
    let term ← termChars started c power
    return term ++ (← termsChars (started || !term.isEmpty) lower)

/-- The written polynomial. -/
def chars (p : Polynomial) : Except Signal (List Char) := do
  let terms ← termsChars false p.coefficients.zipIdx.reverse
  return if terms.isEmpty then ['0'] else terms

/-- The written polynomial as a text. -/
def text (p : Polynomial) : Except Fault String :=
  (Fault.ofSignal p.chars).map String.ofList

/-- A description that shows every coefficient in scientific form. -/
def description (p : Polynomial) : String :=
  let shown := p.coefficients.map fun c => "Decimal('" ++ c.scientific ++ "')"
  match shown with
  | [only] => "Polynomial((" ++ only ++ ",))"
  | _ => "Polynomial((" ++ ", ".intercalate shown ++ "))"

end Polynomial

end ExactQuadrature

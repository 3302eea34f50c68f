import ExactQuadrature.Expression.Token
import ExactQuadrature.Polynomial.Basic

/-! # Grammar of expressions

An expression is a sum of terms. The first term may have a sign and every later one must have
one. A term is a numeral, a power of the unknown, or a numeral followed by a power with or without
a multiplication sign between them; a power is the unknown, with or without a caret and a numeral.

The tokens of an expression follow each other as the places below allow, so it is known at every
token whether the text so far can be continued to an expression.

An expression stands for the sum of its terms, added one after the other to the zero polynomial.
The polynomial therefore reaches up to the largest power mentioned, even by a term that is zero or
that cancels with another one. -/

namespace ExactQuadrature

/-- What the tokens read so far end in. -/
inductive Place where
  | start
  | sign
  | coefficient
  | times
  | unknown
  | caret
  | exponent
deriving DecidableEq, Inhabited

namespace Place

/-- The place after one more symbol, where the grammar allows it. -/
def next? : Place → Symbol → Option Place
  | start, .plus => some sign
  | start, .minus => some sign
  | start, .number _ => some coefficient
  | start, .unknown => some unknown
  | sign, .number _ => some coefficient
  | sign, .unknown => some unknown
  | coefficient, .unknown => some unknown
  | coefficient, .times => some times
  | coefficient, .plus => some sign
  | coefficient, .minus => some sign
  | times, .unknown => some unknown
  | unknown, .caret => some caret
  | unknown, .plus => some sign
  | unknown, .minus => some sign
  | caret, .number _ => some exponent
  | exponent, .plus => some sign
  | exponent, .minus => some sign
  | _, _ => none

/-- Whether the expression may end here, which is where a term is complete. -/
def isComplete : Place → Bool
  | coefficient => true
  | unknown => true
  | exponent => true
  | _ => false

end Place

/-- The value of a term: its signed coefficient and its power of the unknown. -/
structure Term where
  coefficient : Decimal
  exponent : Nat
deriving DecidableEq, Inhabited

/-- A term as far as it has been read. The exponent keeps its position for reports about it. -/
structure Draft where
  negative : Bool
  coefficient : Option Numeral
  hasUnknown : Bool
  exponent : Option (Numeral × Nat)
deriving DecidableEq, Inhabited

namespace Draft

/-- A term of which nothing but the sign has been read. -/
def signed (negative : Bool) : Draft := ⟨negative, none, false, none⟩

/-- Take in the next token of the same term. -/
def extend (draft : Draft) (token : Token) : Draft :=
  match token.symbol with
  | .number numeral =>
    if draft.hasUnknown then { draft with exponent := some (numeral, token.position) }
    else { draft with coefficient := some numeral }
  | .unknown => { draft with hasUnknown := true }
  | _ => draft

/-- The exponent that a numeral stands for, if it is whole and not too large. -/
def exponentOf (numeral : Numeral) (position : Nat) : Except Misreading Nat :=
  if numeral.fraction ≠ [] then
    .error (.fractionalExponent (String.ofList numeral.chars) position)
  else if largestExponent < numeral.digits then
    .error (.oversizedExponent (String.ofList numeral.chars) position)
  else .ok numeral.digits

/-- The value of a complete term. A missing coefficient is one, a missing exponent of the unknown
is one, and a term without the unknown has exponent zero. -/
def term (draft : Draft) : Except Misreading Term := do
  let magnitude := match draft.coefficient with
    | some numeral => numeral.toDecimal false
    | none => Decimal.one
  let exponent ← match draft.exponent with
    | some (numeral, position) => exponentOf numeral position
    | none => pure (if draft.hasUnknown then 1 else 0)
  return ⟨if draft.negative then magnitude.negate else magnitude, exponent⟩

end Draft

namespace Expression

/-- The terms that remaining tokens make up, given the place they follow and the term begun
there. The value of a term is settled when a sign or the end of the text follows it. -/
def termsAfter (place : Place) (draft : Draft) (fault : Option Misreading) :
    List Token → Except Misreading (List Term)
  | [] =>
    match fault with
    | some misreading => .error misreading
    | none => if place.isComplete then return [← draft.term] else .error .unexpectedEnd
  | token :: rest =>
    match place.next? token.symbol with
    | none => .error (.unexpectedToken token.text token.position)
    | some next =>
      if place.isComplete && next == .sign then do
        let term ← draft.term
        let terms ← termsAfter next (Draft.signed (token.symbol == .minus)) fault rest
        return term :: terms
      else if next == .sign then
        termsAfter next (Draft.signed (token.symbol == .minus)) fault rest
      else termsAfter next (draft.extend token) fault rest

/-- The terms of an expression. -/
def terms (text : String) : Except Misreading (List Term) :=
  let scan := Scan.ofText text
  termsAfter .start (Draft.signed false) scan.fault scan.tokens

end Expression

/-! ### The polynomial of an expression -/

namespace Term

/-- A term as a polynomial. -/
def toPolynomial (term : Term) : Polynomial :=
  Polynomial.monomial (.finite term.coefficient) term.exponent

end Term

namespace Expression

/-- The sum of terms. -/
def sum (terms : List Term) : Except Fault Polynomial :=
  terms.foldlM (fun total term => total.add term.toPolynomial) Polynomial.zero

/-- The polynomial that an expression stands for. -/
def read (text : String) : Except Fault Polynomial :=
  match terms text with
  | .ok terms => sum terms
  | .error misreading => Fault.refuse (.notAnExpression text misreading)

end Expression

end ExactQuadrature

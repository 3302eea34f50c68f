import ExactQuadrature.Polynomial.Basic

/-! # Agreement of polynomials

Two polynomials agree when they have equally many coefficients and these agree in value and in
exponent, place by place. The sign of a zero does not matter. A not-a-number agrees with itself
and with nothing else, so it matters whether two polynomials were made with the same numbers:
a polynomial and its trimmed form share theirs. -/

namespace ExactQuadrature

/-- A polynomial together with the occasion on which its coefficients were made. -/
structure MadePolynomial where
  polynomial : Polynomial
  occasion : Nat
deriving DecidableEq, Inhabited

namespace Number

/-- Agreement in exponent. Numbers that are not finite have none to disagree about. -/
def sameExponent : Number → Number → Bool
  | .finite x, .finite y => x.exponent == y.exponent
  | _, _ => true

/-- Agreement in value and exponent, given whether both are one and the same number. -/
def agrees (same : Bool) (a b : Number) : Except Signal Bool :=
  if same then .ok true
  else (a.sameValue b).map (· && a.sameExponent b)

end Number

namespace Polynomial

/-- Agreement place by place. The first disagreement settles the matter. -/
def agreeTerms (same : Bool) : List Number → List Number → Except Signal Bool
  | [], [] => .ok true
  | a :: as, b :: bs => do
    if ← a.agrees same b then agreeTerms same as bs else return false
  | _, _ => .ok false

/-- Agreement of two polynomials made with different numbers. -/
def agrees (p q : Polynomial) : Except Signal Bool :=
  agreeTerms false p.coefficients q.coefficients

end Polynomial

namespace MadePolynomial

/-- Agreement of two polynomials, which may have been made with the same numbers. -/
def agrees (p q : MadePolynomial) : Except Fault Bool :=
  Fault.ofSignal <| Polynomial.agreeTerms (p.occasion == q.occasion)
    p.polynomial.coefficients q.polynomial.coefficients

/-- The trimmed form is made with the same numbers. -/
def trimmed (p : MadePolynomial) : MadePolynomial := { p with polynomial := p.polynomial.trimmed }

/-- The members of a collection that agree with none before them. -/
def representatives (ps : List MadePolynomial) : Except Fault (List MadePolynomial) :=
  ps.foldlM (fun kept p => do
    return if ← kept.anyM p.agrees then kept else kept ++ [p]) []

/-- The number of polynomials in a collection up to agreement. A signaling not-a-number belongs to
no class. -/
def countDistinct (ps : List MadePolynomial) : Except Fault Nat :=
  if ps.any fun p => p.polynomial.coefficients.any Number.isSignaling then
    .error .unclassifiable
  else do return (← representatives ps).length

end MadePolynomial

end ExactQuadrature

import ExactQuadrature.Operand

/-! # Polynomials of one variable

A polynomial is the list of its coefficients, lowest power first, and has at least one. Zeros at
its end are kept as they are given, so the degree is a matter of the list and not of the values;
`Polynomial.trimmed` drops them. Sums and values are exact. -/

namespace ExactQuadrature

/-- The polynomial `c₀ + c₁ x + c₂ x² + …`. -/
structure Polynomial where
  coefficients : List Number
  nonempty : coefficients ≠ []
deriving DecidableEq

namespace Polynomial

/-- The zero polynomial with a single coefficient. -/
def zero : Polynomial := ⟨[.zero], List.cons_ne_nil _ _⟩

instance : Inhabited Polynomial := ⟨zero⟩

/-- The polynomial with the given coefficients, of which there must be one. -/
def ofList : List Number → Except Fault Polynomial
  | [] => Fault.refuse .noCoefficient
  | first :: rest => .ok ⟨first :: rest, List.cons_ne_nil _ _⟩

/-- The polynomial whose coefficients are offered one by one. -/
def ofOperands (offered : List Operand) : Except Fault Polynomial := do
  ofList (← offered.mapM (Operand.toNumber "coefficient"))

/-- The polynomial offered as a whole: a sequence of coefficients, or a text whose characters are
taken as coefficients. -/
def ofOperand : Operand → Except Fault Polynomial
  | .sequence items => ofOperands items
  | .text s => ofOperands (s.toList.map fun c => .text c.toString)
  | .nothing => Fault.refuse .missingCoefficients
  | _ => .error .notASequence

/-- The polynomial `coefficient · x ^ exponent`. -/
def monomial (coefficient : Number) (exponent : Nat) : Polynomial :=
  ⟨List.replicate exponent .zero ++ [coefficient],
    List.append_ne_nil_of_right_ne_nil _ (List.cons_ne_nil _ _)⟩

/-- The monomial with an offered coefficient and exponent. -/
def monomialOf (coefficient : Operand) (exponent : Int) : Except Fault Polynomial :=
  if exponent < 0 then Fault.refuse (.negativeExponent exponent)
  else do return monomial (← coefficient.toNumber "coefficient") exponent.toNat

/-- The largest power that has a coefficient. -/
def degree (p : Polynomial) : Nat := p.coefficients.length - 1

/-- The coefficient of `x ^ n`, for powers up to the degree. -/
def coefficient (p : Polynomial) (n : Int) : Except Fault Number :=
  match (if n < 0 then none else p.coefficients[n.toNat]?) with
  | some c => .ok c
  | none => Fault.refuse (.absentDegree n p.degree)

/-- Drop the zeros at the end of a list, but never its first element. -/
def trimTerms : List Number → List Number
  | [] => []
  | first :: rest => first :: (rest.reverse.dropWhile Number.isZero).reverse

/-- The same polynomial without the zeros of its highest powers. -/
def trimmed (p : Polynomial) : Polynomial where
  coefficients := trimTerms p.coefficients
  nonempty := by
    intro empty
    cases shape : p.coefficients with
    | nil => exact p.nonempty shape
    | cons first rest => simp [shape, trimTerms] at empty

/-- The sum of the terms of one power, counted from zero; a term that is not there adds nothing. -/
def addTerms (a b : Option Number) : Except Signal Number := do
  let withFirst ← match a with
    | some x => Number.add .zero x
    | none => pure .zero
  match b with
  | some y => withFirst.add y
  | none => return withFirst

/-- The sum, with as many coefficients as the longer operand even where the highest cancel. -/
def add (p q : Polynomial) : Except Fault Polynomial := do
  let sums := List.zipWithAll addTerms p.coefficients q.coefficients
  ofList (← Fault.ofSignal (sums.mapM id))

/-- The value of a coefficient list at a point, lowest power first. -/
def evaluateTerms (x : Number) : List Number → Except Signal Number
  | [] => .ok .zero
  | [c] => .ok c
  | c :: rest => do (← (← evaluateTerms x rest).mul x).add c

/-- The value of a polynomial at a point. -/
def evaluate (p : Polynomial) (x : Number) : Except Fault Number :=
  Fault.ofSignal (evaluateTerms x p.coefficients)

/-- The value of a polynomial at an offered point. -/
def evaluateAt (p : Polynomial) (offered : Operand) : Except Fault Number := do
  p.evaluate (← offered.toNumber "value")

end Polynomial

end ExactQuadrature

import ExactQuadrature.Expression.Grammar
import ExactQuadrature.Proofs.Numeral

/-! # Written expressions

The syntax of expressions and what they mean. A term is a numeral, a power of the unknown, or a
numeral and a power with or without a star between them; an expression is a first term, whose sign
may be left out, and further terms with their signs. Its meaning is a sum of signed powers: every
power has the sum of the signed coefficients of the terms that mention it.
-/

namespace ExactQuadrature

/-- A power of the unknown, with or without an exponent. -/
inductive WrittenPower where
  | bare
  | raised (exponent : Nat)
deriving DecidableEq

namespace WrittenPower

def symbols : WrittenPower → List Symbol
  | bare => [.unknown]
  | raised exponent => [.unknown, .caret, .number ⟨Nat.toDigits 10 exponent, []⟩]

def chars : WrittenPower → List Char
  | bare => ['x']
  | raised exponent => 'x' :: '^' :: Nat.toDigits 10 exponent

/-- The power that is meant; the unknown alone is the first. -/
def exponent : WrittenPower → Nat
  | bare => 1
  | raised exponent => exponent

/-- The symbols of a power spell it. -/
theorem flatMap_symbols (power : WrittenPower) :
    power.symbols.flatMap Symbol.chars = power.chars := by
  cases power with
  | bare => rfl
  | raised exponent => simp [symbols, chars, Symbol.chars, Numeral.chars]

end WrittenPower

/-- A term without its sign. -/
inductive WrittenTerm where
  | constant (numeral : Numeral)
  | product (numeral : Numeral) (starred : Bool) (power : WrittenPower)
  | monic (power : WrittenPower)
deriving DecidableEq

namespace WrittenTerm

def symbols : WrittenTerm → List Symbol
  | constant numeral => [.number numeral]
  | product numeral starred power =>
    .number numeral :: (if starred then [.times] else []) ++ power.symbols
  | monic power => power.symbols

def chars : WrittenTerm → List Char
  | constant numeral => numeral.chars
  | product numeral starred power =>
    numeral.chars ++ (if starred then ['*'] else []) ++ power.chars
  | monic power => power.chars

/-- The coefficient that is meant; a missing one is one. -/
def coefficient : WrittenTerm → ℚ
  | constant numeral => numeral.value
  | product numeral _ _ => numeral.value
  | monic _ => 1

/-- The power that is meant; a numeral alone has the power zero. -/
def exponent : WrittenTerm → Nat
  | constant _ => 0
  | product _ _ power => power.exponent
  | monic power => power.exponent

/-- Numerals are well formed and exponents are not too large. -/
def WellFormed : WrittenTerm → Prop
  | constant numeral => numeral.WellFormed
  | product numeral _ power => numeral.WellFormed ∧ power.exponent ≤ largestExponent
  | monic power => power.exponent ≤ largestExponent

/-- The symbols of a term spell it. -/
theorem flatMap_symbols (term : WrittenTerm) :
    term.symbols.flatMap Symbol.chars = term.chars := by
  cases term with
  | constant numeral => exact List.append_nil _
  | monic power => exact power.flatMap_symbols
  | product numeral starred power =>
    unfold symbols chars
    dsimp only
    rw [List.cons_append, List.flatMap_cons, List.flatMap_append, power.flatMap_symbols,
      List.append_assoc]
    cases starred <;> rfl

/-- The magnitude of the coefficient with the digits that are written. -/
def magnitude : WrittenTerm → Decimal
  | constant numeral => numeral.toDecimal false
  | product numeral _ _ => numeral.toDecimal false
  | monic _ => .one

/-- The value of a term with its sign. -/
def toTerm (negative : Bool) (term : WrittenTerm) : Term :=
  ⟨if negative then term.magnitude.negate else term.magnitude, term.exponent⟩

/-- The decimal of a term has the coefficient as its value. -/
theorem value_magnitude (term : WrittenTerm) : term.magnitude.value = term.coefficient := by
  cases term with
  | constant numeral => exact numeral.value_toDecimal false
  | product numeral starred power => exact numeral.value_toDecimal false
  | monic power => exact Decimal.value_one

/-- The term that is kept has the coefficient with its sign. -/
theorem value_toTerm (negative : Bool) (term : WrittenTerm) :
    (term.toTerm negative).coefficient.value =
      if negative then -term.coefficient else term.coefficient := by
  cases negative
  · exact term.value_magnitude
  · change term.magnitude.negate.value = -term.coefficient
    rw [Decimal.value_negate, value_magnitude]

end WrittenTerm

/-- A first term, whose sign may be left out, and further terms with their signs. A sign is true
for a minus. -/
structure WrittenExpression where
  sign : Option Bool
  first : WrittenTerm
  rest : List (Bool × WrittenTerm)

namespace WrittenExpression

def signSymbol (negative : Bool) : Symbol := if negative then .minus else .plus

def signChar (negative : Bool) : Char := if negative then '-' else '+'

/-- A term with its sign before it. -/
def signedSymbols (term : Bool × WrittenTerm) : List Symbol :=
  signSymbol term.1 :: term.2.symbols

def symbols (e : WrittenExpression) : List Symbol :=
  (e.sign.map signSymbol).toList ++ e.first.symbols ++ e.rest.flatMap signedSymbols

/-- The characters of an expression; there are none between its terms. -/
def chars (e : WrittenExpression) : List Char :=
  (e.sign.map signChar).toList ++ e.first.chars ++
    e.rest.flatMap fun term => signChar term.1 :: term.2.chars

/-- All terms with their signs; a missing sign is a plus. -/
def signedTerms (e : WrittenExpression) : List (Bool × WrittenTerm) :=
  (e.sign.getD false, e.first) :: e.rest

def WellFormed (e : WrittenExpression) : Prop := ∀ term ∈ e.signedTerms, term.2.WellFormed

/-- The sum of the signed coefficients of all terms with a power. -/
def coefficientAt (e : WrittenExpression) (power : Nat) : ℚ :=
  ((e.signedTerms.filter fun term => term.2.exponent = power).map fun term =>
    if term.1 then -term.2.coefficient else term.2.coefficient).sum

/-- The largest power that any term mentions. -/
def largestPower (e : WrittenExpression) : Nat :=
  (e.signedTerms.map fun term => term.2.exponent).foldr max 0

/-- The terms in order. -/
def terms (e : WrittenExpression) : List Term :=
  e.signedTerms.map fun term => term.2.toTerm term.1

theorem chars_signSymbol (negative : Bool) : (signSymbol negative).chars = [signChar negative] := by
  cases negative <;> rfl

/-- The symbols of an expression spell it. -/
theorem flatMap_symbols (e : WrittenExpression) : e.symbols.flatMap Symbol.chars = e.chars := by
  have later : ∀ rest : List (Bool × WrittenTerm),
      (rest.flatMap signedSymbols).flatMap Symbol.chars =
        rest.flatMap fun term => signChar term.1 :: term.2.chars := by
    intro rest
    induction rest with
    | nil => rfl
    | cons term rest ih =>
      rw [List.flatMap_cons, List.flatMap_append, ih, List.flatMap_cons]
      congr 1
      unfold signedSymbols
      rw [List.flatMap_cons, chars_signSymbol, WrittenTerm.flatMap_symbols]
      rfl
  unfold symbols chars
  rw [List.flatMap_append, List.flatMap_append, later, WrittenTerm.flatMap_symbols]
  congr 2
  cases e.sign with
  | none => rfl
  | some negative =>
    simp only [Option.map_some, Option.toList_some, List.flatMap_cons, List.flatMap_nil,
      chars_signSymbol, List.append_nil]

end WrittenExpression

end ExactQuadrature

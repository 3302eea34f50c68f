import ExactQuadrature.Decimal.Number
import ExactQuadrature.Text.Classes

/-! # Reading numbers

A number may be written with blanks around it, with underscores anywhere, and with the decimal
digits of any script. What remains is an optional sign and then either digits with an optional
point and an optional exponent, or one of the words for infinity and not-a-number in any case.
Text whose value is not a decimal of the widest range, just as written, is no number. -/

namespace ExactQuadrature

namespace Literal

/-- The western form of a character of a number: digits of every script become western digits,
other characters have to be western already. -/
def westernize? (c : Char) : Option Char :=
  if 0 < c.toNat ∧ c.toNat < 0x80 then some c
  else (Text.digitValue? c).map Nat.digitChar

/-- The characters that count: without outer blanks and underscores, in western form. -/
def normalize? (cs : List Char) : Option (List Char) :=
  ((Text.trimBlanks cs).filter (· ≠ '_')).mapM westernize?

/-- A sign, if there is one, and what follows it. -/
def splitSign : List Char → Bool × List Char
  | '-' :: rest => (true, rest)
  | '+' :: rest => (false, rest)
  | cs => (false, cs)

/-- A run of digits that makes up the whole text. -/
def wholeNumber? (cs : List Char) : Option Nat :=
  if cs ≠ [] ∧ cs.all Char.isDigit then some (Nat.ofDigitChars 10 cs 0) else none

/-- The signed exponent that makes up the whole text. -/
def exponent? (cs : List Char) : Option Int :=
  let (negative, digits) := splitSign cs
  (wholeNumber? digits).map fun n => if negative then -(n : Int) else n

/-- The digits after a leading point, and what follows them. -/
def splitFraction : List Char → List Char × List Char
  | '.' :: rest => (rest.takeWhile Char.isDigit, rest.dropWhile Char.isDigit)
  | cs => ([], cs)

/-- Coefficient and exponent of an unsigned numeral. -/
def numeral? (cs : List Char) : Option (Nat × Int) :=
  let whole := cs.takeWhile Char.isDigit
  let (fraction, rest) := splitFraction (cs.dropWhile Char.isDigit)
  if whole = [] ∧ fraction = [] then none
  else
    let coefficient := Nat.ofDigitChars 10 (whole ++ fraction) 0
    match rest with
    | [] => some (coefficient, -(fraction.length : Int))
    | mark :: more =>
      if mark = 'e' ∨ mark = 'E' then
        (exponent? more).map fun exponent => (coefficient, exponent - fraction.length)
      else none

/-- The payload after the word for a not-a-number; an absent one is zero. -/
def payload? (cs : List Char) : Option Nat :=
  if cs = [] then some 0 else wholeNumber? cs

/-- An unsigned word for infinity or for a not-a-number. -/
def word? (negative : Bool) (cs : List Char) : Option Number :=
  match cs.map Char.toLower with
  | ['i', 'n', 'f'] => some (.infinite negative)
  | ['i', 'n', 'f', 'i', 'n', 'i', 't', 'y'] => some (.infinite negative)
  | 'n' :: 'a' :: 'n' :: rest => (payload? rest).map (.notANumber negative false)
  | 's' :: 'n' :: 'a' :: 'n' :: rest => (payload? rest).map (.notANumber negative true)
  | _ => none

end Literal

/-- The number that a text writes. -/
def Number.ofText? (s : String) : Option Number := do
  let cs ← Literal.normalize? s.toList
  let (negative, rest) := Literal.splitSign cs
  match Literal.numeral? rest with
  | some (coefficient, exponent) =>
    let d : Decimal := ⟨negative, coefficient, exponent⟩
    if Range.exact.Contains d then some (.finite d) else none
  | none => Literal.word? negative rest

end ExactQuadrature

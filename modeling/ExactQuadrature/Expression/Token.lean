import ExactQuadrature.Numeral
import ExactQuadrature.Refusal

/-! # Tokens of expressions

An expression is written with numerals, the unknown `x` and four operators, and with nothing
between them. Its text is cut into tokens from the left, every numeral as long as possible, up to
the first character that starts no token. -/

namespace ExactQuadrature

/-- The symbols that expressions are made of. -/
inductive Symbol where
  | number (numeral : Numeral)
  | unknown
  | plus
  | minus
  | times
  | caret
deriving DecidableEq, Inhabited

namespace Symbol

/-- The name of the class that a symbol belongs to. -/
def title : Symbol → String
  | number _ => "NUM"
  | unknown => "VAR"
  | plus => "OP_PLUS"
  | minus => "OP_MINUS"
  | times => "OP_TIMES"
  | caret => "OP_CARET"

/-- The characters of a symbol. -/
def chars : Symbol → List Char
  | number numeral => numeral.chars
  | unknown => ['x']
  | plus => ['+']
  | minus => ['-']
  | times => ['*']
  | caret => ['^']

/-- The symbol that a single character writes. -/
def ofChar? (c : Char) : Option Symbol :=
  if c = 'x' then some unknown
  else if c = '+' then some plus
  else if c = '-' then some minus
  else if c = '*' then some times
  else if c = '^' then some caret
  else none

/-- The longest symbol that a text starts with, and what follows it. -/
def scan? (cs : List Char) : Option (Symbol × List Char) :=
  match Numeral.scan? cs with
  | some (numeral, rest) => some (number numeral, rest)
  | none =>
    match cs with
    | [] => none
    | c :: rest => (ofChar? c).map fun symbol => (symbol, rest)

/-- A symbol written by a single character is that character. -/
theorem chars_of_ofChar? {c : Char} {symbol : Symbol} (found : ofChar? c = some symbol) :
    symbol.chars = [c] := by
  unfold ofChar? at found
  repeat' split at found
  all_goals
    first
      | (cases found; simp_all [chars])
      | cases found

/-- What follows a scanned symbol is shorter than the text. -/
theorem scan?_length {cs rest : List Char} {symbol : Symbol}
    (scanned : scan? cs = some (symbol, rest)) : rest.length < cs.length := by
  unfold scan? at scanned
  split at scanned
  · next numeral after found =>
    cases scanned
    exact Numeral.scan?_length found
  · split at scanned
    · cases scanned
    · obtain ⟨_, _, shape⟩ := Option.map_eq_some_iff.mp scanned
      cases shape
      simp

/-- A scanned symbol followed by the rest is the text. -/
theorem scan?_append {cs rest : List Char} {symbol : Symbol}
    (scanned : scan? cs = some (symbol, rest)) : symbol.chars ++ rest = cs := by
  unfold scan? at scanned
  split at scanned
  · next numeral after found =>
    cases scanned
    exact Numeral.scan?_append found
  · split at scanned
    · cases scanned
    · obtain ⟨_, found, shape⟩ := Option.map_eq_some_iff.mp scanned
      cases shape
      rw [chars_of_ofChar? found]
      rfl

end Symbol

/-- A symbol and the number of characters before it. -/
structure Token where
  symbol : Symbol
  position : Nat
deriving DecidableEq, Inhabited

namespace Token

/-- The text of a token. -/
def text (token : Token) : String := String.ofList token.symbol.chars

end Token

/-- The tokens of a text, and the misreading that ends them early, if there is one. -/
structure Scan where
  tokens : List Token
  fault : Option Misreading
deriving DecidableEq, Inhabited

namespace Scan

/-- The tokens of a text that starts at a position. -/
def fromPosition (position : Nat) (cs : List Char) : Scan :=
  match _scanned : Symbol.scan? cs with
  | some (symbol, rest) =>
    let later := fromPosition (position + symbol.chars.length) rest
    ⟨⟨symbol, position⟩ :: later.tokens, later.fault⟩
  | none =>
    match cs with
    | [] => ⟨[], none⟩
    | c :: _ => ⟨[], some (.illegalCharacter c position)⟩
termination_by cs.length
decreasing_by exact Symbol.scan?_length _scanned

/-- The tokens of a text. -/
def ofText (text : String) : Scan := Scan.fromPosition 0 text.toList

end Scan

end ExactQuadrature

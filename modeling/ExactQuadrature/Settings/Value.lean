import ExactQuadrature.Settings.Template
import ExactQuadrature.Text.Quoted

/-! # Values of settings

A setting holds a truth value, a whole number or a text, and its kind says which. A whole number
may be written in the decimal digits of any script, with a sign, with single underscores between
digits and with blanks around it.

A slot holds the value of a setting while a command line is read, or it holds nothing, where a
double dash was written in place of a value.

Settings declared with unfit names, texts or values cannot all be read from a command line: their
flags may not be told apart, the help on them may not be written, and their values may not be
found. -/

namespace ExactQuadrature

/-- The ways in which settings fail to be read from a command line. -/
inductive SettingsFault where
  | namelessFlag
  | sharedFlag
  | brokenUsage
  | brokenHelp (fault : TemplateFault)
  | missingSlot
  | noNumber
  | nothingHeld
deriving DecidableEq, Inhabited

/-- The kinds of settings. -/
inductive SettingKind where
  | truth
  | whole
  | text
deriving DecidableEq, Inhabited

/-- The value of a setting. -/
inductive SettingValue where
  | truth (value : Bool)
  | whole (value : Int)
  | text (value : String)
deriving DecidableEq, Inhabited

namespace WholeText

/-- The most digits that a written whole number may have. -/
def largestLength : Nat := 4300

/-- A character of a written whole number: western as it is, other blanks as a space, and digits
of other scripts as western ones. -/
def westernize? (c : Char) : Option Char :=
  if c.toNat < 0x7f then some c
  else if Text.isBlank c then some ' '
  else (Text.digitValue? c).map Nat.digitChar

/-- The blanks that may surround a written whole number. -/
def isPadding (c : Char) : Bool := [' ', '\t', '\n', '\x0b', '\x0c', '\r'].contains c

/-- The digits of a run in which single underscores may stand between digits. -/
def digits? : List Char → Option (List Char)
  | [] => none
  | [c] => if c.isDigit then some [c] else none
  | c :: '_' :: rest => if c.isDigit then (digits? rest).map (c :: ·) else none
  | c :: rest => if c.isDigit then (digits? rest).map (c :: ·) else none

/-- The natural number written by a run of digits, if it is not too long. -/
def natural? (cs : List Char) : Option Nat := do
  let digits ← digits? cs
  if digits.length ≤ largestLength then some (Nat.ofDigitChars 10 digits 0) else none

/-- The whole number that characters without padding write. -/
def signed? : List Char → Option Int
  | '-' :: rest => (natural? rest).map fun n => -(n : Int)
  | '+' :: rest => (natural? rest).map fun n => (n : Int)
  | cs => (natural? cs).map fun n => (n : Int)

/-- The whole number that a text writes. -/
def read? (s : String) : Option Int := do
  let cs ← s.toList.mapM westernize?
  signed? ((cs.dropWhile isPadding).reverse.dropWhile isPadding).reverse

end WholeText

namespace SettingValue

/-- A value as it is shown in reports. -/
def shown : SettingValue → String
  | truth value => if value then "True" else "False"
  | whole value => toString value
  | text value => Text.quoted value

/-- A value to count with. A truth value counts as one or zero, and a text not at all. -/
def count? : SettingValue → Option Int
  | truth value => some (if value then 1 else 0)
  | whole value => some value
  | text _ => none

/-- A value as an ingredient of a help text; a truth value counts as a number. -/
def ingredient : SettingValue → Ingredient
  | truth value => .whole (if value then 1 else 0)
  | whole value => .whole value
  | text value => .text value

/-- Whether a value counts as true: every number but zero and every text but the empty one. -/
def isTrue : SettingValue → Bool
  | truth value => value
  | whole value => value ≠ 0
  | text value => value ≠ ""

end SettingValue

/-- What a slot holds. -/
inductive SlotContent where
  | value (held : SettingValue)
  | nothing
deriving DecidableEq, Inhabited

/-- Whether the content of a slot counts as true. -/
def SlotContent.isTrue : SlotContent → Bool
  | value held => held.isTrue
  | nothing => false

namespace SettingKind

/-- What a kind is called in reports. -/
def title : SettingKind → String
  | truth => "bool"
  | whole => "int"
  | text => "str"

/-- The value that an argument writes. -/
def read? : SettingKind → String → Option SettingValue
  | truth, s => some (.truth (s ≠ ""))
  | whole, s => (WholeText.read? s).map .whole
  | text, s => some (.text s)

/-- The content of a slot as a value of a kind. Anything can be shown as a text, and the text of
nothing is a pair of brackets; but not every text writes a whole number, and nothing is none. -/
def accept : SettingKind → SlotContent → Except SettingsFault SettingValue
  | truth, content => .ok (.truth content.isTrue)
  | whole, .value (.truth held) => .ok (.whole (if held then 1 else 0))
  | whole, .value (.whole held) => .ok (.whole held)
  | whole, .value (.text held) =>
    match WholeText.read? held with
    | some number => .ok (.whole number)
    | none => .error .noNumber
  | whole, .nothing => .error .nothingHeld
  | text, .value (.text held) => .ok (.text held)
  | text, .value held => .ok (.text held.shown)
  | text, .nothing => .ok (.text "[]")

end SettingKind

end ExactQuadrature

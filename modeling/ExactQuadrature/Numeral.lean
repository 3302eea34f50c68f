import ExactQuadrature.Decimal.Basic
import ExactQuadrature.Text.Classes

/-! # Numerals

A numeral is a run of western digits without needless leading zeros, and optionally a point with
at least one digit after it. It stands for the decimal with just those digits. A signed numeral
may have a plus or minus sign directly before it. Scanning takes the longest numeral that a text
starts with. -/

namespace ExactQuadrature

/-- The digits of a numeral before and after the point; no point is written if none follow it. -/
structure Numeral where
  whole : List Char
  fraction : List Char
deriving DecidableEq, Inhabited

namespace Numeral

/-- The characters of a numeral. -/
def chars (n : Numeral) : List Char :=
  n.whole ++ if n.fraction = [] then [] else '.' :: n.fraction

/-- The value of a numeral without its point. -/
def digits (n : Numeral) : Nat := Nat.ofDigitChars 10 (n.whole ++ n.fraction) 0

/-- The decimal that a numeral writes, with a sign put before it. -/
def toDecimal (n : Numeral) (negative : Bool) : Decimal :=
  ⟨negative, n.digits, -(n.fraction.length : Int)⟩

/-- The digits before the point: a zero alone, or digits that start with another one. -/
def scanWhole? : List Char → Option (List Char × List Char)
  | [] => none
  | c :: rest =>
    if c = '0' then some ([c], rest)
    else if c.isDigit then some (c :: rest.takeWhile Char.isDigit, rest.dropWhile Char.isDigit)
    else none

/-- The digits after the point. A point that no digit follows is not part of a numeral. -/
def scanFraction : List Char → List Char × List Char
  | '.' :: rest =>
    if rest.takeWhile Char.isDigit = [] then ([], '.' :: rest)
    else (rest.takeWhile Char.isDigit, rest.dropWhile Char.isDigit)
  | cs => ([], cs)

/-- The longest numeral that a text starts with, and what follows it. -/
def scan? (cs : List Char) : Option (Numeral × List Char) :=
  (scanWhole? cs).map fun (whole, rest) =>
    (⟨whole, (scanFraction rest).1⟩, (scanFraction rest).2)

/-- The decimal of the longest signed numeral that a text starts with, and what follows it. -/
def scanSigned? : List Char → Option (Decimal × List Char)
  | '-' :: rest => (scan? rest).map fun (n, rest) => (n.toDecimal true, rest)
  | '+' :: rest => (scan? rest).map fun (n, rest) => (n.toDecimal false, rest)
  | cs => (scan? cs).map fun (n, rest) => (n.toDecimal false, rest)

/-- The digits before the point are not empty, and nothing is lost. -/
theorem scanWhole?_append {cs whole rest : List Char}
    (scanned : scanWhole? cs = some (whole, rest)) : whole ≠ [] ∧ whole ++ rest = cs := by
  cases cs with
  | nil => simp [scanWhole?] at scanned
  | cons c more =>
    simp only [scanWhole?] at scanned
    split at scanned
    · cases scanned
      simp
    · split at scanned
      · cases scanned
        simp [List.takeWhile_append_dropWhile]
      · cases scanned

/-- Nothing is lost in scanning a fraction. -/
theorem scanFraction_append (cs : List Char) :
    (if (scanFraction cs).1 = [] then [] else '.' :: (scanFraction cs).1) ++ (scanFraction cs).2 =
      cs := by
  unfold scanFraction
  split
  · next rest =>
    split
    · simp
    · simp [List.takeWhile_append_dropWhile]
  · simp

/-- A scanned numeral followed by the rest is the text. -/
theorem scan?_append {cs rest : List Char} {n : Numeral} (scanned : scan? cs = some (n, rest)) :
    n.chars ++ rest = cs := by
  unfold scan? at scanned
  obtain ⟨⟨whole, after⟩, first, shape⟩ := Option.map_eq_some_iff.mp scanned
  cases shape
  obtain ⟨_, joined⟩ := scanWhole?_append first
  unfold chars
  rw [List.append_assoc]
  dsimp only
  rw [scanFraction_append, joined]

/-- What follows a scanned numeral is shorter than the text. -/
theorem scan?_length {cs rest : List Char} {n : Numeral} (scanned : scan? cs = some (n, rest)) :
    rest.length < cs.length := by
  have joined := scan?_append scanned
  unfold scan? at scanned
  obtain ⟨⟨whole, after⟩, first, shape⟩ := Option.map_eq_some_iff.mp scanned
  cases shape
  have present := List.length_pos_iff.mpr (scanWhole?_append first).1
  have total := congrArg List.length joined
  simp only [chars, List.length_append] at total
  omega

/-- What follows a scanned signed numeral is shorter than the text. -/
theorem scanSigned?_length {cs rest : List Char} {d : Decimal}
    (scanned : scanSigned? cs = some (d, rest)) : rest.length < cs.length := by
  unfold scanSigned? at scanned
  split at scanned
  all_goals
    obtain ⟨⟨n, after⟩, first, shape⟩ := Option.map_eq_some_iff.mp scanned
    cases shape
    have shorter := scan?_length first
    simp only [List.length_cons] at *
    omega

end Numeral

end ExactQuadrature

import ExactQuadrature.Settings.Flag
import ExactQuadrature.Text.Classes

/-! # Usage lines

A usage line shows every flag in square brackets, with the word for its argument if it takes one.
The line is tightened, which closes the gaps next to brackets and leaves out empty brackets, and it
can then be broken between its parts. A part is a piece from an opening bracket to a closing one
with a blank behind it, or else a run of characters other than blanks.

A line holds together if its parts, with single spaces between them, give the line back. Spellings
and placeholders with line feeds, or with gaps that are not within brackets, prevent that. -/

namespace ExactQuadrature

namespace Usage

/-- Whether a character is an opening bracket. -/
def isOpening (c : Char) : Bool := c = '[' || c = '('

/-- Whether a character is a closing bracket. -/
def isClosing (c : Char) : Bool := c = ']' || c = ')'

/-- The bracket that closes what a bracket opens. -/
def closing? : Char → Option Char
  | '[' => some ']'
  | '(' => some ')'
  | _ => none

/-- Drop one space behind every character of a kind, given whether one has just gone before. -/
def dropSpaceBehind (isMark : Char → Bool) : Bool → List Char → List Char
  | _, [] => []
  | marked, c :: rest =>
    if marked ∧ c = ' ' then dropSpaceBehind isMark false rest
    else c :: dropSpaceBehind isMark (isMark c) rest

/-- Drop every pair of brackets with nothing but spaces between them. A pair that comes about in
this way stays. -/
def dropEmptyBrackets : List Char → List Char
  | [] => []
  | c :: rest =>
    if isOpening c ∧ (rest.dropWhile (· = ' ')).head?.any isClosing then
      dropEmptyBrackets ((rest.dropWhile (· = ' ')).drop 1)
    else c :: dropEmptyBrackets rest
termination_by cs => cs.length
decreasing_by
  · have spaces := (List.dropWhile_sublist (l := rest) (· = ' ')).length_le
    simp only [List.length_drop, List.length_cons]
    omega
  · exact Nat.lt_succ_self _

/-- Close the gaps next to brackets, leave out empty brackets, and drop the blanks at both ends. -/
def tighten (cs : List Char) : List Char :=
  let opened := dropSpaceBehind isOpening false cs
  let closed := (dropSpaceBehind isClosing false opened.reverse).reverse
  Text.trimBlanks (dropEmptyBrackets closed)

/-- Cut behind the first closing bracket that has a blank or nothing behind it, if there is one
before a line feed. -/
def cutBehind? (closing : Char) : List Char → Option (List Char × List Char)
  | [] => none
  | c :: rest =>
    if c = '\n' then none
    else if c = closing ∧ rest.head?.all Text.isBlank then some ([c], rest)
    else (cutBehind? closing rest).map fun (piece, after) => (c :: piece, after)

/-- Cut where the part ends that starts with a given character before the text. -/
def cutPart (first : Char) (cs : List Char) : List Char × List Char :=
  ((closing? first).bind (cutBehind? · cs)).getD
    (cs.takeWhile (!Text.isBlank ·), cs.dropWhile (!Text.isBlank ·))

/-- A cut behind a bracket loses nothing. -/
theorem cutBehind?_append {closing : Char} {cs piece after : List Char}
    (cut : cutBehind? closing cs = some (piece, after)) : piece ++ after = cs := by
  induction cs generalizing piece with
  | nil => simp [cutBehind?] at cut
  | cons c rest hypothesis =>
    unfold cutBehind? at cut
    split at cut
    · contradiction
    · split at cut
      · obtain ⟨rfl, rfl⟩ := Prod.mk.inj (Option.some.inj cut)
        rfl
      · obtain ⟨⟨inner, remaining⟩, found, same⟩ := Option.map_eq_some_iff.mp cut
        obtain ⟨rfl, rfl⟩ := Prod.mk.inj same
        exact congrArg (c :: ·) (hypothesis found)

/-- A cut behind a part loses nothing. -/
theorem cutPart_append (first : Char) (cs : List Char) :
    (cutPart first cs).1 ++ (cutPart first cs).2 = cs := by
  unfold cutPart
  cases found : (closing? first).bind (cutBehind? · cs) with
  | none => exact List.takeWhile_append_dropWhile
  | some cut =>
    obtain ⟨closing, _, cut⟩ := Option.bind_eq_some_iff.mp found
    exact cutBehind?_append cut

/-- The parts of a text in order. Blanks between them belong to none. -/
def parts : List Char → List (List Char)
  | [] => []
  | c :: rest =>
    if Text.isBlank c then parts rest
    else (c :: (cutPart c rest).1) :: parts (cutPart c rest).2
termination_by cs => cs.length
decreasing_by
  · exact Nat.lt_succ_self _
  · have whole := congrArg List.length (cutPart_append c rest)
    simp only [List.length_append, List.length_cons] at whole ⊢
    omega

/-- Whether the parts of a text, with single spaces between them, give it back. -/
def holdsTogether (cs : List Char) : Bool := [' '].intercalate (parts cs) = cs

end Usage

/-- A flag in brackets, with its placeholder or else its slot as the word for its argument. -/
def Flag.usage (flag : Flag) : List Char :=
  let word := if flag.takesArgument then ' ' :: (flag.placeholder.getD flag.slot).toList else []
  '[' :: (flag.names.headD "").toList ++ word ++ [']']

/-- The usage line for all flags. -/
def Interface.usage (interface : Interface) : List Char :=
  Usage.tighten ([' '].intercalate (interface.flags.map Flag.usage))

end ExactQuadrature

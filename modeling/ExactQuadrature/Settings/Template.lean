import ExactQuadrature.Entries
import ExactQuadrature.Settings.Directive
import ExactQuadrature.Text.Classes

/-! # Templates of help texts

A help text is a template, and its directives are followed in order. One with a name is supplied
with the ingredient of that name, and one without a name at first with all ingredients at once.
What is supplied can be used up once: by a width or a precision, which has to be a whole number, or
by the conversion, which suits any ingredient or numbers only or single characters only.

Of the result it matters only whether something is to be seen. A template that shows more than
blanks must not turn into blanks alone, though it may turn into nothing. -/

namespace ExactQuadrature

/-- What a directive can be supplied with: a whole number, a text, or anything else. -/
inductive Ingredient where
  | whole (value : Int)
  | text (value : String)
  | other
deriving DecidableEq, Inhabited

/-- The reasons for which a template cannot be filled in. -/
inductive TemplateFault where
  | unfinished
  | tooWide
  | unknownConversion
  | unknownName
  | usedUp
  | unsuitable
  | outOfRange
  | blankResult
deriving DecidableEq, Inhabited

/-- What a text looks like: it is empty, or has only blanks, or shows something. -/
inductive Appearance where
  | empty
  | blank
  | visible
deriving DecidableEq, Inhabited

namespace Appearance

/-- What characters look like. -/
def ofChars (cs : List Char) : Appearance :=
  if cs.isEmpty then empty else if cs.all Text.isBlank then blank else visible

/-- What two texts look like, one behind the other. -/
def append : Appearance → Appearance → Appearance
  | empty, second => second
  | first, empty => first
  | blank, blank => blank
  | _, _ => visible

end Appearance

/-- The largest width that a directive may have. -/
def Directive.largestWidth : Nat := 0x7fffffffffffffff

/-- The largest precision that a directive may have. -/
def Directive.largestPrecision : Nat := 0x7fffffff

/-- Take what a measure needs. The result is what is still supplied after it. -/
def Measure.take (largest : Nat) (supply : Option Ingredient) :
    Measure → Except TemplateFault (Option Ingredient)
  | absent => .ok supply
  | given size => if size ≤ largest then .ok supply else .error .tooWide
  | supplied =>
    match supply with
    | none => .error .usedUp
    | some (.whole value) => if value.natAbs ≤ largest then .ok none else .error .outOfRange
    | some _ => .error .unsuitable

namespace Directive

/-- The reason for which a conversion does not suit what is supplied, if that is so. -/
def conversionFault? (letter : Char) (ingredient : Ingredient) : Option TemplateFault :=
  if ['s', 'r', 'a'].contains letter then none
  else if ['d', 'i', 'u', 'o', 'x', 'X'].contains letter then
    match ingredient with
    | .whole _ => none
    | _ => some .unsuitable
  else if ['e', 'E', 'f', 'F', 'g', 'G'].contains letter then
    match ingredient with
    | .whole value => if value.natAbs < realLimit then none else some .outOfRange
    | _ => some .unsuitable
  else if letter = 'c' then
    match ingredient with
    | .whole value => if 0 ≤ value ∧ value < 0x110000 then none else some .outOfRange
    | .text value => if value.length = 1 then none else some .unsuitable
    | .other => some .unsuitable
  else some .unknownConversion
where
  /-- Half a unit above the largest number with 53 binary digits below the power 1024 of two. From
  there on a number rounds to none of these. -/
  realLimit : Nat := (1 <<< 1024) - (1 <<< 970)

/-- What a conversion looks like that suits what is supplied, filled up with spaces to the width.
A precision of zero leaves nothing of a text. -/
def appearance (directive : Directive) (letter : Char) (ingredient : Ingredient) : Appearance :=
  let shown : Appearance := match letter, ingredient, directive.precision with
    | 's', .text value, .given size => .ofChars (value.toList.take size)
    | 's', .text value, _ => .ofChars value.toList
    | 'c', .text value, _ => .ofChars value.toList
    | 'c', .whole value, _ => .ofChars [Char.ofNat value.toNat]
    | 's', _, .given 0 | 'r', _, .given 0 | 'a', _, .given 0 => .empty
    | _, _, _ => .visible
  match shown, directive.width with
  | .empty, .given (_ + 1) => .blank
  | _, _ => shown

/-- Follow a directive. The result is what it looks like. Nothing is supplied after it. -/
def follow (ingredients : Entries Ingredient) (supply : Option Ingredient) (directive : Directive) :
    Except TemplateFault Appearance := do
  let supply ← match directive.name with
    | none => pure supply
    | some name =>
      match ingredients.get? name with
      | some ingredient => pure (some ingredient)
      | none => throw .unknownName
  let supply ← directive.width.take largestWidth supply
  let supply ← directive.precision.take largestPrecision supply
  match directive.conversion, supply with
  | none, _ => throw .unfinished
  | some _, none => throw .usedUp
  | some letter, some ingredient =>
    match conversionFault? letter ingredient with
    | none => return directive.appearance letter ingredient
    | some fault => throw fault

end Directive

/-- What the pieces of a template look like when they are filled in. -/
def TemplatePiece.fill (ingredients : Entries Ingredient) (supply : Option Ingredient) :
    List TemplatePiece → Except TemplateFault Appearance
  | [] => .ok .empty
  | character c :: rest => do
    return (Appearance.ofChars [c]).append (← fill ingredients supply rest)
  | directive d :: rest => do
    let first ← d.follow ingredients supply
    return first.append (← fill ingredients none rest)

/-- The reason for which a template cannot be filled in, if that is so. -/
def templateFault? (ingredients : Entries Ingredient) (template : String) : Option TemplateFault :=
  let cs := template.toList
  match TemplatePiece.fill ingredients (some .other) (TemplatePiece.ofChars cs) with
  | .ok .blank => if cs.all Text.isBlank then none else some .blankResult
  | .ok _ => none
  | .error fault => some fault

end ExactQuadrature

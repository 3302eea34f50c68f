/-! # Directives of a template

A percent sign in a template starts a directive, which goes on with a name in parentheses, flags, a
width, a precision after a point and a letter for the size, all of them optional, and ends with the
letter of a conversion. A star in place of a width or a precision means that it is supplied. Two
percent signs stand for one.

What follows a directive is never longer than what the directive was read from, so reading all
pieces of a text comes to an end. -/

namespace ExactQuadrature

/-- A width or a precision. -/
inductive Measure where
  | absent
  | given (size : Nat)
  | supplied
deriving DecidableEq, Inhabited

/-- A directive of a template. One that the template breaks off has no conversion. -/
structure Directive where
  name : Option String
  width : Measure
  precision : Measure
  conversion : Option Char
deriving DecidableEq, Inhabited

/-- A piece of a template: a character that stands for itself, or a directive. -/
inductive TemplatePiece where
  | character (c : Char)
  | directive (directive : Directive)
deriving DecidableEq, Inhabited

namespace Measure

/-- Read a measure, and leave what follows it. -/
def read : List Char → Measure × List Char
  | '*' :: rest => (supplied, rest)
  | cs =>
    match cs.takeWhile Char.isDigit with
    | [] => (absent, cs)
    | digits => (given (Nat.ofDigitChars 10 digits 0), cs.dropWhile Char.isDigit)

/-- A point that no measure follows stands for zero. -/
def orZero : Measure → Measure
  | absent => given 0
  | measure => measure

/-- Read a measure after a point, if there is one, and leave what follows it. -/
def readAfterPoint : List Char → Measure × List Char
  | '.' :: rest => ((read rest).1.orZero, (read rest).2)
  | cs => (absent, cs)

/-- What follows a measure is no longer than what the measure was read from. -/
theorem length_read_le (cs : List Char) : (read cs).2.length ≤ cs.length := by
  unfold read
  split
  · simp
  · split
    · exact Nat.le_refl _
    · exact (List.dropWhile_sublist _).length_le

/-- What follows a measure after a point is no longer than what it was read from. -/
theorem length_readAfterPoint_le (cs : List Char) : (readAfterPoint cs).2.length ≤ cs.length := by
  unfold readAfterPoint
  split
  · exact Nat.le_succ_of_le (length_read_le _)
  · exact Nat.le_refl _

end Measure

namespace Directive

/-- Read a name up to the parenthesis that closes it, given how many are open, and leave what
follows it. -/
def readName : Nat → List Char → Option (List Char × List Char)
  | _, [] => none
  | opened, c :: rest =>
    if c = ')' then
      if opened = 0 then some ([], rest)
      else (readName (opened - 1) rest).map fun (name, after) => (c :: name, after)
    else (readName (if c = '(' then opened + 1 else opened) rest).map
      fun (name, after) => (c :: name, after)

/-- Whether a character is a flag of a directive. -/
def isFlag (c : Char) : Bool := ['-', '+', ' ', '#', '0'].contains c

/-- What follows the letter for a size, if there is one. -/
def dropSize : List Char → List Char
  | [] => []
  | c :: rest => if ['h', 'l', 'L'].contains c then rest else c :: rest

/-- Read what follows the name of a directive, and leave what follows the directive. -/
def readAfterName (name : Option String) (cs : List Char) : Directive × List Char :=
  let width := Measure.read (cs.dropWhile isFlag)
  let precision := Measure.readAfterPoint width.2
  let ending := dropSize precision.2
  (⟨name, width.1, precision.1, ending.head?⟩, ending.drop 1)

/-- Read a directive after its percent sign, and leave what follows it. -/
def read : List Char → Directive × List Char
  | '(' :: rest =>
    match readName 0 rest with
    | some (name, after) => readAfterName (some (String.ofList name)) after
    | none => readAfterName none []
  | cs => readAfterName none cs

/-- What follows a name is shorter than what the name was read from. -/
theorem length_readName_lt {opened : Nat} {cs name after : List Char}
    (found : readName opened cs = some (name, after)) : after.length < cs.length := by
  induction cs generalizing opened name after with
  | nil => simp [readName] at found
  | cons c rest hypothesis =>
    have later {depth : Nat}
        (mapped : ((readName depth rest).map fun (name, after) => (c :: name, after)) =
          some (name, after)) : after.length < (c :: rest).length := by
      obtain ⟨⟨inner, remaining⟩, read, same⟩ := Option.map_eq_some_iff.mp mapped
      obtain ⟨_, rfl⟩ := Prod.mk.inj same
      exact Nat.lt_succ_of_lt (hypothesis read)
    unfold readName at found
    split at found
    · split at found
      · obtain ⟨_, rfl⟩ := Prod.mk.inj (Option.some.inj found)
        exact Nat.lt_succ_self _
      · exact later found
    · exact later found

/-- What follows the letter for a size is no longer than what it was read from. -/
theorem length_dropSize_le (cs : List Char) : (dropSize cs).length ≤ cs.length := by
  unfold dropSize
  split
  · exact Nat.le_refl _
  · split
    · exact Nat.le_succ _
    · exact Nat.le_refl _

/-- What follows a directive is no longer than what follows its name. -/
theorem length_readAfterName_le (name : Option String) (cs : List Char) :
    (readAfterName name cs).2.length ≤ cs.length := by
  have flags := (List.dropWhile_sublist (l := cs) isFlag).length_le
  have width := Measure.length_read_le (cs.dropWhile isFlag)
  have precision := Measure.length_readAfterPoint_le (Measure.read (cs.dropWhile isFlag)).2
  have size := length_dropSize_le
    (Measure.readAfterPoint (Measure.read (cs.dropWhile isFlag)).2).2
  simp only [readAfterName, List.length_drop]
  omega

/-- What follows a directive is no longer than what it was read from. -/
theorem length_read_le (cs : List Char) : (read cs).2.length ≤ cs.length := by
  unfold read
  split
  · split
    · rename_i found
      exact Nat.le_succ_of_le
        (Nat.le_trans (length_readAfterName_le _ _) (Nat.le_of_lt (length_readName_lt found)))
    · exact Nat.le_trans (length_readAfterName_le none []) (Nat.zero_le _)
  · exact length_readAfterName_le none _

end Directive

/-- The pieces of a text in order. Two percent signs stand for one. -/
def TemplatePiece.ofChars : List Char → List TemplatePiece
  | [] => []
  | '%' :: '%' :: rest => character '%' :: ofChars rest
  | '%' :: rest => directive (Directive.read rest).1 :: ofChars (Directive.read rest).2
  | c :: rest => character c :: ofChars rest
termination_by cs => cs.length
decreasing_by
  · exact Nat.lt_succ_of_lt (Nat.lt_succ_self _)
  · exact Nat.lt_succ_of_le (Directive.length_read_le rest)
  · exact Nat.lt_succ_self _

end ExactQuadrature

/-! # Lines of a text

A text is cut into lines at every line feed, carriage return, pair of the two, vertical tab, form
feed, separator of files, groups or records, next-line character, and line or paragraph separator.
The terminators are not part of the lines, and a text that ends in a terminator has no further
empty line. -/

namespace ExactQuadrature

namespace Text

/-- Write every carriage return, alone or before a line feed, as a single line feed. -/
def unifyNewlines : List Char → List Char
  | [] => []
  | '\r' :: '\n' :: rest => '\n' :: unifyNewlines rest
  | c :: rest => (if c = '\r' then '\n' else c) :: unifyNewlines rest

/-- The characters that end a line. -/
def isLineEnd (c : Char) : Bool :=
  [0x0a, 0x0b, 0x0c, 0x0d, 0x1c, 0x1d, 0x1e, 0x85, 0x2028, 0x2029].contains c.toNat

/-- Cut at every line end. What follows the last one is a line only if it is not empty. -/
def splitLines : List Char → List (List Char)
  | [] => []
  | c :: rest =>
    if isLineEnd c then [] :: splitLines rest
    else
      match splitLines rest with
      | line :: lines => (c :: line) :: lines
      | [] => [[c]]

/-- The lines of a text. -/
def linesOf (text : String) : List String :=
  (splitLines (unifyNewlines text.toList)).map String.ofList

end Text

end ExactQuadrature

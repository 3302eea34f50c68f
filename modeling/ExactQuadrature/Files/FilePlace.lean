import ExactQuadrature.Fault

/-! # Places of files

A path leads to a place: names one below the other, from the root or from the working directory.
Empty names and references to the directory itself do not count, so different paths can lead to
the same place.

A path without a null character and with fewer than 4096 bytes can be followed, and a name has at
most 255 bytes. -/

namespace ExactQuadrature

/-- A place under the root or under the working directory. -/
structure FilePlace where
  fromRoot : Bool
  names : List String
deriving DecidableEq, Inhabited

namespace FilePlace

/-- Cut a path at every slash. -/
def cut : List Char → List (List Char)
  | [] => [[]]
  | c :: rest =>
    if c = '/' then [] :: cut rest
    else
      match cut rest with
      | name :: names => (c :: name) :: names
      | [] => [[c]]

/-- The place that a path leads to. -/
def ofPath (path : String) : FilePlace where
  fromRoot := path.toList.head? = some '/'
  names := ((cut path.toList).map String.ofList).filter fun name => name ≠ "" ∧ name ≠ "."

/-- Why a text is no path that can be followed, if that is so. -/
def textFault? (path : String) : Option PathFault :=
  if path.toList.contains '\x00' then some .nullCharacter
  else if 4096 ≤ path.utf8ByteSize then some .nameTooLong
  else none

/-- Whether the innermost name of a place is too long. -/
def isTooLong (place : FilePlace) : Bool :=
  match place.names.getLast? with
  | some name => 255 < name.utf8ByteSize
  | none => false

/-- The shortest path to a place; the working directory itself has the empty one. -/
def path (place : FilePlace) : String :=
  (if place.fromRoot then "/" else "") ++ "/".intercalate place.names

/-- The place that another one lies directly in. -/
def parent (place : FilePlace) : FilePlace := { place with names := place.names.dropLast }

/-- The places on the way to another one, from the outermost inwards and without that one. -/
def outer (place : FilePlace) : List FilePlace :=
  (List.range place.names.length).map fun depth => { place with names := place.names.take depth }

/-- Whether a place is the root, the working directory or one of the directories around it. -/
def isAround (place : FilePlace) : Bool := place.names.all (· = "..")

end FilePlace

end ExactQuadrature

import ExactQuadrature.Files.FileSet

/-! # Replacing files as a whole

A file is replaced by writing its new content to a temporary file and moving that into place at
the end. As long as the writing goes on, and if it is given up, the files remain as they were. A
content that cannot be moved into place stays behind as a temporary file, and one that is moved
into a directory keeps its temporary name there. -/

namespace ExactQuadrature

/-- Files, and the number of temporary files beside them. -/
structure Workplace where
  files : FileSet
  leftovers : Nat
deriving Inhabited

/-- A replacement under way: the workplace with its temporary file, and the text written to that. -/
structure Replacement where
  place : Workplace
  text : String
deriving Inhabited

namespace Workplace

/-- The same workplace with one more temporary file. -/
def leaveBehind (place : Workplace) : Workplace := { place with leftovers := place.leftovers + 1 }

/-- The same workplace with one temporary file less. -/
def takeAway (place : Workplace) : Workplace := { place with leftovers := place.leftovers - 1 }

/-- Why nothing can be moved to a path, if that is so. -/
def moveFault? (files : FileSet) (path : String) : Option PathFault :=
  if FilePlace.textFault? path = none ∧ path ≠ "" ∧ files.isDirectory (FilePlace.ofPath path) then
    none
  else if files.asksForDirectory path then some .noSuchDirectory
  else files.fault? path

end Workplace

namespace Replacement

/-- Begin with an empty temporary file. -/
def start (place : Workplace) : Replacement := ⟨place.leaveBehind, ""⟩

/-- Write a text to the temporary file. -/
def write (replacement : Replacement) (text : String) : Replacement :=
  { replacement with text := replacement.text ++ text }

/-- What can be seen of the files after each text that is written. -/
def sightings (replacement : Replacement) : List String → List FileSet
  | [] => []
  | text :: rest =>
    let written := replacement.write text
    written.place.files :: written.sightings rest

/-- Give up, and remove the temporary file. -/
def discard (replacement : Replacement) : Workplace := replacement.place.takeAway

/-- Move the temporary file to a path. -/
def moveTo (replacement : Replacement) (path : String) : Except Fault Unit × Workplace :=
  match replacement.place.files.write path replacement.text.toUTF8 with
  | .ok files => (.ok (), { replacement.place.takeAway with files := files })
  | .error _ =>
    match Workplace.moveFault? replacement.place.files path with
    | none => (.ok (), replacement.place)
    | some fault => (.error (.path fault path), replacement.place)

end Replacement

namespace Workplace

/-- What can be seen of the files after every text written to a replacement that is not yet in
place. -/
def sightings (place : Workplace) (texts : List String) : List FileSet :=
  (Replacement.start place).sightings texts

/-- Replace a file by texts written one after the other, or give up before the end. -/
def replace (place : Workplace) (path : String) (texts : List String) (giveUp : Option Fault) :
    Except Fault Unit × Workplace :=
  let written := texts.foldl Replacement.write (.start place)
  match giveUp with
  | some fault => (.error fault, written.discard)
  | none => written.moveTo path

/-- Replace the file at a path, if there is a path. Without one the content has nowhere to go. -/
def replace? (place : Workplace) (path : Option String) (texts : List String)
    (giveUp : Option Fault) : Except Fault Unit × Workplace :=
  match path, giveUp with
  | some path, _ => place.replace path texts giveUp
  | none, some fault => (.error fault, place)
  | none, none => (.error .noPath, place.leaveBehind)

end Workplace

end ExactQuadrature

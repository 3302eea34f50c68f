import ExactQuadrature.Entries
import ExactQuadrature.Fault
import ExactQuadrature.Files.FilePlace
import ExactQuadrature.Text.Lines

/-! # Sets of files

A set of files holds the bytes of each file under the shortest path to its place, and the shortest
paths of the directories that are known besides those around the working directory. A path leads
to a file if its place lies in a known directory. A path through a file leads nowhere, and so does
one that asks for a directory where there is a file. -/

namespace ExactQuadrature

/-- Files by their shortest paths, and known directories. -/
structure FileSet where
  entries : Entries ByteArray
  directories : List String := []
deriving Inhabited

namespace FileSet

/-- The bytes of the file at a shortest path. -/
def get? (files : FileSet) (name : String) : Option ByteArray := files.entries.get? name

/-- The same files with one written anew. -/
def put (files : FileSet) (name : String) (content : ByteArray) : FileSet :=
  { files with entries := files.entries.put name content }

/-- Writing a file anew changes that file and no other one. -/
theorem get?_put (files : FileSet) (name other : String) (content : ByteArray) :
    (files.put name content).get? other =
      if other = name then some content else files.get? other :=
  Entries.get?_put files.entries name other content

/-- Whether there is a file at a place. -/
def isFile (files : FileSet) (place : FilePlace) : Bool := (files.get? place.path).isSome

/-- Whether a place is a known directory. -/
def isDirectory (files : FileSet) (place : FilePlace) : Bool :=
  place.isAround || files.directories.contains place.path

/-- Why a path does not lead on from a place that is no directory. -/
def obstacle (files : FileSet) (place : FilePlace) : PathFault :=
  if files.isFile place then .notADirectory
  else if place.isTooLong then .nameTooLong
  else .missing

/-- Why a path leads to no file, if that is so. -/
def fault? (files : FileSet) (path : String) : Option PathFault :=
  let place := FilePlace.ofPath path
  match FilePlace.textFault? path with
  | some fault => some fault
  | none =>
    if path = "" then some .missing
    else if files.isDirectory place then some .isADirectory
    else if files.isDirectory place.parent then
      if place.isTooLong then some .nameTooLong
      else if path.endsWith "/" || path.endsWith "/." then
        some (if files.isFile place then .notADirectory else .missing)
      else none
    else
      match place.outer.find? fun outer => !files.isDirectory outer with
      | some outer => some (files.obstacle outer)
      | none => some .missing

/-- The shortest path to the file that a path leads to. -/
def resolve (files : FileSet) (path : String) : Except Fault String :=
  match files.fault? path with
  | none => .ok (FilePlace.ofPath path).path
  | some fault => .error (.path fault path)

/-- The bytes of the file that a path leads to. -/
def read (files : FileSet) (path : String) : Except Fault ByteArray := do
  match files.get? (← files.resolve path) with
  | some content => return content
  | none => .error (.path .missing path)

/-- Whether a path asks for a directory where only a file could be made. -/
def asksForDirectory (files : FileSet) (path : String) : Bool :=
  (FilePlace.textFault? path).isNone && path.endsWith "/" &&
    files.isDirectory (FilePlace.ofPath path).parent

/-- Write the file that a path leads to. -/
def write (files : FileSet) (path : String) (content : ByteArray) : Except Fault FileSet :=
  if files.asksForDirectory path then .error (.path .isADirectory path)
  else do return files.put (← files.resolve path) content

end FileSet

/-- The lines of stored text. -/
def linesOfBytes (content : ByteArray) : Except Fault (List String) :=
  match Text.decode content with
  | .ok text => .ok (Text.linesOf text)
  | .error fault => .error (.encoding fault)

end ExactQuadrature

import ExactQuadrature.Program

/-! # The command line

The program reads the files that its command line names, runs, and stores what the run has
changed. All that a run decides is decided by `Program.perform`. The clock of the journal stands
still here, so every duration it notes is zero. -/

namespace ExactQuadrature

namespace Stored

/-- Whether there is a directory at a place. -/
def isDirectory (place : FilePlace) : IO Bool := do
  try
    let _ ← IO.FS.realPath (place.path ++ "/.")
    return true
  catch _ => return false

/-- Add what is found at a place to a set of files. -/
def addFound (files : FileSet) (place : FilePlace) : IO FileSet := do
  if place.isAround then return files
  if ← isDirectory place then
    return { files with directories := place.path :: files.directories }
  try
    return files.put place.path (← IO.FS.readBinFile place.path)
  catch _ => return files

/-- The files and directories on the way to some paths. -/
def gather (paths : List String) : IO FileSet :=
  let places := (paths.map FilePlace.ofPath).flatMap fun place => place.outer ++ [place]
  places.eraseDups.foldlM addFound { entries := [] }

/-- Store the files that differ from those in another set. -/
def storeChanges (before after : FileSet) : IO Unit :=
  after.entries.forM fun (path, content) => do
    if (before.get? path).map ByteArray.toList ≠ some content.toList then
      let draft := path ++ ".part"
      IO.FS.writeBinFile draft content
      IO.FS.rename draft path

end Stored

/-- Do what a command line requests, with the files that are stored. The result is the status to
exit with. -/
def performStored (session : Session) (request : Program.Request) : IO UInt32 := do
  let files ← Stored.gather
    (request.input :: session.registry.profile :: request.output.toList)
  let input ←
    if request.input = Program.standardStream then (← IO.getStdin).readBinToEnd
    else pure ByteArray.empty
  let session := { session with place := ⟨files, 0⟩ }
  let (result, later) := Program.perform session input request
  Stored.storeChanges files later.place.files
  (← IO.getStdout).putStr result.output
  (← IO.getStderr).putStr (result.report later.journal)
  return result.status.toUInt32

end ExactQuadrature

open ExactQuadrature in
/-- Run the program with the words of its command line. -/
def main (arguments : List String) : IO UInt32 := do
  let session : Session := ⟨⟨{ entries := [] }, 0⟩, Registry.standard, Journal.new false []⟩
  match Program.start session arguments with
  | (.ok request, session) => performStored session request
  | (.error result, session) =>
    match result with
    | .exited .helped => (← IO.getStdout).putStr (Program.usage session.registry)
    | .exited .refused => (← IO.getStderr).putStr (Program.usage session.registry)
    | result => (← IO.getStderr).putStr (result.report session.journal)
    return result.status.toUInt32

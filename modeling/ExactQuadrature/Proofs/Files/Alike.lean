import ExactQuadrature.Proofs.Files.Blocks

/-! # Files with the same lines

Sets of files with the same directories and names, and with the same lines in every file, cannot be
told apart by paths or by reading lines. Writing a file succeeds for all of them or for none
(`FileSet.write_alike`), and replacing one ends in the same way and makes the same changes
(`Workplace.replace?_alike`).
-/

namespace ExactQuadrature

namespace FileSet

/-- The same directories, the same names, and the same lines in every file. -/
structure Alike (files other : FileSet) : Prop where
  lines : ∀ name, (files.get? name).map linesOfBytes = (other.get? name).map linesOfBytes
  directories : files.directories = other.directories

/-- The same files with some written anew, one after the other. -/
def putAll (files : FileSet) (changes : Entries ByteArray) : FileSet :=
  changes.foldl (fun files change => files.put change.1 change.2) files

/-- Changes in turn are the first ones and then the others. -/
theorem putAll_append (files : FileSet) (changes more : Entries ByteArray) :
    files.putAll (changes ++ more) = (files.putAll changes).putAll more :=
  List.foldl_append

variable {files other : FileSet}

theorem Alike.put (alike : files.Alike other) (name : String) (content : ByteArray) :
    (files.put name content).Alike (other.put name content) := by
  refine ⟨fun asked => ?_, alike.directories⟩
  rw [get?_put, get?_put]
  split
  · rfl
  · exact alike.lines asked

/-- The same changes keep files alike. -/
theorem Alike.putAll (alike : files.Alike other) (changes : Entries ByteArray) :
    (files.putAll changes).Alike (other.putAll changes) := by
  induction changes generalizing files other with
  | nil => exact alike
  | cons change rest ih => exact ih (alike.put change.1 change.2)

theorem Alike.isFile (alike : files.Alike other) (place : FilePlace) :
    files.isFile place = other.isFile place := by
  have same := congrArg Option.isSome (alike.lines place.path)
  rwa [Option.isSome_map, Option.isSome_map] at same

theorem Alike.isDirectory (alike : files.Alike other) (place : FilePlace) :
    files.isDirectory place = other.isDirectory place :=
  isDirectory_congr alike.directories place

/-- **Paths lead to the same places**, or fail for the same reason. -/
theorem Alike.fault? (alike : files.Alike other) (path : String) :
    files.fault? path = other.fault? path := by
  simp only [FileSet.fault?, obstacle, alike.isFile, alike.isDirectory]

/-- Alike files lead a path to the same place. -/
theorem Alike.resolve (alike : files.Alike other) (path : String) :
    files.resolve path = other.resolve path := by
  simp only [FileSet.resolve, alike.fault? path]

/-- A path asks for a directory among alike files in the same way. -/
theorem Alike.asksForDirectory (alike : files.Alike other) (path : String) :
    files.asksForDirectory path = other.asksForDirectory path := by
  simp only [FileSet.asksForDirectory, alike.isDirectory]

/-- **The same lines are read.** -/
theorem Alike.read (alike : files.Alike other) (path : String) :
    (files.read path >>= linesOfBytes) = (other.read path >>= linesOfBytes) := by
  simp only [FileSet.read, alike.resolve path]
  cases other.resolve path with
  | error fault => rfl
  | ok name =>
    have lines := alike.lines name
    simp only [bind_ok]
    cases found : files.get? name with
    | none =>
      rw [found, Option.map_none, eq_comm, Option.map_eq_none_iff] at lines
      rw [lines]
    | some content =>
      rw [found, Option.map_some, eq_comm, Option.map_eq_some_iff] at lines
      obtain ⟨_, also, same⟩ := lines
      rw [also]
      exact same.symm

/-- **A file is written in all sets of files alike**, or in none for one reason. -/
theorem write_alike (files : FileSet) (path : String) (content : ByteArray) :
    (∃ name, ∀ other, files.Alike other → other.write path content = .ok (other.put name content)) ∨
      ∃ fault, ∀ other, files.Alike other → other.write path content = .error fault := by
  cases leads : files.resolve path with
  | ok name =>
    refine .inl ⟨name, fun other alike => write_of_resolve ?_ content⟩
    rw [← alike.resolve path, leads]
  | error fault =>
    refine .inr ⟨if files.asksForDirectory path then .path .isADirectory path else fault,
      fun other alike => ?_⟩
    simp only [write, ← alike.asksForDirectory path, ← alike.resolve path, leads, bind_error]
    split <;> rfl

end FileSet

namespace Workplace

/-- A final move fails in both for the same reason or in neither. -/
theorem moveFault?_alike {files other : FileSet} (alike : files.Alike other) (path : String) :
    moveFault? files path = moveFault? other path := by
  simp only [moveFault?, alike.isDirectory, alike.asksForDirectory path, alike.fault? path]

/-- **A file is replaced in the same way in all sets of files alike.** -/
theorem replace?_alike (place : Workplace) (target : Option String) (texts : List String)
    (giveUp : Option Fault) : ∃ outcome leftovers changes, ∀ other, place.files.Alike other →
      replace? ⟨other, place.leftovers⟩ target texts giveUp =
        (outcome, ⟨other.putAll changes, leftovers⟩) := by
  cases target with
  | none =>
    cases giveUp with
    | some fault => exact ⟨.error fault, place.leftovers, [], fun _ _ => rfl⟩
    | none => exact ⟨.error .noPath, place.leftovers + 1, [], fun _ _ => rfl⟩
  | some path =>
    simp only [replace?, replace_eq]
    cases giveUp with
    | some fault => exact ⟨.error fault, place.leftovers, [], fun _ _ => rfl⟩
    | none =>
      obtain ⟨name, written⟩ | ⟨fault, failed⟩ :=
        place.files.write_alike path (String.join texts).toUTF8
      · refine ⟨.ok (), place.leftovers, [(name, (String.join texts).toUTF8)],
          fun other alike => ?_⟩
        simp only [written other alike]
        rfl
      · cases moves : moveFault? place.files path with
        | none =>
          refine ⟨.ok (), place.leftovers + 1, [], fun other alike => ?_⟩
          simp only [failed other alike, ← moveFault?_alike alike, moves]
          rfl
        | some reason =>
          refine ⟨.error (.path reason path), place.leftovers + 1, [], fun other alike => ?_⟩
          simp only [failed other alike, ← moveFault?_alike alike, moves]
          rfl

end Workplace

end ExactQuadrature

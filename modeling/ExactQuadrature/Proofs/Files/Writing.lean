import ExactQuadrature.Files.Replacement
import ExactQuadrature.Proofs.Outcome

/-! # Writing files

Whether a path leads to a file is a matter of the known directories and not of the files in them
(`FileSet.fault?_eq_none_iff`), so it is the same after every write. What is written to a
replacement under way changes no file (`Replacement.foldl_write`), so a replacement comes down to
what is done at its end (`Workplace.replace_eq`). A path that leads to a file can be written to
(`FileSet.write_of_resolve`), and then replacing the file either gives up and changes nothing or
puts the whole content in place (`Workplace.replace_of_resolve`).
-/

namespace ExactQuadrature

/-- How a path does not end that asks for a file. -/
theorem FilePlace.ends_eq_false_iff {path : String} :
    (path.endsWith "/" || path.endsWith "/.") = false ↔
      ¬['/'] <:+ path.toList ∧ ¬['/', '.'] <:+ path.toList := by
  have ends (final : String) : path.endsWith final = true ↔ final.toList <:+ path.toList := by
    rw [String.endsWith, String.Slice.endsWith_string_iff, String.copy_toSlice]
  rw [Bool.or_eq_false_iff, Bool.eq_false_iff, Bool.eq_false_iff, ne_eq, ne_eq, ends, ends]
  exact Iff.rfl

/-- A text without a slash is cut nowhere. -/
theorem FilePlace.cut_of_not_mem {cs : List Char} (whole : '/' ∉ cs) : cut cs = [cs] := by
  induction cs with
  | nil => rfl
  | cons c rest hypothesis =>
    obtain ⟨other, later⟩ := List.ne_and_not_mem_of_not_mem_cons whole
    rw [cut, if_neg other.symm, hypothesis later]

/-- A name is the path to a place directly in the working directory. -/
theorem FilePlace.ofPath_name {cs : List Char} (whole : '/' ∉ cs) (present : cs ≠ [])
    (proper : cs ≠ ['.']) : ofPath (String.ofList cs) = ⟨false, [String.ofList cs]⟩ := by
  have apart {other : List Char} (differs : cs ≠ other) : String.ofList cs ≠ String.ofList other :=
    fun same => differs (by simpa using congrArg String.toList same)
  have relative : cs.head? ≠ some '/' := fun first => whole (List.mem_of_mem_head? first)
  have kept : String.ofList cs ≠ "" ∧ String.ofList cs ≠ "." := ⟨apart present, apart proper⟩
  simp [ofPath, cut_of_not_mem whole, relative, kept]

namespace FileSet

variable {files other : FileSet} {path name : String}

/-- What makes a path lead to a file: its place is no directory but lies in one, and neither the
name nor the end of the path asks for something else. -/
structure Reaches (files : FileSet) (path : String) : Prop where
  text : FilePlace.textFault? path = none
  present : path ≠ ""
  noDirectory : files.isDirectory (FilePlace.ofPath path) = false
  around : files.isDirectory (FilePlace.ofPath path).parent = true
  short : (FilePlace.ofPath path).isTooLong = false
  ends : (path.endsWith "/" || path.endsWith "/.") = false

instance (files : FileSet) (path : String) : Decidable (files.Reaches path) :=
  decidable_of_iff
    (FilePlace.textFault? path = none ∧ path ≠ "" ∧
      files.isDirectory (FilePlace.ofPath path) = false ∧
      files.isDirectory (FilePlace.ofPath path).parent = true ∧
      (FilePlace.ofPath path).isTooLong = false ∧
      ¬['/'] <:+ path.toList ∧ ¬['/', '.'] <:+ path.toList)
    ⟨fun ⟨text, present, noDirectory, around, short, ends⟩ =>
      ⟨text, present, noDirectory, around, short, FilePlace.ends_eq_false_iff.mpr ends⟩,
    fun ⟨text, present, noDirectory, around, short, ends⟩ =>
      ⟨text, present, noDirectory, around, short, FilePlace.ends_eq_false_iff.mp ends⟩⟩

/-- Whether a place is a directory depends on the known directories alone. -/
theorem isDirectory_congr (same : files.directories = other.directories) (place : FilePlace) :
    files.isDirectory place = other.isDirectory place := by
  rw [isDirectory, isDirectory, same]

/-- Whether a path leads to a file depends on the known directories alone. -/
theorem Reaches.congr (reaches : files.Reaches path)
    (same : files.directories = other.directories) : other.Reaches path where
  text := reaches.text
  present := reaches.present
  noDirectory := (isDirectory_congr same _).symm.trans reaches.noDirectory
  around := (isDirectory_congr same _).symm.trans reaches.around
  short := reaches.short
  ends := reaches.ends

/-- A path leads to a file if and only if it has no fault. -/
theorem fault?_eq_none_iff : files.fault? path = none ↔ files.Reaches path := by
  unfold fault?
  dsimp only
  cases text : FilePlace.textFault? path with
  | some fault => exact ⟨nofun, fun reaches => nomatch text.symm.trans reaches.text⟩
  | none =>
    by_cases empty : path = ""
    · rw [if_pos empty]
      exact ⟨nofun, fun reaches => absurd empty reaches.present⟩
    rw [if_neg empty]
    by_cases own : files.isDirectory (FilePlace.ofPath path) = true
    · rw [if_pos own]
      exact ⟨nofun, fun reaches => absurd own (Bool.eq_false_iff.mp reaches.noDirectory)⟩
    rw [if_neg own]
    by_cases around : files.isDirectory (FilePlace.ofPath path).parent = true
    · rw [if_pos around]
      by_cases long : (FilePlace.ofPath path).isTooLong = true
      · rw [if_pos long]
        exact ⟨nofun, fun reaches => absurd long (Bool.eq_false_iff.mp reaches.short)⟩
      rw [if_neg long]
      by_cases slash : (path.endsWith "/" || path.endsWith "/.") = true
      · rw [if_pos slash]
        exact ⟨nofun, fun reaches => absurd slash (Bool.eq_false_iff.mp reaches.ends)⟩
      rw [if_neg slash]
      exact ⟨fun _ => ⟨text, empty, Bool.eq_false_iff.mpr own, around, Bool.eq_false_iff.mpr long,
        Bool.eq_false_iff.mpr slash⟩, fun _ => rfl⟩
    · rw [if_neg around]
      refine ⟨fun faultless => ?_, fun reaches => absurd reaches.around around⟩
      cases blocked : (FilePlace.ofPath path).outer.find? fun outer => !files.isDirectory outer with
      | some outer =>
        rw [blocked] at faultless
        cases faultless
      | none =>
        rw [blocked] at faultless
        cases faultless

/-- A path that leads to a directory, which takes in what is moved there. -/
def LeadsToDirectory (files : FileSet) (path : String) : Prop :=
  FilePlace.textFault? path = none ∧ path ≠ "" ∧
    files.isDirectory (FilePlace.ofPath path) = true

instance (files : FileSet) (path : String) : Decidable (files.LeadsToDirectory path) :=
  inferInstanceAs (Decidable (_ ∧ _ ∧ _))

/-- A path without a fault leads to the file under the shortest path to its place. -/
theorem resolve_eq_ok_iff :
    files.resolve path = .ok name ↔
      files.fault? path = none ∧ (FilePlace.ofPath path).path = name := by
  unfold resolve
  cases files.fault? path with
  | none => exact ⟨fun same => ⟨rfl, Except.ok.inj same⟩, fun both => congrArg Except.ok both.2⟩
  | some fault => exact ⟨(fun impossible => nomatch impossible), fun both => nomatch both.1⟩

/-- A path that leads to a file is the shortest one to its place, or another one for it. -/
theorem resolve_of_reaches (reaches : files.Reaches path) :
    files.resolve path = .ok (FilePlace.ofPath path).path :=
  resolve_eq_ok_iff.mpr ⟨fault?_eq_none_iff.mpr reaches, rfl⟩

/-- Writing a file does not change where paths lead. -/
theorem resolve_put {written : String} {content : ByteArray} :
    (files.put written content).resolve path = .ok name ↔ files.resolve path = .ok name := by
  have same : (files.put written content).Reaches path ↔ files.Reaches path :=
    ⟨(·.congr rfl), (·.congr rfl)⟩
  rw [resolve_eq_ok_iff, resolve_eq_ok_iff, fault?_eq_none_iff, fault?_eq_none_iff, same]

/-- A path that leads to a file can be written to. -/
theorem write_of_resolve (leads : files.resolve path = .ok name) (content : ByteArray) :
    files.write path content = .ok (files.put name content) := by
  have reaches := fault?_eq_none_iff.mp (resolve_eq_ok_iff.mp leads).1
  have asks : files.asksForDirectory path = false := by
    unfold asksForDirectory
    rw [(Bool.or_eq_false_iff.mp reaches.ends).1, Bool.and_false, Bool.false_and]
  unfold write
  rw [asks, if_neg Bool.false_ne_true, leads]
  rfl

/-- Whether a file can be written, and where, does not depend on what is written. -/
theorem write_cases (files : FileSet) (path : String) :
    (∃ name, files.resolve path = .ok name ∧
        ∀ content, files.write path content = .ok (files.put name content)) ∨
      (∀ name, files.resolve path ≠ .ok name) ∧
        ∃ fault, ∀ content, files.write path content = .error fault := by
  cases leads : files.resolve path with
  | ok name => exact .inl ⟨name, rfl, write_of_resolve leads⟩
  | error fault =>
    refine .inr ⟨fun name => nofun, ?_⟩
    simp only [write, leads, bind_error]
    split
    · exact ⟨_, fun _ => rfl⟩
    · exact ⟨_, fun _ => rfl⟩

/-- Nothing can be written to a path that leads to no file. -/
theorem write_of_not_reaches (astray : ¬files.Reaches path) (content : ByteArray) :
    ∃ fault, files.write path content = .error fault := by
  obtain ⟨name, leads, _⟩ | ⟨_, fault, failed⟩ := files.write_cases path
  · exact absurd (fault?_eq_none_iff.mp (resolve_eq_ok_iff.mp leads).1) astray
  · exact ⟨fault, failed content⟩

/-- What is not moved into a directory has to reach a file. -/
theorem moveFault?_of_elsewhere (elsewhere : ¬files.LeadsToDirectory path) :
    Workplace.moveFault? files path =
      if files.asksForDirectory path then some .noSuchDirectory else files.fault? path :=
  if_neg elsewhere

/-- Nothing can be moved to a path that leads neither to a file nor to a directory. -/
theorem exists_moveFault (elsewhere : ¬files.LeadsToDirectory path)
    (astray : ¬files.Reaches path) : ∃ fault, Workplace.moveFault? files path = some fault := by
  rw [moveFault?_of_elsewhere elsewhere]
  split
  · exact ⟨_, rfl⟩
  · exact Option.ne_none_iff_exists'.mp (mt fault?_eq_none_iff.mp astray)

end FileSet

/-- What is written to a replacement changes its text alone. -/
theorem Replacement.foldl_write (replacement : Replacement) (texts : List String) :
    texts.foldl write replacement =
      ⟨replacement.place, replacement.text ++ String.join texts⟩ := by
  induction texts generalizing replacement with
  | nil => simp
  | cons text rest ih => simp [ih, write, String.append_assoc]

namespace Workplace

/-- A replacement does at its end all that it does. -/
theorem replace_eq (place : Workplace) (path : String) (texts : List String)
    (giveUp : Option Fault) :
    place.replace path texts giveUp =
      match giveUp with
      | some fault => (.error fault, place)
      | none =>
        match place.files.write path (String.join texts).toUTF8 with
        | .ok files => (.ok (), { place with files := files })
        | .error _ =>
          match moveFault? place.files path with
          | none => (.ok (), place.leaveBehind)
          | some fault => (.error (.path fault path), place.leaveBehind) := by
  simp only [replace, Replacement.foldl_write, Replacement.start, String.empty_append]
  rfl

/-- Replacing a file does not change where paths lead. -/
theorem resolve_replace? (place : Workplace) (target : Option String) (texts : List String)
    (giveUp : Option Fault) {path name : String} :
    (place.replace? target texts giveUp).2.files.resolve path = .ok name ↔
      place.files.resolve path = .ok name := by
  cases target with
  | none => cases giveUp <;> exact Iff.rfl
  | some target =>
    simp only [replace?, replace_eq]
    cases giveUp with
    | some fault => exact Iff.rfl
    | none =>
      obtain ⟨other, _, written⟩ | ⟨_, fault, failed⟩ := place.files.write_cases target
      · simp only [written]
        exact FileSet.resolve_put
      · simp only [failed]
        cases moveFault? place.files target <;> exact Iff.rfl

/-- A file is replaced by the whole content, or nothing changes. -/
theorem replace_of_resolve {place : Workplace} {path name : String}
    (leads : place.files.resolve path = .ok name) (texts : List String) (giveUp : Option Fault) :
    place.replace? (some path) texts giveUp =
      match giveUp with
      | some fault => (.error fault, place)
      | none => (.ok (),
          { place with files := place.files.put name (String.join texts).toUTF8 }) := by
  simp only [replace?, replace_eq, FileSet.write_of_resolve leads]

/-- A content that can be moved neither to a file nor into a directory stays behind as a temporary
file, and the files remain as they were. -/
theorem replace_of_not_reaches {place : Workplace} {path : String}
    (elsewhere : ¬place.files.LeadsToDirectory path) (astray : ¬place.files.Reaches path)
    (texts : List String) (giveUp : Option Fault) :
    ∃ raised, place.replace? (some path) texts giveUp =
      (.error raised, if giveUp = none then place.leaveBehind else place) := by
  cases giveUp with
  | some fault =>
    refine ⟨fault, ?_⟩
    simp only [replace?, replace_eq, reduceCtorEq, ↓reduceIte]
  | none =>
    obtain ⟨failed, written⟩ :=
      FileSet.write_of_not_reaches astray (String.join texts).toUTF8
    obtain ⟨fault, moved⟩ := FileSet.exists_moveFault elsewhere astray
    refine ⟨.path fault path, ?_⟩
    simp only [replace?, replace_eq, written, moved, ↓reduceIte]

end Workplace

end ExactQuadrature

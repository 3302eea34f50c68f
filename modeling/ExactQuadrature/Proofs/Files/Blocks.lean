import ExactQuadrature.Proofs.Files.Writing
import Mathlib.Data.List.Induction

/-! # Replacements one after the other

A block replaces the file that its path names, or gives up at its end. While it is open nothing is
seen of what it writes (`Workplace.sightings_eq`). It ends in one of three ways: it gives up and
leaves everything as it was (`Block.run_of_giveUp`), it puts its whole content in place
(`Block.run_of_reaches`), or its content finds no place and stays behind as one more temporary file
(`Block.run_of_misses`). Which of the last two it is depends on the known directories alone, and
blocks do not change these, so after any blocks every file holds what was last put in place for it
(`Workplace.get?_after`), and as many temporary files stay behind as contents found no place
(`Workplace.leftovers_after`).

A path that is meant to name a file fails to lead to one in a few ways, each with a fault of its own
(`FileSet.NamesFile.fault?_eq_some_iff`): it is empty, its text is unfit, a name on it is too long,
or nothing, or a file, stands where it wants to go on.
-/

namespace ExactQuadrature

namespace FilePlace

/-- The empty path has no names. -/
theorem names_ofPath_empty : (ofPath "").names = [] := rfl

/-- The place around another one is the last on the way to it. -/
theorem parent_mem_outer {place : FilePlace} (named : place.names ≠ []) :
    place.parent ∈ place.outer := by
  have length := List.length_pos_iff.mpr named
  simp only [outer, parent, List.mem_map, List.mem_range]
  refine ⟨place.names.length - 1, by omega, ?_⟩
  rw [List.dropLast_eq_take]

end FilePlace

namespace FileSet

/-- A path that is meant to name a file: it does not lead to a directory, nor ask for one. -/
structure NamesFile (files : FileSet) (path : String) : Prop where
  noDirectory : path ≠ "" → files.isDirectory (FilePlace.ofPath path) = false
  ends : (path.endsWith "/" || path.endsWith "/.") = false

/-- The first place on the way of a path that is no directory, where the last one on the way is
none. -/
structure StopsAt (files : FileSet) (path : String) (place : FilePlace) : Prop where
  text : FilePlace.textFault? path = none
  around : files.isDirectory (FilePlace.ofPath path).parent = false
  first : ∃ before after, (FilePlace.ofPath path).outer = before ++ place :: after ∧
    (∀ outer ∈ before, files.isDirectory outer = true) ∧ files.isDirectory place = false

variable {files other : FileSet} {path : String}

/-- Whether a path names a file depends on the directories alone. -/
theorem NamesFile.congr (named : files.NamesFile path)
    (same : files.directories = other.directories) : other.NamesFile path where
  noDirectory present := (isDirectory_congr same _).symm.trans (named.noDirectory present)
  ends := named.ends

/-- A path without a fault of its text, with a name, stops on its way or else at its name. -/
theorem NamesFile.fault?_eq (named : files.NamesFile path) (text : FilePlace.textFault? path = none)
    (present : path ≠ "") :
    (∃ place, files.StopsAt path place ∧ files.fault? path = some (files.obstacle place)) ∨
      files.isDirectory (FilePlace.ofPath path).parent = true ∧
        files.fault? path =
          if (FilePlace.ofPath path).isTooLong then some .nameTooLong else none := by
  simp only [fault?, text, if_neg present, named.noDirectory present, Bool.false_eq_true,
    ↓reduceIte]
  by_cases around : files.isDirectory (FilePlace.ofPath path).parent = true
  · refine .inr ⟨around, ?_⟩
    rw [if_pos around, named.ends]
    simp
  · rw [if_neg around]
    refine .inl ?_
    cases blocked : (FilePlace.ofPath path).outer.find? fun outer => !files.isDirectory outer with
    | some place =>
      obtain ⟨none, before, after, whole, passed⟩ := List.find?_eq_some_iff_append.mp blocked
      refine ⟨place, ⟨text, Bool.eq_false_iff.mpr around, before, after, whole, ?_, ?_⟩, rfl⟩
      · intro outer member
        simpa using passed outer member
      · simpa using none
    | none =>
      -- The last place on the way is no directory, so some place is found unless there is no name.
      exfalso
      have unnamed : (FilePlace.ofPath path).names = [] := by
        by_contra named
        have directory := List.find?_eq_none.mp blocked _ (FilePlace.parent_mem_outer named)
        simp at directory
        exact around directory
      have root : files.isDirectory (FilePlace.ofPath path) = true := by
        simp [isDirectory, FilePlace.isAround, unnamed]
      rw [named.noDirectory present] at root
      cases root

/-- There is one place where a path stops. -/
theorem StopsAt.unique {first second : FilePlace} (stops : files.StopsAt path first)
    (also : files.StopsAt path second) : first = second := by
  have found {place : FilePlace} (stops : files.StopsAt path place) :
      (FilePlace.ofPath path).outer.find? (fun outer => !files.isDirectory outer) = some place := by
    obtain ⟨before, after, whole, passed, none⟩ := stops.first
    apply List.find?_eq_some_iff_append.mpr
    refine ⟨by simp [none], before, after, whole, fun outer member => ?_⟩
    simp [passed outer member]
  exact Option.some.inj ((found stops).symm.trans (found also))

/-- How a path that is meant to name a file fails to lead to one. -/
inductive Misses (files : FileSet) (path : String) : PathFault → Prop where
  | unfit {fault : PathFault} (text : FilePlace.textFault? path = some fault) :
      Misses files path fault
  | empty (absent : path = "") : Misses files path .missing
  | nothing {place : FilePlace} (stops : files.StopsAt path place)
      (noFile : files.isFile place = false) (short : place.isTooLong = false) :
      Misses files path .missing
  | file {place : FilePlace} (stops : files.StopsAt path place)
      (present : files.isFile place = true) : Misses files path .notADirectory
  | longDirectory {place : FilePlace} (stops : files.StopsAt path place)
      (noFile : files.isFile place = false) (long : place.isTooLong = true) :
      Misses files path .nameTooLong
  | longName (text : FilePlace.textFault? path = none)
      (around : files.isDirectory (FilePlace.ofPath path).parent = true)
      (long : (FilePlace.ofPath path).isTooLong = true) : Misses files path .nameTooLong

/-- What stands where a path stops decides on its fault. -/
theorem StopsAt.misses {place : FilePlace} (stops : files.StopsAt path place) :
    files.Misses path (files.obstacle place) := by
  unfold obstacle
  by_cases present : files.isFile place = true
  · rw [if_pos present]
    exact .file stops present
  · rw [if_neg present]
    have noFile := Bool.eq_false_iff.mpr present
    by_cases long : place.isTooLong = true
    · rw [if_pos long]
      exact .longDirectory stops noFile long
    · rw [if_neg long]
      exact .nothing stops noFile (Bool.eq_false_iff.mpr long)

/-- **The faults of file names.** -/
theorem NamesFile.fault?_eq_some_iff (named : files.NamesFile path) {fault : PathFault} :
    files.fault? path = some fault ↔ files.Misses path fault := by
  constructor
  · intro faulty
    cases text : FilePlace.textFault? path with
    | some unfit =>
      simp only [fault?, text] at faulty
      exact .unfit (text.trans faulty)
    | none =>
      by_cases absent : path = ""
      · simp only [fault?, text, if_pos absent] at faulty
        cases faulty
        exact .empty absent
      · obtain ⟨place, stops, same⟩ | ⟨around, same⟩ := named.fault?_eq text absent
        · cases same.symm.trans faulty
          exact stops.misses
        · rw [same] at faulty
          split at faulty
          · cases faulty
            exact .longName text around ‹_›
          · cases faulty
  · intro misses
    -- A path that stops somewhere has a name, and stops nowhere else.
    have stopped {place : FilePlace} (stops : files.StopsAt path place) :
        files.fault? path = some (files.obstacle place) := by
      have present : path ≠ "" := by
        rintro rfl
        obtain ⟨before, after, whole, _⟩ := stops.first
        simp [FilePlace.outer, FilePlace.names_ofPath_empty] at whole
      obtain ⟨other, also, same⟩ | ⟨around, _⟩ := named.fault?_eq stops.text present
      · rw [same, stops.unique also]
      · rw [stops.around] at around
        cases around
    cases misses with
    | unfit text => simp only [fault?, text]
    | empty absent =>
      have text : FilePlace.textFault? path = none := by
        rw [absent]
        decide
      simp only [fault?, text, if_pos absent]
    | nothing stops noFile short => simp [stopped stops, obstacle, noFile, short]
    | file stops present => simp [stopped stops, obstacle, present]
    | longDirectory stops noFile long => simp [stopped stops, obstacle, noFile, long]
    | longName text around long =>
      have present : path ≠ "" := by
        rintro rfl
        simp [FilePlace.isTooLong, FilePlace.names_ofPath_empty] at long
      obtain ⟨place, stops, _⟩ | ⟨_, same⟩ := named.fault?_eq text present
      · rw [stops.around] at around
        cases around
      · rw [same, if_pos long]

/-- A path that is meant to name a file leads to one, or it has a fault. -/
theorem NamesFile.reaches_or_misses (named : files.NamesFile path) :
    files.Reaches path ∨ ∃ fault, files.Misses path fault := by
  cases faulty : files.fault? path with
  | none => exact .inl (fault?_eq_none_iff.mp faulty)
  | some fault => exact .inr ⟨fault, named.fault?_eq_some_iff.mp faulty⟩

/-- A path that is meant to name a file and has a fault cannot be written to, nor moved to. -/
theorem NamesFile.moveFault?_eq (named : files.NamesFile path) :
    Workplace.moveFault? files path = files.fault? path := by
  have elsewhere : ¬files.LeadsToDirectory path := by
    rintro ⟨_, present, directory⟩
    rw [named.noDirectory present] at directory
    cases directory
  rw [moveFault?_of_elsewhere elsewhere, asksForDirectory,
    (Bool.or_eq_false_iff.mp named.ends).1, Bool.and_false, Bool.false_and,
    if_neg Bool.false_ne_true]

/-- A path that misses its file does not reach it. -/
theorem Misses.not_reaches {fault : PathFault} (misses : files.Misses path fault)
    (named : files.NamesFile path) : ¬files.Reaches path := by
  intro reaches
  have faultless := fault?_eq_none_iff.mpr reaches
  rw [named.fault?_eq_some_iff.mpr misses] at faultless
  cases faultless

/-- Writing to a path that misses its file fails with the fault that it meets. -/
theorem NamesFile.write_of_misses (named : files.NamesFile path) {fault : PathFault}
    (misses : files.Misses path fault) (content : ByteArray) :
    files.write path content = .error (.path fault path) := by
  have faulty := named.fault?_eq_some_iff.mpr misses
  simp only [write, asksForDirectory, (Bool.or_eq_false_iff.mp named.ends).1, Bool.and_false,
    Bool.false_and, Bool.false_eq_true, ↓reduceIte, resolve, faulty, bind_error]

end FileSet

/-- A block that replaces the file that a path names by texts, or gives up at its end. -/
structure Block where
  path : String
  texts : List String
  giveUp : Option Fault

namespace Block

/-- What a block ends with, and the workplace after it. -/
def run (block : Block) (place : Workplace) : Except Fault Unit × Workplace :=
  place.replace block.path block.texts block.giveUp

/-- All that a block writes. -/
def content (block : Block) : ByteArray := (String.join block.texts).toUTF8

/-- A block that puts its content in place under a name. -/
def Fills (block : Block) (files : FileSet) (name : String) : Prop :=
  block.giveUp = none ∧ files.Reaches block.path ∧ (FilePlace.ofPath block.path).path = name

/-- A block whose content finds no place. -/
def Strays (block : Block) (files : FileSet) : Prop :=
  block.giveUp = none ∧ ¬files.Reaches block.path

instance (block : Block) (files : FileSet) (name : String) : Decidable (block.Fills files name) :=
  inferInstanceAs (Decidable (_ ∧ _ ∧ _))

instance (block : Block) (files : FileSet) : Decidable (block.Strays files) :=
  inferInstanceAs (Decidable (_ ∧ _))

variable {block : Block} {place : Workplace}

/-- A block that gives up leaves the workplace as it was. -/
theorem run_of_giveUp {fault : Fault} (fails : block.giveUp = some fault) (place : Workplace) :
    block.run place = (.error fault, place) := by
  simp only [run, Workplace.replace_eq, fails]

/-- A block that ends and leads to a file puts its content in place. -/
theorem run_of_reaches (ends : block.giveUp = none) (reaches : place.files.Reaches block.path) :
    block.run place = (.ok (), { place with
      files := place.files.put (FilePlace.ofPath block.path).path block.content }) := by
  have leads := FileSet.resolve_of_reaches reaches
  simp only [run, Workplace.replace_eq, ends, FileSet.write_of_resolve leads, content]

/-- A block that ends and leads to no file leaves a temporary file behind. -/
theorem run_of_misses (ends : block.giveUp = none) (named : place.files.NamesFile block.path)
    {fault : PathFault} (misses : place.files.Misses block.path fault) :
    block.run place = (.error (.path fault block.path), place.leaveBehind) := by
  simp only [run, Workplace.replace_eq, ends, named.write_of_misses misses, named.moveFault?_eq,
    named.fault?_eq_some_iff.mpr misses]

/-- A block changes the file that it fills, and no other one. -/
theorem get?_run (named : place.files.NamesFile block.path) (name : String) :
    (block.run place).2.files.get? name =
      if block.Fills place.files name then some block.content else place.files.get? name := by
  cases ends : block.giveUp with
  | some fault =>
    rw [run_of_giveUp ends, if_neg]
    rintro ⟨others, _⟩
    rw [ends] at others
    cases others
  | none =>
    obtain reaches | ⟨fault, misses⟩ := named.reaches_or_misses
    · rw [run_of_reaches ends reaches, FileSet.get?_put]
      by_cases same : name = (FilePlace.ofPath block.path).path
      · rw [if_pos same, if_pos ⟨ends, reaches, same.symm⟩]
      · rw [if_neg same, if_neg fun fills => same fills.2.2.symm]
    · rw [run_of_misses ends named misses, if_neg]
      · rfl
      · rintro ⟨_, reaches, _⟩
        exact misses.not_reaches named reaches

/-- A block changes no directory, and leaves a temporary file behind if its content strays. -/
theorem run_leaves (named : place.files.NamesFile block.path) :
    (block.run place).2.files.directories = place.files.directories ∧
      (block.run place).2.leftovers =
        place.leftovers + if block.Strays place.files then 1 else 0 := by
  cases ends : block.giveUp with
  | some fault =>
    rw [run_of_giveUp ends, if_neg]
    · exact ⟨rfl, rfl⟩
    · rintro ⟨others, _⟩
      rw [ends] at others
      cases others
  | none =>
    obtain reaches | ⟨fault, misses⟩ := named.reaches_or_misses
    · rw [run_of_reaches ends reaches, if_neg fun strays => strays.2 reaches]
      exact ⟨rfl, rfl⟩
    · rw [run_of_misses ends named misses, if_pos ⟨ends, misses.not_reaches named⟩]
      exact ⟨rfl, rfl⟩

end Block

namespace Workplace

/-- The workplace after blocks one after the other. -/
def after (place : Workplace) (blocks : List Block) : Workplace :=
  blocks.foldl (fun place block => (block.run place).2) place

variable {place : Workplace} {blocks : List Block}

/-- One more block is run where the earlier ones left the workplace. -/
theorem after_concat (place : Workplace) (blocks : List Block) (block : Block) :
    place.after (blocks ++ [block]) = (block.run (place.after blocks)).2 := by
  simp [after]

/-- Nothing is seen of what is written as long as it is not in place. -/
theorem sightings_eq (place : Workplace) (texts : List String) :
    place.sightings texts = texts.map fun _ => place.files := by
  have unchanged (replacement : Replacement) :
      replacement.sightings texts = texts.map fun _ => replacement.place.files := by
    induction texts generalizing replacement with
    | nil => rfl
    | cons text rest ih => exact congrArg (_ :: ·) (ih _)
  exact unchanged _

/-- Blocks change no directories. -/
theorem directories_after (named : ∀ block ∈ blocks, place.files.NamesFile block.path) :
    (place.after blocks).files.directories = place.files.directories := by
  induction blocks using List.reverseRecOn with
  | nil => rfl
  | append_singleton earlier block ih =>
    obtain ⟨others, own⟩ := List.forall_mem_append.mp named
    have same := ih others
    rw [after_concat, (Block.run_leaves ((own block (by simp)).congr same.symm)).1, same]

/-- A temporary file stays behind for every content that finds no place. -/
theorem leftovers_after (named : ∀ block ∈ blocks, place.files.NamesFile block.path) :
    (place.after blocks).leftovers =
      place.leftovers + blocks.countP fun block => block.Strays place.files := by
  induction blocks using List.reverseRecOn with
  | nil => rfl
  | append_singleton earlier block ih =>
    obtain ⟨others, own⟩ := List.forall_mem_append.mp named
    have same := directories_after others
    have strays : block.Strays (place.after earlier).files ↔ block.Strays place.files :=
      and_congr_right' (not_congr ⟨(·.congr same), (·.congr same.symm)⟩)
    rw [after_concat, (Block.run_leaves ((own block (by simp)).congr same.symm)).2, ih others]
    simp [List.countP_append, List.countP_singleton, strays, Nat.add_assoc]

/-- Every file holds what was last put in place for it. -/
theorem get?_after (named : ∀ block ∈ blocks, place.files.NamesFile block.path) (name : String) :
    (place.after blocks).files.get? name =
      ((blocks.filter fun block => block.Fills place.files name).getLast?.map Block.content).or
        (place.files.get? name) := by
  induction blocks using List.reverseRecOn with
  | nil => rfl
  | append_singleton earlier block ih =>
    obtain ⟨others, own⟩ := List.forall_mem_append.mp named
    have same := directories_after others
    have fills : block.Fills (place.after earlier).files name ↔ block.Fills place.files name :=
      and_congr_right' (and_congr_left' ⟨(·.congr same), (·.congr same.symm)⟩)
    rw [after_concat, Block.get?_run ((own block (by simp)).congr same.symm), ih others]
    by_cases own : block.Fills place.files name
    · simp [fills, own, List.filter_append]
    · simp [fills, own, List.filter_append]

end Workplace

end ExactQuadrature

import ExactQuadrature.Files.FileSet
import Mathlib.Data.List.Chain

/-! # Lines and what ends them

A line can be ended by any of the characters that end lines, and by a carriage return with a line
feed. A text of lines that are ended in any of these ways is cut into just these lines
(`Text.linesOf_endedText`), except where a carriage return that ends a line and a line feed that
ends an empty one after it come together (`Text.Unmerged`). What follows the last terminator is one
more line if it is not empty. So stored lines are read back whatever ends them
(`Text.Stores.linesOfBytes`).
-/

namespace ExactQuadrature

namespace Text

/-- What ends a line: a single character, or a carriage return and a line feed. -/
inductive Terminator where
  | single (c : Char) (ends : isLineEnd c = true)
  | returnAndFeed

/-- The characters of a terminator. -/
def Terminator.chars : Terminator → List Char
  | single c _ => [c]
  | returnAndFeed => ['\r', '\n']

/-- A text without characters that end lines. -/
def IsLine (line : String) : Prop := ∀ c ∈ line.toList, isLineEnd c = false

instance (line : String) : Decidable (IsLine line) :=
  decidable_of_iff (line.toList.all fun c => !isLineEnd c) (by simp [IsLine])

/-- A line and what ends it. -/
structure EndedLine where
  line : String
  terminator : Terminator
  isLine : IsLine line

/-- The characters of a line and its terminator. -/
def EndedLine.chars (ended : EndedLine) : List Char := ended.line.toList ++ ended.terminator.chars

/-- A line ended by a carriage return alone before an empty line that is ended by a line feed alone.
Their terminators would be taken for one. -/
def Merges (first second : EndedLine) : Prop :=
  first.terminator.chars = ['\r'] ∧ second.line = "" ∧ second.terminator.chars = ['\n']

/-- Lines whose terminators can be told apart. -/
def Unmerged (lines : List EndedLine) : Prop :=
  lines.IsChain fun first second => ¬Merges first second

variable {line last : List Char}

/-- What ends no line is no carriage return. -/
theorem ne_return_of_not_lineEnd {c : Char} (inside : isLineEnd c = false) : c ≠ '\r' := by
  rintro rfl
  cases inside

/-- Newlines are unified line by line. -/
theorem unifyNewlines_append (plain : ∀ c ∈ line, isLineEnd c = false) (rest : List Char) :
    unifyNewlines (line ++ rest) = line ++ unifyNewlines rest := by
  induction line with
  | nil => rfl
  | cons c line ih =>
    obtain ⟨own, others⟩ := List.forall_mem_cons.mp plain
    have noReturn := ne_return_of_not_lineEnd own
    rw [List.cons_append, unifyNewlines, if_neg noReturn, ih others, List.cons_append]
    intro more impossible
    exact absurd impossible noReturn

/-- The single character that is left of a terminator. -/
def Terminator.unified : Terminator → Char
  | single c _ => if c = '\r' then '\n' else c
  | returnAndFeed => '\n'

theorem Terminator.isLineEnd_unified (terminator : Terminator) :
    isLineEnd terminator.unified = true := by
  cases terminator with
  | single c ends =>
    rw [unified]
    split
    · rfl
    · exact ends
  | returnAndFeed => rfl

/-- A terminator is left as a single character, unless a carriage return meets a line feed. -/
theorem unifyNewlines_terminator (terminator : Terminator) {rest : List Char}
    (apart : terminator.chars = ['\r'] → rest.head? ≠ some '\n') :
    unifyNewlines (terminator.chars ++ rest) = terminator.unified :: unifyNewlines rest := by
  cases terminator with
  | single c ends =>
    change unifyNewlines (c :: rest) = _
    rw [unifyNewlines]
    · rfl
    · rintro more rfl rfl
      exact apart rfl rfl
  | returnAndFeed => rfl

/-- A line is cut off at its end. -/
theorem splitLines_append (plain : ∀ c ∈ line, isLineEnd c = false) {c : Char}
    (ends : isLineEnd c = true) (rest : List Char) :
    splitLines (line ++ c :: rest) = line :: splitLines rest := by
  induction line with
  | nil => rw [List.nil_append, splitLines, if_pos ends]
  | cons d line ih =>
    obtain ⟨own, others⟩ := List.forall_mem_cons.mp plain
    rw [List.cons_append, splitLines, if_neg (Bool.eq_false_iff.mp own), ih others]

/-- What nothing ends is a line if it is not empty. -/
theorem splitLines_of_plain (plain : ∀ c ∈ line, isLineEnd c = false) :
    splitLines line = if line = [] then [] else [line] := by
  induction line with
  | nil => rfl
  | cons c line ih =>
    obtain ⟨own, others⟩ := List.forall_mem_cons.mp plain
    rw [splitLines, if_neg (Bool.eq_false_iff.mp own), ih others, if_neg (List.cons_ne_nil c line)]
    cases line <;> rfl

/-- Only an empty line that a line feed ends begins with a line feed. -/
theorem exists_of_head? {lines : List EndedLine} (plain : ∀ c ∈ last, isLineEnd c = false)
    (feed : (lines.flatMap EndedLine.chars ++ last).head? = some '\n') :
    ∃ first rest, lines = first :: rest ∧ first.line = "" ∧ first.terminator.chars = ['\n'] := by
  cases lines with
  | nil => exact nomatch plain '\n' (List.mem_of_mem_head? feed)
  | cons first rest =>
    obtain ⟨line, terminator, isLine⟩ := first
    refine ⟨_, rest, rfl, ?_⟩
    rw [List.flatMap_cons, EndedLine.chars] at feed
    dsimp only at feed ⊢
    cases chars : line.toList with
    | cons c others =>
      rw [chars] at feed
      cases feed
      exact nomatch isLine '\n' (by simp [chars])
    | nil =>
      rw [chars] at feed
      refine ⟨String.toList_eq_nil_iff.mp chars, ?_⟩
      cases terminator with
      | single c ends =>
        cases feed
        rfl
      | returnAndFeed => cases feed

/-- **Lines are cut where they were ended.** -/
theorem splitLines_ended {lines : List EndedLine} (unmerged : Unmerged lines)
    (plain : ∀ c ∈ last, isLineEnd c = false) :
    splitLines (unifyNewlines (lines.flatMap EndedLine.chars ++ last)) =
      lines.map (·.line.toList) ++ if last = [] then [] else [last] := by
  induction lines with
  | nil =>
    have alone := unifyNewlines_append plain []
    rw [List.append_nil, unifyNewlines, List.append_nil] at alone
    rw [List.flatMap_nil, List.nil_append, alone]
    exact splitLines_of_plain plain
  | cons ended rest ih =>
    obtain ⟨apart, others⟩ := List.isChain_cons.mp unmerged
    have unjoined : ended.terminator.chars = ['\r'] →
        (rest.flatMap EndedLine.chars ++ last).head? ≠ some '\n' := by
      intro isReturn feed
      obtain ⟨first, more, rfl, empty, isFeed⟩ := exists_of_head? plain feed
      exact apart first rfl ⟨isReturn, empty, isFeed⟩
    rw [List.flatMap_cons, EndedLine.chars, List.append_assoc, List.append_assoc,
      unifyNewlines_append ended.isLine, unifyNewlines_terminator _ unjoined,
      splitLines_append ended.isLine ended.terminator.isLineEnd_unified, ih others]
    rfl

/-- The text of ended lines and of what follows them. -/
def endedText (lines : List EndedLine) (last : String) : String :=
  String.ofList (lines.flatMap EndedLine.chars) ++ last

/-- Ended lines are read back, and so is what stands behind the last terminator. -/
theorem linesOf_endedText {lines : List EndedLine} (unmerged : Unmerged lines) {last : String}
    (isLine : IsLine last) :
    linesOf (endedText lines last) =
      lines.map EndedLine.line ++ if last = "" then [] else [last] := by
  unfold linesOf endedText
  rw [String.toList_append, String.toList_ofList, splitLines_ended unmerged isLine, List.map_append,
    List.map_map]
  congr 1
  · exact List.map_congr_left fun ended _ => String.ofList_toList
  · by_cases empty : last = ""
    · rw [if_pos empty, empty]
      rfl
    · rw [if_neg empty, if_neg (mt String.toList_eq_nil_iff.mp empty), List.map_singleton,
        String.ofList_toList]

/-- An encoded text is decoded. -/
theorem decode_toUTF8 (text : String) : decode text.toUTF8 = .ok text := by
  have same : String.fromUTF8? text.toUTF8 = some text := dif_pos text.isValidUTF8
  unfold decode
  rw [same]

/-- The bytes of lines with their terminators. The last line may be without one if it is not
empty. -/
inductive Stores : List String → ByteArray → Prop where
  | ended {lines : List EndedLine} (unmerged : Unmerged lines) :
      Stores (lines.map EndedLine.line) (endedText lines "").toUTF8
  | unended {lines : List EndedLine} (unmerged : Unmerged lines) {last : String}
      (isLine : IsLine last) (present : last ≠ "") :
      Stores (lines.map EndedLine.line ++ [last]) (endedText lines last).toUTF8

/-- A line that a line feed ends. -/
def EndedLine.withFeed (line : String) (isLine : IsLine line) : EndedLine :=
  ⟨line, .single '\n' rfl, isLine⟩

/-- Lines with a line feed after each are stored. -/
theorem stores_lineFeeds {lines : List String} (isLine : ∀ line ∈ lines, IsLine line) :
    Stores lines (String.join (lines.map (· ++ "\n"))).toUTF8 := by
  have unmerged : Unmerged (lines.pmap .withFeed isLine) := by
    refine (List.pairwise_of_forall_mem_list ?_).isChain
    rintro first member second _ ⟨isReturn, _⟩
    obtain ⟨line, _, rfl⟩ := List.mem_pmap.mp member
    cases isReturn
  have same : (lines.pmap .withFeed isLine).map EndedLine.line = lines := by
    rw [List.map_pmap]
    exact (List.pmap_eq_map isLine).trans (List.map_id lines)
  have text : endedText (lines.pmap .withFeed isLine) "" = String.join (lines.map (· ++ "\n")) := by
    rw [← String.toList_inj, endedText, String.append_empty, String.toList_ofList,
      String.toList_join, List.flatMap_map, List.flatMap_def, List.flatMap_def, List.map_pmap]
    refine congrArg List.flatten (.trans ?_ (List.pmap_eq_map isLine))
    refine List.pmap_congr_left lines fun line _ _ _ => ?_
    rw [String.toList_append]
    rfl
  have stores := Stores.ended unmerged
  rwa [same, text] at stores

/-- **Stored lines are read back.** -/
theorem Stores.linesOfBytes {lines : List String} {content : ByteArray}
    (stores : Stores lines content) :
    linesOfBytes content = .ok lines := by
  cases stores with
  | ended unmerged =>
    have empty : IsLine "" := nofun
    have whole := linesOf_endedText unmerged empty
    rw [if_pos rfl, List.append_nil] at whole
    simp only [ExactQuadrature.linesOfBytes, decode_toUTF8, whole]
  | unended unmerged isLine present =>
    have whole := linesOf_endedText unmerged isLine
    rw [if_neg present] at whole
    simp only [ExactQuadrature.linesOfBytes, decode_toUTF8, whole]

end Text

end ExactQuadrature

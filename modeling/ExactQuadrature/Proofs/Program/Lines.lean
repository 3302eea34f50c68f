import ExactQuadrature.Proofs.Calculation.OutputLines
import ExactQuadrature.Proofs.Files.Alike
import ExactQuadrature.Proofs.Program.Effect

/-! # Runs on lines

All that a run takes from its input are lines. So it ends in the same way, with the same output and
report, and makes the same changes, whatever ends the lines of its input and of all other files
(`Program.run_over`). The lines of its output are ended by line feeds, and are read back from the
file that they are written to (`Program.run_reads_lines`).
-/

namespace ExactQuadrature

/-- Contents that are the same, or store the same lines. -/
def Text.SameLines (content other : ByteArray) : Prop :=
  content = other ∨ ∃ lines, Text.Stores lines content ∧ Text.Stores lines other

/-- Contents with the same lines are read as the same lines. -/
theorem Text.SameLines.linesOfBytes {content other : ByteArray}
    (same : Text.SameLines content other) :
    linesOfBytes content = linesOfBytes other := by
  obtain rfl | ⟨lines, stores, also⟩ := same
  · rfl
  · rw [stores.linesOfBytes, also.linesOfBytes]

/-- The same directories and names, and in every file the same lines, whatever ends them. -/
structure FileSet.SameLines (files other : FileSet) : Prop where
  contents : ∀ name, Option.Rel Text.SameLines (files.get? name) (other.get? name)
  directories : files.directories = other.directories

/-- Files that differ in their terminators only are alike. -/
theorem FileSet.SameLines.alike {files other : FileSet} (same : files.SameLines other) :
    files.Alike other := by
  refine ⟨fun name => ?_, same.directories⟩
  have content := same.contents name
  generalize files.get? name = found, other.get? name = also at content
  cases content with
  | none => rfl
  | some lines => exact congrArg some lines.linesOfBytes

/-- The same session over other files. -/
def Session.over (session : Session) (files : FileSet) : Session :=
  { session with place := { session.place with files := files } }

@[simp] theorem Session.over_over (session : Session) (files other : FileSet) :
    (session.over files).over other = session.over other := rfl

namespace Program

/-- Contents of the same lines give the same polynomials and bounds over alike files. -/
theorem readInput_alike {files other : FileSet} (alike : files.Alike other) {input also : ByteArray}
    (same : linesOfBytes input = linesOfBytes also) (request : Request) :
    readInput files input request = readInput other also request := by
  unfold readInput
  split
  · exact same
  · exact alike.read request.input

/-- A calculation takes nothing but lines from files and from its input. -/
theorem calculate_over (session : Session) (input : ByteArray) (request : Request) :
    ∃ fault output after changes, ∀ other also, session.place.files.Alike other →
      linesOfBytes input = linesOfBytes also →
        calculate (session.over other) also request =
          (fault, output, Session.over after (other.putAll changes)) := by
  cases read : readInput session.place.files input request with
  | error fault =>
    refine ⟨some fault, "", session, [], fun other also alike same => ?_⟩
    rw [readInput_alike alike same] at read
    simp only [calculate, Session.over, read]
    rfl
  | ok lines =>
    rcases yielded : (Calculation.run session.registry.stepping request.format lines).run
      session.journal with ⟨yield, journal⟩
    obtain ⟨outcome, leftovers, changes, replaced⟩ :=
      session.place.replace?_alike request.output (joinLines yield.lines) yield.fault
    by_cases output : request.output = some standardStream
    · refine ⟨yield.fault, String.join (joinLines yield.lines),
        { session with journal := journal }, [],
        fun other also alike same => ?_⟩
      rw [readInput_alike alike same] at read
      simp only [calculate, Session.over, read, yielded, output, ↓reduceIte]
      rfl
    · refine ⟨fault? outcome, "", { session with
        place := { session.place with leftovers := leftovers }, journal := journal }, changes,
        fun other also alike same => ?_⟩
      rw [readInput_alike alike same] at read
      simp only [calculate, Session.over, read, yielded, output, ↓reduceIte, replaced other alike]
      cases outcome <;> rfl

/-- The profile is written for all sets of files alike, or for none. -/
theorem writeProfile_over (session : Session) :
    ∃ (fault : Option Fault) (after : Session) (changes : Entries ByteArray),
      ∀ other, session.place.files.Alike other →
        match fault with
        | none => ∃ read,
            writeProfile (session.over other) = (.ok (after.over (other.putAll changes)), read)
        | some fault =>
            writeProfile (session.over other) =
              (.error fault, after.over (other.putAll changes)) := by
  by_cases unwanted : session.registry.profile = ""
  · refine ⟨none, session, [], fun other _ => ⟨session.over other, ?_⟩⟩
    exact if_pos unwanted
  · obtain ⟨name, written⟩ | ⟨fault, failed⟩ :=
      session.place.files.write_alike session.registry.profile session.journal.profile.1.toUTF8
    · refine ⟨none, { session with journal := session.journal.profile.2 },
        [(name, session.journal.profile.1.toUTF8)], fun other alike =>
          ⟨{ session.over other with journal := session.journal.profile.2 }, ?_⟩⟩
      simp only [writeProfile, Session.over, unwanted, ↓reduceIte, written other alike]
      rfl
    · refine ⟨some fault, { session with journal := session.journal.profile.2 }, [],
        fun other alike => ?_⟩
      simp only [writeProfile, Session.over, unwanted, ↓reduceIte, failed other alike]
      rfl

/-- A request is carried out in the same way over all sets of files alike. -/
theorem perform_over (session : Session) (input : ByteArray) (request : Request) :
    ∃ result after changes, ∀ other also, session.place.files.Alike other →
      linesOfBytes input = linesOfBytes also →
        perform (session.over other) also request =
          (result, Session.over after (other.putAll changes)) := by
  obtain ⟨fault, output, calculated, changes, calculates⟩ := calculate_over session input request
  obtain ⟨broken, after, more, writes⟩ :=
    writeProfile_over (calculated.over (session.place.files.putAll changes))
  refine ⟨match broken with
    | none => conclude calculated.journal.text output fault
    | some broken => .broken broken output, after, changes ++ more, fun other also alike same => ?_⟩
  have profile := writes (other.putAll changes) (alike.putAll changes)
  rw [Session.over_over] at profile
  unfold perform
  rw [calculates other also alike same, FileSet.putAll_append]
  cases broken with
  | none =>
    obtain ⟨read, wrote⟩ := profile
    simp only [wrote]
    rfl
  | some broken =>
    simp only [profile]

/-- The command line is read whatever the files are. -/
theorem start_over (session : Session) (files : FileSet) (arguments : List String) :
    start (session.over files) arguments =
      ((start session arguments).1, (start session arguments).2.over files) := by
  simp only [start, Session.over]
  cases (interface session.registry).read arguments with
  | error halt => rfl
  | ok slots =>
    dsimp only
    rcases session.registry.readSlots slots with ⟨_ | fault, registry⟩ <;> rfl

/-- **A run takes nothing but lines from files and from its input.** -/
theorem run_over (session : Session) (arguments : List String) (input : ByteArray) :
    ∃ result after changes, ∀ other also, session.place.files.Alike other →
      linesOfBytes input = linesOfBytes also →
        run (session.over other) arguments also =
          (result, Session.over after (other.putAll changes)) := by
  rcases started : start session arguments with ⟨result | request, after⟩
  · refine ⟨result, after, [], fun other also _ _ => ?_⟩
    unfold run
    rw [start_over, started]
    rfl
  · have place : after.place = session.place := by rw [session_of_start started]
    obtain ⟨result, left, changes, performs⟩ := perform_over after input request
    refine ⟨result, left, changes, fun other also alike same => ?_⟩
    unfold run
    rw [start_over, started]
    exact performs other also (place ▸ alike) same

/-- What is calculated is made of lines. -/
theorem isLine_of_mem_produced {session : Session} {input : ByteArray} {request : Request}
    {line : String} (member : line ∈ (produced session input request).1.lines) :
    Text.IsLine line := by
  unfold produced at member
  split at member
  · cases member
  · rw [(Calculation.run_yields ..).1] at member
    exact Calculation.isLine_of_mem_yieldOf member

/-- **The lines of an output are read back.** -/
theorem linesOfBytes_producedText (session : Session) (input : ByteArray) (request : Request) :
    linesOfBytes (producedText session input request).toUTF8 =
      .ok (produced session input request).1.lines :=
  (Text.stores_lineFeeds fun _ member => isLine_of_mem_produced member).linesOfBytes

/-- A run that ends with status zero has no fault. -/
theorem fault_of_status_ending {noted path : String} {effect : Effect}
    (success : (ending noted effect path).status = 0) : effect.fault = none := by
  unfold ending at success
  split at success
  · rw [status_conclude] at success
    by_contra failed
    rw [if_neg failed] at success
    cases success
  · cases success

/-- A run with the status zero has put all that was calculated into its output file, and leaves it
there unless the profile is written to it. -/
theorem output_of_success {session started : Session} {arguments : List String} {request : Request}
    {file name : String} {input : ByteArray}
    (accepted : start session arguments = (.ok request, started))
    (output : request.output = some file) (notStream : file ≠ standardStream)
    (leads : session.place.files.resolve file = .ok name)
    (success : (run session arguments input).1.status = 0) :
    (produced started input request).1.fault = none ∧
      (calculate started input request).2.2.place.files.get? name =
        some (producedText started input request).toUTF8 ∧
      (name ∉ profileFiles started → (run session arguments input).2.place.files.get? name =
        some (producedText started input request).toUTF8) := by
  have place : started.place = session.place := by rw [session_of_start accepted]
  rw [run_of_start accepted] at success ⊢
  rw [← place] at leads
  obtain ⟨filed, calculated, _, content⟩ := calculate_file input output notStream leads
  obtain ⟨journal, _, effects⟩ := calculate_effect started input request
  obtain ⟨noted, left, performed, _, _, keeps⟩ := perform_effect started input request
  rw [performed] at success ⊢
  have faultless : (produced started input request).1.fault = none := by
    rw [calculated] at effects
    exact (congrArg Prod.fst effects).trans (fault_of_status_ending success)
  rw [faultless] at content
  have put : (calculate started input request).2.2.place.files.get? name =
      some (producedText started input request).toUTF8 := by
    rw [calculated]
    dsimp only
    rw [content]
    exact (FileSet.get?_put _ _ _ _).trans (if_pos rfl)
  refine ⟨faultless, put, fun apart => ?_⟩
  rw [effects] at put
  exact (keeps.files name apart).trans put

/-- **Runs read and write lines.** Lines are read back whatever ends them, and without the last
terminator if the last line is not empty, unless a carriage return and a line feed that end two of
them come together. A run ends in the same way and makes the same changes whatever ends the lines of
its input and of the files. The output file of a run that succeeds is read back as the lines that
were calculated. -/
theorem run_reads_lines :
    (∀ lines : List Text.EndedLine, Text.Unmerged lines →
      linesOfBytes (Text.endedText lines "").toUTF8 = .ok (lines.map Text.EndedLine.line) ∧
        ∀ before last, lines = before ++ [last] → last.line ≠ "" →
          linesOfBytes (Text.endedText before last.line).toUTF8 =
            .ok (lines.map Text.EndedLine.line)) ∧
    (∀ (session : Session) (files : FileSet) (arguments : List String) (input other : ByteArray),
      session.place.files.SameLines files → Text.SameLines input other →
        ∃ result after changes,
          run session arguments input =
            (result, Session.over after (session.place.files.putAll changes)) ∧
          run (session.over files) arguments other =
            (result, Session.over after (files.putAll changes))) ∧
    ∀ (session started : Session) (arguments : List String) (request : Request) (file name : String)
      (input : ByteArray), start session arguments = (.ok request, started) →
      request.output = some file → file ≠ standardStream →
      session.place.files.resolve file = .ok name → (run session arguments input).1.status = 0 →
        (produced started input request).1.fault = none ∧ ∃ content,
          (calculate started input request).2.2.place.files.get? name = some content ∧
          linesOfBytes content = .ok (produced started input request).1.lines ∧
          (name ∉ profileFiles started →
            (run session arguments input).2.place.files.get? name = some content) := by
  refine ⟨fun lines unmerged => ⟨?_, ?_⟩, ?_, ?_⟩
  · exact (Text.Stores.ended unmerged).linesOfBytes
  · rintro before last rfl present
    rw [List.map_append]
    exact (Text.Stores.unended unmerged.left_of_append last.isLine present).linesOfBytes
  · intro session files arguments input other sameFiles sameInput
    obtain ⟨result, after, changes, runs⟩ := run_over session arguments input
    refine ⟨result, after, changes, ?_, runs files other sameFiles.alike sameInput.linesOfBytes⟩
    exact runs session.place.files input ⟨fun _ => rfl, rfl⟩ rfl
  · intro session started arguments request file name input accepted output notStream leads success
    obtain ⟨faultless, put, stays⟩ := output_of_success accepted output notStream leads success
    exact ⟨faultless, _, put, linesOfBytes_producedText started input request, stays⟩

/-- Three lines ended in three ways, and a run on bounds with a carriage return and a line feed, and
with a vertical tab. -/
theorem run_reads_lines_mixed :
    linesOfBytes "0, 2\r\n\u20281".toUTF8 = .ok ["0, 2", "", "1"] ∧
      (∃ result after changes,
        run (sessionWith "in" "0, 2\r\n") ["-o", "out", "in"] .empty =
          (result, Session.over after ((sessionWith "in" "0, 2\r\n").place.files.putAll changes)) ∧
        run (sessionWith "in" "0, 2\x0b") ["-o", "out", "in"] .empty =
          (result, Session.over after ((sessionWith "in" "0, 2\x0b").place.files.putAll changes))) ∧
      ∃ content,
        (run (sessionWith "in" "0, 2\r\n") ["-o", "out", "in"] .empty).2.place.files.get? "out" =
          some content ∧
        linesOfBytes content = .ok ["bounds: 0, 2"] := by
  obtain ⟨reads, alike, written⟩ := run_reads_lines
  refine ⟨?_, ?_, ?_⟩
  · let first : Text.EndedLine := ⟨"0, 2", .returnAndFeed, by decide⟩
    let second : Text.EndedLine := ⟨"", .single '\u2028' (by decide), by decide⟩
    let third : Text.EndedLine := ⟨"1", .single '\r' (by decide), by decide⟩
    have unmerged : Text.Unmerged [first, second, third] := by
      simp [Text.Unmerged, Text.Merges, first, second, Text.Terminator.chars]
    have text : Text.endedText [first, second] third.line = "0, 2\r\n\u20281" := by decide
    rw [← text]
    exact (reads _ unmerged).2 [first, second] third rfl (by decide)
  · let returned : Text.EndedLine := ⟨"0, 2", .returnAndFeed, by decide⟩
    let tabbed : Text.EndedLine := ⟨"0, 2", .single '\x0b' (by decide), by decide⟩
    have stored : Text.Stores ["0, 2"] (Text.endedText [returned] "").toUTF8 :=
      .ended (List.isChain_singleton returned)
    have also : Text.Stores ["0, 2"] (Text.endedText [tabbed] "").toUTF8 :=
      .ended (List.isChain_singleton tabbed)
    rw [show Text.endedText [returned] "" = "0, 2\r\n" by decide] at stored
    rw [show Text.endedText [tabbed] "" = "0, 2\x0b" by decide] at also
    refine alike (sessionWith "in" "0, 2\r\n") (sessionWith "in" "0, 2\x0b").place.files _ _ _
      ⟨fun name => ?_, rfl⟩ (.inl rfl)
    by_cases named : name = "in"
    · subst named
      exact .some (.inr ⟨_, stored, also⟩)
    · have missing : ∀ text, (sessionWith "in" text).place.files.get? name = none := fun text => by
        simp [sessionWith, FileSet.get?, Entries.get?_cons, named]
      rw [missing, missing]
      exact .none
  · let session := sessionWith "in" "0, 2\r\n"
    let request : Request := ⟨"in", some "out", .coefficients⟩
    have begins : start session ["-o", "out", "in"] = (.ok request, session) :=
      start_sessionWith (by decide +kernel) "in" "0, 2\r\n"
    have lines : readInput session.place.files .empty request = .ok ["0, 2"] :=
      (readInput_sessionWith (by decide) (by decide) (by decide) _ _ _).trans (by decide +kernel)
    have yields : (produced session .empty request).1 = ⟨["bounds: 0, 2"], none⟩ := by
      rw [produced_of_readInput lines]
      decide +kernel
    have leads : session.place.files.resolve "out" = .ok "out" :=
      FileSet.resolve_of_reaches (by decide)
    have unprofiled : session.registry.profile = "" := by decide +kernel
    have apart : "out" ∉ profileFiles session := by
      rw [profileFiles, if_pos unprofiled]
      exact List.not_mem_nil
    have zero : (run session ["-o", "out", "in"] .empty).1.status = 0 := by
      rw [run_of_start begins,
        (perform_file .empty rfl (by decide) leads (.inl unprofiled) apart).1, yields]
      rfl
    obtain ⟨_, content, _, readBack, stays⟩ :=
      written _ _ _ _ "out" "out" .empty begins rfl (by decide) leads zero
    rw [yields] at readBack
    exact ⟨content, stays apart, readBack⟩

end Program

end ExactQuadrature

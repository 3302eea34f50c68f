import Mathlib.Data.String.Basic
import ExactQuadrature.Program
import ExactQuadrature.Proofs.Files.Writing

/-! # The output of a run

A run with an output file leaves every file as it was, or puts all output lines into the output file
and leaves every other one; only the profile is written in any case. The same run with standard
output writes there what the output file would have got, or the lines before the fault, and it ends
in the same way unless the path of the output leads to no file (`Program.run_all_or_nothing`). All
of this follows from what the calculation yields (`Program.produced`), which does not depend on
where it is written, for each of the three places that it can go to (`Program.perform_stream`,
`Program.perform_file`, `Program.perform_astray`).
-/

namespace ExactQuadrature

/-- No file has changed but those named, and no file was added or left behind. -/
structure KeepsFiles (before after : Workplace) (changed : List String) : Prop where
  files : ∀ other, other ∉ changed → after.files.get? other = before.files.get? other
  directories : after.files.directories = before.files.directories
  leftovers : after.leftovers = before.leftovers

namespace KeepsFiles

variable {before between after : Workplace} {changed more : List String}

theorem refl (place : Workplace) (changed : List String) : KeepsFiles place place changed :=
  ⟨fun _ _ => rfl, rfl, rfl⟩

theorem trans (first : KeepsFiles before between changed)
    (second : KeepsFiles between after more) : KeepsFiles before after (changed ++ more) := by
  refine ⟨fun other apart => ?_, second.directories.trans first.directories,
    second.leftovers.trans first.leftovers⟩
  rw [List.mem_append, not_or] at apart
  exact (second.files other apart.2).trans (first.files other apart.1)

theorem put (place : Workplace) (name : String) (content : ByteArray) :
    KeepsFiles place { place with files := place.files.put name content } [name] := by
  refine ⟨fun other apart => ?_, rfl, rfl⟩
  rw [FileSet.get?_put, if_neg fun same => apart (List.mem_singleton.mpr same)]

end KeepsFiles

namespace Program

/-- The files that the profile of a session is written to: one at most. -/
def profileFiles (session : Session) : List String :=
  if session.registry.profile = "" then []
  else match session.place.files.resolve session.registry.profile with
    | .ok name => [name]
    | .error _ => []

/-- The profile is not wanted, or there is a file for it. -/
def ProfileWritable (session : Session) : Prop :=
  session.registry.profile = "" ∨
    ∃ name, session.place.files.resolve session.registry.profile = .ok name

/-- Where the profile goes depends on the setting and on where paths lead. -/
theorem profile_congr {session after : Session} (registry : after.registry = session.registry)
    (leads : ∀ path name, after.place.files.resolve path = .ok name ↔
      session.place.files.resolve path = .ok name) :
    (ProfileWritable after ↔ ProfileWritable session) ∧
      profileFiles after = profileFiles session := by
  simp only [ProfileWritable, profileFiles, registry, leads, true_and]
  split
  · rfl
  · cases resolved : session.place.files.resolve session.registry.profile with
    | ok name => rw [(leads _ name).mpr resolved]
    | error fault =>
      cases moved : after.place.files.resolve session.registry.profile with
      | ok name => cases resolved.symm.trans ((leads _ name).mp moved)
      | error other => rfl

/-- Writing the profile changes no other file. -/
theorem writeProfile_keeps {session : Session} (writable : ProfileWritable session) :
    ∃ written left, writeProfile session = (.ok written, left) ∧
      KeepsFiles session.place written.place (profileFiles session) := by
  unfold writeProfile profileFiles
  dsimp only
  by_cases unwanted : session.registry.profile = ""
  · rw [if_pos unwanted, if_pos unwanted]
    exact ⟨session, session, rfl, .refl _ _⟩
  · obtain ⟨name, leads⟩ := writable.resolve_left unwanted
    rw [if_neg unwanted, if_neg unwanted, leads, FileSet.write_of_resolve leads]
    exact ⟨_, _, rfl, .put _ _ _⟩

/-- Where the output goes does not matter to how a run ends. -/
theorem status_conclude (noted output : String) (fault : Option Fault) :
    (conclude noted output fault).status = if fault = none then 0 else 1 := by
  cases fault with
  | none => rfl
  | some fault =>
    rw [if_neg (Option.some_ne_none fault)]
    unfold conclude
    dsimp only
    cases failureReport? fault <;> rfl

theorem output_conclude (noted output : String) (fault : Option Fault) :
    (conclude noted output fault).output = output := by
  cases fault with
  | none => rfl
  | some fault =>
    unfold conclude
    dsimp only
    cases failureReport? fault <;> rfl

/-- What is calculated on a request, and the journal afterwards. -/
def produced (session : Session) (input : ByteArray) (request : Request) :
    Calculation.Yield × Journal :=
  match readInput session.place.files input request with
  | .error fault => (⟨[], some fault⟩, session.journal)
  | .ok lines =>
    (Calculation.run session.registry.stepping request.format lines).run session.journal

/-- What is calculated on lines that can be read. -/
theorem produced_of_readInput {session : Session} {input : ByteArray} {request : Request}
    {lines : List String} (read : readInput session.place.files input request = .ok lines) :
    produced session input request =
      (Calculation.run session.registry.stepping request.format lines).run session.journal := by
  unfold produced
  rw [read]

/-- The text of all lines that are calculated on a request. -/
def producedText (session : Session) (input : ByteArray) (request : Request) : String :=
  String.join (joinLines (produced session input request).1.lines)

/-- Written to standard output, the lines appear as they are calculated. -/
theorem calculate_stream {session : Session} {input : ByteArray} {request : Request}
    (output : request.output = some standardStream) :
    calculate session input request =
      ((produced session input request).1.fault, producedText session input request,
        { session with journal := (produced session input request).2 }) := by
  unfold calculate producedText produced
  cases readInput session.place.files input request with
  | error fault => rfl
  | ok lines =>
    dsimp only
    generalize (Calculation.run session.registry.stepping request.format lines).run
      session.journal = yielded
    obtain ⟨yield, journal⟩ := yielded
    dsimp only
    rw [if_pos output]

/-- Written to a file, the lines are put in place if all of them are calculated. -/
theorem calculate_file {session : Session} (input : ByteArray) {request : Request}
    {file name : String} (output : request.output = some file) (notStream : file ≠ standardStream)
    (leads : session.place.files.resolve file = .ok name) :
    ∃ calculated : Session,
      calculate session input request =
        ((produced session input request).1.fault, "", calculated) ∧
      calculated.registry = session.registry ∧
      calculated.place = match (produced session input request).1.fault with
        | some _ => session.place
        | none => { session.place with
            files :=
              session.place.files.put name (producedText session input request).toUTF8 } := by
  unfold calculate producedText produced
  cases readInput session.place.files input request with
  | error fault => exact ⟨session, rfl, rfl, rfl⟩
  | ok lines =>
    dsimp only
    generalize (Calculation.run session.registry.stepping request.format lines).run
      session.journal = yielded
    obtain ⟨⟨texts, fault⟩, journal⟩ := yielded
    have elsewhere : request.output ≠ some standardStream := by
      rw [output]
      exact fun same => notStream (Option.some.inj same)
    dsimp only
    rw [if_neg elsewhere, output, Workplace.replace_of_resolve leads]
    cases fault with
    | none => exact ⟨_, rfl, rfl, rfl⟩
    | some raised => exact ⟨_, rfl, rfl, rfl⟩

/-- Written to a path that leads nowhere, the lines are lost. -/
theorem calculate_astray {session : Session} (input : ByteArray) {request : Request}
    {file : String} (output : request.output = some file) (notStream : file ≠ standardStream)
    (elsewhere : ¬session.place.files.LeadsToDirectory file)
    (astray : ¬session.place.files.Reaches file) :
    ∃ (raised : Fault) (calculated : Session),
      calculate session input request = (some raised, "", calculated) ∧
      calculated.registry = session.registry ∧
      calculated.place = if (produced session input request).1.fault = none
        then session.place.leaveBehind else session.place := by
  unfold calculate
  cases read : readInput session.place.files input request with
  | error fault =>
    have made : produced session input request = (⟨[], some fault⟩, session.journal) := by
      simp only [produced, read]
    rw [made]
    exact ⟨fault, session, rfl, rfl, rfl⟩
  | ok lines =>
    have notShown : request.output ≠ some standardStream := by
      rw [output]
      exact fun same => notStream (Option.some.inj same)
    dsimp only
    rw [← produced_of_readInput read]
    rcases produced session input request with ⟨⟨texts, fault⟩, journal⟩
    obtain ⟨raised, replaced⟩ :=
      Workplace.replace_of_not_reaches elsewhere astray (joinLines texts) fault
    dsimp only
    rw [if_neg notShown, output, replaced]
    exact ⟨raised, _, rfl, rfl, rfl⟩

/-- A request ends with what its calculation gives, and writes nothing after it but the profile. -/
theorem perform_of_calculate {session calculated : Session} {input : ByteArray} {request : Request}
    {fault : Option Fault} {output : String}
    (given : calculate session input request = (fault, output, calculated))
    (writable : ProfileWritable calculated) :
    (perform session input request).1 = conclude calculated.journal.text output fault ∧
      KeepsFiles calculated.place (perform session input request).2.place
        (profileFiles calculated) := by
  obtain ⟨written, left, wrote, keeps⟩ := writeProfile_keeps writable
  unfold perform
  rw [given]
  dsimp only
  rw [wrote]
  exact ⟨rfl, keeps⟩

/-- A request for standard output shows all that is calculated, and changes the profile alone. -/
theorem perform_stream {session : Session} (input : ByteArray) {request : Request}
    (output : request.output = some standardStream) (writable : ProfileWritable session) :
    (perform session input request).1.status =
        (if (produced session input request).1.fault = none then 0 else 1) ∧
      (perform session input request).1.output = producedText session input request ∧
      KeepsFiles session.place (perform session input request).2.place (profileFiles session) := by
  obtain ⟨result, keeps⟩ := perform_of_calculate (calculate_stream output) writable
  rw [result, status_conclude, output_conclude]
  exact ⟨rfl, rfl, keeps⟩

/-- A request for a file changes the profile, and the file if all is calculated. -/
theorem perform_file {session : Session} (input : ByteArray) {request : Request}
    {file name : String} (output : request.output = some file) (notStream : file ≠ standardStream)
    (leads : session.place.files.resolve file = .ok name) (writable : ProfileWritable session)
    (apart : name ∉ profileFiles session) :
    (perform session input request).1.status =
        (if (produced session input request).1.fault = none then 0 else 1) ∧
      (perform session input request).1.output = "" ∧
      match (produced session input request).1.fault with
      | some _ =>
        KeepsFiles session.place (perform session input request).2.place (profileFiles session)
      | none =>
        (perform session input request).2.place.files.get? name =
            some (producedText session input request).toUTF8 ∧
          KeepsFiles session.place (perform session input request).2.place
            (name :: profileFiles session) := by
  obtain ⟨calculated, filed, registry, place⟩ := calculate_file input output notStream leads
  cases fault : (produced session input request).1.fault with
  | some raised =>
    rw [fault] at filed place
    obtain ⟨sameWritable, sameFiles⟩ := profile_congr registry fun path other => by rw [place]
    obtain ⟨result, keeps⟩ := perform_of_calculate filed (sameWritable.mpr writable)
    rw [sameFiles, place] at keeps
    rw [result, status_conclude, output_conclude]
    exact ⟨rfl, rfl, keeps⟩
  | none =>
    rw [fault] at filed place
    obtain ⟨sameWritable, sameFiles⟩ := profile_congr registry fun path other => by
      rw [place]
      exact FileSet.resolve_put
    obtain ⟨result, keeps⟩ := perform_of_calculate filed (sameWritable.mpr writable)
    rw [sameFiles, place] at keeps
    rw [result, status_conclude, output_conclude]
    refine ⟨rfl, rfl, ?_, (KeepsFiles.put session.place name _).trans keeps⟩
    rw [keeps.files name apart]
    exact (FileSet.get?_put _ _ _ _).trans (if_pos rfl)

/-- A request for a file that cannot be had fails, and changes the profile alone. -/
theorem perform_astray {session : Session} (input : ByteArray) {request : Request}
    {file : String} (output : request.output = some file) (notStream : file ≠ standardStream)
    (elsewhere : ¬session.place.files.LeadsToDirectory file)
    (astray : ¬session.place.files.Reaches file) (writable : ProfileWritable session) :
    (perform session input request).1.status = 1 ∧
      (perform session input request).1.output = "" ∧
      KeepsFiles (if (produced session input request).1.fault = none
          then session.place.leaveBehind else session.place)
        (perform session input request).2.place (profileFiles session) := by
  obtain ⟨raised, calculated, filed, registry, place⟩ :=
    calculate_astray input output notStream elsewhere astray
  have files : calculated.place.files = session.place.files := by
    rw [place]
    split <;> rfl
  obtain ⟨sameWritable, sameFiles⟩ := profile_congr registry fun path other => by rw [files]
  obtain ⟨result, keeps⟩ := perform_of_calculate filed (sameWritable.mpr writable)
  rw [sameFiles, place] at keeps
  rw [result, status_conclude, output_conclude]
  exact ⟨rfl, rfl, keeps⟩

/-- An accepted command line changes nothing but the settings and what the journal notes. -/
theorem session_of_start {session started : Session} {arguments : List String} {request : Request}
    (accepted : start session arguments = (.ok request, started)) :
    started = { session with
      registry := started.registry
      journal := { session.journal with verbose := started.registry.verbose, lines := #[] } } := by
  unfold start at accepted
  cases read : (interface session.registry).read arguments with
  | error halt =>
    rw [read] at accepted
    cases accepted
  | ok slots =>
    rw [read] at accepted
    dsimp only at accepted
    rcases shape : session.registry.readSlots slots with ⟨fault, registry⟩
    rw [shape] at accepted
    cases fault with
    | none =>
      cases accepted
      rfl
    | some fault => cases accepted

/-- A run whose command line is accepted carries out what that requests. -/
theorem run_of_start {session started : Session} {arguments : List String} {request : Request}
    (accepted : start session arguments = (.ok request, started)) (input : ByteArray) :
    run session arguments input = perform started input request := by
  unfold run
  rw [accepted]

/-- The standard session with a single file. -/
def sessionWith (name text : String) : Session :=
  ⟨⟨{ entries := [(name, text.toUTF8)] }, 0⟩, .standard, .new false []⟩

/-- A command line that is accepted by one standard session with a single file is accepted by each,
and gives them the same settings. -/
theorem start_sessionWith {arguments : List String} {request : Request} {registry : Registry}
    (asked : (start (sessionWith "" "") arguments).1 = .ok request ∧
      (start (sessionWith "" "") arguments).2.registry = registry) (name text : String) :
    start (sessionWith name text) arguments = (.ok request, { sessionWith name text with
      registry := registry, journal := .new registry.verbose [] }) := by
  have elsewhere : start (sessionWith name text) arguments =
      ((start (sessionWith "" "") arguments).1, { (start (sessionWith "" "") arguments).2 with
        place := (sessionWith name text).place }) := by
    unfold start
    dsimp only [sessionWith]
    cases (interface Registry.standard).read arguments with
    | error halt => rfl
    | ok slots =>
      dsimp only
      rcases Registry.standard.readSlots slots with ⟨_ | fault, registry⟩ <;> rfl
  have whole := session_of_start (Prod.ext asked.1 rfl)
  rw [asked.2] at whole
  rw [elsewhere]
  exact Prod.ext asked.1 (congrArg (fun started : Session =>
    { started with place := (sessionWith name text).place }) whole)

/-- What a request for the single file of a standard session reads are the lines of this file. -/
theorem readInput_sessionWith {name text : String} (notStream : name ≠ standardStream)
    (reaches : (sessionWith "" "").place.files.Reaches name)
    (shortest : (FilePlace.ofPath name).path = name) (input : ByteArray) (output : Option String)
    (format : PolynomialFormat) :
    readInput (sessionWith name text).place.files input ⟨name, output, format⟩ =
      linesOfBytes text.toUTF8 := by
  have alsoReaches : (sessionWith name text).place.files.Reaches name := reaches.congr rfl
  have leads : (sessionWith name text).place.files.resolve name = .ok name := by
    rw [FileSet.resolve_of_reaches alsoReaches, shortest]
  have found : (sessionWith name text).place.files.get? name = some text.toUTF8 := by
    simp [sessionWith, FileSet.get?, Entries.get?_cons]
  have content : (sessionWith name text).place.files.read name = .ok text.toUTF8 := by
    rw [FileSet.read, leads, bind_ok, found]
    rfl
  rw [readInput, if_neg notStream, content, bind_ok]

/-- A name of letters takes a byte for each. -/
theorem utf8ByteSize_letters (count : Nat) :
    (String.ofList (List.replicate count 'a')).utf8ByteSize = count := by
  rw [String.utf8ByteSize_ofList]
  induction count with
  | zero => rfl
  | succ count hypothesis =>
    rw [List.replicate_succ, String.utf8Len_cons, hypothesis]
    rfl

/-- A name of 256 letters, one more than a file may have. -/
def longName : String := String.ofList (List.replicate 256 'a')

end Program

end ExactQuadrature

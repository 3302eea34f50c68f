import ExactQuadrature.Proofs.Journal.Verbosity
import ExactQuadrature.Proofs.Program.Sequence
import ExactQuadrature.Proofs.Settings.Verbosity

/-! # Verbosity has no influence on a run

A run whose command line begins with the flag for verbosity differs from the run without it in the
lines that are noted before the final report and in nothing else: not in its status or standard
output, not in any file, the profile included, and not in the settings it leaves but for the
verbosity itself (`Program.verbosity_inert`). Both runs keep sessions that differ in that way
(`Session.Related`).
-/

namespace ExactQuadrature

/-- The same files and settings, but for the verbosity, and related journals. -/
structure Session.Related (related : Journal → Journal → Prop) (a b : Session) : Prop where
  place : a.place = b.place
  registry : a.registry.quiet = b.registry.quiet
  journal : related a.journal b.journal

namespace Program

variable {related : Journal → Journal → Prop} {a b : Session}

/-- Related sessions write the same profile. -/
theorem profile_of_related (same : a.Related related b) :
    a.registry.profile = b.registry.profile := by
  rw [← a.registry.profile_quiet, same.registry, b.registry.profile_quiet]

theorem stepping_of_related (same : a.Related related b) :
    a.registry.stepping = b.registry.stepping := by
  rw [← a.registry.stepping_quiet, same.registry, b.registry.stepping_quiet]

/-- Related sessions calculate the same and stay related. -/
theorem related_calculate (kept : Journal.Kept related) (same : a.Related related b)
    (input : ByteArray) (request : Request) :
    (calculate a input request).1 = (calculate b input request).1 ∧
      (calculate a input request).2.1 = (calculate b input request).2.1 ∧
      (calculate a input request).2.2.Related related (calculate b input request).2.2 := by
  unfold calculate
  rw [← same.place, ← stepping_of_related same]
  cases readInput a.place.files input request with
  | error fault => exact ⟨rfl, rfl, same⟩
  | ok lines =>
    dsimp only
    obtain ⟨yields, after⟩ :=
      Calculation.related_run kept a.registry.stepping request.format lines same.journal
    generalize (Calculation.run a.registry.stepping request.format lines).run a.journal = first,
      (Calculation.run a.registry.stepping request.format lines).run b.journal = second
      at yields after ⊢
    obtain ⟨yield, left⟩ := first
    obtain ⟨yield', left'⟩ := second
    obtain rfl : yield = yield' := yields
    dsimp only
    split
    · exact ⟨rfl, rfl, rfl, same.registry, after⟩
    · rcases a.place.replace? request.output (joinLines yield.lines) yield.fault with
        ⟨_ | _, place⟩ <;> exact ⟨rfl, rfl, rfl, same.registry, after⟩

/-- A profile is the same in related sessions, or cannot be written in either. -/
theorem related_writeProfile (kept : Journal.Kept related) (same : a.Related related b) :
    Matching (Session.Related related) (writeProfile a).1 (writeProfile b).1 ∧
      (writeProfile a).2.Related related (writeProfile b).2 := by
  have after := kept.profile same.journal
  have written : a.journal.profile.1 = b.journal.profile.1 := (kept.alike after).profileText
  unfold writeProfile
  simp only [← profile_of_related same]
  split
  · exact ⟨.ok same, same⟩
  · simp only [← same.place, ← written]
    cases a.place.files.write a.registry.profile a.journal.profile.1.toUTF8 with
    | ok files => exact ⟨.ok ⟨rfl, same.registry, after⟩, rfl, same.registry, after⟩
    | error fault => exact ⟨.error fault, rfl, same.registry, after⟩

/-- Writing a profile notes no lines. -/
theorem text_writeProfile (session : Session) :
    (∀ written, (writeProfile session).1 = .ok written →
        written.journal.text = session.journal.text) ∧
      (writeProfile session).2.journal.text = session.journal.text := by
  unfold writeProfile
  dsimp only
  split
  · refine ⟨?_, rfl⟩
    rintro _ ⟨⟩
    rfl
  · cases session.place.files.write session.registry.profile session.journal.profile.1.toUTF8 with
    | ok files =>
      refine ⟨?_, rfl⟩
      rintro _ ⟨⟩
      rfl
    | error fault => exact ⟨nofun, rfl⟩

/-- A run that breaks off reports in the end what does not depend on the journal. -/
theorem report_broken (fault : Fault) (output : String) :
    ∃ final, ∀ journal : Journal,
      (RunResult.broken fault output).report journal = journal.text ++ final := by
  refine ⟨"Broken off: " ++ (fault.report?.getD "no result" ++ "\n"), fun journal => ?_⟩
  simp only [RunResult.report, String.append_assoc]

/-- What was noted comes before the final report. -/
theorem report_conclude (output : String) (fault : Option Fault) :
    ∃ final, ∀ journal : Journal,
      (conclude journal.text output fault).report journal = journal.text ++ final := by
  cases fault with
  | none => exact ⟨_, fun _ => rfl⟩
  | some fault =>
    simp only [conclude]
    cases failureReport? fault with
    | some report => exact ⟨report, fun _ => rfl⟩
    | none => exact report_broken fault output

/-- A request is carried out alike in related sessions, and reported alike after what was noted. -/
theorem related_perform (kept : Journal.Kept related) (same : a.Related related b)
    (input : ByteArray) (request : Request) :
    (perform a input request).1.unreported = (perform b input request).1.unreported ∧
      (perform a input request).2.Related related (perform b input request).2 ∧
      ∃ final,
        (perform a input request).1.report (perform a input request).2.journal =
          (perform a input request).2.journal.text ++ final ∧
        (perform b input request).1.report (perform b input request).2.journal =
          (perform b input request).2.journal.text ++ final := by
  obtain ⟨faults, outputs, calculated⟩ := related_calculate kept same input request
  unfold perform
  generalize calculate a input request = first, calculate b input request = second
    at faults outputs calculated ⊢
  obtain ⟨fault, output, calculatedA⟩ := first
  obtain ⟨fault', output', calculatedB⟩ := second
  obtain rfl : fault = fault' := faults
  obtain rfl : output = output' := outputs
  obtain ⟨written, left⟩ := related_writeProfile kept calculated
  obtain ⟨keeps, leaves⟩ := text_writeProfile calculatedA
  obtain ⟨keeps', leaves'⟩ := text_writeProfile calculatedB
  dsimp only
  generalize writeProfile calculatedA = wroteA, writeProfile calculatedB = wroteB
    at written left keeps leaves keeps' leaves' ⊢
  obtain ⟨resultA, afterA⟩ := wroteA
  obtain ⟨resultB, afterB⟩ := wroteB
  dsimp only at written left keeps leaves keeps' leaves'
  cases written with
  | ok carriedOut =>
    obtain ⟨final, reports⟩ := report_conclude output fault
    refine ⟨unreported_conclude _ _ _ _, carriedOut, final, ?_, ?_⟩
    · rw [← keeps _ rfl]
      exact reports _
    · rw [← keeps' _ rfl]
      exact reports _
  | error unwritable =>
    obtain ⟨final, reports⟩ := report_broken unwritable output
    exact ⟨rfl, left, final, reports _, reports _⟩

/-- Slots that differ in the verbosity alone hold the same request. -/
theorem request_of_apart {first second : Slots} (apart : Interface.Apart "verbose" first second) :
    Request.ofSlots first = Request.ofSlots second := by
  have file : slotText? first "file" = slotText? second "file" := by
    rw [slotText?, slotText?, apart.same _ (by decide)]
  have output : slotText? first "output" = slotText? second "output" := by
    rw [slotText?, slotText?, apart.same _ (by decide)]
  simp only [Request.ofSlots, file, output, apart.same "expressions" (by decide)]

/-- The session with the settings of a command line, and with no lines noted. -/
def started (session : Session) (registry : Registry) : Session where
  place := session.place
  registry := registry
  journal := { session.journal with verbose := registry.verbose, lines := #[] }

/-- Sessions start related if their settings are the same in silence. -/
theorem related_started (session : Session) {registry other : Registry}
    (same : registry.quiet = other.quiet) :
    (started session registry).Related Journal.Alike (started session other) :=
  ⟨rfl, same, rfl, rfl, rfl⟩

/-- A command line is not started with or without the flag for verbosity, and changes nothing; or
it is started in sessions that differ in the verbosity alone and have noted nothing. -/
theorem start_verbose {session : Session} (standard : session.registry.IsStandard)
    (arguments : List String) :
    (∃ result, start session ("--verbose" :: arguments) = (.error result, session) ∧
        start session arguments = (.error result, session)) ∨
      ∃ outcome loud quiet,
        start session ("--verbose" :: arguments) = (outcome, started session loud) ∧
        start session arguments = (outcome, started session quiet) ∧ loud.quiet = quiet.quiet ∧
        ∀ result, outcome = .error result → ∃ fault, result = .broken fault "" := by
  have matched := read_verbose standard arguments
  unfold start
  generalize (interface session.registry).read ("--verbose" :: arguments) = first,
    (interface session.registry).read arguments = second at matched
  cases matched with
  | error halt => exact .inl ⟨_, rfl, rfl⟩
  | @ok slots slots' apart =>
    obtain ⟨faults, registries⟩ := Registry.readSlots_quiet standard apart
    dsimp only
    generalize session.registry.readSlots slots = readA, session.registry.readSlots slots' = readB
      at faults registries
    obtain ⟨fault, registry⟩ := readA
    obtain ⟨fault', registry'⟩ := readB
    obtain rfl : fault = fault' := faults
    rw [request_of_apart apart]
    cases fault with
    | none =>
      refine .inr ⟨.ok (Request.ofSlots slots'), registry, registry', rfl, rfl, registries, ?_⟩
      rintro _ ⟨⟩
    | some fault =>
      refine .inr
        ⟨.error (notStarted (.fault fault)), registry, registry', rfl, rfl, registries, ?_⟩
      rintro _ ⟨⟩
      exact ⟨_, rfl⟩

/-- A request leaves the settings as the command line gave them. -/
theorem verbose_of_perform {session : Session} {registry : Registry} {input : ByteArray}
    {request : Request}
    (off : (perform (started session registry) input request).2.registry.verbose = false) :
    (started session registry).journal.verbose = false := by
  obtain ⟨_, _, performed, registry, _⟩ := perform_effect (started session registry) input request
  rw [performed, registry] at off
  exact off

theorem text_of_lines {journal : Journal} (none : journal.lines = #[]) : journal.text = "" := by
  rw [Journal.text, none]
  rfl

/-- **Verbosity is inert.** With the flag for verbosity before its command line, a run has the same
status and standard output or is broken off by the same fault, leaves the same files, the profile
included, and the same settings but for the verbosity, and its report differs in the lines noted
before the end alone. A script of journal steps has the same outcome and timings wherever it
switches verbosity on or off. -/
theorem verbosity_inert :
    (∀ session : Session, session.registry.IsStandard → ∀ arguments input,
      let quiet := run session arguments input
      let loud := run session ("--verbose" :: arguments) input
      loud.1.unreported = quiet.1.unreported ∧ loud.2.place = quiet.2.place ∧
        loud.2.registry.quiet = quiet.2.registry.quiet ∧ loud.2.journal.Alike quiet.2.journal ∧
        (loud = quiet ∧ quiet.2 = session ∨
          ∃ final, loud.1.report loud.2.journal = loud.2.journal.text ++ final ∧
            quiet.1.report quiet.2.journal = quiet.2.journal.text ++ final ∧
            (quiet.2.registry.verbose = false → quiet.2.journal.text = ""))) ∧
    ∀ first second : List JournalStep,
      JournalStep.silencedAll first = JournalStep.silencedAll second →
        ∀ a b : Journal, a.Alike b →
          (JournalStep.runAll first).outcome a = (JournalStep.runAll second).outcome b ∧
            ((JournalStep.runAll first).doneIn a).2.Alike
                ((JournalStep.runAll second).doneIn b).2 := by
  refine ⟨fun session standard arguments input => ?_, fun first second same a b alike => ?_⟩
  · obtain ⟨result, startedA, startedB⟩ | ⟨outcome, loud, quiet, startedA, startedB, registries,
      broken⟩ := start_verbose standard arguments
    · simp only [run, startedA, startedB]
      exact ⟨trivial, trivial, trivial, .refl _, .inl ⟨trivial, trivial⟩⟩
    · have related := related_started session registries
      simp only [run, startedA, startedB]
      cases outcome with
      | error result =>
        obtain ⟨fault, rfl⟩ := broken result rfl
        obtain ⟨final, reports⟩ := report_broken fault ""
        exact ⟨rfl, related.place, related.registry, related.journal,
          .inr ⟨final, reports _, reports _, fun _ => text_of_lines rfl⟩⟩
      | ok request =>
        obtain ⟨unreported, left, final, reportA, reportB⟩ :=
          related_perform Journal.kept_alike related input request
        refine ⟨unreported, left.place, left.registry, left.journal,
          .inr ⟨final, reportA, reportB, fun off => ?_⟩⟩
        have silent : (started session loud).Related (Journal.Silent #[]) (started session quiet) :=
          ⟨rfl, registries, related.journal, verbose_of_perform off, rfl⟩
        have after := (related_perform (Journal.kept_silent #[]) silent input request).2.1
        exact text_of_lines after.journal.lines
  · obtain ⟨outcome, after⟩ := JournalStep.related_silencedAll first a b alike
    obtain ⟨outcome', after'⟩ := JournalStep.related_silencedAll second b b (.refl b)
    rw [same] at outcome after
    exact ⟨outcome.trans outcome'.symm, after.trans after'.symm⟩

/-- A run over bounds and one polynomial, and scripts that switch verbosity on inside a task and off
before an end without a task. -/
theorem verbosity_inert_switched :
    (run (sessionWith "in" "0, 2\n1, 3\n") ["--verbose", "in"] .empty).1.unreported =
        (run (sessionWith "in" "0, 2\n1, 3\n") ["in"] .empty).1.unreported ∧
      (JournalStep.runAll [.within "outer" [] [.verbose true, .event "inside"], .verbose false,
        .endTask]).outcome (.new false [5]) =
      (JournalStep.runAll [.within "outer" [] [.event "inside"], .endTask]).outcome
        (.new true [5]) := by
  obtain ⟨runs, scripts⟩ := verbosity_inert
  refine ⟨(runs (sessionWith "in" "0, 2\n1, 3\n") Registry.isStandard_standard ["in"] .empty).1, ?_⟩
  exact (scripts _ _ (by rfl) _ _ ⟨rfl, rfl, rfl⟩).1

end Program

end ExactQuadrature

import ExactQuadrature.Proofs.Calculation.Independence
import ExactQuadrature.Proofs.Program.Effect

/-! # Reports of runs

With a scale that results can be rounded to, or that is refused for being too coarse, every fault of
a calculation has an explanation (`Calculation.explained_of_yieldOf`), and so has every fault of
reading the input and of writing the output. A run with such a scale and with a path for its output
reports on its success or failure, unless its profile cannot be written, which always breaks it off
(`Program.run_reports`).
-/

namespace ExactQuadrature

/-- A fault that a run can explain. -/
def Fault.Explained (fault : Fault) : Prop := ∃ reason, fault.report? = some reason

/-- A refusal explains itself. -/
theorem explained_refused (reason : Refusal) : (Fault.refused reason).Explained := ⟨_, rfl⟩

theorem explained_precision : Fault.precisionOutOfRange.Explained := ⟨_, rfl⟩

theorem explained_path (fault : PathFault) (path : String) : (Fault.path fault path).Explained :=
  ⟨_, rfl⟩

/-- The report on a calculation, after what was noted: a success with the status zero, or the
explanation of the fault with the status one. -/
def RunResult.Reports (result : RunResult) (fault : Option Fault) : Prop :=
  ∃ (noted : Journal) (output : String),
    match fault with
    | none => result = .finished 0 output (noted.text ++ "OPERATION SUCCEEDED!\n")
    | some fault => ∃ reason, fault.report? = some reason ∧
        result = .finished 1 output
          (noted.text ++ ("OPERATION FAILED!\nReason: " ++ reason ++ "\n"))

namespace Calculation

/-- The fault that answers end with is the fault of one of them. -/
theorem Yield.exists_of_fault {answers : List (Except Fault String)} {fault : Fault}
    (failed : (Yield.ofAnswers answers).fault = some fault) : .error fault ∈ answers := by
  induction answers with
  | nil => cases failed
  | cons answer rest ih =>
    cases answer with
    | ok line => exact List.mem_cons_of_mem _ (ih failed)
    | error raised =>
      cases failed
      exact List.mem_cons_self

/-- No line is longer than what is asked for. -/
theorem length_le_demand (format : PolynomialFormat) {lines : List String} {line : String}
    (present : line ∈ lines) : line.length ≤ demand format lines := by
  have longest := length_le_longest present
  simp only [demand, Polynomial.demand]
  nlinarith

/-- A line with a polynomial is replied to, or the fault has an explanation. -/
theorem explained_of_reply {format : PolynomialFormat} {first line : String} {rest : List String}
    {bounds : Bounds} {p : Polynomial} {count scale : Int} {fault : Fault}
    (start : Bounds.read first = .ok bounds) (present : line ∈ rest)
    (parsed : format.parse line = .ok p)
    (few : demand format (first :: rest) ≤ Range.exact.precision)
    (handled : Grid.HandledScale first.length scale)
    (failed : reply format (.ofWhole count scale) bounds line = .error fault) :
    fault.Explained := by
  rcases stepWidth_of_read count start few handled with
    ⟨width, found⟩ | ⟨reason, refused⟩ | ⟨_, imprecise⟩
  · obtain ⟨_, _, replied | ⟨_, imprecise⟩⟩ := reply_found start present parsed few found
    · exact nomatch replied.symm.trans failed
    · cases imprecise.symm.trans failed
      exact explained_precision
  · simp only [reply, parsed, bind_ok, answer_of_stepWidth refused] at failed
    cases failed
    exact explained_refused reason
  · simp only [reply, parsed, bind_ok, answer_of_stepWidth imprecise] at failed
    cases failed
    exact explained_precision

/-- A fault of a calculation with a scale that is handled has an explanation. -/
theorem explained_of_yieldOf {format : PolynomialFormat} {lines : List String} {count scale : Int}
    {fault : Fault} (few : demand format lines ≤ Range.exact.precision)
    (handled : ∀ first ∈ lines.head?, Grid.HandledScale first.length scale)
    (failed : (yieldOf (.ofWhole count scale) format lines).fault = some fault) :
    fault.Explained := by
  cases given : inputOf format lines with
  | error raised =>
    simp only [yieldOf, given] at failed
    cases failed
    obtain ⟨reason, rfl⟩ | ⟨line, present, long⟩ :=
      refused_of_firstFault (inputOf_eq_error.mp given)
    · exact explained_refused reason
    · have short := length_le_demand format present
      omega
  | ok input =>
    obtain ⟨bounds, ps⟩ := input
    obtain ⟨first, rest, rfl, start, read⟩ := inputOf_eq_ok given
    have polynomials := mapM_eq_ok.mp read
    rw [yieldOf_eq given polynomials] at failed
    obtain ⟨line, present, replied⟩ := List.mem_map.mp (Yield.exists_of_fault failed)
    obtain ⟨p, parsed⟩ := exists_parse polynomials present
    exact explained_of_reply start present parsed few (handled first rfl) replied

end Calculation

namespace Program

variable {session started : Session} {input : ByteArray} {request : Request} {fault : Fault}

/-- A path that leads nowhere fails with an explanation. -/
theorem explained_of_resolve {files : FileSet} {path : String}
    (failed : files.resolve path = .error fault) : fault.Explained := by
  unfold FileSet.resolve at failed
  split at failed
  · cases failed
  · cases failed
    exact explained_path _ _

theorem explained_of_profileFault? {place : Workplace} {path : String}
    (failed : profileFault? place path = some fault) : fault.Explained := by
  unfold profileFault? FileSet.write at failed
  split at failed
  · cases failed
  · split at failed
    · cases failed
      exact explained_path _ _
    · cases leads : place.files.resolve path with
      | ok name =>
        rw [leads] at failed
        cases failed
      | error raised =>
        rw [leads] at failed
        cases failed
        exact explained_of_resolve leads

/-- The input can be read, or the fault has an explanation. -/
theorem explained_of_readInput {files : FileSet}
    (failed : readInput files input request = .error fault) : fault.Explained := by
  have explains : ∀ content, linesOfBytes content = .error fault → fault.Explained := by
    intro content failed
    unfold linesOfBytes at failed
    split at failed
    · cases failed
    · cases failed
      exact ⟨_, rfl⟩
  unfold readInput at failed
  split at failed
  · exact explains input failed
  · obtain read | ⟨content, _, unread⟩ := bind_eq_error.mp failed
    · obtain unresolved | ⟨name, _, absent⟩ := bind_eq_error.mp read
      · exact explained_of_resolve unresolved
      · split at absent
        · cases absent
        · cases absent
          exact explained_path _ _
    · exact explains content unread

/-- A file can be replaced, or the fault has an explanation if the reason to give up has one. -/
theorem explained_of_replace? {place : Workplace} {path : String} {texts : List String}
    {giveUp : Option Fault} (given : ∀ raised, giveUp = some raised → raised.Explained)
    (failed : fault? (place.replace? (some path) texts giveUp).1 = some fault) :
    fault.Explained := by
  cases giveUp with
  | some raised =>
    cases failed
    exact given fault rfl
  | none =>
    simp only [Workplace.replace?, Workplace.replace_eq] at failed
    split at failed
    · cases failed
    · split at failed
      · cases failed
      · cases failed
        exact explained_path _ _

/-- A calculation with a scale that is handled and with a path for its output succeeds, or its fault
has an explanation. -/
theorem explained_of_effect {place : Workplace} {file : String} {count scale : Int}
    (output : request.output = some file)
    (few : ∀ lines, readInput place.files input request = .ok lines →
      Calculation.demand request.format lines ≤ Range.exact.precision)
    (handled : ∀ lines, readInput place.files input request = .ok lines →
      ∀ first ∈ lines.head?, Grid.HandledScale first.length scale)
    (failed : (effect place (.ofWhole count scale) input request).fault = some fault) :
    fault.Explained := by
  unfold effect at failed
  cases read : readInput place.files input request with
  | error raised =>
    rw [read] at failed
    cases failed
    exact explained_of_readInput read
  | ok lines =>
    have yields : ∀ raised,
        (Calculation.yieldOf (.ofWhole count scale) request.format lines).fault = some raised →
          raised.Explained :=
      fun _ => Calculation.explained_of_yieldOf (few lines read) (handled lines read)
    rw [read] at failed
    dsimp only at failed
    split at failed
    · exact yields fault failed
    · rw [output] at failed
      exact explained_of_replace? yields failed

/-- A calculation does not change whether the profile can be written. -/
theorem profileFault?_effect (session : Session) (input : ByteArray) (request : Request) :
    profileFault? (effect session.place session.registry.stepping input request).place
        session.registry.profile = none ↔ ProfileWritable session := by
  have later := profileFault?_eq_none { session with
    place := (effect session.place session.registry.stepping input request).place }
  simp only [ProfileWritable, resolve_effect] at later ⊢
  exact later

/-- A request breaks off if its profile cannot be written, although this could be explained. -/
theorem perform_of_unwritable (unwritable : ¬ProfileWritable session) (input : ByteArray)
    (request : Request) : ∃ (fault : Fault) (output : String), fault.Explained ∧
      (perform session input request).1 = .broken fault output := by
  obtain ⟨noted, left, performed, _⟩ := perform_effect session input request
  rw [← profileFault?_effect session input request] at unwritable
  obtain ⟨fault, raised⟩ := Option.ne_none_iff_exists'.mp unwritable
  rw [performed]
  simp only [ending, raised]
  exact ⟨fault, _, explained_of_profileFault? raised, rfl⟩

/-- A request whose profile can be written reports on its calculation, if the fault of that has an
explanation. -/
theorem perform_reports (writable : ProfileWritable session) (input : ByteArray)
    (request : Request)
    (explained : ∀ fault, (effect session.place session.registry.stepping input request).fault =
      some fault → fault.Explained) :
    (perform session input request).1.Reports
      (effect session.place session.registry.stepping input request).fault := by
  obtain ⟨noted, left, performed, _⟩ := perform_effect session input request
  rw [← profileFault?_effect session input request] at writable
  refine ⟨noted, (effect session.place session.registry.stepping input request).output, ?_⟩
  rw [performed]
  simp only [ending, writable]
  cases ended : (effect session.place session.registry.stepping input request).fault with
  | none => rfl
  | some fault =>
    obtain ⟨reason, told⟩ := explained fault ended
    simp only [conclude, failureReport?, told, Option.map_some]
    exact ⟨reason, rfl, rfl⟩

/-- **A run reports on itself.** Take an accepted command line with a path for the output, and
settings that hold a scale that results can be rounded to, or one that is refused for bounds as long
as those that are read. If no profile is wanted or there is a file for it, the run ends with the
status zero and the report of a success, or with the status one and the reason for which reading,
calculating or writing failed. If the profile cannot be written, the run breaks off, although the
reason for this could be reported too. -/
theorem run_reports {arguments : List String} {file : String} {count scale : Int}
    (accepted : start session arguments = (.ok request, started))
    (output : request.output = some file)
    (stepping : started.registry.stepping = .ofWhole count scale)
    (few : ∀ lines, readInput session.place.files input request = .ok lines →
      Calculation.demand request.format lines ≤ Range.exact.precision)
    (handled : ∀ lines, readInput session.place.files input request = .ok lines →
      ∀ first ∈ lines.head?, Grid.HandledScale first.length scale) :
    (ProfileWritable started → (run session arguments input).1.Reports
      (effect started.place started.registry.stepping input request).fault) ∧
    (¬ProfileWritable started → ∃ (fault : Fault) (output : String), fault.Explained ∧
      (run session arguments input).1 = .broken fault output) := by
  have place : started.place = session.place := by rw [session_of_start accepted]
  rw [← place] at few handled
  rw [run_of_start accepted]
  refine ⟨fun writable => ?_, fun unwritable => perform_of_unwritable unwritable input request⟩
  apply perform_reports writable input request
  rw [stepping]
  exact fun fault failed => explained_of_effect output few handled failed

/-- A scale of minus a million: no digit of the quotient would be looked at, and the run says so. -/
theorem run_reports_coarse :
    (run (sessionWith "f" "0,1\n1\n") ["--step-scale=-1000000", "f"] .empty).1.Reports
      (some .precisionOutOfRange) := by
  let text := "0,1\n1\n"
  let request : Request := ⟨"f", some "-", .coefficients⟩
  let settings := Registry.standard.set "step-scale" (.whole (-1000000))
  have accepted := start_sessionWith (by decide +kernel :
    (start (sessionWith "" "") ["--step-scale=-1000000", "f"]).1 = .ok request ∧
      (start (sessionWith "" "") ["--step-scale=-1000000", "f"]).2.registry = settings) "f" text
  have reads : readInput (sessionWith "f" text).place.files .empty request = .ok ["0,1", "1"] :=
    (readInput_sessionWith (by decide) (by decide) (by decide) _ _ _).trans (by decide +kernel)
  have stepping : settings.stepping = .ofWhole 1000 (-1000000) := by decide +kernel
  have unprofiled : settings.profile = "" := by decide +kernel
  have few : ∀ lines, readInput (sessionWith "f" text).place.files .empty request = .ok lines →
      Calculation.demand request.format lines ≤ Range.exact.precision := by
    intro lines read
    cases reads.symm.trans read
    exact Calculation.demand_le .coefficients (by decide)
  have handled : ∀ lines, readInput (sessionWith "f" text).place.files .empty request = .ok lines →
      ∀ first ∈ lines.head?, Grid.HandledScale first.length (-1000000) := by
    intro lines read first listed
    cases reads.symm.trans read
    cases listed
    exact .inr (by decide)
  have reports := (run_reports accepted rfl stepping few handled).1 (.inl unprofiled)
  have fault :
      (effect (sessionWith "f" text).place (.ofWhole 1000 (-1000000)) .empty request).fault =
      some .precisionOutOfRange := by
    unfold effect
    rw [reads]
    decide +kernel
  rw [stepping, fault] at reports
  exact reports

/-- Nothing is reported if there is no directory for the profile. -/
theorem run_unreported :
    (start (sessionWith "f" "0,1\n1\n") ["--profile", "d/p", "f"]).1 =
        .ok ⟨"f", some "-", .coefficients⟩ ∧
      ∃ (fault : Fault) (output : String), fault.Explained ∧
        (run (sessionWith "f" "0,1\n1\n") ["--profile", "d/p", "f"] .empty).1 =
          .broken fault output := by
  have accepted := start_sessionWith (by decide +kernel :
    (start (sessionWith "" "") ["--profile", "d/p", "f"]).1 = .ok ⟨"f", some "-", .coefficients⟩ ∧
      (start (sessionWith "" "") ["--profile", "d/p", "f"]).2.registry =
        Registry.standard.set "profile" (.text "d/p")) "f" "0,1\n1\n"
  have wanted : (Registry.standard.set "profile" (.text "d/p")).profile = "d/p" := by decide +kernel
  refine ⟨congrArg Prod.fst accepted, ?_⟩
  rw [run_of_start accepted]
  refine perform_of_unwritable ?_ .empty _
  simp only [ProfileWritable, wanted]
  rintro (unwanted | ⟨name, leads⟩)
  · exact absurd unwanted (by decide)
  · have reaches := FileSet.fault?_eq_none_iff.mp (FileSet.resolve_eq_ok_iff.mp leads).1
    exact absurd reaches (by decide)

end Program

end ExactQuadrature

import ExactQuadrature.Proofs.Program.Effect
import ExactQuadrature.Proofs.Settings.Standard

/-! # Runs one after the other

A run leaves to the next one the settings that keep their values, and nothing else that would be
seen in its result: not the open tasks, not the verbosity, and not even the settings if its command
line is not carried out. So a run after others ends like the first one of a process that starts
with the values given last (`Program.runs_independent`).
-/

namespace ExactQuadrature

/-- A result without its report. -/
def RunResult.unreported : RunResult → RunResult
  | exited reason => exited reason
  | finished status output _ => finished status output ""
  | broken fault output => broken fault output

namespace Program

/-! ### What a command line gives -/

/-- The values that a command line gives to the settings that keep their values. -/
structure Given where
  profile : Option String
  subdivisions : Option Int
  scale : Option Int
deriving DecidableEq

namespace Given

/-- The values that a command line gives by what it writes into the slots. Without a number of
subdivisions where one is written, the scale is not taken either. -/
def ofSlots (written : Slots) : Given where
  profile := (written.get? "profile").map SlotContent.text
  subdivisions := (written.get? "subdivisions").bind (·.number.toOption)
  scale :=
    match (written.get? "subdivisions").bind (fault? ·.number) with
    | some _ => none
    | none => (written.get? "step_scale").bind (·.number.toOption)

/-- The values that a command line gives. One that is not carried out gives none. -/
def onLine (arguments : List String) : Given :=
  match (interface .standard).given arguments with
  | .ok written => ofSlots written
  | .error _ => ⟨none, none, none⟩

example : onLine ["--subdivisions=7", "--step-scale", "2", "--subd", "8", "--profile="] =
    ⟨some "", some 8, some 2⟩ := by decide +kernel

/-- The standard settings with the values that are given. -/
def settings (given : Given) (verbose : Bool) (profile : String) (subdivisions scale : Int) :
    Registry :=
  .holding verbose (given.profile.getD profile) (given.subdivisions.getD subdivisions)
    (given.scale.getD scale)

end Given

variable {a b : Session} {verbose : Bool} {profile : String} {subdivisions scale : Int}

/-- A slot that holds a whole number keeps it, or takes another one, or what is written into it is
no number. -/
theorem number_getD (written : Option SlotContent) (initial : Int) :
    (written.bind (fault? ·.number) = none ∧
        (written.getD (.value (.whole initial))).number =
          .ok ((written.bind (·.number.toOption)).getD initial)) ∨
      ∃ fault, written.bind (fault? ·.number) = some fault ∧
        written.bind (·.number.toOption) = none ∧
        (written.getD (.value (.whole initial))).number = .error fault := by
  cases written with
  | none => exact .inl ⟨rfl, rfl⟩
  | some content =>
    simp only [Option.bind_some, Option.getD_some]
    cases content.number with
    | ok number => exact .inl ⟨rfl, rfl⟩
    | error fault => exact .inr ⟨fault, rfl, rfl, rfl⟩

/-- What the settings take from the slots after a command line is what it gives, and whether they
take it does not depend on the verbosity before. -/
theorem readSlots_given {slots written : Slots}
    (above : Interface.Over (interface (.holding verbose profile subdivisions scale)).initial slots
      written) :
    ∃ fault marked, ∀ verbose,
      (Registry.holding verbose profile subdivisions scale).readSlots slots =
        (fault, (Given.ofSlots written).settings marked profile subdivisions scale) := by
  have held : ∀ name initial,
      (interface (.holding verbose profile subdivisions scale)).initial.get? name = some initial →
        slots.get? name = some ((written.get? name).getD initial) := by
    intro name initial known
    rw [above name, known]
    cases written.get? name <;> rfl
  obtain ⟨marked, named, counted, scaled⟩ :=
    get?_initial_holding verbose profile subdivisions scale
  have reads := fun verbose => Registry.readSlots_holding verbose profile subdivisions scale
    (held "verbose" _ marked) (held "profile" _ named) (held "subdivisions" _ counted)
    (held "step_scale" _ scaled)
  have path : ((written.get? "profile").getD (.value (.text profile))).text =
      ((written.get? "profile").map SlotContent.text).getD profile := by
    cases written.get? "profile" <;> rfl
  simp only [path] at reads
  simp only [Given.settings, Given.ofSlots]
  obtain ⟨readable, counted⟩ | ⟨fault, unreadable, numberless, counted⟩ :=
    number_getD (written.get? "subdivisions") subdivisions
  · simp only [counted] at reads
    simp only [readable]
    obtain ⟨_, placed⟩ | ⟨fault, _, numberless, placed⟩ :=
      number_getD (written.get? "step_scale") scale
    · simp only [placed] at reads
      exact ⟨_, _, reads⟩
    · simp only [placed] at reads
      simp only [numberless]
      exact ⟨_, _, reads⟩
  · simp only [counted] at reads
    simp only [unreadable, numberless]
    exact ⟨_, _, reads⟩

/-- A command line starts every run with the same settings but the verbosity in the same way: it is
not carried out and changes nothing, or it sets the verbosity and what it gives. -/
theorem start_given (profile : String) (subdivisions scale : Int) (arguments : List String) :
    (∃ reason, Given.onLine arguments = ⟨none, none, none⟩ ∧
      ∀ (session : Session) (verbose : Bool),
        session.registry = .holding verbose profile subdivisions scale →
          start session arguments = (.error (.exited reason), session)) ∨
    ∃ (outcome : Except RunResult Request) (marked : Bool),
      (∀ reason, outcome ≠ .error (.exited reason)) ∧
      ∀ (session : Session) (verbose : Bool),
        session.registry = .holding verbose profile subdivisions scale →
          start session arguments = (outcome, { session with
            registry := (Given.onLine arguments).settings marked profile subdivisions scale
            journal := { session.journal with verbose := marked, lines := #[] } }) := by
  have standard : (interface (.holding false profile subdivisions scale)).given =
      (interface .standard).given :=
    Interface.given_of_reset (reset_interface_holding false profile subdivisions scale)
  simp only [Given.onLine, ← standard]
  obtain ⟨reason, read, given⟩ | ⟨slots, written, read, given, above⟩ :=
    (sound_interface false profile subdivisions scale).read arguments
  · rw [given]
    refine .inl ⟨reason, rfl, fun session verbose held => ?_⟩
    unfold start
    rw [held, interface_holding, read]
    rfl
  · rw [given]
    obtain ⟨fault, marked, reads⟩ := readSlots_given above
    refine .inr ⟨match fault with
      | none => .ok (Request.ofSlots slots)
      | some fault => .error (notStarted (.fault fault)), marked, ?_, ?_⟩
    · cases fault <;> exact nofun
    · intro session verbose held
      unfold start
      rw [held, interface_holding, read]
      dsimp only
      rw [reads]
      cases fault <;> rfl

/-- What was noted is seen in the report alone. -/
theorem unreported_conclude (noted other output : String) (fault : Option Fault) :
    (conclude noted output fault).unreported = (conclude other output fault).unreported := by
  cases fault with
  | none => rfl
  | some fault =>
    simp only [conclude]
    cases failureReport? fault <;> rfl

/-- Whether a fault goes unreported does not depend on what has been noted. -/
theorem unreported_ending (noted other : String) (effect : Effect) (path : String) :
    (ending noted effect path).unreported = (ending other effect path).unreported := by
  unfold ending
  cases profileFault? effect.place path with
  | some fault => rfl
  | none => exact unreported_conclude _ _ _ _

/-- A run that has started does not exit early. -/
theorem ending_ne_exited (noted : String) (effect : Effect) (path : String) (reason : Exit) :
    ending noted effect path ≠ .exited reason := by
  unfold ending
  cases profileFault? effect.place path with
  | some fault => exact nofun
  | none =>
    cases effect.fault with
    | none => exact nofun
    | some fault =>
      simp only [conclude]
      cases failureReport? fault <;> exact nofun

/-- A request does the same in sessions with the same files and settings, but for its report and the
profile. -/
theorem perform_alike (place : a.place = b.place) (registry : a.registry = b.registry)
    (input : ByteArray) (request : Request) :
    (perform a input request).1.unreported = (perform b input request).1.unreported ∧
      KeepsFiles (perform b input request).2.place (perform a input request).2.place
        (profileFiles b) ∧
      (∀ reason, (perform a input request).1 ≠ .exited reason) ∧
      (perform a input request).2.registry = (perform b input request).2.registry := by
  obtain ⟨noted, left, performed, settings, _, keeps⟩ := perform_effect a input request
  obtain ⟨alsoNoted, alsoLeft, alsoPerformed, alsoSettings, _, alsoKeeps⟩ :=
    perform_effect b input request
  have sameFiles : profileFiles a = profileFiles b :=
    (profile_congr registry fun _ _ => by rw [place]).2
  rw [place, registry] at performed
  rw [place, registry, sameFiles] at keeps
  rw [performed, alsoPerformed]
  have twice : profileFiles b ++ profileFiles b ⊆ profileFiles b :=
    List.append_subset.mpr ⟨List.Subset.refl _, List.Subset.refl _⟩
  exact ⟨unreported_ending _ _ _ _, (alsoKeeps.symm.trans keeps).mono twice,
    ending_ne_exited _ _ _, settings.trans (registry.trans alsoSettings.symm)⟩

/-- A run does the same in sessions with the same files and settings, but for the verbosity, its
report and the profile. If it is not carried out, nothing changes, and otherwise it leaves the same
settings. -/
theorem run_alike {verbose other : Bool} (place : a.place = b.place)
    (first : a.registry = .holding verbose profile subdivisions scale)
    (second : b.registry = .holding other profile subdivisions scale)
    (arguments : List String) (input : ByteArray) :
    (run a arguments input).1.unreported = (run b arguments input).1.unreported ∧
      KeepsFiles (run b arguments input).2.place (run a arguments input).2.place
        (profileFiles (start b arguments).2) ∧
      match (run a arguments input).1 with
      | .exited _ => (run a arguments input).2 = a
      | _ => (run a arguments input).2.registry = (run b arguments input).2.registry ∧
          (start a arguments).2.journal.verbose = (start b arguments).2.registry.verbose := by
  unfold run
  obtain ⟨reason, _, exits⟩ | ⟨outcome, marked, goesOn, starts⟩ :=
    start_given profile subdivisions scale arguments
  · rw [exits a verbose first, exits b other second]
    refine ⟨rfl, ?_, rfl⟩
    rw [place]
    exact .refl _ _
  · rw [starts a verbose first, starts b other second]
    cases outcome with
    | error result =>
      dsimp only
      refine ⟨rfl, ?_, ?_⟩
      · rw [place]
        exact .refl _ _
      · cases result with
        | exited reason => exact absurd rfl (goesOn reason)
        | finished status output report => exact ⟨rfl, rfl⟩
        | broken fault output => exact ⟨rfl, rfl⟩
    | ok request =>
      dsimp only
      obtain ⟨same, keeps, carriedOut, settings⟩ := perform_alike
        (a := { a with
          registry := (Given.onLine arguments).settings marked profile subdivisions scale
          journal := { a.journal with verbose := marked, lines := #[] } })
        (b := { b with
          registry := (Given.onLine arguments).settings marked profile subdivisions scale
          journal := { b.journal with verbose := marked, lines := #[] } })
        place rfl input request
      refine ⟨same, keeps, ?_⟩
      split
      · exact absurd ‹_› (carriedOut _)
      · exact ⟨settings, rfl⟩

/-- The settings and the open tasks that a run leaves behind. -/
theorem run_leaves (session : Session)
    (held : session.registry = .holding verbose profile subdivisions scale)
    (arguments : List String) (input : ByteArray) :
    (∃ marked, (run session arguments input).2.registry =
        (Given.onLine arguments).settings marked profile subdivisions scale) ∧
      (run session arguments input).2.journal.openTasks = session.journal.openTasks := by
  unfold run
  obtain ⟨reason, given, exits⟩ | ⟨outcome, marked, _, starts⟩ :=
    start_given profile subdivisions scale arguments
  · rw [exits session verbose held, given]
    exact ⟨⟨verbose, held⟩, rfl⟩
  · rw [starts session verbose held]
    cases outcome with
    | error result => exact ⟨⟨marked, rfl⟩, rfl⟩
    | ok request =>
      obtain ⟨noted, left, performed, registry, openTasks, _⟩ := perform_effect { session with
        registry := (Given.onLine arguments).settings marked profile subdivisions scale
        journal := { session.journal with verbose := marked, lines := #[] } } input request
      dsimp only
      rw [performed]
      exact ⟨⟨marked, registry⟩, openTasks⟩

/-! ### Sequences of runs -/

/-- A call of the program: the files that it finds, its command line and its standard input. -/
structure Call where
  place : Workplace
  arguments : List String
  input : ByteArray

/-- The session with which a call starts its calculation. -/
def Call.started (call : Call) (session : Session) : Session :=
  (start { session with place := call.place } call.arguments).2

/-- The result of a call, and the session after it. -/
def Call.run (call : Call) (session : Session) : RunResult × Session :=
  Program.run { session with place := call.place } call.arguments call.input

/-- The session after calls one after the other. -/
def after (session : Session) (calls : List Call) : Session :=
  calls.foldl (fun session call => (call.run session).2) session

/-- The value that a setting was given last, or else its initial one. -/
def lastGiven {α : Type} (value : Given → Option α) (initial : α) (calls : List Call) : α :=
  (calls.filterMap fun call => value (.onLine call.arguments)).getLast?.getD initial

/-- The session that a process starts with, given its settings. -/
def fresh (registry : Registry) (ticks : List Int) : Session :=
  ⟨⟨⟨[], []⟩, 0⟩, registry, .new false ticks⟩

/-- What an earlier call gives is the initial value for the later ones. -/
theorem lastGiven_cons {α : Type} (value : Given → Option α) (initial : α) (call : Call)
    (rest : List Call) :
    lastGiven value initial (call :: rest) =
      lastGiven value ((value (.onLine call.arguments)).getD initial) rest := by
  simp only [lastGiven, List.filterMap_cons]
  cases value (.onLine call.arguments) with
  | none => rfl
  | some given =>
    dsimp only
    rw [List.getLast?_cons]
    rfl

/-- What calls leave behind: no open tasks, and the values given last. -/
theorem after_leaves (session : Session)
    (held : session.registry = .holding verbose profile subdivisions scale)
    (calls : List Call) :
    (∃ marked, (after session calls).registry = .holding marked
        (lastGiven Given.profile profile calls) (lastGiven Given.subdivisions subdivisions calls)
        (lastGiven Given.scale scale calls)) ∧
      (after session calls).journal.openTasks = session.journal.openTasks := by
  induction calls generalizing session verbose profile subdivisions scale with
  | nil => exact ⟨⟨verbose, held⟩, rfl⟩
  | cons call rest ih =>
    obtain ⟨⟨marked, settings⟩, openTasks⟩ :=
      run_leaves { session with place := call.place } held call.arguments call.input
    simp only [lastGiven_cons]
    obtain ⟨registry, stays⟩ := ih _ settings
    exact ⟨registry, stays.trans openTasks⟩

/-- **Runs do not influence each other** but by the settings that keep their values. After any
calls, no task is open, and each of these settings holds the value given last, or its initial one. A
further call ends like the first one of a process that starts with these values, and leaves the same
files but for the profile. If its command line is not carried out, nothing changes; otherwise it
leaves the same settings, and it notes what it does if its own command line says so. -/
theorem runs_independent (ticks moreTicks : List Int) (calls : List Call) (call : Call) :
    let profile := lastGiven Given.profile "" calls
    let subdivisions := lastGiven Given.subdivisions 1000 calls
    let scale := lastGiven Given.scale 6 calls
    let earlier := after (fresh .standard ticks) calls
    let first := fresh (.holding false profile subdivisions scale) moreTicks
    earlier.journal.openTasks = [] ∧
      (∃ verbose, earlier.registry = .holding verbose profile subdivisions scale) ∧
      (call.run earlier).1.unreported = (call.run first).1.unreported ∧
      KeepsFiles (call.run first).2.place (call.run earlier).2.place
        (profileFiles (call.started first)) ∧
      match (call.run earlier).1 with
      | .exited _ => (call.run earlier).2 = { earlier with place := call.place }
      | _ => (call.run earlier).2.registry = (call.run first).2.registry ∧
          (call.started earlier).journal.verbose = (call.started first).registry.verbose := by
  intro profile subdivisions scale earlier first
  obtain ⟨⟨verbose, registry⟩, openTasks⟩ :=
    after_leaves (fresh .standard ticks) Registry.standard_eq_holding calls
  exact ⟨openTasks, ⟨verbose, registry⟩,
    run_alike (a := { earlier with place := call.place }) (b := { first with place := call.place })
      rfl registry rfl call.arguments call.input⟩

/-- Where no number of subdivisions can be had, a scale that is written as well is not taken. -/
theorem scale_lost :
    (∃ slots, (interface .standard).read ["--step-scale=5", "--subdivisions=--", "f"] = .ok slots ∧
        slots.get? "step_scale" = some (.value (.whole 5))) ∧
      (run (sessionWith "f" "0,1\n1\n") ["--step-scale=5", "--subdivisions=--", "f"] .empty).1 =
        .broken (.settings .nothingHeld) "" ∧
      (run (sessionWith "f" "0,1\n1\n") ["--step-scale=5", "--subdivisions=--", "f"]
        .empty).2.registry.stepping = .ofWhole 1000 6 := by
  have read : (interface .standard).read ["--step-scale=5", "--subdivisions=--", "f"] =
      .ok [("output", .value (.text "-")), ("expressions", .value (.truth false)),
        ("verbose", .value (.truth false)), ("profile", .value (.text "")),
        ("subdivisions", .nothing), ("step_scale", .value (.whole 5)),
        ("file", .value (.text "f"))] := by decide +kernel
  exact ⟨⟨_, read, rfl⟩, by decide +kernel, by decide +kernel⟩

end Program

end ExactQuadrature

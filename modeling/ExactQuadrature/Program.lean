import ExactQuadrature.Calculation
import ExactQuadrature.Files.Replacement
import ExactQuadrature.Journal.Profile
import ExactQuadrature.Settings.Standard

/-! # Runs of the program

A run reads its command line, reads the input lines from a file or from standard input, calculates
and writes the output lines to standard output or, as a whole, to a file. It ends with a report on
success or failure, and with a profile if one is wanted. Runs that follow each other share the
files, the settings and the journal.

Faults that a run can explain make it report a failure. Any other fault, settings that cannot be
read, and a profile that cannot be written break the run off. -/

namespace ExactQuadrature

/-- What runs share: files with the temporary ones left behind, settings, and the journal. -/
structure Session where
  place : Workplace
  registry : Registry
  journal : Journal
deriving Inhabited

/-- How a run ends. -/
inductive RunResult where
  | exited (reason : Exit)
  | finished (status : Nat) (output : String) (report : String)
  | broken (fault : Fault) (output : String)
deriving DecidableEq, Inhabited

namespace RunResult

/-- The status to exit with. -/
def status : RunResult → Nat
  | exited reason => reason.status
  | finished status _ _ => status
  | broken _ _ => 1

/-- The text for standard output. -/
def output : RunResult → String
  | exited _ => ""
  | finished _ output _ => output
  | broken _ output => output

/-- The text for reports, given the journal of the run. -/
def report (journal : Journal) : RunResult → String
  | exited _ => ""
  | finished _ _ report => report
  | broken fault _ => journal.text ++ "Broken off: " ++ fault.report?.getD "no result" ++ "\n"

end RunResult

namespace Program

/-- The path that stands for standard input or output. -/
def standardStream : String := "-"

/-- The flags of the program besides those of the settings. -/
def ownFlags : List Flag :=
  [⟨["-o", "--output"], "output", .take .text (.text standardStream),
      "Output file; default is stdout", some "FILE"⟩,
    ⟨["-e", "--expressions"], "expressions", .mark,
      "Read polynomials as expressions like 5x^3-8 instead of coefficient lists", none⟩]

/-- The command line of the program. -/
def interface (registry : Registry) : Interface := registry.interface ownFlags (some "file")

/-- What a command line asks for besides the settings. The output may be left without a path. -/
structure Request where
  input : String
  output : Option String
  format : PolynomialFormat
deriving DecidableEq, Inhabited

/-- The text that a slot holds. -/
def slotText? (slots : Slots) (slot : String) : Option String :=
  match slots.get? slot with
  | some (.value (.text text)) => some text
  | _ => none

/-- The request on a command line. A missing or empty input file means standard input. -/
def Request.ofSlots (slots : Slots) : Request where
  input :=
    match slotText? slots "file" with
    | none | some "" => standardStream
    | some file => file
  output := slotText? slots "output"
  format := match slots.get? "expressions" with
    | some (.value (.truth true)) => .expression
    | _ => .coefficients

/-- The input lines of a request. -/
def readInput (files : FileSet) (input : ByteArray) (request : Request) :
    Except Fault (List String) := do
  if request.input = standardStream then linesOfBytes input
  else linesOfBytes (← files.read request.input)

/-- Every line followed by a line feed. -/
def joinLines (lines : List String) : List String := lines.map (· ++ "\n")

/-- Calculate and write the output. The result is the fault that prevented it, if any, and what
was written to standard output. -/
def calculate (session : Session) (input : ByteArray) (request : Request) :
    Option Fault × String × Session :=
  match readInput session.place.files input request with
  | .error fault => (some fault, "", session)
  | .ok lines =>
    let (yield, journal) :=
      (Calculation.run session.registry.stepping request.format lines).run session.journal
    let texts := joinLines yield.lines
    let session := { session with journal := journal }
    if request.output = some standardStream then (yield.fault, String.join texts, session)
    else
      match session.place.replace? request.output texts yield.fault with
      | (.ok _, place) => (none, "", { session with place := place })
      | (.error fault, place) => (some fault, "", { session with place := place })

/-- Write the profile, if one is wanted. -/
def writeProfile (session : Session) : Except Fault Session × Session :=
  let path := session.registry.profile
  if path = "" then (.ok session, session)
  else
    let (text, journal) := session.journal.profile
    let read := { session with journal := journal }
    match session.place.files.write path text.toUTF8 with
    | .ok files => (.ok { read with place := { read.place with files := files } }, read)
    | .error fault => (.error fault, read)

/-- The report on a fault, if it is one that can be explained. -/
def failureReport? (fault : Fault) : Option String :=
  fault.report?.map fun reason => "OPERATION FAILED!\nReason: " ++ reason ++ "\n"

/-- How a run ends after its calculation, given the lines noted so far. -/
def conclude (noted output : String) : Option Fault → RunResult
  | none => .finished 0 output (noted ++ "OPERATION SUCCEEDED!\n")
  | some fault =>
    match failureReport? fault with
    | some report => .finished 1 output (noted ++ report)
    | none => .broken fault output

/-- Do what a command line requests. -/
def perform (session : Session) (input : ByteArray) (request : Request) : RunResult × Session :=
  let (fault, output, calculated) := calculate session input request
  let result := conclude calculated.journal.text output fault
  match writeProfile calculated with
  | (.ok written, _) => (result, written)
  | (.error fault, left) => (.broken fault output, left)

/-- How a run ends that is not started. -/
def notStarted : Halt → RunResult
  | .exit reason => .exited reason
  | .fault fault => .broken (.settings fault) ""

/-- Read a command line: what it requests, or how the run ends already, and the session with the
settings it gives and with no lines noted. A command line that is not carried out leaves everything
as it was. -/
def start (session : Session) (arguments : List String) : Except RunResult Request × Session :=
  match (interface session.registry).read arguments with
  | .error halt => (.error (notStarted halt), session)
  | .ok slots =>
    let (fault, registry) := session.registry.readSlots slots
    let journal := { session.journal with verbose := registry.verbose, lines := #[] }
    let started := { session with registry := registry, journal := journal }
    match fault with
    | none => (.ok (Request.ofSlots slots), started)
    | some fault => (.error (notStarted (.fault fault)), started)

/-- Run the program with a command line and standard input. -/
def run (session : Session) (arguments : List String) (input : ByteArray) : RunResult × Session :=
  match start session arguments with
  | (.error result, session) => (result, session)
  | (.ok request, session) => perform session input request

/-- The flags and settings of a command line with their descriptions. -/
def usage (registry : Registry) : String :=
  "usage: [flags] [file]\n" ++ String.join (
    ("  -h, --help\n  -o, --output\n  -e, --expressions\n" ::
      registry.settings.map fun setting =>
        "  " ++ setting.flagText ++ ": " ++ setting.help ++ "\n"))

end Program

end ExactQuadrature

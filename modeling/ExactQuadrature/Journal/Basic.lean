import ExactQuadrature.Binary64
import ExactQuadrature.Fault

/-! # Task journals

A journal follows the tasks of a computation. Tasks nest: the path of a task is its name under the
names of the tasks it was begun in. Every task that ends adds its duration to the timing of its
path. While the journal is verbose it also notes the beginning and the end of every task and the
events in between, each line indented by the number of tasks around it.

The clock of a journal is wound by hand and shows whole microseconds. Every reading first moves it
forward by the next of a list of ticks, and by nothing once the list is used up, so the times that a
journal records depend only on the ticks it is given.

Work is a computation that may end in a fault and that keeps a journal. The journal survives a
fault: what was noted before it stays noted, and every task around it still ends. -/

namespace ExactQuadrature

/-- The time shown, in microseconds from the start, and the ticks to come. -/
structure Clock where
  now : Int
  ticks : List Int
deriving DecidableEq, Inhabited

namespace Clock

/-- A clock at the start, with the given ticks to come. -/
def withTicks (ticks : List Int) : Clock := ⟨0, ticks⟩

/-- The clock after a reading; the reading itself is the time it shows. -/
def advance (clock : Clock) : Clock :=
  match clock.ticks with
  | [] => clock
  | tick :: rest => ⟨clock.now + tick, rest⟩

/-- A number of microseconds in seconds, as the nearest double. -/
def seconds (microseconds : Int) : Float :=
  let magnitude := Float.ofScientific microseconds.natAbs true 6
  if microseconds < 0 then -magnitude else magnitude

end Clock

/-- A task that has begun and not ended. -/
structure OpenTask where
  name : String
  began : Int
deriving DecidableEq, Inhabited

/-- The total duration and the number of tasks that ended on one path. -/
structure Timing where
  path : List String
  total : Float
  count : Nat
deriving Inhabited

/-- The state of a journal. Open tasks are listed from the innermost outwards, timings in the
order in which their paths first ended, and lines in the order in which they were noted. -/
structure Journal where
  verbose : Bool
  clock : Clock
  openTasks : List OpenTask
  timings : List Timing
  lines : Array String
deriving Inhabited

namespace Journal

/-- A journal without tasks. -/
def new (verbose : Bool) (ticks : List Int) : Journal :=
  ⟨verbose, Clock.withTicks ticks, [], [], #[]⟩

/-- The names of the open tasks, outermost first. -/
def path (journal : Journal) : List String := (journal.openTasks.map OpenTask.name).reverse

/-- Note a line if the journal is verbose. -/
def log (journal : Journal) (line : String) : Journal :=
  if journal.verbose then { journal with lines := journal.lines.push line } else journal

/-- Two spaces for every open task. -/
def indentation (depth : Nat) : String := String.ofList (List.replicate (2 * depth) ' ')

/-- Note an event inside the open tasks. -/
def event (journal : Journal) (description : String) : Journal :=
  journal.log (indentation journal.openTasks.length ++ description)

/-- Details of a task as they follow its name. -/
def detailText : List (String × String) → String
  | [] => ""
  | details =>
    " [" ++ ", ".intercalate (details.map fun (key, shown) => key ++ "=" ++ shown) ++ "]"

/-- Begin a task. -/
def beginTask (journal : Journal) (name : String) (details : List (String × String)) : Journal :=
  let clock := journal.clock.advance
  let begun := { journal with
    clock := clock
    openTasks := ⟨name, clock.now⟩ :: journal.openTasks }
  begun.log (indentation journal.openTasks.length ++ name ++ detailText details ++ "...")

/-- Add a duration to the timing of a path. -/
def addTiming (path : List String) (duration : Float) : List Timing → List Timing
  | [] => [⟨path, 0.0 + duration, 1⟩]
  | timing :: rest =>
    if timing.path = path then ⟨path, timing.total + duration, timing.count + 1⟩ :: rest
    else timing :: addTiming path duration rest

/-- End the innermost task, if there is one. -/
def endTask (journal : Journal) : Option Journal :=
  match journal.openTasks with
  | [] => none
  | task :: outer =>
    let clock := journal.clock.advance
    let duration := Clock.seconds (clock.now - task.began)
    let ended := { journal with
      clock := clock
      openTasks := outer
      timings := addTiming journal.path duration journal.timings }
    some <| ended.log (indentation outer.length ++ "Finished " ++ task.name ++ " [duration=" ++
      Binary64.briefText duration ++ "s]")

/-- The lines noted so far as one text. -/
def text (journal : Journal) : String :=
  journal.lines.foldl (fun text line => text ++ line ++ "\n") ""

end Journal

/-! ### Recorded work -/

/-- A computation that keeps a journal and may end in a fault. -/
abbrev Work := ExceptT Fault (StateM Journal)

namespace Work

/-- Take over the outcome of a computation that keeps no journal. -/
def ofExcept {α : Type} (outcome : Except Fault α) : Work α := ExceptT.mk (pure outcome)

/-- The outcome of work, fault or not, while the journal goes on. -/
def attempt {α : Type} (work : Work α) : Work (Except Fault α) := ExceptT.mk (.ok <$> work.run)

/-- Change the journal. -/
def record (change : Journal → Journal) : Work Unit := modify change

/-- Note an event. -/
def event (description : String) : Work Unit := record (·.event description)

/-- Begin a task. Its name is no detail, so no detail may go under `name`. -/
def beginTask (name : String) (details : List (String × String)) : Work Unit := do
  if details.any (·.1 = "name") then throw .nameGivenTwice
  record (·.beginTask name details)

/-- End the innermost task. -/
def endTask : Work Unit := do
  match (← get).endTask with
  | some journal => set journal
  | none => throw .noOpenTask

/-- Do work as a task of its own, which ends even if the work ends in a fault. -/
def within {α : Type} (name : String) (details : List (String × String)) (work : Work α) :
    Work α := do
  beginTask name details
  let outcome ← attempt work
  endTask
  ofExcept outcome

end Work

end ExactQuadrature

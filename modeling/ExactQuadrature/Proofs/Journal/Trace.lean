import ExactQuadrature.Journal.Script
import ExactQuadrature.Proofs.Journal.Tasks
import ExactQuadrature.Proofs.Journal.Timings

/-! # Traces of scripts

What a script does to a journal is a list of activities: tasks that begin and end, events, plain
lines and switches of verbosity. Which activities those are, and how the script ends, is told from
the number of open tasks alone (`JournalStep.traceAll`), without clock, timings or lines. Doing the
script has that outcome and leaves the journal that the activities lead to
(`JournalStep.doneIn_runAll`). Along every trace the tasks that are begun are either open or have
been counted (`Journal.openTasks_add_totalCount_replay`).
-/

namespace ExactQuadrature

/-- What happens in a journal. -/
inductive Activity where
  | began (name : String) (details : List (String × String))
  | ended
  | event (description : String)
  | logged (line : String)
  | switched (verbose : Bool)
deriving DecidableEq

namespace Activity

/-- The number of open tasks after an activity. -/
def depth (before : Nat) : Activity → Nat
  | began _ _ => before + 1
  | ended => before - 1
  | _ => before

/-- The number of open tasks after activities in order. -/
def depthAfter (before : Nat) (trace : List Activity) : Nat := trace.foldl depth before

/-- An activity that neither begins nor ends a task. -/
def isPlain : Activity → Bool
  | began _ _ | ended => false
  | _ => true

def isBegin : Activity → Bool
  | began _ _ => true
  | _ => false

/-- How many tasks begin. -/
def begins (trace : List Activity) : Nat := trace.countP isBegin

/-- How many tasks end. -/
def ends (trace : List Activity) : Nat := trace.count ended

/-- The depth after two traces is that after the second, from where the first ends. -/
theorem depthAfter_append (before : Nat) (first second : List Activity) :
    depthAfter before (first ++ second) = depthAfter (depthAfter before first) second :=
  List.foldl_append

theorem begins_append (first second : List Activity) :
    begins (first ++ second) = begins first + begins second := List.countP_append

theorem ends_append (first second : List Activity) :
    ends (first ++ second) = ends first + ends second := List.count_append

theorem depthAfter_began (before : Nat) (name : String) (details : List (String × String))
    (rest : List Activity) :
    depthAfter before (began name details :: rest) = depthAfter (before + 1) rest := rfl

theorem begins_began (name : String) (details : List (String × String)) (rest : List Activity) :
    begins (began name details :: rest) = begins rest + 1 := List.countP_cons_of_pos rfl

theorem ends_began (name : String) (details : List (String × String)) (rest : List Activity) :
    ends (began name details :: rest) = ends rest := by
  have other : began name details ≠ ended := nofun
  exact List.count_cons_of_ne other

end Activity

namespace Journal

/-- The journal after an activity. An end without an open task is none. -/
def after (journal : Journal) : Activity → Journal
  | .began name details => journal.beginTask name details
  | .ended => journal.endTask.getD journal
  | .event description => journal.event description
  | .logged line => journal.log line
  | .switched value => { journal with verbose := value }

/-- The journal after activities in order. -/
def replay (journal : Journal) (trace : List Activity) : Journal := trace.foldl after journal

variable (journal : Journal)

theorem replay_append (first second : List Activity) :
    journal.replay (first ++ second) = (journal.replay first).replay second := List.foldl_append

/-- What happens in a task is replayed between its beginning and its end. -/
theorem replay_task (name : String) (details : List (String × String))
    (inside rest : List Activity) :
    journal.replay (.began name details :: (inside ++ .ended :: rest)) =
      (((journal.beginTask name details).replay inside).after .ended).replay rest :=
  (journal.beginTask name details).replay_append inside (.ended :: rest)

/-- What is no begin and no end changes neither the open tasks nor the timings. -/
theorem after_plain {activity : Activity} (plain : activity.isPlain = true) :
    (journal.after activity).openTasks = journal.openTasks ∧
      (journal.after activity).timings = journal.timings := by
  cases activity with
  | event _ | logged _ => exact ⟨Work.openTasks_log journal _, timings_log journal _⟩
  | switched _ => exact ⟨rfl, rfl⟩
  | began _ _ | ended => cases plain

/-- Beginning a task takes no timing. -/
theorem timings_beginTask (name : String) (details : List (String × String)) :
    (journal.beginTask name details).timings = journal.timings := by
  rw [beginTask_eq, timings_log, begun]

variable {journal}

theorem after_ended_nil (none : journal.openTasks = []) : journal.after .ended = journal := by
  rw [after, endTask_nil none, Option.getD_none]

/-- The end of a task closes it and counts it on its path. -/
theorem after_ended {task : OpenTask} {outer : List OpenTask}
    (opened : journal.openTasks = task :: outer) :
    (journal.after .ended).openTasks = outer ∧
      (journal.after .ended).timings =
        addTiming journal.path (journal.elapsed task) journal.timings := by
  rw [after, endTask_cons opened, Option.getD_some, Work.openTasks_log, timings_log]
  exact ⟨rfl, rfl⟩

/-- Every activity keeps a tally of distinct paths. -/
theorem tallied_after (tallied : Tallied journal.timings) (activity : Activity) :
    Tallied (journal.after activity).timings := by
  cases activity with
  | began name details =>
    rw [after, timings_beginTask]
    exact tallied
  | ended =>
    cases opened : journal.openTasks with
    | nil =>
      rw [after_ended_nil opened]
      exact tallied
    | cons task outer =>
      rw [(after_ended opened).2]
      exact tallied.addTiming _ _
  | event _ | logged _ | switched _ =>
    rw [(journal.after_plain rfl).2]
    exact tallied

theorem tallied_replay (tallied : Tallied journal.timings) (trace : List Activity) :
    Tallied (journal.replay trace).timings := by
  induction trace generalizing journal with
  | nil => exact tallied
  | cons activity rest ih => exact ih (tallied_after tallied activity)

variable (journal)

/-- An activity changes the number of open tasks by the depth it adds or takes. -/
theorem length_openTasks_after (activity : Activity) :
    (journal.after activity).openTasks.length = activity.depth journal.openTasks.length := by
  cases activity with
  | began name details => rw [after, Work.openTasks_beginTask, List.length_cons, Activity.depth]
  | ended =>
    cases opened : journal.openTasks with
    | nil =>
      rw [after_ended_nil opened, opened]
      rfl
    | cons task outer =>
      rw [(after_ended opened).1]
      rfl
  | event _ | logged _ | switched _ =>
    rw [(journal.after_plain rfl).1]
    rfl

/-- The number of open tasks after a trace is the depth it leads to. -/
theorem length_openTasks_replay (trace : List Activity) :
    (journal.replay trace).openTasks.length =
      Activity.depthAfter journal.openTasks.length trace := by
  induction trace generalizing journal with
  | nil => rfl
  | cons activity rest ih =>
    rw [replay, List.foldl_cons, ← replay, ih, length_openTasks_after, Activity.depthAfter,
      Activity.depthAfter, List.foldl_cons]

/-- Every task that is begun is open or counted. -/
theorem openTasks_add_totalCount_after (activity : Activity) :
    (journal.after activity).openTasks.length + totalCount (journal.after activity).timings =
      journal.openTasks.length + totalCount journal.timings + Activity.begins [activity] := by
  cases activity with
  | began name details =>
    rw [after, Work.openTasks_beginTask, timings_beginTask, List.length_cons]
    exact Nat.add_right_comm _ _ _
  | ended =>
    cases opened : journal.openTasks with
    | nil =>
      rw [after_ended_nil opened, opened]
      rfl
    | cons task outer =>
      obtain ⟨closed, counted⟩ := after_ended opened
      have none : Activity.begins [.ended] = 0 := rfl
      rw [closed, counted, totalCount_addTiming, List.length_cons, none]
      omega
  | event _ | logged _ | switched _ =>
    rw [(journal.after_plain rfl).1, (journal.after_plain rfl).2]
    rfl

/-- Every task that has begun is still open or has been timed. -/
theorem openTasks_add_totalCount_replay (trace : List Activity) :
    (journal.replay trace).openTasks.length + totalCount (journal.replay trace).timings =
      journal.openTasks.length + totalCount journal.timings + Activity.begins trace := by
  induction trace generalizing journal with
  | nil => rfl
  | cons activity rest ih =>
    have whole : Activity.begins (activity :: rest) =
        Activity.begins [activity] + Activity.begins rest := Activity.begins_append [activity] rest
    rw [replay, List.foldl_cons, ← replay, ih, openTasks_add_totalCount_after, whole, Nat.add_assoc]

end Journal

/-- A task ends if one is open. -/
theorem Work.doneIn_endTask_after (journal : Journal) :
    endTask.doneIn journal =
      if journal.openTasks.length = 0 then (.error .noOpenTask, journal)
      else (.ok (), journal.after .ended) := by
  cases opened : journal.openTasks with
  | nil => exact doneIn_endTask_nil opened
  | cons task outer =>
    have ends := Journal.endTask_cons opened
    rw [List.length_cons, if_neg (Nat.succ_ne_zero _), doneIn_endTask ends, Journal.after, ends,
      Option.getD_some]

namespace PolynomialFormat

/-- What is noted of a line that is read. -/
def note (format : PolynomialFormat) : Option String → Except Fault String
  | none => .error (.refused (.missingLine format.line))
  | some text => do
    let polynomial ← format.parse text
    let written ← polynomial.text
    return "parsed " ++ format.title ++ " " ++ Text.quoted text ++ " as " ++ written

/-- A line is read with an event for what is noted of it. -/
theorem doneIn_readLine (format : PolynomialFormat) (line : Option String) (journal : Journal) :
    (discard (format.readLine line) : Work Unit).doneIn journal =
      match format.note line with
      | .ok description => (.ok (), journal.event description)
      | .error fault => (.error fault, journal) := by
  cases line with
  | none => rfl
  | some text =>
    rw [Work.discard_eq, readLine, read, note, Work.doneIn_bind, Work.doneIn_bind,
      Work.doneIn_ofExcept]
    cases format.parse text with
    | error fault => rfl
    | ok polynomial =>
      dsimp only
      rw [Work.doneIn_bind, Work.doneIn_ofExcept, bind_ok]
      cases polynomial.text <;> rfl

end PolynomialFormat

namespace JournalStep

open Activity (depthAfter begins ends)

mutual

/-- The outcome of a step under a number of open tasks, and what happens in the journal. -/
def trace (depth : Nat) : JournalStep → Except Fault Unit × List Activity
  | beginTask name details =>
    if details.any (·.1 = "name") then (.error .nameGivenTwice, [])
    else (.ok (), [.began name details])
  | endTask => if depth = 0 then (.error .noOpenTask, []) else (.ok (), [.ended])
  | event description => (.ok (), [.event description])
  | log line => (.ok (), [.logged line])
  | verbose value => (.ok (), [.switched value])
  | read text =>
    match PolynomialFormat.expression.note text with
    | .ok description => (.ok (), [.event description])
    | .error fault => (.error fault, [])
  | interrupt => (.error .interrupted, [])
  | within name details steps =>
    if details.any (·.1 = "name") then (.error .nameGivenTwice, [])
    else
      let (outcome, inside) := traceAll (depth + 1) steps
      -- The steps inside may have ended more tasks than they began.
      if depthAfter (depth + 1) inside = 0 then
        (.error .noOpenTask, .began name details :: inside)
      else (outcome, .began name details :: (inside ++ [.ended]))
  | attempt steps =>
    let (outcome, inside) := traceAll depth steps
    (absorbInterruption outcome, inside)

/-- The outcome of steps in order up to the first fault, and what happens in the journal. -/
def traceAll (depth : Nat) : List JournalStep → Except Fault Unit × List Activity
  | [] => (.ok (), [])
  | step :: rest =>
    match trace depth step with
    | (.error fault, done) => (.error fault, done)
    | (.ok (), done) =>
      let (outcome, later) := traceAll (depthAfter depth done) rest
      (outcome, done ++ later)

end

mutual

/-- Doing a step has the outcome of its trace and leads to the journal of its activities. -/
theorem doneIn_run (step : JournalStep) (journal : Journal) :
    step.run.doneIn journal =
      ((trace journal.openTasks.length step).1,
        journal.replay (trace journal.openTasks.length step).2) := by
  match step with
  | beginTask name details =>
    rw [run, trace]
    cases given : details.any (·.1 = "name") with
    | true => exact Work.doneIn_beginTask_named name given journal
    | false => exact Work.doneIn_beginTask name given journal
  | endTask =>
    rw [run, trace, Work.doneIn_endTask_after]
    split <;> rfl
  | event description => rfl
  | log line => rfl
  | verbose value => rfl
  | read text =>
    rw [run, PolynomialFormat.doneIn_readLine, trace]
    cases PolynomialFormat.expression.note text <;> rfl
  | interrupt => rfl
  | within name details steps =>
    have inside := doneIn_runAll steps (journal.beginTask name details)
    rw [Work.openTasks_beginTask, List.length_cons] at inside
    rw [run, trace, Work.within, Work.doneIn_bind]
    cases given : details.any (·.1 = "name") with
    | true =>
      rw [Work.doneIn_beginTask_named name given journal]
      rfl
    | false =>
      rw [Work.doneIn_beginTask name given journal]
      dsimp only
      rw [Work.doneIn_bind, Work.doneIn_attempt, inside]
      dsimp only
      rw [Work.doneIn_bind, Work.doneIn_endTask_after, Journal.length_openTasks_replay,
        Work.openTasks_beginTask, List.length_cons]
      by_cases closed : depthAfter (journal.openTasks.length + 1)
          (traceAll (journal.openTasks.length + 1) steps).2 = 0
      · simp only [Bool.false_eq_true, closed, ↓reduceIte]
        rfl
      · simp only [Bool.false_eq_true, closed, ↓reduceIte]
        rw [Journal.replay_task, Work.doneIn_ofExcept]
        rfl
  | attempt steps =>
    have inside := doneIn_runAll steps journal
    rw [run, trace, Work.doneIn_bind, Work.doneIn_attempt, inside]
    rfl

/-- Doing steps has the outcome of their trace and leads to the journal of its activities. -/
theorem doneIn_runAll (steps : List JournalStep) (journal : Journal) :
    (runAll steps).doneIn journal =
      ((traceAll journal.openTasks.length steps).1,
        journal.replay (traceAll journal.openTasks.length steps).2) := by
  match steps with
  | [] => rfl
  | step :: rest =>
    rw [runAll, traceAll, Work.doneIn_bind, doneIn_run step journal]
    rcases trace journal.openTasks.length step with ⟨_ | _, done⟩
    · rfl
    · dsimp only
      rw [doneIn_runAll rest, Journal.length_openTasks_replay, Journal.replay_append]

end

mutual

/-- Every task that a step begins is ended or left open. -/
theorem depthAfter_trace (step : JournalStep) (depth : Nat) :
    depthAfter depth (trace depth step).2 + ends (trace depth step).2 =
      depth + begins (trace depth step).2 := by
  match step with
  | beginTask name details =>
    rw [trace]
    split <;> rfl
  | endTask =>
    rw [trace]
    split
    · rfl
    · rename_i opened
      exact Nat.sub_add_cancel (Nat.pos_of_ne_zero opened)
  | event description => rfl
  | log line => rfl
  | verbose value => rfl
  | read text =>
    rw [trace]
    split <;> rfl
  | interrupt => rfl
  | within name details steps =>
    have inside := depthAfter_traceAll steps (depth + 1)
    rw [trace]
    split
    · rfl
    · by_cases closed : depthAfter (depth + 1) (traceAll (depth + 1) steps).2 = 0
      · simp only [closed, ↓reduceIte]
        rw [Activity.depthAfter_began, Activity.begins_began, Activity.ends_began, inside]
        exact Nat.add_right_comm _ _ _
      · simp only [closed, ↓reduceIte]
        have last : ends [.ended] = 1 ∧ begins [.ended] = 0 := ⟨rfl, rfl⟩
        have left (before : Nat) : depthAfter before [.ended] = before - 1 := rfl
        rw [Activity.depthAfter_began, Activity.begins_began, Activity.ends_began,
          Activity.depthAfter_append, Activity.begins_append, Activity.ends_append, left,
          last.1, last.2]
        omega
  | attempt steps =>
    rw [trace]
    exact depthAfter_traceAll steps depth

/-- In the trace of any steps the depth and the ends make up for the begins. -/
theorem depthAfter_traceAll (steps : List JournalStep) (depth : Nat) :
    depthAfter depth (traceAll depth steps).2 + ends (traceAll depth steps).2 =
      depth + begins (traceAll depth steps).2 := by
  match steps with
  | [] => rfl
  | step :: rest =>
    have first := depthAfter_trace step depth
    rw [traceAll]
    rcases shape : trace depth step with ⟨_ | _, done⟩
    · rw [shape] at first
      exact first
    · have later := depthAfter_traceAll rest (depthAfter depth done)
      rw [shape] at first
      dsimp only at first ⊢
      rw [Activity.depthAfter_append, Activity.begins_append, Activity.ends_append]
      omega

end

end JournalStep

end ExactQuadrature

import ExactQuadrature.Proofs.Journal.Outcome

/-! # Beginnings and ends of tasks

Beginning a task and ending one changes the clock, the open tasks and the timings in a way of its
own (`Journal.begun` and `Journal.ended`), and is noted after that if the journal is verbose. Noting
a line changes nothing but the lines.
-/

namespace ExactQuadrature

namespace Journal

variable (journal : Journal)

@[simp] theorem verbose_log (line : String) : (journal.log line).verbose = journal.verbose := by
  unfold log
  split <;> rfl

@[simp] theorem clock_log (line : String) : (journal.log line).clock = journal.clock := by
  unfold log
  split <;> rfl

@[simp] theorem timings_log (line : String) : (journal.log line).timings = journal.timings := by
  unfold log
  split <;> rfl

/-- A silent journal takes no notice of a line. -/
theorem log_of_quiet {journal : Journal} (quiet : journal.verbose = false) (line : String) :
    journal.log line = journal := by
  rw [log, quiet]
  rfl

/-- The journal when a task has begun, before that is noted. -/
def begun (name : String) : Journal :=
  { journal with
    clock := journal.clock.advance
    openTasks := ⟨name, journal.clock.advance.now⟩ :: journal.openTasks }

/-- What is noted when a task begins. -/
def beginning (name : String) (details : List (String × String)) : String :=
  indentation journal.openTasks.length ++ name ++ detailText details ++ "..."

/-- To begin a task is to open it and to note that it begins. -/
theorem beginTask_eq (name : String) (details : List (String × String)) :
    journal.beginTask name details =
      (journal.begun name).log (journal.beginning name details) := rfl

/-- The time since a task began, in seconds. -/
def elapsed (task : OpenTask) : Float := Clock.seconds (journal.clock.advance.now - task.began)

/-- The journal when a task has ended that was begun in others, before that is noted. -/
def ended (task : OpenTask) (outer : List OpenTask) : Journal :=
  { journal with
    clock := journal.clock.advance
    openTasks := outer
    timings := addTiming journal.path (journal.elapsed task) journal.timings }

/-- What is noted when a task ends. -/
def ending (task : OpenTask) (outer : List OpenTask) : String :=
  indentation outer.length ++ "Finished " ++ task.name ++ " [duration=" ++
    Binary64.briefText (journal.elapsed task) ++ "s]"

variable {journal}

/-- With no task open there is none to end. -/
theorem endTask_nil (none : journal.openTasks = []) : journal.endTask = .none := by
  rw [endTask, none]

/-- The innermost open task is the one that ends. -/
theorem endTask_cons {task : OpenTask} {outer : List OpenTask}
    (opened : journal.openTasks = task :: outer) :
    journal.endTask = some ((journal.ended task outer).log (journal.ending task outer)) := by
  rw [endTask, opened]
  rfl

end Journal

/-- Without an open task, none ends and nothing changes. -/
theorem Work.doneIn_endTask_nil {journal : Journal} (none : journal.openTasks = []) :
    endTask.doneIn journal = (.error .noOpenTask, journal) := by
  have read : (get : Work Journal).doneIn journal = (.ok journal, journal) := rfl
  unfold endTask
  rw [doneIn_bind, read]
  dsimp only
  rw [Journal.endTask_nil none]
  rfl

end ExactQuadrature

import ExactQuadrature.Journal.Basic
import ExactQuadrature.Proofs.Outcome

/-! # Work done in a journal

Work takes a journal to its outcome and to the journal afterwards. Work that leaves the open tasks
of every journal as they are has the same outcome when it is done as a task of its own
(`Work.within_of_balanced`): the task around it can be ended, whether the work succeeds or not.
Work that yields a result has it in every journal (`Work.Yields`), and steps, lists and tasks of
such work yield what their parts yield.
-/

namespace ExactQuadrature

namespace Work

variable {α β : Type}

/-- The outcome of work that starts with a journal, and the journal after it. -/
def doneIn (work : Work α) (journal : Journal) : Except Fault α × Journal := work.run.run journal

/-- What work results in when it starts with a journal. -/
def outcome (work : Work α) (journal : Journal) : Except Fault α := (work.doneIn journal).1

@[simp] theorem doneIn_pure (a : α) (journal : Journal) :
    (pure a : Work α).doneIn journal = (.ok a, journal) := rfl

@[simp] theorem doneIn_throw (fault : Fault) (journal : Journal) :
    (throw fault : Work α).doneIn journal = (.error fault, journal) := rfl

@[simp] theorem doneIn_ofExcept (result : Except Fault α) (journal : Journal) :
    (ofExcept result).doneIn journal = (result, journal) := rfl

@[simp] theorem doneIn_record (change : Journal → Journal) (journal : Journal) :
    (record change).doneIn journal = (.ok (), change journal) := rfl

@[simp] theorem doneIn_attempt (work : Work α) (journal : Journal) :
    (attempt work).doneIn journal = (.ok (work.doneIn journal).1, (work.doneIn journal).2) := rfl

/-- To discard a result is to go on with nothing. -/
theorem discard_eq (work : Work α) : (discard work : Work Unit) = work >>= fun _ => pure () := rfl

/-- The second step of work goes on with the journal that the first one leaves. -/
theorem doneIn_bind (work : Work α) (next : α → Work β) (journal : Journal) :
    (work >>= next).doneIn journal =
      match work.doneIn journal with
      | (.ok a, later) => (next a).doneIn later
      | (.error fault, later) => (.error fault, later) := by
  unfold doneIn ExceptT.run StateT.run
  simp only [bind, ExceptT.bind, ExceptT.mk, StateT.bind]
  cases work journal with
  | mk result later => cases result <;> rfl

/-- Work that goes on after success has the outcome of what follows. -/
theorem outcome_bind {work : Work α} {a : α} {journal : Journal} (next : α → Work β)
    (succeeds : work.outcome journal = .ok a) :
    (work >>= next).outcome journal = (next a).outcome (work.doneIn journal).2 := by
  unfold outcome at succeeds ⊢
  rw [doneIn_bind]
  rcases shape : work.doneIn journal with ⟨result, later⟩
  rw [shape] at succeeds
  cases succeeds
  rfl

/-- A computation without a journal as the first step. -/
theorem outcome_ofExcept_bind (result : Except Fault α) (next : α → Work β) (journal : Journal) :
    (ofExcept result >>= next).outcome journal =
      result >>= fun a => (next a).outcome journal := by
  unfold outcome
  rw [doneIn_bind, doneIn_ofExcept]
  cases result <;> rfl

/-- A task begins unless one of its details is called like the name of the task. -/
theorem doneIn_beginTask (name : String) {details : List (String × String)}
    (apart : details.any (·.1 = "name") = false) (journal : Journal) :
    (beginTask name details).doneIn journal = (.ok (), journal.beginTask name details) := by
  unfold beginTask
  rw [apart]
  rfl

/-- A detail of that name is refused and leaves the journal as it was. -/
theorem doneIn_beginTask_named (name : String) {details : List (String × String)}
    (given : details.any (·.1 = "name") = true) (journal : Journal) :
    (beginTask name details).doneIn journal = (.error .nameGivenTwice, journal) := by
  unfold beginTask
  rw [given]
  rfl

theorem doneIn_endTask {journal ended : Journal} (ends : journal.endTask = some ended) :
    endTask.doneIn journal = (.ok (), ended) := by
  unfold endTask
  have read : (get : Work Journal).doneIn journal = (.ok journal, journal) := rfl
  rw [doneIn_bind, read]
  dsimp only
  rw [ends]
  rfl

@[simp] theorem openTasks_log (journal : Journal) (line : String) :
    (journal.log line).openTasks = journal.openTasks := by
  unfold Journal.log
  split <;> rfl

@[simp] theorem openTasks_beginTask (journal : Journal) (name : String)
    (details : List (String × String)) :
    (journal.beginTask name details).openTasks =
      ⟨name, journal.clock.advance.now⟩ :: journal.openTasks := openTasks_log _ _

/-- Work that leaves the open tasks of every journal as they are. -/
def Balanced (work : Work α) : Prop :=
  ∀ journal, (work.doneIn journal).2.openTasks = journal.openTasks

theorem balanced_ofExcept (result : Except Fault α) : (ofExcept result).Balanced := fun _ => rfl

theorem balanced_event (description : String) : (event description).Balanced := fun journal =>
  openTasks_log journal _

/-- Balanced work after balanced work is balanced. -/
theorem Balanced.bind {work : Work α} {next : α → Work β} (first : work.Balanced)
    (later : ∀ a, (next a).Balanced) : (work >>= next).Balanced := by
  intro journal
  have start := first journal
  rw [doneIn_bind]
  rcases shape : work.doneIn journal with ⟨result, after⟩
  rw [shape] at start
  cases result with
  | error fault => exact start
  | ok a => exact (later a after).trans start

/-- Balanced work as a task of its own keeps its outcome, and is balanced again. -/
theorem within_of_balanced (name : String) {details : List (String × String)} {work : Work α}
    (apart : details.any (·.1 = "name") = false) (balanced : work.Balanced) (journal : Journal) :
    (within name details work).outcome journal =
        work.outcome (journal.beginTask name details) ∧
      ((within name details work).doneIn journal).2.openTasks = journal.openTasks := by
  have inside := balanced (journal.beginTask name details)
  rw [openTasks_beginTask] at inside
  have ended : ∃ after : Journal,
      (work.doneIn (journal.beginTask name details)).2.endTask = some after ∧
        after.openTasks = journal.openTasks := by
    unfold Journal.endTask
    rw [inside]
    exact ⟨_, rfl, openTasks_log _ _⟩
  obtain ⟨after, ends, outer⟩ := ended
  have whole : (within name details work).doneIn journal =
      (work.outcome (journal.beginTask name details), after) := by
    unfold within
    rw [doneIn_bind, doneIn_beginTask name apart]
    dsimp only
    rw [doneIn_bind, doneIn_attempt]
    dsimp only
    rw [doneIn_bind, doneIn_endTask ends]
    rfl
  unfold outcome at whole ⊢
  rw [whole]
  exact ⟨rfl, outer⟩

/-- Work with one outcome whatever journal it starts with, which leaves the open tasks as they
are. -/
structure Yields (work : Work α) (result : Except Fault α) : Prop where
  outcome : ∀ journal, work.outcome journal = result
  balanced : work.Balanced

theorem yields_pure (a : α) : (pure a : Work α).Yields (.ok a) := ⟨fun _ => rfl, fun _ => rfl⟩

theorem yields_ofExcept (result : Except Fault α) : (ofExcept result).Yields result :=
  ⟨fun _ => rfl, balanced_ofExcept result⟩

theorem yields_throw (fault : Fault) : (throw fault : Work α).Yields (.error fault) :=
  ⟨fun _ => rfl, fun _ => rfl⟩

/-- Work after work yields the results in turn. -/
theorem Yields.bind {work : Work α} {next : α → Work β} {result : Except Fault α}
    {results : α → Except Fault β} (first : work.Yields result)
    (later : ∀ a, (next a).Yields (results a)) : (work >>= next).Yields (result >>= results) where
  outcome journal := by
    have start := first.outcome journal
    cases result with
    | ok a =>
      rw [outcome_bind next start, (later a).outcome]
      rfl
    | error fault =>
      simp only [Work.outcome, doneIn_bind] at start ⊢
      rcases shape : work.doneIn journal with ⟨raised, after⟩
      simp only [shape] at start
      subst start
      rfl
  balanced := first.balanced.bind fun a => (later a).balanced

/-- Work inside a task yields what it yields alone. -/
theorem Yields.within {work : Work α} {result : Except Fault α} (yields : work.Yields result)
    (name : String) {details : List (String × String)}
    (apart : details.any (·.1 = "name") = false) : (within name details work).Yields result where
  outcome journal :=
    (within_of_balanced name apart yields.balanced journal).1.trans (yields.outcome _)
  balanced journal := (within_of_balanced name apart yields.balanced journal).2

/-- Work on every item of a list yields the list of results, up to the first fault. -/
theorem yields_mapM {work : α → Work β} {results : α → Except Fault β}
    (each : ∀ a, (work a).Yields (results a)) (as : List α) :
    (as.mapM work).Yields (as.mapM results) := by
  induction as with
  | nil =>
    simp only [List.mapM_nil]
    exact yields_pure []
  | cons a rest ih =>
    simp only [List.mapM_cons]
    exact (each a).bind fun first => ih.bind fun others => yields_pure (first :: others)

end Work

end ExactQuadrature

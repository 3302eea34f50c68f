import ExactQuadrature.Proofs.Journal.Nesting

/-! # Tasks in blocks

A script that begins and ends tasks in blocks alone has a nested trace, however it ends
(`JournalStep.nested_traceAll`). What scripts leave of open tasks, timings and lines, in blocks or
not, is `JournalStep.tasks_accounted`.
-/

namespace ExactQuadrature

namespace JournalStep

open Activity (Nested Shown entered begins ends)

mutual

/-- A step that begins and ends tasks in blocks alone, at any depth. -/
def isBlock : JournalStep → Bool
  | beginTask _ _ | endTask => false
  | within _ _ steps | attempt steps => areBlocks steps
  | _ => true

/-- Steps that begin and end tasks in blocks alone. -/
def areBlocks : List JournalStep → Bool
  | [] => true
  | step :: rest => step.isBlock && areBlocks rest

end

mutual

/-- A step that is a block leaves a nested trace. -/
theorem nested_trace (step : JournalStep) (blocks : step.isBlock = true) (depth : Nat) :
    Nested (trace depth step).2 := by
  match step with
  | beginTask _ _ => cases blocks
  | endTask => cases blocks
  | event _ => exact .plain rfl .nil
  | log _ => exact .plain rfl .nil
  | verbose _ => exact .plain rfl .nil
  | read text =>
    rw [trace]
    split
    · exact .plain rfl .nil
    · exact .nil
  | interrupt => exact .nil
  | within name details steps =>
    have inside := nested_traceAll steps blocks (depth + 1)
    rw [trace]
    split
    · exact .nil
    · simp only [inside.depthAfter, Nat.succ_ne_zero, ↓reduceIte]
      exact .task name details inside .nil
  | attempt steps =>
    rw [trace]
    exact nested_traceAll steps blocks depth

/-- Steps in blocks have a nested trace, whether they fail or not. -/
theorem nested_traceAll (steps : List JournalStep) (blocks : areBlocks steps = true) (depth : Nat) :
    Nested (traceAll depth steps).2 := by
  match steps with
  | [] => exact .nil
  | step :: rest =>
    obtain ⟨own, others⟩ := Bool.and_eq_true_iff.mp blocks
    have first := nested_trace step own depth
    rw [traceAll]
    rcases shape : trace depth step with ⟨_ | _, done⟩
    · rw [shape] at first
      exact first
    · rw [shape] at first
      exact first.append (nested_traceAll rest others _)

end

/-- The timings after steps in blocks, from a journal without tasks. -/
theorem timings_of_blocks {steps : List JournalStep} (blocks : areBlocks steps = true)
    {journal : Journal} (closed : journal.openTasks = []) (none : journal.timings = []) :
    let trace := (traceAll 0 steps).2
    let recorded := (journal.replay trace).slowestFirst
    (recorded.map Timing.path).Nodup ∧
      (∀ timing ∈ recorded, timing.count = (entered [] trace).count timing.path) ∧
        ∀ path, path ∈ recorded.map Timing.path ↔ path ∈ entered [] trace := by
  intro trace recorded
  have sorted : recorded.Perm (journal.replay trace).timings := Journal.slowestFirst_perm _
  have tallied : Journal.Tallied (journal.replay trace).timings :=
    Journal.tallied_replay (none ▸ Journal.tallied_nil) trace
  have counted (path : List String) :
      Journal.countOn path (journal.replay trace).timings = (entered [] trace).count path := by
    have top : journal.path = [] := by
      rw [Journal.path, closed]
      rfl
    rw [Journal.countOn_replay (nested_traceAll steps blocks 0), none, top, Journal.countOn,
      Nat.zero_add]
  refine ⟨(sorted.map _).nodup_iff.mpr tallied.distinct, fun timing listed => ?_, fun path => ?_⟩
  · rw [← counted, tallied.countOn_of_mem (sorted.mem_iff.mp listed)]
  · rw [(sorted.map _).mem_iff, tallied.mem_path_iff, counted, List.count_pos_iff]

/-- **Every task is accounted for.** Steps in blocks close every task that they begin, however they
end. In a journal that had no tasks before, the timings then hold each path that was entered, once
and counted as often as it was entered, and with it the paths around it; if the journal is verbose
all the time, it shows every task as two lines of one indentation around what is indented deeper.
After any steps the tasks that were begun are those that ended and those that are open, the counts
add up to those that ended, and the end of a task fails exactly if none is open, which changes
nothing. -/
theorem tasks_accounted :
    (∀ (steps : List JournalStep) (journal : Journal), areBlocks steps = true →
      journal.openTasks = [] →
      let trace := (traceAll 0 steps).2
      let after := ((runAll steps).doneIn journal).2
      let paths := after.slowestFirst.map Timing.path
      after.openTasks = journal.openTasks ∧
        (journal.timings = [] →
          paths.Nodup ∧
          (∀ timing ∈ after.slowestFirst, timing.count = (entered [] trace).count timing.path) ∧
          (∀ path, path ∈ paths ↔ path ∈ entered [] trace) ∧
          ∀ path ∈ paths, ∀ outer, outer <+: path → outer ≠ [] → outer ∈ paths) ∧
        (journal.verbose = true → .switched false ∉ trace →
          ∃ lines, after.lines.toList = journal.lines.toList ++ lines ∧ Shown 0 trace lines)) ∧
    (∀ (steps : List JournalStep) (journal : Journal),
      let trace := (traceAll journal.openTasks.length steps).2
      let after := ((runAll steps).doneIn journal).2
      (runAll steps).outcome journal = (traceAll journal.openTasks.length steps).1 ∧
        after = journal.replay trace ∧
        after.openTasks.length + ends trace = journal.openTasks.length + begins trace ∧
        Journal.totalCount after.slowestFirst = Journal.totalCount journal.timings + ends trace) ∧
    ∀ journal : Journal,
      (endTask.run.outcome journal = .error .noOpenTask ↔ journal.openTasks = []) ∧
        (journal.openTasks = [] → (endTask.run.doneIn journal).2 = journal) := by
  refine ⟨?_, ?_, ?_⟩
  · intro steps journal blocks closed
    have nested := nested_traceAll steps blocks 0
    have run := doneIn_runAll steps journal
    rw [closed, List.length_nil] at run
    rw [run]
    refine ⟨Journal.openTasks_replay nested journal, ?_, ?_⟩
    · intro none
      obtain ⟨distinct, counted, listed⟩ := timings_of_blocks blocks closed none
      refine ⟨distinct, counted, listed, ?_⟩
      intro path recorded outer starts more
      rw [listed] at recorded ⊢
      exact nested.outer_mem_entered recorded starts List.nil_prefix more
    · intro verbose kept
      have shown := Journal.shown_replay nested verbose kept
      rw [closed] at shown
      exact shown
  · intro steps journal
    have depth := depthAfter_traceAll steps journal.openTasks.length
    have total :=
      journal.openTasks_add_totalCount_replay (traceAll journal.openTasks.length steps).2
    rw [← Journal.length_openTasks_replay] at depth
    rw [Work.outcome, doneIn_runAll]
    refine ⟨rfl, rfl, depth, (Journal.totalCount_slowestFirst _).trans ?_⟩
    dsimp only
    omega
  · intro journal
    have ends : endTask.run.doneIn journal = _ := Work.doneIn_endTask_after journal
    rw [Work.outcome, ends]
    cases opened : journal.openTasks with
    | nil => exact ⟨⟨fun _ => rfl, fun _ => rfl⟩, fun _ => rfl⟩
    | cons task outer =>
      refine ⟨⟨?_, ?_⟩, ?_⟩
      all_goals
        intro impossible
        cases impossible

/-- A task inside a task, where the inner one is interrupted and the outer one goes on, and an
interruption outside of both. -/
def interruptedTasks : List JournalStep :=
  [.within "outer" [("n", "3")] [.attempt [.within "inner" [] [.interrupt]], .event "hello"],
    .interrupt]

/-- The interrupted tasks are recorded and shown. -/
theorem tasks_accounted_interrupted :
    areBlocks interruptedTasks = true ∧ (Journal.new true [5]).openTasks = [] ∧
      ((runAll interruptedTasks).doneIn (.new true [5])).2.openTasks = [] ∧
      ["outer", "inner"] ∈
        ((runAll interruptedTasks).doneIn (.new true [5])).2.slowestFirst.map Timing.path ∧
      Shown 0 [.began "outer" [("n", "3")], .began "inner" [], .ended, .event "hello", .ended]
        ((runAll interruptedTasks).doneIn (.new true [5])).2.lines.toList := by
  obtain ⟨blocks, _, _⟩ := tasks_accounted
  have inBlocks : areBlocks interruptedTasks = true := rfl
  have entries : entered [] (traceAll 0 interruptedTasks).2 = [["outer"], ["outer", "inner"]] := rfl
  have kept : Activity.switched false ∉ (traceAll 0 interruptedTasks).2 := by decide
  obtain ⟨closed, recorded, shown⟩ := blocks interruptedTasks (.new true [5]) inBlocks rfl
  obtain ⟨_, _, listed, _⟩ := recorded rfl
  obtain ⟨lines, noted, nested⟩ := shown rfl kept
  refine ⟨inBlocks, rfl, closed, ?_, noted ▸ nested⟩
  rw [listed, entries]
  decide

end JournalStep

end ExactQuadrature

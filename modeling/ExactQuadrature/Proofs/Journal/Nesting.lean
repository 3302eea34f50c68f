import ExactQuadrature.Proofs.Journal.Trace

/-! # Nested traces

In a nested trace every task that begins ends, and those begun inside end before it. Replaying it
leaves the open tasks as they were (`Journal.openTasks_replay`) and counts every task once, on the
path that it was entered by (`Journal.countOn_replay`). With a path, the paths around it are entered
(`Activity.Nested.outer_mem_entered`). A journal that stays verbose shows each task as two lines of
one indentation around what is indented deeper (`Journal.shown_replay`).
-/

namespace ExactQuadrature

namespace Activity

/-- Activities in which every task that begins ends, innermost first. -/
inductive Nested : List Activity → Prop where
  | nil : Nested []
  | plain {activity : Activity} {rest : List Activity} (apart : activity.isPlain = true)
      (later : Nested rest) : Nested (activity :: rest)
  | task (name : String) (details : List (String × String)) {inside rest : List Activity}
      (inner : Nested inside) (later : Nested rest) :
      Nested (began name details :: (inside ++ ended :: rest))

/-- Nested traces one after the other are nested. -/
theorem Nested.append {first second : List Activity} (start : Nested first)
    (later : Nested second) : Nested (first ++ second) := by
  induction start with
  | nil => exact later
  | plain apart _ ih => exact .plain apart ih
  | task name details inner _ _ ih =>
    rw [List.cons_append, List.append_assoc]
    exact .task name details inner ih

/-- A nested trace ends at the depth that it starts at. -/
theorem Nested.depthAfter {trace : List Activity} (nested : Nested trace) (before : Nat) :
    depthAfter before trace = before := by
  induction nested generalizing before with
  | nil => rfl
  | @plain activity rest apart _ ih =>
    have same : activity.depth before = before := by
      cases activity with
      | event _ | logged _ | switched _ => rfl
      | began _ _ | ended => cases apart
    exact (congrArg (Activity.depthAfter · rest) same).trans (ih before)
  | task name details _ _ insideDepth ih =>
    rw [depthAfter_began, depthAfter_append, insideDepth]
    exact ih before

/-- The paths on which tasks begin, under the path of the tasks that are open. -/
def entered (path : List String) : List Activity → List (List String)
  | [] => []
  | began name _ :: rest => (path ++ [name]) :: entered (path ++ [name]) rest
  | ended :: rest => entered path.dropLast rest
  | _ :: rest => entered path rest

/-- What is no begin and no end of a task enters no path. -/
theorem entered_plain {activity : Activity} (apart : activity.isPlain = true) (path : List String)
    (rest : List Activity) : entered path (activity :: rest) = entered path rest := by
  cases activity with
  | event _ | logged _ | switched _ => rfl
  | began _ _ | ended => cases apart

/-- After a nested trace the paths are entered from where it started. -/
theorem Nested.entered_append {first : List Activity} (nested : Nested first) (path : List String)
    (later : List Activity) :
    entered path (first ++ later) = entered path first ++ entered path later := by
  induction nested generalizing path later with
  | nil => rfl
  | plain apart _ ih => rw [List.cons_append, entered_plain apart, entered_plain apart, ih]
  | task name details _ _ insideEntered ih =>
    rw [List.cons_append, List.append_assoc, List.cons_append, entered, entered, insideEntered,
      insideEntered, entered, entered, List.dropLast_concat, ih, List.cons_append,
      List.append_assoc]

/-- A task enters its own path and then those inside it. -/
theorem Nested.entered_task {inside : List Activity} (inner : Nested inside) (path : List String)
    (name : String) (details : List (String × String)) (rest : List Activity) :
    entered path (began name details :: (inside ++ ended :: rest)) =
      (path ++ [name]) :: (entered (path ++ [name]) inside ++ entered path rest) := by
  rw [entered, inner.entered_append, entered, List.dropLast_concat]

/-- Every path that a nested trace enters goes on from where the trace started. -/
theorem Nested.prefix_of_mem_entered {trace : List Activity} (nested : Nested trace)
    {base path : List String} (inside : path ∈ entered base trace) : base <+: path := by
  induction nested generalizing base with
  | nil => cases inside
  | plain apart _ ih =>
    rw [entered_plain apart] at inside
    exact ih inside
  | task name details inner _ ihInside ih =>
    rw [inner.entered_task, List.mem_cons, List.mem_append] at inside
    obtain rfl | within | after := inside
    · exact List.prefix_append base [name]
    · exact (List.prefix_append base [name]).trans (ihInside within)
    · exact ih after

/-- With a path, the paths of the tasks around it are entered as well. -/
theorem Nested.outer_mem_entered {trace : List Activity} (nested : Nested trace)
    {base path outer : List String} (inside : path ∈ entered base trace) (starts : outer <+: path)
    (around : base <+: outer) (more : outer ≠ base) : outer ∈ entered base trace := by
  induction nested generalizing base with
  | nil => cases inside
  | plain apart _ ih =>
    rw [entered_plain apart] at inside ⊢
    exact ih inside around more
  | task name details inner _ ihInside ih =>
    -- Between a path and the path of a task begun under it there is no third one.
    have next : outer <+: base ++ [name] → outer = base ++ [name] := fun short =>
      (List.prefix_concat_iff.mp short).resolve_right fun shorter =>
        more (shorter.eq_of_length_le around.length_le)
    rw [inner.entered_task, List.mem_cons, List.mem_append] at inside ⊢
    obtain rfl | within | after := inside
    · exact .inl (next starts)
    · have under := inner.prefix_of_mem_entered within
      rcases List.prefix_or_prefix_of_prefix starts under with short | long
      · exact .inl (next short)
      · by_cases same : outer = base ++ [name]
        · exact .inl same
        · exact .inr (.inl (ihInside within long same))
    · exact .inr (.inr (ih after around more))

/-- The lines that nested activities show under a number of open tasks. -/
inductive Shown : Nat → List Activity → List String → Prop where
  | nil (depth : Nat) : Shown depth [] []
  | event {depth : Nat} {rest : List Activity} {lines : List String} (description : String)
      (later : Shown depth rest lines) :
      Shown depth (event description :: rest) ((Journal.indentation depth ++ description) :: lines)
  | logged {depth : Nat} {rest : List Activity} {lines : List String} (line : String)
      (later : Shown depth rest lines) : Shown depth (logged line :: rest) (line :: lines)
  | switched {depth : Nat} {rest : List Activity} {lines : List String} (value : Bool)
      (later : Shown depth rest lines) : Shown depth (switched value :: rest) lines
  | task {depth : Nat} {inside rest : List Activity} {between lines : List String} (name : String)
      (details : List (String × String)) (duration : Float)
      (inner : Shown (depth + 1) inside between) (later : Shown depth rest lines) :
      Shown depth (began name details :: (inside ++ ended :: rest))
        ((Journal.indentation depth ++ name ++ Journal.detailText details ++ "...") ::
          (between ++
            (Journal.indentation depth ++ "Finished " ++ name ++ " [duration=" ++
              Binary64.briefText duration ++ "s]") :: lines))

end Activity

namespace Journal

open Activity (Nested Shown entered)

variable {journal : Journal}

/-- A nested trace leaves the open tasks as they were. -/
theorem openTasks_replay {trace : List Activity} (nested : Nested trace) (journal : Journal) :
    (journal.replay trace).openTasks = journal.openTasks := by
  induction nested generalizing journal with
  | nil => rfl
  | plain apart _ ih => exact (ih _).trans (journal.after_plain apart).1
  | task name details _ _ ihInside ih =>
    have inside := ihInside (journal.beginTask name details)
    rw [Work.openTasks_beginTask] at inside
    rw [replay_task, ih, (after_ended inside).1]

/-- After a nested trace the task that was begun before it is the next to end. -/
theorem openTasks_inside {inside : List Activity} (inner : Nested inside) (journal : Journal)
    (name : String) (details : List (String × String)) :
    ((journal.beginTask name details).replay inside).openTasks =
      ⟨name, journal.clock.advance.now⟩ :: journal.openTasks :=
  (openTasks_replay inner _).trans (Work.openTasks_beginTask journal name details)

/-- The path ends in the innermost open task. -/
theorem path_of_opened {task : OpenTask} {outer : List OpenTask}
    (opened : journal.openTasks = task :: outer) :
    journal.path = (outer.map OpenTask.name).reverse ++ [task.name] := by
  rw [path, opened, List.map_cons, List.reverse_cons]

/-- A nested trace counts each path as often as it is entered. -/
theorem countOn_replay {trace : List Activity} (nested : Nested trace) (journal : Journal)
    (path : List String) :
    countOn path (journal.replay trace).timings =
      countOn path journal.timings + (entered journal.path trace).count path := by
  induction nested generalizing journal with
  | nil => rfl
  | @plain activity rest apart _ ih =>
    obtain ⟨openTasks, timings⟩ := journal.after_plain apart
    have same : (journal.after activity).path = journal.path := by
      rw [Journal.path, openTasks, Journal.path]
    have whole := ih (journal.after activity)
    rw [same, timings] at whole
    rw [Activity.entered_plain apart]
    exact whole
  | @task name details inside rest inner _ ihInside ih =>
    have opened := openTasks_inside inner journal name details
    obtain ⟨closed, timed⟩ := after_ended opened
    have begun : (journal.beginTask name details).path = journal.path ++ [name] :=
      path_of_opened (Work.openTasks_beginTask journal name details)
    have back : (((journal.beginTask name details).replay inside).after .ended).path =
        journal.path := by
      rw [Journal.path, closed, Journal.path]
    have within := ihInside (journal.beginTask name details)
    rw [begun, timings_beginTask] at within
    have whole := ih (((journal.beginTask name details).replay inside).after .ended)
    rw [back, timed, countOn_addTiming, path_of_opened opened, ← Journal.path, within] at whole
    rw [replay_task, whole, inner.entered_task, List.count_cons, List.count_append]
    simp only [beq_iff_eq]
    omega

/-- A verbose journal shows the line that is noted. -/
theorem lines_log (verbose : journal.verbose = true) (line : String) :
    (journal.log line).lines.toList = journal.lines.toList ++ [line] := by
  rw [log, if_pos verbose, Array.toList_push]

/-- Beginning a task shows one line. -/
theorem lines_beginTask (verbose : journal.verbose = true) (name : String)
    (details : List (String × String)) :
    (journal.beginTask name details).lines.toList =
      journal.lines.toList ++ [journal.beginning name details] := by
  have begun : (journal.begun name).verbose = true := verbose
  exact lines_log begun _

/-- Ending the innermost task shows one line. -/
theorem lines_ended (verbose : journal.verbose = true) {task : OpenTask} {outer : List OpenTask}
    (opened : journal.openTasks = task :: outer) :
    (journal.after .ended).lines.toList = journal.lines.toList ++ [journal.ending task outer] := by
  have ended : (journal.ended task outer).verbose = true := verbose
  rw [after, endTask_cons opened]
  exact lines_log ended _

/-- Only a switch makes a verbose journal silent. -/
theorem verbose_after (verbose : journal.verbose = true) {activity : Activity}
    (kept : activity ≠ .switched false) : (journal.after activity).verbose = true := by
  cases activity with
  | began name details => exact (verbose_log _ _).trans verbose
  | ended =>
    cases opened : journal.openTasks with
    | nil =>
      rw [after_ended_nil opened]
      exact verbose
    | cons task outer =>
      rw [after, endTask_cons opened]
      exact (verbose_log _ _).trans verbose
  | event description => exact (verbose_log _ _).trans verbose
  | logged line => exact (verbose_log _ _).trans verbose
  | switched value =>
    cases value with
    | true => rfl
    | false => exact absurd rfl kept

/-- A trace without such a switch leaves a verbose journal verbose. -/
theorem verbose_replay (verbose : journal.verbose = true) {trace : List Activity}
    (kept : .switched false ∉ trace) : (journal.replay trace).verbose = true := by
  induction trace generalizing journal with
  | nil => exact verbose
  | cons activity rest ih =>
    obtain ⟨own, others⟩ := List.ne_and_not_mem_of_not_mem_cons kept
    exact ih (verbose_after verbose (Ne.symm own)) others

/-- A journal that stays verbose shows a nested trace under its open tasks. -/
theorem shown_replay {trace : List Activity} (nested : Nested trace)
    (verbose : journal.verbose = true)
    (kept : .switched false ∉ trace) :
    ∃ lines, (journal.replay trace).lines.toList = journal.lines.toList ++ lines ∧
      Shown journal.openTasks.length trace lines := by
  induction nested generalizing journal with
  | nil => exact ⟨[], (List.append_nil _).symm, .nil _⟩
  | @plain activity rest apart _ ih =>
    obtain ⟨own, others⟩ := List.ne_and_not_mem_of_not_mem_cons kept
    obtain ⟨lines, shown, later⟩ := ih (verbose_after verbose (Ne.symm own)) others
    rw [(journal.after_plain apart).1] at later
    cases activity with
    | event description =>
      refine ⟨_ :: lines, ?_, .event description later⟩
      rw [List.append_cons, ← lines_log verbose]
      exact shown
    | logged line =>
      refine ⟨line :: lines, ?_, .logged line later⟩
      rw [List.append_cons, ← lines_log verbose]
      exact shown
    | switched value => exact ⟨lines, shown, .switched value later⟩
    | began _ _ | ended => cases apart
  | @task name details inside rest inner _ ihInside ih =>
    have opened := openTasks_inside inner journal name details
    have begun : (journal.beginTask name details).verbose = true := (verbose_log _ _).trans verbose
    have keptInside : Activity.switched false ∉ inside := fun listed =>
      kept (List.mem_cons_of_mem _ (List.mem_append_left _ listed))
    have keptRest : Activity.switched false ∉ rest := fun listed =>
      kept (List.mem_cons_of_mem _ (List.mem_append_right _ (List.mem_cons_of_mem _ listed)))
    obtain ⟨between, shownInside, within⟩ := ihInside begun keptInside
    have done := verbose_replay begun keptInside
    have keptEnd : Activity.ended ≠ .switched false := nofun
    obtain ⟨lines, shown, later⟩ := ih (verbose_after done keptEnd) keptRest
    rw [(after_ended opened).1] at later
    rw [Work.openTasks_beginTask, List.length_cons] at within
    refine ⟨_, ?_, .task name details (((journal.beginTask name details).replay inside).elapsed
      ⟨name, journal.clock.advance.now⟩) within later⟩
    rw [replay_task, shown, lines_ended done opened, shownInside, lines_beginTask verbose]
    simp only [List.append_assoc, List.singleton_append]
    rfl

end Journal

end ExactQuadrature

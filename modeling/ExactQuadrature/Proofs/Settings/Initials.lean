import ExactQuadrature.Proofs.Outcome
import ExactQuadrature.Settings.Registry

/-! # Command lines are read alike from all initial values

What the flags of an interface start with has no influence on how a command line is taken apart: an
interface with other initial values carries out the same command lines, and they write the same into
the same slots (`Interface.given_of_reset`). A slot that a command line does not write keeps its
initial value (`Interface.slotsAfter_given`). This follows argument by argument, for slots that hold
what is written or else what is held initially (`Interface.Over`).
-/

namespace ExactQuadrature

/-- The same flag without its initial value. -/
def Flag.reset (flag : Flag) : Flag :=
  { flag with effect := match flag.effect with
    | .take kind _ => .take kind (.truth false)
    | other => other }

theorem Flag.takesArgument_reset (flag : Flag) : flag.reset.takesArgument = flag.takesArgument := by
  unfold reset takesArgument
  cases flag.effect <;> rfl

/-- The same argument, meaning a flag without its initial value. -/
def Argument.reset : Argument → Argument
  | .flag meant long attached => .flag meant.reset long attached
  | other => other

namespace Interface

/-- The same interface without the initial values of its flags. -/
def reset (interface : Interface) : Interface :=
  { interface with flags := interface.flags.map Flag.reset }

/-- The same flags of a cluster without their initial values. -/
def Cluster.reset (cluster : Cluster) : Cluster where
  settled := cluster.settled.map fun (flag, argument) => (flag.reset, argument)
  waiting := cluster.waiting.map Flag.reset

variable (interface : Interface)

/-- The flag of a name is found whatever its initial value. -/
theorem named?_reset (name : String) :
    interface.reset.named? name = (interface.named? name).map Flag.reset := by
  simp only [named?, reset, List.find?_map]
  rfl

theorem names_reset : interface.reset.names = interface.names := by
  simp only [names, reset, List.flatMap_map]
  rfl

theorem longMatches_reset (cs : List Char) :
    interface.reset.longMatches cs = (interface.longMatches cs).map Argument.reset := by
  simp only [longMatches, names_reset, named?_reset, List.map_filterMap, Option.map_map]
  rfl

theorem shortMatches_reset (cs : List Char) :
    interface.reset.shortMatches cs = (interface.shortMatches cs).map Argument.reset := by
  simp only [shortMatches, named?_reset]
  cases interface.named? (String.ofList (cs.take 2)) <;> rfl

/-- A text stands for one of the same flags or is ambiguous in the same way. -/
theorem among_reset (text : String) (cs : List Char) (long : Bool) :
    classify.among interface.reset text cs long =
      (classify.among interface text cs long).map Argument.reset := by
  have matching :
      (if long then interface.reset.longMatches cs else interface.reset.shortMatches cs) =
        (if long then interface.longMatches cs else interface.shortMatches cs).map
          Argument.reset := by
    cases long
    · exact interface.shortMatches_reset cs
    · exact interface.longMatches_reset cs
  simp only [classify.among, matching]
  rcases (if long then interface.longMatches cs else interface.shortMatches cs) with
    _ | ⟨first, _ | ⟨second, rest⟩⟩
  · simp only [List.map_nil, Except.map]
    split <;> rfl
  · rfl
  · rfl

/-- An argument is taken for the same thing. -/
theorem classify_reset (text : String) :
    interface.reset.classify text = (interface.classify text).map Argument.reset := by
  simp only [classify, named?_reset, Option.isNone_map]
  split
  · rfl
  · cases interface.named? text with
    | some flag => rfl
    | none =>
      rcases splitEquals text.toList with ⟨start, _ | value⟩
      · exact interface.among_reset _ _ _
      · dsimp only [Option.map_none]
        cases interface.named? (String.ofList start) with
        | some flag => rfl
        | none => exact interface.among_reset _ _ _

theorem classifyAll_reset (arguments : List String) :
    interface.reset.classifyAll arguments =
      (interface.classifyAll arguments).map (List.map Argument.reset) := by
  induction arguments with
  | nil => rfl
  | cons text rest ih =>
    simp only [classifyAll]
    split
    · simp only [Except.map, List.map_cons, List.map_map]
      rfl
    · rw [classify_reset, ih]
      cases interface.classify text with
      | error reason => rfl
      | ok argument => cases interface.classifyAll rest <;> rfl

/-- Flags are clustered in the same way. -/
theorem cluster_reset (flag : Flag) (long : Bool) (attached : List Char) :
    interface.reset.cluster flag.reset long attached =
      (interface.cluster flag long attached).map Cluster.reset := by
  induction attached generalizing flag long with
  | nil =>
    simp only [cluster, Flag.takesArgument_reset]
    split <;> rfl
  | cons c rest ih =>
    simp only [cluster, Flag.takesArgument_reset, named?_reset]
    split
    · rfl
    · split
      · rfl
      · cases interface.named? (String.ofList ['-', c]) with
        | none => rfl
        | some next =>
          dsimp only [Option.map_some]
          split
          · rfl
          · rw [ih]
            cases interface.cluster next false rest <;> rfl

end Interface

namespace Interface

theorem get?_foldl_initial (flags : List Flag) (slots : Slots) (slot : String) :
    (flags.foldl (fun slots flag => match flag.initial? with
        | some value => slots.putNew flag.slot (.value value)
        | none => slots) slots).get? slot =
      (slots.get? slot).or
        (flags.findSome? fun flag =>
            if flag.slot = slot then flag.initial?.map .value else none) := by
  -- Over any slots, since a flag further left may have filled this one already.
  induction flags generalizing slots with
  | nil => simp only [List.foldl_nil, List.findSome?_nil, Option.or_none]
  | cons flag rest ih =>
    rw [List.foldl_cons, ih, List.findSome?_cons]
    cases flag.initial? with
    | none => simp only [Option.map_none, ite_self]
    | some value =>
      by_cases own : flag.slot = slot
      · simp only [own, Entries.get?_putNew, ↓reduceIte, Option.map_some, Option.or_assoc,
          Option.some_or]
      · simp only [own, Ne.symm own, Entries.get?_putNew, ↓reduceIte, Option.or_none]

/-- A slot starts with the initial value of the first flag that has this slot and such a value. -/
theorem get?_initial_eq_findSome? (interface : Interface) (slot : String) :
    interface.initial.get? slot =
      interface.flags.findSome? fun flag =>
        if flag.slot = slot then flag.initial?.map .value else none := by
  refine (get?_foldl_initial interface.flags [] slot).trans ?_
  rw [Entries.get?_nil, Option.none_or]

/-- Slots that hold what others hold, and else what is held initially. -/
def Over (initial slots written : Slots) : Prop :=
  ∀ name, slots.get? name = (written.get? name).or (initial.get? name)

/-- Command lines read equally far, with slots over one another. -/
structure Progress.Over (initial : Slots) (progress written : Progress) : Prop where
  slots : Interface.Over initial progress.slots written.slots
  operandRead : progress.operandRead = written.operandRead
  leftover : progress.leftover = written.leftover

variable {initial slots written : Slots} {progress known : Progress}

theorem Over.put (above : Over initial slots written) (slot : String) (content : SlotContent) :
    Over initial (slots.put slot content) (written.put slot content) := by
  intro name
  rw [Entries.get?_put, Entries.get?_put]
  split
  · rfl
  · exact above name

/-- An occurrence applied to both leaves one over the other, or fails in both. -/
theorem Over.apply (above : Over initial slots written) (flag : Flag) (argument : Option String) :
    Matching (Over initial) (apply slots flag argument) (apply written flag.reset argument) := by
  obtain ⟨names, slot, effect, help, placeholder⟩ := flag
  cases effect with
  | help => exact .error _
  | mark => exact .ok (above.put _ _)
  | take kind value =>
    cases argument with
    | none => exact .error _
    | some text =>
      simp only [Interface.apply, Flag.reset]
      split
      · exact .ok (above.put _ _)
      · cases kind.read? text with
        | some value => exact .ok (above.put _ _)
        | none => exact .error _

theorem Over.applyAll (above : Over initial slots written) (settled : List (Flag × Option String)) :
    Matching (Over initial) (applyAll slots settled)
      (applyAll written (settled.map fun (flag, argument) => (flag.reset, argument))) := by
  induction settled generalizing slots written with
  | nil => exact .ok above
  | cons first rest ih =>
    simp only [Interface.applyAll, List.map_cons, List.foldlM_cons]
    exact (above.apply first.1 first.2).bind fun _ _ later => ih later

theorem Progress.Over.skip (above : progress.Over initial known) :
    Progress.Over initial { progress with leftover := true } { known with leftover := true } :=
  ⟨above.slots, above.operandRead, rfl⟩

/-- An operand is taken in both. -/
theorem Progress.Over.takeOperand (above : progress.Over initial known) (interface : Interface)
    (text : Option String) :
    (interface.takeOperand progress text).Over initial
      (interface.reset.takeOperand known text) := by
  obtain ⟨slots, read, leftover⟩ := above
  have same : interface.reset.operand = interface.operand := rfl
  simp only [Interface.takeOperand, read, same]
  split
  · refine ⟨?_, rfl, leftover⟩
    cases text with
    | none => exact slots
    | some text => exact slots.put _ _
  · exact ⟨slots, rfl, rfl⟩

/-- What a flag stands for with the text attached to it. -/
def clusterOf (interface : Interface) (flag : Flag) (long : Bool) :
    Option (List Char) → Except Exit Cluster
  | some text => interface.cluster flag long text
  | none => .ok ⟨[], some flag⟩

/-- Read on after flags that were run together. -/
def readCluster (interface : Interface) (progress : Progress) (rest : List Argument)
    (cluster : Cluster) : Except Exit Progress :=
  match cluster.waiting with
  | none => do
    let slots ← Interface.applyAll progress.slots cluster.settled
    interface.readFrom { progress with slots := slots } rest
  | some last =>
    if last.takesArgument then
      match rest with
      | .operand text :: rest => do
        let slots ← Interface.applyAll progress.slots (cluster.settled ++ [(last, some text)])
        interface.readFrom { progress with slots := slots } rest
      | _ => .error .refused
    else do
      let slots ← Interface.applyAll progress.slots (cluster.settled ++ [(last, none)])
      interface.readFrom { progress with slots := slots } rest

/-- Reading a flag reads its cluster. -/
theorem readFrom_flag (interface : Interface) (progress : Progress) (flag : Flag) (long : Bool)
    (attached : Option (List Char)) (rest : List Argument) :
    interface.readFrom progress (.flag flag long attached :: rest) =
      interface.clusterOf flag long attached >>= interface.readCluster progress rest := by
  rw [readFrom.eq_def]
  cases attached <;> rfl

theorem clusterOf_reset (interface : Interface) (flag : Flag) (long : Bool)
    (attached : Option (List Char)) :
    interface.reset.clusterOf flag.reset long attached =
      (interface.clusterOf flag long attached).map Cluster.reset := by
  cases attached with
  | none => rfl
  | some text => exact interface.cluster_reset flag long text

/-- What is read after flags take effect, if the rest is read alike. -/
theorem Progress.Over.settled (above : progress.Over initial known)
    (settled : List (Flag × Option String)) {interface : Interface} {rest : List Argument}
    (later : ∀ {progress known : Progress}, progress.Over initial known →
      Matching (Progress.Over initial) (interface.readFrom progress rest)
        (interface.reset.readFrom known (rest.map Argument.reset))) :
    Matching (Progress.Over initial)
      (Interface.applyAll progress.slots settled >>= fun slots =>
        interface.readFrom { progress with slots := slots } rest)
      (Interface.applyAll known.slots
          (settled.map fun (flag, argument) => (flag.reset, argument)) >>= fun slots =>
        interface.reset.readFrom { known with slots := slots } (rest.map Argument.reset)) :=
  (above.slots.applyAll settled).bind fun _ _ slots =>
    later ⟨slots, above.operandRead, above.leftover⟩

/-- What is read after flags that were run together, if all that follows is read alike. -/
theorem Progress.Over.readCluster (above : progress.Over initial known) {interface : Interface}
    {rest : List Argument} (cluster : Cluster)
    (later : ∀ {after : List Argument}, after <:+ rest →
      ∀ {progress known : Progress}, progress.Over initial known →
        Matching (Progress.Over initial) (interface.readFrom progress after)
          (interface.reset.readFrom known (after.map Argument.reset))) :
    Matching (Progress.Over initial) (interface.readCluster progress rest cluster)
      (interface.reset.readCluster known (rest.map Argument.reset) cluster.reset) := by
  obtain ⟨settled, _ | last⟩ := cluster
  · exact above.settled settled (later List.suffix_rfl)
  · simp only [Interface.readCluster, Cluster.reset, Option.map_some, Flag.takesArgument_reset]
    split
    · rcases rest with _ | ⟨_ | _ | _ | _, rest⟩
      case cons.operand text =>
        have settled := above.settled (settled ++ [(last, some text)])
          (later (List.suffix_cons _ rest))
        rwa [List.map_append] at settled
      all_goals exact .error _
    · have settled := above.settled (settled ++ [(last, none)]) (later List.suffix_rfl)
      rwa [List.map_append] at settled

/-- Reading on keeps slots over one another. -/
theorem Progress.Over.readFrom (interface : Interface) (arguments : List Argument)
    {progress known : Progress} (above : progress.Over initial known) :
    Matching (Progress.Over initial) (interface.readFrom progress arguments)
      (interface.reset.readFrom known (arguments.map Argument.reset)) := by
  match arguments with
  | [] => exact .ok above
  | .unknown :: rest => exact readFrom interface rest above.skip
  | .operand text :: .separator :: rest =>
    have same : interface.reset.operand = interface.operand := rfl
    simp only [Interface.readFrom, List.map_cons, Argument.reset, same, ← above.operandRead]
    split
    · exact readFrom interface rest ⟨above.slots, rfl, rfl⟩
    · exact readFrom interface rest (above.takeOperand interface _)
  | .operand text :: [] => exact .ok (above.takeOperand interface _)
  | .operand text :: .unknown :: rest =>
    exact readFrom interface (.unknown :: rest) (above.takeOperand interface _)
  | .operand text :: .operand more :: rest =>
    exact readFrom interface (.operand more :: rest) (above.takeOperand interface _)
  | .operand text :: .flag flag long attached :: rest =>
    exact readFrom interface (.flag flag long attached :: rest) (above.takeOperand interface _)
  | .separator :: .operand text :: rest =>
    exact readFrom interface rest (above.takeOperand interface _)
  | .separator :: [] => exact .ok (above.takeOperand interface _)
  | .separator :: .unknown :: rest =>
    exact readFrom interface (.unknown :: rest) (above.takeOperand interface _)
  | .separator :: .separator :: rest =>
    exact readFrom interface (.separator :: rest) (above.takeOperand interface _)
  | .separator :: .flag flag long attached :: rest =>
    exact readFrom interface (.flag flag long attached :: rest) (above.takeOperand interface _)
  | .flag flag long attached :: rest =>
    rw [List.map_cons, Argument.reset, readFrom_flag, readFrom_flag, clusterOf_reset]
    cases interface.clusterOf flag long attached with
    | error reason => exact .error reason
    | ok cluster =>
      exact above.readCluster cluster fun {after} suffix _ _ above =>
        have := suffix.length_le
        readFrom interface after above
termination_by arguments.length

/-- A flag whose initial value is none to be read from a text has nothing to settle. -/
theorem settle_of_effect {flag : Flag} (whole : ∀ text, flag.effect ≠ .take .whole (.text text))
    (slots : Slots) : settle slots flag = .ok slots := by
  unfold settle
  split
  · exact absurd ‹_› (whole _)
  · rfl

/-- There is nothing to settle if no flag starts from a text for a whole number. -/
theorem foldlM_settle {flags : List Flag}
    (whole : ∀ flag ∈ flags, ∀ text, flag.effect ≠ .take .whole (.text text)) (slots : Slots) :
    flags.foldlM settle slots = .ok slots := by
  induction flags with
  | nil => rfl
  | cons flag rest ih =>
    obtain ⟨first, others⟩ := List.forall_mem_cons.mp whole
    rw [List.foldlM_cons, settle_of_effect first, bind_ok, ih others]

/-- What a command line writes into the slots. -/
def given (interface : Interface) (arguments : List String) : Except Exit Slots := do
  let progress ← interface.reset.readFrom ⟨[], false, false⟩
    (← interface.reset.classifyAll arguments)
  if progress.leftover then .error .refused else return progress.slots

/-- A command line is carried out or not whatever the initial values are, and what it writes into
the slots lies over them. -/
theorem slotsAfter_given {interface : Interface}
    (whole : ∀ flag ∈ interface.flags, ∀ text, flag.effect ≠ .take .whole (.text text))
    (arguments : List String) :
    Matching (Over interface.initial) (interface.slotsAfter arguments)
      (interface.given arguments) := by
  simp only [slotsAfter, given]
  rw [classifyAll_reset]
  cases interface.classifyAll arguments with
  | error reason => exact .error reason
  | ok arguments =>
    have start : Progress.Over interface.initial ⟨interface.initial, false, false⟩
        ⟨[], false, false⟩ := ⟨fun _ => rfl, rfl, rfl⟩
    refine (start.readFrom interface arguments).bind fun progress known above => ?_
    rw [foldlM_settle whole, bind_ok, above.leftover]
    split
    · exact .error Exit.refused
    · exact .ok above.slots

/-- What a command line writes does not depend on the initial values. -/
theorem given_of_reset {interface other : Interface} (same : interface.reset = other.reset) :
    interface.given = other.given := by
  unfold given
  rw [same]

end Interface

end ExactQuadrature

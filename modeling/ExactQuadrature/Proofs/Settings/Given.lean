import ExactQuadrature.Proofs.Settings.Initials
import Mathlib.Data.List.Lattice
import Mathlib.Data.List.Nodup
import Mathlib.Data.List.Pairwise

/-! # What a command line gives to flags

A command line gives flags in some order, each with its argument if it has one
(`Interface.occurrences`). Reading it lets all of them take effect, and every slot but that of the
operand ends with what its last occurrence puts there, or else with what it held initially
(`Interface.readFrom_follows`). Where flags share neither spellings nor slots, this determines what
the slot of a flag holds from the arguments given to its spelling
(`Interface.Distinct.get?_slot`), and those do not depend on initial values
(`Interface.givenTo_of_reset`).
-/

namespace ExactQuadrature

/-- What a flag puts into its slot with an argument, if it can take effect. -/
def Flag.content? (flag : Flag) (argument : Option String) : Option SlotContent :=
  match flag.effect, argument with
  | .mark, _ => some (.value (.truth true))
  | .take kind _, some text =>
    if text = "--" then some .nothing else (kind.read? text).map .value
  | _, _ => none

namespace Interface

/-- A flag on a command line with its argument, if it has one. -/
abbrev Occurrence := Flag × Option String

/-- What occurrences of flags put into a slot, in order. -/
def written (slot : String) (occurrences : List Occurrence) : List SlotContent :=
  occurrences.filterMap fun (flag, argument) =>
    if flag.slot = slot then flag.content? argument else none

/-- The flags that arguments give, up to arguments that cannot be read. -/
def occurrencesFrom (interface : Interface) : List Argument → List Occurrence
  | [] => []
  | .flag flag long attached :: rest =>
    match interface.clusterOf flag long attached with
    | .error _ => []
    | .ok ⟨settled, none⟩ => settled ++ interface.occurrencesFrom rest
    | .ok ⟨settled, some last⟩ =>
      if last.takesArgument then
        match rest with
        | .operand text :: rest => settled ++ (last, some text) :: interface.occurrencesFrom rest
        | _ => settled
      else settled ++ (last, none) :: interface.occurrencesFrom rest
  | _ :: rest => interface.occurrencesFrom rest

/-- The flags that a command line gives. -/
def occurrences (interface : Interface) (arguments : List String) : List Occurrence :=
  match interface.classifyAll arguments with
  | .ok arguments => interface.occurrencesFrom arguments
  | .error _ => []

/-- The arguments that a command line gives to a flag of some spelling, in order. -/
def givenTo (interface : Interface) (name : String) (arguments : List String) :
    List (Option String) :=
  (interface.occurrences arguments).filterMap fun (flag, argument) =>
    if name ∈ flag.names then some argument else none

/-- An argument is given to a name if it occurs with a flag of that name. -/
theorem mem_givenTo {interface : Interface} {name : String} {arguments : List String}
    {argument : Option String} : argument ∈ interface.givenTo name arguments ↔
      ∃ flag, (flag, argument) ∈ interface.occurrences arguments ∧ name ∈ flag.names := by
  simp only [givenTo, List.mem_filterMap, Prod.exists, Option.ite_none_right_eq_some,
    Option.some.injEq]
  constructor
  · rintro ⟨flag, _, occurred, named, rfl⟩
    exact ⟨flag, occurred, named⟩
  · rintro ⟨flag, occurred, named⟩
    exact ⟨flag, argument, occurred, named, rfl⟩

/-! ### The last occurrence decides -/

section

variable {interface : Interface} {slots later : Slots} {progress next final : Progress}
  {occurrences more : List Occurrence}

theorem written_append (slot : String) (occurrences more : List Occurrence) :
    written slot (occurrences ++ more) = written slot occurrences ++ written slot more :=
  List.filterMap_append

/-- A flag that takes effect puts its content into its slot. -/
theorem content?_of_apply {flag : Flag} {argument : Option String}
    (applied : apply slots flag argument = .ok later) :
    ∃ content, flag.content? argument = some content ∧ later = slots.put flag.slot content := by
  obtain ⟨names, slot, effect, help, placeholder⟩ := flag
  cases effect with
  | help => cases applied
  | mark =>
    cases applied
    exact ⟨_, rfl, rfl⟩
  | take kind initial =>
    cases argument with
    | none => cases applied
    | some text =>
      simp only [apply] at applied
      simp only [Flag.content?]
      split at applied
      case isTrue stripped =>
        cases applied
        exact ⟨.nothing, if_pos stripped, rfl⟩
      case isFalse plain =>
        cases read : kind.read? text with
        | none =>
          rw [read] at applied
          cases applied
        | some value =>
          rw [read] at applied
          cases applied
          exact ⟨.value value, by rw [if_neg plain, Option.map_some], rfl⟩

/-- Progress through occurrences of flags, all of which take effect: every slot but that of the
operand holds what the last one puts there, or else what it held before. -/
structure Progress.Follows (interface : Interface) (occurrences : List Occurrence)
    (progress later : Progress) : Prop where
  effective : ∀ occurrence ∈ occurrences, (occurrence.1.content? occurrence.2).isSome
  slots : ∀ slot, interface.operand ≠ some slot → later.slots.get? slot =
    (written slot occurrences).getLast?.or (progress.slots.get? slot)

/-- Where no slot but that of the operand changes, no flag has occurred. -/
theorem Progress.follows_nil
    (kept : ∀ slot, interface.operand ≠ some slot →
      next.slots.get? slot = progress.slots.get? slot) :
    Progress.Follows interface [] progress next :=
  ⟨nofun, kept⟩

/-- Progress follows occurrences in turn. -/
theorem Progress.Follows.trans (first : Progress.Follows interface occurrences progress next)
    (second : Progress.Follows interface more next final) :
    Progress.Follows interface (occurrences ++ more) progress final where
  effective occurrence present :=
    (List.mem_append.mp present).elim (first.effective occurrence) (second.effective occurrence)
  slots slot other := by
    rw [second.slots slot other, first.slots slot other, written_append, List.getLast?_append,
      Option.or_assoc]

/-- Applying occurrences follows them. -/
theorem Progress.follows_applyAll (applied : applyAll progress.slots occurrences = .ok later) :
    Progress.Follows interface occurrences progress { progress with slots := later } := by
  induction occurrences generalizing progress with
  | nil =>
    cases applied
    exact Progress.follows_nil fun _ _ => rfl
  | cons occurrence rest ih =>
    obtain ⟨flag, argument⟩ := occurrence
    rw [applyAll, List.foldlM_cons] at applied
    obtain ⟨slots, own, others⟩ := bind_eq_ok.mp applied
    obtain ⟨content, put, rfl⟩ := content?_of_apply own
    have first : Progress.Follows interface [(flag, argument)] progress
        { progress with slots := progress.slots.put flag.slot content } := by
      refine ⟨fun occurrence present => ?_, fun slot _ => ?_⟩
      · rw [List.mem_singleton.mp present, put]
        rfl
      · rw [Entries.get?_put]
        by_cases own : slot = flag.slot
        · simp [written, own, put]
        · simp [written, own, Ne.symm own]
    exact first.trans (ih others)

theorem Progress.follows_takeOperand (text : Option String) :
    Progress.Follows interface [] progress (interface.takeOperand progress text) := by
  refine Progress.follows_nil fun slot other => ?_
  unfold takeOperand
  split
  case h_1 own _ named =>
    cases text with
    | none => rfl
    | some text =>
      dsimp only
      rw [Entries.get?_put, if_neg]
      rintro rfl
      exact other named
  case h_2 => rfl

/-- Reading on after flags take effect. -/
theorem Progress.follows_bind {rest : List Argument}
    (read : (applyAll progress.slots occurrences >>= fun slots =>
      interface.readFrom { progress with slots := slots } rest) = .ok final)
    (later : ∀ {progress : Progress}, interface.readFrom progress rest = .ok final →
      Progress.Follows interface more progress final) :
    Progress.Follows interface (occurrences ++ more) progress final := by
  obtain ⟨slots, applied, after⟩ := bind_eq_ok.mp read
  exact (Progress.follows_applyAll applied).trans (later after)

theorem Progress.follows_leftover :
    Progress.Follows interface [] progress { progress with leftover := true } :=
  Progress.follows_nil fun _ _ => rfl

/-- Reading on after flags that were run together, if all that follows lets its flags take
effect. -/
theorem Progress.follows_flag {flag : Flag} {long : Bool} {attached : Option (List Char)}
    {rest : List Argument}
    (read : interface.readFrom progress (.flag flag long attached :: rest) = .ok final)
    (later : ∀ {after : List Argument}, after <:+ rest → ∀ {progress : Progress},
      interface.readFrom progress after = .ok final →
        Progress.Follows interface (interface.occurrencesFrom after) progress final) :
    Progress.Follows interface (interface.occurrencesFrom (.flag flag long attached :: rest))
      progress final := by
  rw [readFrom_flag] at read
  obtain ⟨⟨settled, waiting⟩, clustered, after⟩ := bind_eq_ok.mp read
  rw [occurrencesFrom, clustered]
  cases waiting with
  | none => exact Progress.follows_bind after (later List.suffix_rfl)
  | some last =>
    simp only [readCluster] at after
    dsimp only
    split at after
    case isTrue wants =>
      rw [if_pos wants]
      rcases rest with _ | ⟨_ | _ | _ | _, rest⟩
      case cons.operand text =>
        dsimp only at after ⊢
        rw [List.append_cons]
        exact Progress.follows_bind after (later (List.suffix_cons _ rest))
      all_goals cases after
    case isFalse wantsNone =>
      rw [if_neg wantsNone, List.append_cons]
      exact Progress.follows_bind after (later List.suffix_rfl)

/-- **Reading lets every flag that is given take effect**, one after the other. -/
theorem readFrom_follows (interface : Interface) (arguments : List Argument)
    {progress final : Progress} (read : interface.readFrom progress arguments = .ok final) :
    Progress.Follows interface (interface.occurrencesFrom arguments) progress final := by
  -- The cases are those of `readFrom`: an operand takes a separator after it along, and a flag its
  -- argument, so the recursion is on the length.
  match arguments with
  | [] =>
    cases read
    exact Progress.follows_nil fun _ _ => rfl
  | .unknown :: rest => exact Progress.follows_leftover.trans (readFrom_follows interface rest read)
  | .operand text :: .separator :: rest =>
    simp only [readFrom] at read
    split at read
    · exact Progress.follows_leftover.trans (readFrom_follows interface rest read)
    · exact (Progress.follows_takeOperand _).trans (readFrom_follows interface rest read)
  | .operand text :: [] =>
    cases read
    exact Progress.follows_takeOperand _
  | .operand text :: .unknown :: rest =>
    exact (Progress.follows_takeOperand _).trans
      (readFrom_follows interface (.unknown :: rest) read)
  | .operand text :: .operand more :: rest =>
    exact (Progress.follows_takeOperand _).trans
      (readFrom_follows interface (.operand more :: rest) read)
  | .operand text :: .flag flag long attached :: rest =>
    exact (Progress.follows_takeOperand _).trans
      (readFrom_follows interface (.flag flag long attached :: rest) read)
  | .separator :: .operand text :: rest =>
    exact (Progress.follows_takeOperand _).trans (readFrom_follows interface rest read)
  | .separator :: [] =>
    cases read
    exact Progress.follows_takeOperand _
  | .separator :: .unknown :: rest =>
    exact (Progress.follows_takeOperand _).trans
      (readFrom_follows interface (.unknown :: rest) read)
  | .separator :: .separator :: rest =>
    exact (Progress.follows_takeOperand _).trans
      (readFrom_follows interface (.separator :: rest) read)
  | .separator :: .flag flag long attached :: rest =>
    exact (Progress.follows_takeOperand _).trans
      (readFrom_follows interface (.flag flag long attached :: rest) read)
  | .flag flag long attached :: rest =>
    exact Progress.follows_flag read fun {after} suffix _ read =>
      have := suffix.length_le
      readFrom_follows interface after read
termination_by arguments.length

end

/-! ### Flags of the interface -/

/-- A flag that is found by name is one of the interface. -/
theorem mem_of_named? {interface : Interface} {name : String} {flag : Flag}
    (found : interface.named? name = some flag) : flag ∈ interface.flags :=
  List.mem_of_find?_eq_some found

/-- Whether an argument, if it means a flag, means one of the interface. -/
def Knows (interface : Interface) : Argument → Prop
  | .flag flag _ _ => flag ∈ interface.flags
  | _ => True

/-- A prefix stands for flags that the interface knows. -/
theorem knows_of_among {interface : Interface} {text : String} {cs : List Char} {long : Bool}
    {argument : Argument} (meant : classify.among interface text cs long = .ok argument) :
    interface.Knows argument := by
  have known : ∀ argument ∈ (if long then interface.longMatches cs else interface.shortMatches cs),
      interface.Knows argument := by
    intro argument matched
    cases long with
    | true =>
      obtain ⟨name, _, named⟩ := List.mem_filterMap.mp matched
      obtain ⟨flag, found, rfl⟩ := Option.map_eq_some_iff.mp named
      exact mem_of_named? found
    | false =>
      simp only [Bool.false_eq_true, ↓reduceIte, shortMatches] at matched
      split at matched
      case h_1 found =>
        rw [List.mem_singleton.mp matched]
        exact mem_of_named? found
      case h_2 => cases matched
  unfold classify.among at meant
  split at meant
  case h_1 only =>
    cases meant
    exact known argument (only ▸ List.mem_singleton_self argument)
  case h_2 =>
    cases meant
    split <;> trivial
  case h_3 => cases meant

/-- What an argument means is known. -/
theorem knows_of_classify {interface : Interface} {text : String} {argument : Argument}
    (meant : interface.classify text = .ok argument) : interface.Knows argument := by
  unfold classify at meant
  dsimp only at meant
  split at meant
  · cases meant
    trivial
  · split at meant
    case h_1 found =>
      cases meant
      exact mem_of_named? found
    case h_2 =>
      split at meant
      case h_1 =>
        split at meant
        case h_1 found =>
          cases meant
          exact mem_of_named? found
        case h_2 => exact knows_of_among meant
      case h_2 => exact knows_of_among meant

/-- All arguments are about flags that the interface knows. -/
theorem knows_of_classifyAll {interface : Interface} {texts : List String}
    {arguments : List Argument} (meant : interface.classifyAll texts = .ok arguments) :
    ∀ argument ∈ arguments, interface.Knows argument := by
  induction texts generalizing arguments with
  | nil =>
    cases meant
    exact nofun
  | cons text rest ih =>
    rw [classifyAll] at meant
    split at meant
    · cases meant
      refine List.forall_mem_cons.mpr ⟨trivial, fun argument present => ?_⟩
      obtain ⟨operand, _, rfl⟩ := List.mem_map.mp present
      trivial
    · obtain ⟨first, own, others⟩ := bind_eq_ok.mp meant
      obtain ⟨later, found, same⟩ := bind_eq_ok.mp others
      cases same
      exact List.forall_mem_cons.mpr ⟨knows_of_classify own, ih found⟩

/-- Flags that were run together are flags of the interface. -/
theorem mem_of_cluster {interface : Interface} {flag : Flag} {long : Bool} {attached : List Char}
    {cluster : Cluster} (known : flag ∈ interface.flags)
    (clustered : interface.cluster flag long attached = .ok cluster) :
    (∀ occurrence ∈ cluster.settled, occurrence.1 ∈ interface.flags) ∧
      ∀ last, cluster.waiting = some last → last ∈ interface.flags := by
  induction attached generalizing flag long cluster with
  | nil =>
    unfold Interface.cluster at clustered
    split at clustered
    · cases clustered
      refine ⟨List.forall_mem_singleton.mpr known, fun last same => ?_⟩
      cases same
    · cases clustered
  | cons c rest ih =>
    simp only [Interface.cluster] at clustered
    split at clustered
    · cases clustered
      refine ⟨List.forall_mem_singleton.mpr known, fun last same => ?_⟩
      cases same
    · split at clustered
      · cases clustered
      · cases found : interface.named? (String.ofList ['-', c]) with
        | none =>
          rw [found] at clustered
          cases clustered
        | some next =>
          rw [found] at clustered
          dsimp only at clustered
          split at clustered
          · cases clustered
            refine ⟨List.forall_mem_singleton.mpr known, fun last same => ?_⟩
            cases same
            exact mem_of_named? found
          · obtain ⟨later, run, same⟩ := bind_eq_ok.mp clustered
            cases same
            obtain ⟨settled, waiting⟩ := ih (mem_of_named? found) run
            exact ⟨List.forall_mem_cons.mpr ⟨known, settled⟩, waiting⟩

/-- A cluster holds flags of the interface only. -/
theorem mem_of_clusterOf {interface : Interface} {flag : Flag} {long : Bool}
    {attached : Option (List Char)} {cluster : Cluster} (known : flag ∈ interface.flags)
    (clustered : interface.clusterOf flag long attached = .ok cluster) :
    (∀ occurrence ∈ cluster.settled, occurrence.1 ∈ interface.flags) ∧
      ∀ last, cluster.waiting = some last → last ∈ interface.flags := by
  cases attached with
  | some text => exact mem_of_cluster known clustered
  | none =>
    cases clustered
    refine ⟨nofun, fun last same => ?_⟩
    cases same
    exact known

/-- All occurrences are of flags of the interface. -/
theorem mem_of_occurrencesFrom {interface : Interface} {arguments : List Argument}
    (known : ∀ argument ∈ arguments, interface.Knows argument) :
    ∀ occurrence ∈ interface.occurrencesFrom arguments, occurrence.1 ∈ interface.flags := by
  fun_induction occurrencesFrom interface arguments with
  | case1 => exact nofun
  | case2 => exact nofun
  | case3 flag long attached rest settled clustered ih =>
    obtain ⟨own, others⟩ := List.forall_mem_cons.mp known
    exact List.forall_mem_append.mpr ⟨(mem_of_clusterOf own clustered).1, ih others⟩
  | case4 flag long attached settled last clustered wants text rest ih =>
    obtain ⟨own, others⟩ := List.forall_mem_cons.mp known
    obtain ⟨settled, waiting⟩ := mem_of_clusterOf own clustered
    exact List.forall_mem_append.mpr ⟨settled, List.forall_mem_cons.mpr
      ⟨waiting last rfl, ih (List.forall_mem_cons.mp others).2⟩⟩
  | case5 flag long attached rest settled last clustered wants missing =>
    exact (mem_of_clusterOf (List.forall_mem_cons.mp known).1 clustered).1
  | case6 flag long attached rest settled last clustered wantsNone ih =>
    obtain ⟨own, others⟩ := List.forall_mem_cons.mp known
    obtain ⟨settled, waiting⟩ := mem_of_clusterOf own clustered
    exact List.forall_mem_append.mpr ⟨settled, List.forall_mem_cons.mpr
      ⟨waiting last rfl, ih others⟩⟩
  | case7 argument rest noFlag ih => exact ih (List.forall_mem_cons.mp known).2

/-- A command line gives flags of the interface only. -/
theorem mem_of_occurrences {interface : Interface} {arguments : List String}
    {occurrence : Occurrence} (present : occurrence ∈ interface.occurrences arguments) :
    occurrence.1 ∈ interface.flags := by
  unfold occurrences at present
  split at present
  case h_1 meant =>
    exact mem_of_occurrencesFrom (knows_of_classifyAll meant) _ present
  case h_2 => cases present

/-! ### Other initial values -/

/-- The occurrences of flags do not depend on their initial values. -/
theorem occurrencesFrom_reset (interface : Interface) (arguments : List Argument) :
    interface.reset.occurrencesFrom (arguments.map Argument.reset) =
      (interface.occurrencesFrom arguments).map fun (flag, argument) => (flag.reset, argument) := by
  fun_induction occurrencesFrom interface arguments with
  | case1 => rfl
  | case2 flag long attached rest reason clustered =>
    simp only [List.map_cons, Argument.reset, occurrencesFrom, clusterOf_reset, clustered]
    rfl
  | case3 flag long attached rest settled clustered ih =>
    simp only [List.map_cons, Argument.reset, occurrencesFrom, clusterOf_reset, clustered]
    simp only [Except.map, Cluster.reset, Option.map_none, ih, List.map_append]
  | case4 flag long attached settled last clustered wants text rest ih =>
    simp only [List.map_cons, Argument.reset, occurrencesFrom, clusterOf_reset, clustered]
    simp only [Except.map, Cluster.reset, Option.map_some, Flag.takesArgument_reset, wants,
      ↓reduceIte, ih, List.map_append, List.map_cons]
  | case5 flag long attached rest settled last clustered wants missing =>
    simp only [List.map_cons, Argument.reset, occurrencesFrom, clusterOf_reset, clustered]
    simp only [Except.map, Cluster.reset, Option.map_some, Flag.takesArgument_reset, wants,
      ↓reduceIte]
    rcases rest with _ | ⟨_ | _ | _ | _, rest⟩
    case cons.operand text => exact absurd rfl (missing text rest)
    all_goals rfl
  | case6 flag long attached rest settled last clustered wantsNone ih =>
    simp only [List.map_cons, Argument.reset, occurrencesFrom, clusterOf_reset, clustered]
    simp only [Except.map, Cluster.reset, Option.map_some, Flag.takesArgument_reset, wantsNone,
      Bool.false_eq_true, ↓reduceIte, ih, List.map_append, List.map_cons]
  | case7 argument rest noFlag ih =>
    cases argument with
    | flag flag long attached => exact absurd rfl (noFlag flag long attached)
    | _ => exact ih

theorem givenTo_reset (interface : Interface) (name : String) (arguments : List String) :
    interface.reset.givenTo name arguments = interface.givenTo name arguments := by
  have occurred : interface.reset.occurrences arguments =
      (interface.occurrences arguments).map fun (flag, argument) => (flag.reset, argument) := by
    simp only [occurrences, classifyAll_reset]
    cases interface.classifyAll arguments with
    | error reason => rfl
    | ok arguments => exact interface.occurrencesFrom_reset arguments
  simp only [givenTo, occurred, List.filterMap_map]
  rfl

/-- What is given to flags does not depend on the initial values. -/
theorem givenTo_of_reset {interface other : Interface} (same : interface.reset = other.reset) :
    interface.givenTo = other.givenTo := by
  funext name arguments
  rw [← givenTo_reset, same, givenTo_reset]

/-! ### Slots of distinct flags -/

/-- An interface whose flags share neither spellings nor slots, with each other or with the
operand. -/
structure Distinct (interface : Interface) : Prop where
  names : interface.names.Nodup
  slots : (interface.flags.map Flag.slot ++ interface.operand.toList).Nodup

variable {interface : Interface} {flag other : Flag} {name : String} {slots : Slots}
  {arguments : List String}

theorem Distinct.of_reset {interface other : Interface} (same : interface.reset = other.reset)
    (distinct : interface.Distinct) : other.Distinct where
  names := by
    rw [← names_reset, ← same, names_reset]
    exact distinct.names
  slots := by
    have slots (interface : Interface) : interface.reset.flags.map Flag.slot ++
        interface.reset.operand.toList = interface.flags.map Flag.slot ++
          interface.operand.toList := by
      simp only [reset, List.map_map]
      rfl
    rw [← slots, ← same, slots]
    exact distinct.slots

/-- Flags of a distinct interface that write to one slot are one flag. -/
theorem Distinct.eq_of_slot (distinct : interface.Distinct) (present : flag ∈ interface.flags)
    (otherPresent : other ∈ interface.flags) (same : other.slot = flag.slot) : other = flag :=
  List.inj_on_of_nodup_map (List.nodup_append.mp distinct.slots).1 otherPresent present same

/-- Flags of a distinct interface that share a name are one flag. -/
theorem Distinct.eq_of_name (distinct : interface.Distinct) (present : flag ∈ interface.flags)
    (named : name ∈ flag.names) (otherPresent : other ∈ interface.flags)
    (alsoNamed : name ∈ other.names) : other = flag := by
  have symmetric : Std.Symm (Function.onFun List.Disjoint Flag.names) :=
    ⟨fun _ _ => List.Disjoint.symm⟩
  by_contra different
  exact (List.nodup_flatMap.mp distinct.names).2.forall otherPresent present different
    alsoNamed named

/-- The operand has a slot of its own. -/
theorem Distinct.operand_ne (distinct : interface.Distinct) (present : flag ∈ interface.flags) :
    interface.operand ≠ some flag.slot := by
  intro shared
  have apart := (List.nodup_append.mp distinct.slots).2.2 flag.slot
    (List.mem_map_of_mem present) flag.slot (by rw [shared]; exact List.mem_singleton_self _)
  exact apart rfl

/-- What a flag is given goes into its slot. -/
theorem Distinct.written_slot (distinct : interface.Distinct) (present : flag ∈ interface.flags)
    (named : name ∈ flag.names) (arguments : List String) :
    written flag.slot (interface.occurrences arguments) =
      (interface.givenTo name arguments).filterMap flag.content? := by
  rw [written, givenTo, List.filterMap_filterMap]
  refine List.filterMap_congr fun occurrence occurred => ?_
  have known := mem_of_occurrences occurred
  obtain ⟨other, argument⟩ := occurrence
  by_cases own : other = flag
  · simp only [own, named, ↓reduceIte, Option.bind_some]
  · have otherSlot : other.slot ≠ flag.slot :=
      fun same => own (distinct.eq_of_slot present known same)
    have otherName : name ∉ other.names := fun shared =>
      own (distinct.eq_of_name present named known shared)
    simp only [otherSlot, otherName, ↓reduceIte, Option.bind_none]

/-- The slot of a flag starts with the initial value of the flag. -/
theorem Distinct.get?_initial (distinct : interface.Distinct) (present : flag ∈ interface.flags) :
    interface.initial.get? flag.slot = flag.initial?.map .value := by
  rw [get?_initial_eq_findSome?]
  have others : ∀ other ∈ interface.flags, ∀ content,
      (if other.slot = flag.slot then other.initial?.map SlotContent.value else none) =
          some content →
        flag.initial?.map SlotContent.value = some content := by
    intro other otherPresent content found
    split at found
    case isTrue same =>
      rw [← distinct.eq_of_slot present otherPresent same]
      exact found
    case isFalse => cases found
  cases found : interface.flags.findSome? fun other =>
      if other.slot = flag.slot then other.initial?.map SlotContent.value else none with
  | some content =>
    obtain ⟨other, otherPresent, same⟩ := List.exists_of_findSome?_eq_some found
    exact (others other otherPresent content same).symm
  | none =>
    have own := List.findSome?_eq_none_iff.mp found flag present
    rw [if_pos rfl] at own
    exact own.symm

/-- The last of the results of a function that has one for every member. -/
theorem getLast?_filterMap {α β : Type} {f : α → Option β} {as : List α}
    (each : ∀ a ∈ as, (f a).isSome) : (as.filterMap f).getLast? = as.getLast?.bind f := by
  rcases as.eq_nil_or_concat with rfl | ⟨initial, last, rfl⟩
  · rfl
  · obtain ⟨b, result⟩ := Option.isSome_iff_exists.mp (each last (by simp))
    simp [result]

/-- Every argument that a flag is given lets it take effect. -/
theorem Distinct.isSome_content? (distinct : interface.Distinct) (present : flag ∈ interface.flags)
    (named : name ∈ flag.names)
    (effective : ∀ occurrence ∈ interface.occurrences arguments,
      (occurrence.1.content? occurrence.2).isSome) :
    ∀ argument ∈ interface.givenTo name arguments, (flag.content? argument).isSome := by
  intro argument given
  obtain ⟨other, occurred, shared⟩ := mem_givenTo.mp given
  rw [← distinct.eq_of_name present named (mem_of_occurrences occurred) shared]
  exact effective _ occurred

/-- **What a command line leaves in the slot of a flag**: what the last argument given to the flag
puts there, and its initial value if none is given. All arguments given to it take effect. -/
theorem Distinct.get?_slot (distinct : interface.Distinct) (present : flag ∈ interface.flags)
    (named : name ∈ flag.names)
    (whole : ∀ flag ∈ interface.flags, ∀ text, flag.effect ≠ .take .whole (.text text))
    (read : interface.slotsAfter arguments = .ok slots) :
    (∀ argument ∈ interface.givenTo name arguments, (flag.content? argument).isSome) ∧
      slots.get? flag.slot = ((interface.givenTo name arguments).getLast?.bind flag.content?).or
        (flag.initial?.map .value) := by
  obtain ⟨meant, classified, rest⟩ := bind_eq_ok.mp read
  obtain ⟨progress, reading, rest⟩ := bind_eq_ok.mp rest
  rw [foldlM_settle whole, bind_ok] at rest
  by_cases left : progress.leftover = true
  · rw [if_pos left] at rest
    cases rest
  · rw [if_neg left] at rest
    cases rest
    have follows := readFrom_follows interface meant reading
    have occurred : interface.occurrences arguments = interface.occurrencesFrom meant := by
      rw [occurrences, classified]
    rw [← occurred] at follows
    have effective := distinct.isSome_content? present named follows.effective
    refine ⟨effective, ?_⟩
    rw [follows.slots flag.slot (distinct.operand_ne present), distinct.written_slot present named,
      getLast?_filterMap effective]
    exact congrArg _ (distinct.get?_initial present)

end Interface

end ExactQuadrature

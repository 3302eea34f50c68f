import ExactQuadrature.Proofs.Settings.Given
import ExactQuadrature.Proofs.Settings.Revalued
import ExactQuadrature.Proofs.Settings.Standard
import Mathlib.Data.List.Induction

/-! # Settings hold what is last given

On every command line that is carried out, a truth value falls back to its default, turned over if
its flag is given, and any other setting takes what the last argument given to its flag writes, or
stays as it is (`Setting.Takes`, `Registry.Declared.parse`). What a command line leaves are the same
settings with other values (`Setting.Revalued`), and to these every command line gives the same
(`Registry.interface_reset`). Over a sequence of command lines numbers and texts therefore hold what
was given last of all (`Registry.last_given`).
-/

namespace ExactQuadrature

/-! ### What one setting takes -/

/-- The kind of a value. -/
def SettingValue.kind : SettingValue → SettingKind
  | truth _ => .truth
  | whole _ => .whole
  | text _ => .text

/-- A value that is read for a kind is of that kind. -/
theorem SettingKind.kind_of_read? {kind : SettingKind} {text : String} {value : SettingValue}
    (read : kind.read? text = some value) : value.kind = kind := by
  cases kind with
  | truth =>
    cases read
    rfl
  | whole =>
    obtain ⟨number, _, rfl⟩ := Option.map_eq_some_iff.mp read
    rfl
  | text =>
    cases read
    rfl

/-- A value is accepted as what it is. -/
theorem SettingKind.accept_kind (value : SettingValue) :
    value.kind.accept (.value value) = .ok value := by
  cases value <;> rfl

namespace Setting

/-- What a setting takes from the arguments that are given to its flag. -/
inductive Takes (setting : Setting) (given : List (Option String)) : SettingValue → Prop where
  | default (kind : setting.kind = .truth) (absent : given = []) :
    Takes setting given (.truth setting.default.isTrue)
  | turned (kind : setting.kind = .truth) (present : given ≠ []) :
    Takes setting given (.truth !setting.default.isTrue)
  | previous (kind : setting.kind ≠ .truth) (absent : given = []) :
    Takes setting given setting.value
  | last {text : String} {value : SettingValue} (kind : setting.kind ≠ .truth)
    (final : given.getLast? = some (some text)) (read : setting.kind.read? text = some value) :
    Takes setting given value

variable {setting : Setting} {given more : List (Option String)} {value later : SettingValue}

/-- A value that a setting takes is of its kind. -/
theorem Takes.kind_eq (takes : setting.Takes given value)
    (kind : setting.value.kind = setting.kind) : value.kind = setting.kind := by
  cases takes with
  | default truth => exact truth.symm
  | turned truth => exact truth.symm
  | previous => exact kind
  | last _ _ read => exact SettingKind.kind_of_read? read

/-- A setting takes one value only. -/
theorem Takes.unique (takes : setting.Takes given value) (also : setting.Takes given later) :
    value = later := by
  cases takes <;> cases also <;> simp_all

/-- What is given to a number or a text later is given after what was given before. -/
theorem Takes.append (first : setting.Takes given value)
    (second : Takes { setting with value := value } more later) (kind : setting.kind ≠ .truth) :
    setting.Takes (given ++ more) later := by
  cases second with
  | default truth => exact absurd truth kind
  | turned truth => exact absurd truth kind
  | previous _ absent =>
    subst absent
    rw [List.append_nil]
    exact first
  | last _ final read =>
    refine .last kind ?_ read
    rw [List.getLast?_append, final, Option.some_or]

/-- A truth value does not depend on what it was before. -/
theorem Takes.of_truth (takes : Takes { setting with value := value } given later)
    (kind : setting.kind = .truth) : setting.Takes given later := by
  cases takes with
  | default _ absent => exact .default kind absent
  | turned _ present => exact .turned kind present
  | previous other => exact absurd kind other
  | last other => exact absurd kind other

/-- Taking nothing twice is taking nothing once. -/
theorem Takes.retake (first : setting.Takes [] value)
    (second : Takes { setting with value := value } [] later) : setting.Takes [] later := by
  by_cases kind : setting.kind = .truth
  · exact second.of_truth kind
  · exact first.append second kind

/-- A setting whose name begins without a dash looks into the slot that its flag writes. -/
theorem readSlot_eq (undashed : setting.name.toList.head? ≠ some '-') :
    setting.readSlot = setting.writtenSlot := by
  have stripped : setting.flagText.toList.dropWhile (· = '-') = setting.flagName.toList := by
    have dashes : setting.flagText.toList = '-' :: '-' :: setting.flagName.toList := by
      rw [flagText, String.toList_append]
      rfl
    rw [dashes, List.dropWhile_cons_of_pos rfl, List.dropWhile_cons_of_pos rfl]
    unfold flagName
    split
    · rw [String.toList_append]
      rfl
    · cases spelt : setting.name.toList with
      | nil => rfl
      | cons c rest =>
        rw [spelt] at undashed
        refine List.dropWhile_cons_of_neg ?_
        simpa using undashed
  rw [readSlot, writtenSlot, stripped]

/-- Whatever is given to the flag of a truth value marks its slot. -/
theorem content?_of_truth (kind : setting.kind = .truth) (argument : Option String) :
    setting.flag.content? argument = some (.value (.truth true)) := by
  have effect : setting.flag.effect = .mark := if_pos kind
  simp only [Flag.content?, effect]

/-- An argument that takes effect writes a value, unless it is a double dash. -/
theorem exists_read? (kind : setting.kind ≠ .truth) {argument : Option String}
    (effective : (setting.flag.content? argument).isSome) (stored : argument ≠ some "--") :
    ∃ text value, argument = some text ∧ setting.kind.read? text = some value ∧
      setting.flag.content? argument = some (.value value) := by
  have effect : setting.flag.effect = .take setting.kind setting.value := if_neg kind
  simp only [Flag.content?, effect] at effective ⊢
  cases argument with
  | none => cases effective
  | some text =>
    have plain : text ≠ "--" := fun same => stored (congrArg some same)
    simp only [plain, ↓reduceIte, Option.isSome_map] at effective
    obtain ⟨value, read⟩ := Option.isSome_iff_exists.mp effective
    refine ⟨text, value, rfl, read, ?_⟩
    simp only [plain, ↓reduceIte, read, Option.map_some]

/-- The value that a truth value takes from its slot. -/
theorem valueFrom_of_truth {slots : Slots} {marked : Bool} (kind : setting.kind = .truth)
    (held : slots.get? setting.readSlot = some (.value (.truth marked))) :
    setting.valueFrom slots = .ok (.truth (setting.default.isTrue ^^ marked)) := by
  have lowered : setting.isLowered = setting.default.isTrue := by simp [isLowered, kind]
  simp only [valueFrom, held, lowered, kind]
  cases setting.default.isTrue <;> cases marked <;> rfl

/-- The value that any other setting takes from its slot. -/
theorem valueFrom_of_value {slots : Slots} (kind : setting.kind ≠ .truth)
    (held : slots.get? setting.readSlot = some (.value value)) (same : value.kind = setting.kind) :
    setting.valueFrom slots = .ok value := by
  have raised : setting.isLowered = false := by simp [isLowered, kind]
  rw [valueFrom_of_slot raised rfl held, ← same]
  exact SettingKind.accept_kind value

/-- The value that a setting takes from its slot is what the arguments of its flag give. -/
theorem exists_valueFrom {slots : Slots} (undashed : setting.name.toList.head? ≠ some '-')
    (same : setting.value.kind = setting.kind)
    (effective : ∀ argument ∈ given, (setting.flag.content? argument).isSome)
    (stored : given.getLast? ≠ some (some "--"))
    (held : slots.get? setting.flag.slot =
      (given.getLast?.bind setting.flag.content?).or (setting.flag.initial?.map .value)) :
    ∃ value, setting.valueFrom slots = .ok value ∧ setting.Takes given value := by
  have slot : setting.flag.slot = setting.readSlot := (readSlot_eq undashed).symm
  rw [slot] at held
  by_cases kind : setting.kind = .truth
  · have initial : setting.flag.initial? = some (.truth false) := by
      simp [Flag.initial?, flag, kind]
    rw [initial] at held
    cases final : given.getLast? with
    | none =>
      rw [final] at held
      refine ⟨_, valueFrom_of_truth kind held, ?_⟩
      rw [Bool.xor_false]
      exact .default kind (List.getLast?_eq_none_iff.mp final)
    | some argument =>
      rw [final, Option.bind_some, content?_of_truth kind] at held
      refine ⟨_, valueFrom_of_truth kind held, ?_⟩
      rw [Bool.xor_true]
      exact .turned kind (List.ne_nil_of_mem (List.mem_of_getLast? final))
  · have initial : setting.flag.initial? = some setting.value := by
      simp [Flag.initial?, flag, kind]
    rw [initial] at held
    cases final : given.getLast? with
    | none =>
      rw [final] at held
      exact ⟨_, valueFrom_of_value kind held same,
        .previous kind (List.getLast?_eq_none_iff.mp final)⟩
    | some argument =>
      rw [final] at stored
      obtain ⟨text, value, rfl, read, content⟩ := exists_read? kind
        (effective argument (List.mem_of_getLast? final)) fun dash => stored (congrArg some dash)
      rw [final, Option.bind_some, content] at held
      exact ⟨value, valueFrom_of_value kind held (SettingKind.kind_of_read? read),
        .last kind final read⟩

end Setting

/-! ### Command lines one after the other -/

namespace Interface

variable {interface other : Interface} {arguments : List String} {slots : Slots}

/-- A command line is carried out if the flags can be told apart and its arguments can be read. -/
theorem read_eq_ok : interface.read arguments = .ok slots ↔
    flagFault? [] interface.flags = none ∧ interface.slotsAfter arguments = .ok slots := by
  unfold Interface.read
  cases flagFault? [] interface.flags with
  | some fault => simp
  | none =>
    cases interface.slotsAfter arguments with
    | ok read => simp
    | error reason => cases failed : interface.adviceFault? reason <;> simp [failed]

/-- Whether a command line is carried out does not depend on the initial values. -/
theorem exists_read_of_reset (same : interface.reset = other.reset)
    (whole : ∀ flag ∈ interface.flags, ∀ text, flag.effect ≠ .take .whole (.text text))
    (otherWhole : ∀ flag ∈ other.flags, ∀ text, flag.effect ≠ .take .whole (.text text))
    (read : interface.read arguments = .ok slots) : ∃ later, other.read arguments = .ok later := by
  obtain ⟨apart, after⟩ := read_eq_ok.mp read
  have given := slotsAfter_given whole arguments
  have otherGiven := slotsAfter_given otherWhole arguments
  rw [after, given_of_reset same] at given
  obtain ⟨written, result, _⟩ := given.exists_ok
  rw [result] at otherGiven
  cases otherAfter : other.slotsAfter arguments with
  | error reason =>
    rw [otherAfter] at otherGiven
    cases otherGiven
  | ok later =>
    refine ⟨later, read_eq_ok.mpr ⟨?_, otherAfter⟩⟩
    have flags : interface.flags.map Flag.reset = other.flags.map Flag.reset :=
      congrArg Interface.flags same
    rw [← flagFault?_reset, ← flags, flagFault?_reset]
    exact apart

end Interface

namespace Registry

variable {registry later : Registry} {flags : List Flag} {operand : Option String}
  {arguments : List String} {slots : Slots}

/-- Settings that can be told apart on a command line, with values of their kinds. -/
structure Declared (registry : Registry) (flags : List Flag) (operand : Option String) : Prop where
  distinct : (registry.interface flags operand).Distinct
  undashed : ∀ setting ∈ registry.settings, setting.name.toList.head? ≠ some '-'
  kinds : ∀ setting ∈ registry.settings, setting.value.kind = setting.kind
  initials : ∀ flag ∈ flags, ∀ text, flag.effect ≠ .take .whole (.text text)

/-- A command line whose last argument for each setting is stored. A double dash is not: it stands
for no argument at all. -/
def Stores (registry : Registry) (flags : List Flag) (operand : Option String)
    (arguments : List String) : Prop :=
  ∀ setting ∈ registry.settings,
    ((registry.interface flags operand).givenTo setting.flagText arguments).getLast? ≠
      some (some "--")

/-- The arguments that command lines give to the flag of a setting, in order. One that is not
carried out gives none. -/
def givenTo (registry : Registry) (flags : List Flag) (operand : Option String) (setting : Setting)
    (commands : List (List String)) : List (Option String) :=
  (commands.filter fun arguments =>
      ((registry.interface flags operand).read arguments).isOk).flatMap
    ((registry.interface flags operand).givenTo setting.flagText)

/-- The settings after command lines that are read one after the other. -/
def after (registry : Registry) (flags : List Flag) (operand : Option String)
    (commands : List (List String)) : Registry :=
  commands.foldl (fun registry arguments => (registry.parse flags operand arguments).2) registry

/-- No flag of a declared registry starts from a text for a whole number. -/
theorem Declared.whole (declared : registry.Declared flags operand) :
    ∀ flag ∈ (registry.interface flags operand).flags, ∀ text,
      flag.effect ≠ .take .whole (.text text) := by
  intro flag present text
  rcases List.mem_cons.mp present with rfl | present
  · exact nofun
  · rcases List.mem_append.mp present with present | present
    · exact declared.initials flag present text
    · obtain ⟨setting, listed, rfl⟩ := List.mem_map.mp present
      have same := declared.kinds setting listed
      simp only [Setting.flag]
      intro taken
      split at taken
      · cases taken
      · obtain ⟨kind, value⟩ := FlagEffect.take.inj taken
        rw [kind, value] at same
        cases same

/-- Settings with other values of their kinds can be told apart as well. -/
theorem Declared.of_revalued (declared : registry.Declared flags operand)
    (revalued : Setting.Revalued (fun setting value => value.kind = setting.kind) registry.settings
      later.settings) : later.Declared flags operand where
  distinct := declared.distinct.of_reset (interface_reset revalued flags operand)
  undashed other present := by
    obtain ⟨setting, listed, value, _, rfl⟩ := revalued.exists_of_mem present
    exact declared.undashed setting listed
  kinds other present := by
    obtain ⟨setting, listed, value, kind, rfl⟩ := revalued.exists_of_mem present
    exact kind
  initials := declared.initials

/-- Settings that can all take a value from the slots take it. -/
theorem readSettings_of_each {holds : Setting → SettingValue → Prop} {settings : List Setting}
    (each : ∀ setting ∈ settings, ∃ value, setting.valueFrom slots = .ok value ∧
        holds setting value) :
    ∃ others, readSettings slots settings = (none, others) ∧
        Setting.Revalued holds settings others := by
  induction settings with
  | nil => exact ⟨[], rfl, .nil⟩
  | cons setting rest ih =>
    obtain ⟨⟨value, taken, held⟩, more⟩ := List.forall_mem_cons.mp each
    obtain ⟨others, read, revalued⟩ := ih more
    refine ⟨{ setting with value := value } :: others, ?_, .cons ⟨value, held, rfl⟩ revalued⟩
    rw [readSettings_ok taken, read]

/-- What settings take from a command line that is carried out. -/
theorem Declared.parse (declared : registry.Declared flags operand)
    (stores : registry.Stores flags operand arguments)
    (read : (registry.interface flags operand).read arguments = .ok slots) :
    ∃ settings, registry.parse flags operand arguments =
        (.ok slots, { registry with settings := settings }) ∧
      Setting.Revalued (fun setting => setting.Takes
        ((registry.interface flags operand).givenTo setting.flagText arguments))
        registry.settings settings := by
  have each : ∀ setting ∈ registry.settings, ∃ value, setting.valueFrom slots = .ok value ∧
      setting.Takes ((registry.interface flags operand).givenTo setting.flagText arguments)
        value := by
    intro setting listed
    have present : setting.flag ∈ (registry.interface flags operand).flags :=
      List.mem_cons_of_mem _ (List.mem_append_right _ (List.mem_map_of_mem listed))
    have named : setting.flagText ∈ setting.flag.names := List.mem_singleton_self _
    obtain ⟨effective, held⟩ := declared.distinct.get?_slot present named declared.whole
      (Interface.read_eq_ok.mp read).2
    exact Setting.exists_valueFrom (declared.undashed setting listed)
      (declared.kinds setting listed) effective (stores setting listed) held
  obtain ⟨settings, taken, revalued⟩ := readSettings_of_each each
  refine ⟨settings, ?_, revalued⟩
  simp only [Registry.parse, read, readSlots, taken]

theorem stores_nil (registry : Registry) (flags : List Flag) (operand : Option String) :
    registry.Stores flags operand [] := fun _ _ => nofun

theorem after_concat (registry : Registry) (flags : List Flag) (operand : Option String)
    (commands : List (List String)) (arguments : List String) :
    registry.after flags operand (commands ++ [arguments]) =
      ((registry.after flags operand commands).parse flags operand arguments).2 := by
  rw [after, List.foldl_append]
  rfl

/-- What a command line stores does not depend on the values that the settings hold. -/
theorem Stores.of_revalued {holds : Setting → SettingValue → Prop}
    (stores : registry.Stores flags operand arguments)
    (revalued : Setting.Revalued holds registry.settings later.settings) :
    later.Stores flags operand arguments := by
  intro other present
  obtain ⟨setting, listed, value, _, rfl⟩ := revalued.exists_of_mem present
  rw [← Interface.givenTo_of_reset (interface_reset revalued flags operand)]
  exact stores setting listed

/-- What is given to a setting by one more command line. -/
theorem givenTo_concat (registry : Registry) (flags : List Flag) (operand : Option String)
    (setting : Setting) (commands : List (List String)) (arguments : List String) :
    registry.givenTo flags operand setting (commands ++ [arguments]) =
      registry.givenTo flags operand setting commands ++
        if ((registry.interface flags operand).read arguments).isOk then
          (registry.interface flags operand).givenTo setting.flagText arguments else [] := by
  simp only [givenTo, List.filter_append, List.flatMap_append]
  congr 1
  split
  case isTrue carried => simp [carried]
  case isFalse refused => simp [refused]

/-- The values after command lines are of their kinds, and numbers and texts are what was given
last. -/
theorem Declared.after (declared : registry.Declared flags operand) {commands : List (List String)}
    (stores : ∀ arguments ∈ commands, ((registry.interface flags operand).read arguments).isOk →
      registry.Stores flags operand arguments) :
    (registry.after flags operand commands).inherited = registry.inherited ∧
    Setting.Revalued (fun setting value => value.kind = setting.kind ∧
        (setting.kind ≠ .truth → setting.Takes
          (registry.givenTo flags operand setting commands) value))
      registry.settings (registry.after flags operand commands).settings := by
  induction commands using List.reverseRecOn with
  | nil =>
    refine ⟨rfl, List.forall₂_same.mpr fun setting listed => ?_⟩
    exact ⟨setting.value, ⟨declared.kinds setting listed, fun kind => .previous kind rfl⟩, rfl⟩
  | append_singleton commands arguments ih =>
    obtain ⟨earlier, own⟩ := List.forall_mem_append.mp stores
    obtain ⟨inherited, before⟩ := ih earlier
    have declaredBefore := declared.of_revalued (before.mono fun _ _ _ held => held.1)
    have same := interface_reset before flags operand
    have given := Interface.givenTo_of_reset same
    rw [after_concat]
    cases read :
        ((registry.after flags operand commands).interface flags operand).read arguments with
    | error halt =>
      have refused : ((registry.interface flags operand).read arguments).isOk = false := by
        cases first : (registry.interface flags operand).read arguments with
        | error _ => rfl
        | ok slots =>
          obtain ⟨later, carried⟩ := Interface.exists_read_of_reset same declared.whole
            declaredBefore.whole first
          rw [carried] at read
          cases read
      simp only [Registry.parse, read]
      refine ⟨inherited, before.mono fun setting listed value held => ⟨held.1, fun kind => ?_⟩⟩
      rw [givenTo_concat, refused, if_neg Bool.false_ne_true, List.append_nil]
      exact held.2 kind
    | ok slots =>
      obtain ⟨first, carried⟩ := Interface.exists_read_of_reset same.symm declaredBefore.whole
        declared.whole read
      have storesBefore :=
        (List.forall_mem_singleton.mp own (by rw [carried]; rfl)).of_revalued before
      obtain ⟨settings, parsed, taken⟩ := declaredBefore.parse storesBefore read
      rw [parsed]
      refine ⟨inherited, before.trans taken fun setting value later held takes => ?_⟩
      refine ⟨takes.kind_eq held.1, fun kind => ?_⟩
      rw [givenTo_concat, carried, given]
      exact (held.2 kind).append takes kind

/-- A second empty command line changes nothing. -/
theorem Declared.after_twice (declared : registry.Declared flags operand) :
    registry.after flags operand [[], []] = registry.after flags operand [[]] := by
  change ((registry.parse flags operand []).2.parse flags operand []).2 =
    (registry.parse flags operand []).2
  cases read : (registry.interface flags operand).read [] with
  | error halt => simp only [Registry.parse, read]
  | ok slots =>
    obtain ⟨settings, parsed, taken⟩ := declared.parse (registry.stores_nil flags operand) read
    let later : Registry := { registry with settings := settings }
    have same : (registry.interface flags operand).reset = (later.interface flags operand).reset :=
      interface_reset taken flags operand
    have declaredAfter : later.Declared flags operand :=
      declared.of_revalued (taken.mono fun setting listed _ takes =>
        takes.kind_eq (declared.kinds setting listed))
    obtain ⟨_, again⟩ :=
      Interface.exists_read_of_reset same declared.whole declaredAfter.whole read
    obtain ⟨others, parsedAgain, retaken⟩ := declaredAfter.parse (stores_nil _ flags operand) again
    have both : Setting.Revalued (fun setting => setting.Takes []) registry.settings others :=
      taken.trans retaken fun _ _ _ takes retakes => takes.retake retakes
    rw [parsed, parsedAgain, both.unique taken fun _ _ _ => Setting.Takes.unique]

/-- **What is given last.** On a command line that is not carried out no setting changes. On one
that is, each truth value returns to its default, turned over if its flag is given, and any other
setting takes what the last argument given to its flag writes, or stays as it is. After any sequence
of command lines numbers and texts hold what was given last of all, and reading an empty command
line twice is the same as once. -/
theorem last_given (declared : registry.Declared flags operand) :
    (∀ arguments halt, (registry.interface flags operand).read arguments = .error halt →
      registry.parse flags operand arguments = (.error halt, registry)) ∧
    (∀ arguments slots, (registry.interface flags operand).read arguments = .ok slots →
      registry.Stores flags operand arguments →
      ∃ settings, registry.parse flags operand arguments =
          (.ok slots, { registry with settings := settings }) ∧
        Setting.Revalued (fun setting => setting.Takes
          ((registry.interface flags operand).givenTo setting.flagText arguments))
          registry.settings settings) ∧
    (∀ commands : List (List String),
      (∀ arguments ∈ commands, ((registry.interface flags operand).read arguments).isOk →
        registry.Stores flags operand arguments) →
      Setting.Revalued (fun setting value => setting.kind ≠ .truth → setting.Takes
          (registry.givenTo flags operand setting commands) value)
        registry.settings (registry.after flags operand commands).settings) ∧
    registry.after flags operand [[], []] = registry.after flags operand [[]] := by
  refine ⟨fun arguments halt refused => ?_, fun arguments slots carried stores => ?_,
    fun commands stores => ?_, ?_⟩
  · simp only [Registry.parse, refused]
  · exact declared.parse stores carried
  · exact (declared.after stores).2.mono fun _ _ _ held => held.2
  · exact declared.after_twice

/-- The standard settings and one whose flag lowers it. -/
def limited : Registry := standard.declare "limits" .truth (.truth true) "Stop at limits"

/-- A registry with a setting of each kind that is declared beside the program's own flags. -/
theorem declared_limited : limited.Declared Program.ownFlags (some "file") where
  distinct := ⟨by decide +kernel, by decide +kernel⟩
  undashed := by decide +kernel
  kinds := by decide +kernel
  initials := by
    intro flag present text
    rcases List.mem_pair.mp present with rfl | rfl <;> exact nofun

/-- Three command lines of which the second is refused, before its double dash could be stored: the
flags of the first are shortened, and the last argument of each counts. -/
theorem last_given_limited :
    let commands := [["--subd=8", "--no-lim", "--profile", "p", "--subdivisions", "12"],
      ["--subdivisions=x", "--profile=--"], ["--step=3", "f"]]
    limited.Declared Program.ownFlags (some "file") ∧
      (∀ arguments ∈ commands,
        ((limited.interface Program.ownFlags (some "file")).read arguments).isOk →
          limited.Stores Program.ownFlags (some "file") arguments) ∧
      limited.parse Program.ownFlags (some "file") ["--subdivisions=x", "--profile=--"] =
        (.error (.exit .refused), limited) ∧
      (∃ slots settings, limited.parse Program.ownFlags (some "file")
          ["--subd=8", "--no-lim", "--profile", "p", "--subdivisions", "12"] =
            (.ok slots, { limited with settings := settings }) ∧
        Setting.Revalued (fun setting => setting.Takes ((limited.interface Program.ownFlags
          (some "file")).givenTo setting.flagText
            ["--subd=8", "--no-lim", "--profile", "p", "--subdivisions", "12"]))
          limited.settings settings) ∧
      Setting.Revalued (fun setting value => setting.kind ≠ .truth → setting.Takes
          (limited.givenTo Program.ownFlags (some "file") setting commands) value)
        limited.settings (limited.after Program.ownFlags (some "file") commands).settings := by
  intro commands
  obtain ⟨refuses, takes, sequence, _⟩ := last_given declared_limited
  have stores : ∀ arguments ∈ commands,
      ((limited.interface Program.ownFlags (some "file")).read arguments).isOk →
        limited.Stores Program.ownFlags (some "file") arguments := by
    unfold Stores
    decide +kernel
  have carried : ((limited.interface Program.ownFlags (some "file")).read
      ["--subd=8", "--no-lim", "--profile", "p", "--subdivisions", "12"]).isOk := by
    decide +kernel
  have refused : (limited.interface Program.ownFlags (some "file")).read
      ["--subdivisions=x", "--profile=--"] = .error (.exit .refused) := by
    decide +kernel
  refine ⟨declared_limited, stores, refuses _ _ refused, ?_, sequence commands stores⟩
  cases read : (limited.interface Program.ownFlags (some "file")).read
      ["--subd=8", "--no-lim", "--profile", "p", "--subdivisions", "12"] with
  | error halt =>
    rw [read] at carried
    cases carried
  | ok slots => exact ⟨slots, takes _ slots read (stores _ List.mem_cons_self carried)⟩

example : (limited.after Program.ownFlags (some "file")
    [["--subd=8", "--no-lim", "--profile", "p", "--subdivisions", "12"],
      ["--subdivisions=x", "--profile=--"], ["--step=3", "f"]]).settings.map Setting.value =
    [.truth false, .text "p", .whole 12, .whole 3, .truth true] := by decide +kernel

end Registry

end ExactQuadrature

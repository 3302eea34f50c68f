import ExactQuadrature.Proofs.Settings.Standard

/-! # A command line with one more mark

A flag that only marks its slot may be put before any command line. The same command lines are then
carried out, and no slot but the marked one holds anything else (`Interface.slotsAfter_mark`). For
the flag that switches verbosity on, the settings taken from the slots therefore differ in the
verbosity alone (`Registry.readSlots_quiet`), whatever values they had before.
-/

namespace ExactQuadrature

namespace Interface

/-- Slots that differ in one of them at most, which both hold. -/
structure Apart (slot : String) (first second : Slots) : Prop where
  held : (first.get? slot).isSome = true
  alsoHeld : (second.get? slot).isSome = true
  same : ∀ name, name ≠ slot → first.get? name = second.get? name

variable {interface : Interface} {slot : String} {first second : Slots}

theorem Apart.put (apart : Apart slot first second) (name : String) (content : SlotContent) :
    Apart slot (first.put name content) (second.put name content) := by
  refine ⟨?_, ?_, fun other different => ?_⟩
  · rw [Entries.get?_put]
    split
    · rfl
    · exact apart.held
  · rw [Entries.get?_put]
    split
    · rfl
    · exact apart.alsoHeld
  · rw [Entries.get?_put, Entries.get?_put, apart.same other different]

/-- Settling a flag leaves both apart in that slot alone, or fails in both. -/
theorem Apart.settle (apart : Apart slot first second) {flag : Flag}
    (unsettled : flag.slot = slot → ∀ text, flag.effect ≠ .take .whole (.text text)) :
    Matching (Apart slot) (settle first flag) (settle second flag) := by
  by_cases own : flag.slot = slot
  · rw [settle_of_effect (unsettled own), settle_of_effect (unsettled own)]
    exact .ok apart
  · unfold Interface.settle
    rw [← apart.same flag.slot own]
    split
    · split
      · exact .ok apart
      · split
        · exact .ok (apart.put _ _)
        · exact .error _
    · exact .ok apart

/-- Slots over initial ones of which one is marked differ in that one alone. -/
theorem apart_of_over {initial written : Slots} {content : SlotContent}
    (held : (initial.get? slot).isSome = true)
    (marked : Over (initial.put slot content) first written)
    (unmarked : Over initial second written) : Apart slot first second where
  held := by
    rw [marked slot, Entries.get?_put, if_pos rfl]
    cases written.get? slot <;> rfl
  alsoHeld := by
    rw [unmarked slot]
    cases written.get? slot with
    | none => exact held
    | some content => rfl
  same name different := by rw [marked name, unmarked name, Entries.get?_put, if_neg different]

/-- A mark that comes first is set before all else is read. -/
theorem readFrom_mark (progress : Progress) {flag : Flag} (marks : flag.effect = .mark)
    (long : Bool)
    (rest : List Argument) :
    interface.readFrom progress (.flag flag long none :: rest) =
      interface.readFrom
        { progress with slots := progress.slots.put flag.slot (.value (.truth true)) } rest := by
  obtain ⟨names, slot, effect, help, placeholder⟩ := flag
  cases marks
  rw [readFrom_flag]
  rfl

/-- **One more mark.** -/
theorem slotsAfter_mark {text : String} {flag : Flag} {long : Bool}
    (classified : interface.classify text = .ok (.flag flag long none)) (named : text ≠ "--")
    (marks : flag.effect = .mark) (held : (interface.initial.get? flag.slot).isSome = true)
    (unsettled : ∀ other ∈ interface.flags, other.slot = flag.slot →
      ∀ text, other.effect ≠ .take .whole (.text text)) (arguments : List String) :
    Matching (Apart flag.slot) (interface.slotsAfter (text :: arguments))
      (interface.slotsAfter arguments) := by
  simp only [slotsAfter, classifyAll, if_neg named, classified, bind_ok]
  cases interface.classifyAll arguments with
  | error reason => exact .error reason
  | ok arguments =>
    have loud : Progress.Over (interface.initial.put flag.slot (.value (.truth true)))
        ⟨interface.initial.put flag.slot (.value (.truth true)), false, false⟩
        ⟨[], false, false⟩ := ⟨fun _ => rfl, rfl, rfl⟩
    have quiet : Progress.Over interface.initial ⟨interface.initial, false, false⟩
        ⟨[], false, false⟩ := ⟨fun _ => rfl, rfl, rfl⟩
    have both := (loud.readFrom interface arguments).join (quiet.readFrom interface arguments)
    change Matching _ (interface.readFrom _ (.flag flag long none :: arguments) >>= _) _
    rw [readFrom_mark _ marks]
    refine both.bind fun progress other => ?_
    rintro ⟨known, marked, unmarked⟩
    refine (Matching.foldlM (fun flag present _ _ apart => apart.settle (unsettled flag present))
      (apart_of_over held marked.slots unmarked.slots)).bind fun slots slots' apart => ?_
    rw [marked.leftover, unmarked.leftover]
    split
    · exact .error Exit.refused
    · exact .ok apart

/-- Command lines with matching slots are read alike, and if they are not carried out, for the same
reason. -/
theorem matching_read {related : Slots → Slots → Prop} {arguments others : List String}
    (matched : Matching related (interface.slotsAfter arguments) (interface.slotsAfter others)) :
    Matching related (interface.read arguments) (interface.read others) := by
  unfold Interface.read
  cases flagFault? [] interface.flags with
  | some fault => exact .error _
  | none =>
    generalize interface.slotsAfter arguments = after,
      interface.slotsAfter others = after' at matched
    cases matched with
    | ok results => exact .ok results
    | error reason =>
      dsimp only
      cases interface.adviceFault? reason <;> exact .error _

end Interface

namespace Registry

/-- The standard settings, whatever values they have. -/
def IsStandard (registry : Registry) : Prop :=
  registry.settings.map (fun setting => { setting with value := setting.default }) =
    standard.settings

/-- The same settings without verbosity. -/
def quiet (registry : Registry) : Registry := registry.set "verbose" (.truth false)

variable {registry other : Registry}

/-- The registry of the program is standard. -/
theorem isStandard_standard : standard.IsStandard := by
  unfold IsStandard
  decide +kernel

/-- The setting for verbosity with a value. -/
def verbositySetting (value : SettingValue) : Setting :=
  ⟨"verbose", .truth, .truth false, value,
    "Report parsing and integration progress on stderr", none⟩

/-- The other standard settings with values of any kind. -/
def otherSettings (profile subdivisions scale : SettingValue) : List Setting :=
  [⟨"profile", .text, .text "", profile, "Write per-task timings to this file when done",
    some "PATH"⟩,
    ⟨"subdivisions", .whole, .whole 1000, subdivisions,
      "Number of equal steps each quadrature rule takes", none⟩,
    ⟨"step-scale", .whole, .whole 6, scale,
      "Fractional digits kept when rounding step widths and trapezoid areas", none⟩]

/-- A standard registry has the settings of the program, with any values. -/
theorem IsStandard.settings (standard : registry.IsStandard) :
    ∃ verbose profile subdivisions scale,
      registry.settings = verbositySetting verbose :: otherSettings profile subdivisions scale := by
  obtain ⟨⟨_, _, _, verbose, _, _⟩, rest, listed, first, more⟩ := List.map_eq_cons_iff.mp standard
  obtain ⟨⟨_, _, _, profile, _, _⟩, rest, rfl, second, more⟩ := List.map_eq_cons_iff.mp more
  obtain ⟨⟨_, _, _, subdivisions, _, _⟩, rest, rfl, third, more⟩ := List.map_eq_cons_iff.mp more
  obtain ⟨⟨_, _, _, scale, _, _⟩, rest, rfl, fourth, more⟩ := List.map_eq_cons_iff.mp more
  obtain rfl := List.map_eq_nil_iff.mp more
  cases first
  cases second
  cases third
  cases fourth
  exact ⟨verbose, profile, subdivisions, scale, listed⟩

/-- Setting one name leaves the others as they are. -/
theorem find?_set_of_ne {name asked : String} (different : asked ≠ name) (value : SettingValue) :
    (registry.set name value).find? asked = registry.find? asked := by
  simp only [find?, set]
  induction registry.settings with
  | nil => rfl
  | cons setting rest ih =>
    rw [setFirst]
    by_cases own : setting.name = name
    · have apart : ¬setting.name = asked := fun same => different (same.symm.trans own)
      rw [if_pos own, List.find?_cons_of_neg (by simpa using apart),
        List.find?_cons_of_neg (by simpa using apart)]
    · rw [if_neg own, List.find?_cons, List.find?_cons, ih]

/-- Silence does not touch the name of the profile. -/
theorem profile_quiet (registry : Registry) : registry.quiet.profile = registry.profile := by
  have same : registry.quiet.find? "profile" = registry.find? "profile" :=
    find?_set_of_ne (by decide) _
  rw [profile, profile, text, text, same]

theorem stepping_quiet (registry : Registry) : registry.quiet.stepping = registry.stepping := by
  have count : registry.quiet.find? "subdivisions" = registry.find? "subdivisions" :=
    find?_set_of_ne (by decide) _
  have scale : registry.quiet.find? "step-scale" = registry.find? "step-scale" :=
    find?_set_of_ne (by decide) _
  rw [stepping, stepping, whole, whole, whole, whole, count, scale]

/-- Reading the settings looks at their own slots alone. -/
theorem readSettings_congr {first second : Slots} {settings : List Setting}
    (same : ∀ setting ∈ settings, first.get? setting.readSlot = second.get? setting.readSlot) :
    readSettings first settings = readSettings second settings := by
  induction settings with
  | nil => rfl
  | cons setting rest ih =>
    obtain ⟨own, others⟩ := List.forall_mem_cons.mp same
    simp only [readSettings, Setting.valueFrom, own, ih others]

/-- Slots that differ in the verbosity alone give the same settings but for the verbosity. -/
theorem readSlots_quiet (standard : registry.IsStandard) {first second : Slots}
    (apart : Interface.Apart "verbose" first second) :
    (registry.readSlots first).1 = (registry.readSlots second).1 ∧
      (registry.readSlots first).2.quiet = (registry.readSlots second).2.quiet := by
  obtain ⟨verbose, profile, subdivisions, scale, listed⟩ := standard.settings
  obtain ⟨content, held⟩ := Option.isSome_iff_exists.mp apart.held
  obtain ⟨other, alsoHeld⟩ := Option.isSome_iff_exists.mp apart.alsoHeld
  have marked : ∀ {slots : Slots} {content : SlotContent}, slots.get? "verbose" = some content →
      (verbositySetting verbose).valueFrom slots = .ok (.truth content.isTrue) :=
    Setting.valueFrom_of_slot rfl (by cbv)
  have others : readSettings first (otherSettings profile subdivisions scale) =
      readSettings second (otherSettings profile subdivisions scale) := by
    refine readSettings_congr fun setting present => apart.same _ ?_
    have slots : (otherSettings profile subdivisions scale).map Setting.readSlot =
        ["profile", "subdivisions", "step_scale"] := by cbv
    have listed := List.mem_map_of_mem (f := Setting.readSlot) present
    rw [slots] at listed
    rintro same
    rw [same] at listed
    revert listed
    decide
  simp only [readSlots, listed]
  rw [readSettings_ok (marked held), readSettings_ok (marked alsoHeld), others]
  exact ⟨rfl, rfl⟩

end Registry

namespace Program

open Registry (verbositySetting otherSettings)

/-- **The flag for verbosity** may be put before a command line. -/
theorem read_verbose {registry : Registry} (standard : registry.IsStandard)
    (arguments : List String) :
    Matching (Interface.Apart "verbose") ((interface registry).read ("--verbose" :: arguments))
      ((interface registry).read arguments) := by
  obtain ⟨verbose, profile, subdivisions, scale, listed⟩ := standard.settings
  obtain ⟨settings, inherited⟩ := registry
  obtain rfl : settings = _ := listed
  have classified :
      (interface ⟨verbositySetting verbose :: otherSettings profile subdivisions scale,
      inherited⟩).classify "--verbose" = .ok (.flag (verbositySetting verbose).flag true none) := by
    cbv
  have slot : (verbositySetting verbose).flag.slot = "verbose" := by cbv
  have initial : ((interface ⟨verbositySetting verbose :: otherSettings profile subdivisions scale,
      inherited⟩).initial.get? "verbose").isSome = true := by
    rw [Interface.get?_initial_eq_findSome?]
    cbv
  rw [← slot]
  refine Interface.matching_read
    (Interface.slotsAfter_mark classified (by decide) rfl ?_ ?_ arguments)
  · rw [slot]
    exact initial
  · rw [slot]
    intro flag present own text
    -- Only the flags of the two numbers may have such an effect, and they have slots of their own.
    have count : (Setting.flag ⟨"subdivisions", .whole, .whole 1000, subdivisions,
        "Number of equal steps each quadrature rule takes", none⟩).slot = "subdivisions" := by cbv
    have places : (Setting.flag ⟨"step-scale", .whole, .whole 6, scale,
        "Fractional digits kept when rounding step widths and trapezoid areas", none⟩).slot =
          "step_scale" := by cbv
    simp only [interface, ownFlags, Registry.interface, otherSettings, List.map_cons, List.map_nil,
      List.cons_append, List.nil_append, List.mem_cons, List.not_mem_nil, or_false] at present
    rcases present with rfl | rfl | rfl | rfl | rfl | rfl | rfl
    case inr.inr.inr.inr.inr.inl => exact absurd (count.symm.trans own) (by decide)
    case inr.inr.inr.inr.inr.inr => exact absurd (places.symm.trans own) (by decide)
    all_goals
      intro impossible
      cases impossible

end Program

end ExactQuadrature

import ExactQuadrature.Program
import ExactQuadrature.Proofs.Settings.Initials

/-! # The standard settings with other values

The standard settings hold a truth value, a text and two whole numbers, and no command line can
change that (`Registry.readSlots_holding`). The command line of the program is sound whatever the
settings hold (`Program.sound_interface`): nothing but the command line itself can end its reading.
-/

namespace ExactQuadrature

/-! ### Sound interfaces -/

/-- A text without percent signs has no directives. -/
theorem TemplatePiece.ofChars_of_plain {cs : List Char} (plain : '%' ∉ cs) :
    ofChars cs = cs.map character := by
  induction cs with
  | nil => rw [ofChars, List.map_nil]
  | cons c rest ih =>
    obtain ⟨apart, restPlain⟩ := not_or.mp (mt List.mem_cons.mpr plain)
    rw [ofChars, ih restPlain, List.map_cons]
    · rintro after rfl
      exact absurd rfl apart
    · exact fun same => absurd same.symm apart

theorem Appearance.append_ofChars (c : Char) (rest : List Char) :
    (ofChars [c]).append (ofChars rest) = ofChars (c :: rest) := by
  cases rest with
  | nil =>
    simp only [ofChars, List.isEmpty_cons, Bool.false_eq_true, ↓reduceIte]
    split <;> rfl
  | cons next rest =>
    simp only [ofChars, List.isEmpty_cons, List.all_cons, List.all_nil, Bool.and_true,
      Bool.false_eq_true, ↓reduceIte, Bool.and_eq_true]
    by_cases first : Text.isBlank c = true
    · simp only [first, ↓reduceIte, true_and]
      split <;> rfl
    · simp only [first, Bool.false_eq_true, ↓reduceIte, false_and]
      split <;> rfl

/-- Characters alone look like they do as a text. -/
theorem TemplatePiece.fill_characters (ingredients : Entries Ingredient)
    (supply : Option Ingredient) (cs : List Char) :
    fill ingredients supply (cs.map character) = .ok (.ofChars cs) := by
  induction cs with
  | nil => rfl
  | cons c rest ih =>
    rw [List.map_cons, fill, ih, bind_ok, Appearance.append_ofChars]
    rfl

/-- A text without percent signs is a template without faults. -/
theorem templateFault?_of_plain {template : String} (plain : '%' ∉ template.toList)
    (ingredients : Entries Ingredient) : templateFault? ingredients template = none := by
  simp only [templateFault?, TemplatePiece.ofChars_of_plain plain, TemplatePiece.fill_characters,
    Appearance.ofChars]
  cases template.toList.isEmpty <;> cases template.toList.all Text.isBlank <;> rfl

namespace Interface

/-- Flags clash whatever their initial values. -/
theorem flagFault?_reset (taken : List String) (flags : List Flag) :
    flagFault? taken (flags.map Flag.reset) = flagFault? taken flags := by
  induction flags generalizing taken with
  | nil => rfl
  | cons flag rest ih =>
    simp only [List.map_cons, flagFault?, ih]
    rfl

theorem usage_reset (interface : Interface) : interface.reset.usage = interface.usage := by
  simp only [usage, reset, List.map_map]
  congr 2
  refine List.map_congr_left fun flag _ => ?_
  simp only [Function.comp_apply, Flag.usage, Flag.takesArgument_reset]
  rfl

/-- An interface whose flags can be told apart and described, with initial values that are values of
their kinds. -/
structure Sound (interface : Interface) : Prop where
  apart : flagFault? [] interface.flags = none
  usage : Usage.holdsTogether interface.usage = true
  help : ∀ flag ∈ interface.flags, '%' ∉ flag.help.toList
  whole : ∀ flag ∈ interface.flags, ∀ text, flag.effect ≠ .take .whole (.text text)

/-- Something can always be said about a command line that is not carried out. -/
theorem Sound.adviceFault?_eq_none {interface : Interface} (sound : interface.Sound)
    (reason : Exit) : interface.adviceFault? reason = none := by
  simp only [adviceFault?, sound.usage, ↓reduceIte]
  cases reason with
  | refused => rfl
  | helped =>
    have faultless : interface.flags.findSome? Flag.helpFault? = none :=
      List.findSome?_eq_none_iff.mpr fun flag present =>
        templateFault?_of_plain (sound.help flag present) flag.ingredients
    rw [faultless]
    rfl

/-- The command line alone decides on whether it is carried out, and on what it gives. -/
theorem Sound.read {interface : Interface} (sound : interface.Sound) (arguments : List String) :
    (∃ reason, interface.read arguments = .error (.exit reason) ∧
        interface.given arguments = .error reason) ∨
      ∃ slots written, interface.read arguments = .ok slots ∧
        interface.given arguments = .ok written ∧ Over interface.initial slots written := by
  have both := slotsAfter_given sound.whole arguments
  simp only [Interface.read, sound.apart]
  generalize interface.slotsAfter arguments = after at both ⊢
  generalize interface.given arguments = written at both ⊢
  cases both with
  | ok above => exact .inr ⟨_, _, rfl, rfl, above⟩
  | error reason =>
    simp only [sound.adviceFault?_eq_none reason]
    exact .inl ⟨reason, rfl, rfl⟩

end Interface

/-! ### Standard settings -/

namespace SlotContent

/-- What a slot holds as a text. -/
def text : SlotContent → String
  | value (.text held) => held
  | value held => held.shown
  | nothing => "[]"

/-- A text setting accepts whatever is written to its slot. -/
theorem accept_text (content : SlotContent) :
    SettingKind.text.accept content = .ok (.text content.text) := by
  cases content with
  | nothing => rfl
  | value held => cases held <;> rfl

/-- What a slot holds as a whole number. -/
def number (content : SlotContent) : Except SettingsFault Int :=
  (SettingKind.whole.accept content).map fun value => value.count?.getD 0

/-- A whole setting accepts what is a number. -/
theorem accept_whole (content : SlotContent) :
    SettingKind.whole.accept content = content.number.map .whole := by
  cases content with
  | nothing => rfl
  | value held =>
    cases held with
    | truth held => rfl
    | whole held => rfl
    | text held =>
      simp only [number, SettingKind.accept]
      cases WholeText.read? held <;> rfl

end SlotContent

/-- A setting whose flag does not lower it takes what is in its slot. -/
theorem Setting.valueFrom_of_slot {setting : Setting} {slots : Slots} {slot : String}
    {content : SlotContent} (raised : setting.isLowered = false) (named : setting.readSlot = slot)
    (held : slots.get? slot = some content) :
    setting.valueFrom slots = setting.kind.accept content := by
  simp only [valueFrom, named, held, raised, Bool.false_eq_true, ↓reduceIte]

namespace Registry

/-- A setting that takes its value takes it and the others follow. -/
theorem readSettings_ok {slots : Slots} {setting : Setting} {value : SettingValue}
    (taken : setting.valueFrom slots = .ok value) (rest : List Setting) :
    readSettings slots (setting :: rest) =
      ((readSettings slots rest).1,
        { setting with value := value } :: (readSettings slots rest).2) := by
  simp only [readSettings, taken]

theorem readSettings_error {slots : Slots} {setting : Setting} {fault : SettingsFault}
    (failed : setting.valueFrom slots = .error fault) (rest : List Setting) :
    readSettings slots (setting :: rest) = (some fault, setting :: rest) := by
  simp only [readSettings, failed]

/-- The standard settings with given values. -/
def holding (verbose : Bool) (profile : String) (subdivisions scale : Int) : Registry :=
  standard
    |>.set "verbose" (.truth verbose)
    |>.set "profile" (.text profile)
    |>.set "subdivisions" (.whole subdivisions)
    |>.set "step-scale" (.whole scale)

variable (verbose : Bool) (profile : String) (subdivisions scale : Int)

/-- The standard registry holds its default values. -/
theorem standard_eq_holding : standard = holding false "" 1000 6 := by decide +kernel

theorem holding_eq : holding verbose profile subdivisions scale =
    ⟨[⟨"verbose", .truth, .truth false, .truth verbose,
        "Report parsing and integration progress on stderr", none⟩,
      ⟨"profile", .text, .text "", .text profile,
        "Write per-task timings to this file when done", some "PATH"⟩,
      ⟨"subdivisions", .whole, .whole 1000, .whole subdivisions,
        "Number of equal steps each quadrature rule takes", none⟩,
      ⟨"step-scale", .whole, .whole 6, .whole scale,
        "Fractional digits kept when rounding step widths and trapezoid areas", none⟩], []⟩ := rfl

variable {slots : Slots} {marked path count places : SlotContent}

/-- What the settings take from their slots. If a number cannot be had, the values up to it are
taken. -/
theorem readSlots_holding (verboseSlot : slots.get? "verbose" = some marked)
    (profileSlot : slots.get? "profile" = some path)
    (subdivisionsSlot : slots.get? "subdivisions" = some count)
    (scaleSlot : slots.get? "step_scale" = some places) :
    (holding verbose profile subdivisions scale).readSlots slots =
      match count.number with
      | .error fault => (some fault, holding marked.isTrue path.text subdivisions scale)
      | .ok subdivisions =>
        match places.number with
        | .error fault => (some fault, holding marked.isTrue path.text subdivisions scale)
        | .ok scale => (none, holding marked.isTrue path.text subdivisions scale) := by
  have fromMark : (Setting.mk "verbose" .truth (.truth false) (.truth verbose)
      "Report parsing and integration progress on stderr" none).valueFrom slots =
      .ok (.truth marked.isTrue) :=
    Setting.valueFrom_of_slot rfl (by cbv) verboseSlot
  have fromPath : (Setting.mk "profile" .text (.text "") (.text profile)
      "Write per-task timings to this file when done" (some "PATH")).valueFrom slots =
      .ok (.text path.text) := by
    rw [Setting.valueFrom_of_slot rfl (by cbv) profileSlot, SlotContent.accept_text]
  have fromCount : (Setting.mk "subdivisions" .whole (.whole 1000) (.whole subdivisions)
      "Number of equal steps each quadrature rule takes" none).valueFrom slots =
      count.number.map .whole := by
    rw [Setting.valueFrom_of_slot rfl (by cbv) subdivisionsSlot, SlotContent.accept_whole]
  have fromPlaces : (Setting.mk "step-scale" .whole (.whole 6) (.whole scale)
      "Fractional digits kept when rounding step widths and trapezoid areas" none).valueFrom slots =
      places.number.map .whole := by
    rw [Setting.valueFrom_of_slot rfl (by cbv) scaleSlot, SlotContent.accept_whole]
  simp only [readSlots, holding_eq]
  rw [readSettings_ok fromMark, readSettings_ok fromPath]
  cases counted : count.number with
  | error fault =>
    rw [counted] at fromCount
    rw [readSettings_error fromCount]
  | ok number =>
    rw [counted] at fromCount
    rw [readSettings_ok fromCount]
    cases placed : places.number with
    | error fault =>
      rw [placed] at fromPlaces
      rw [readSettings_error fromPlaces]
    | ok number =>
      rw [placed] at fromPlaces
      rw [readSettings_ok fromPlaces]
      rfl

end Registry

namespace Program

variable (verbose : Bool) (profile : String) (subdivisions scale : Int)

/-- Only the initial values of flags that take an argument depend on the settings. -/
theorem interface_holding :
    interface (.holding verbose profile subdivisions scale) =
      interface (.holding false profile subdivisions scale) := rfl

theorem reset_interface_holding :
    (interface (.holding verbose profile subdivisions scale)).reset =
      (interface .standard).reset := rfl

/-- The slots of the settings start with their values, but that of the verbosity with a mark to
be set. -/
theorem get?_initial_holding :
    let initial := (interface (.holding verbose profile subdivisions scale)).initial
    initial.get? "verbose" = some (.value (.truth false)) ∧
      initial.get? "profile" = some (.value (.text profile)) ∧
      initial.get? "subdivisions" = some (.value (.whole subdivisions)) ∧
      initial.get? "step_scale" = some (.value (.whole scale)) := by
  simp only [Interface.get?_initial_eq_findSome?, interface, Registry.interface,
    Registry.holding_eq]
  refine ⟨?_, ?_, ?_, ?_⟩ <;> cbv

/-- The command line of the program is sound, whatever the settings hold. -/
theorem sound_interface : (interface (.holding verbose profile subdivisions scale)).Sound where
  apart := by
    rw [← Interface.flagFault?_reset]
    have standard : Interface.flagFault? [] (interface .standard).reset.flags = none := by
      decide +kernel
    exact standard
  usage := by
    rw [← Interface.usage_reset, reset_interface_holding]
    decide +kernel
  help flag present := by
    have standard : ∀ flag ∈ (interface .standard).reset.flags, '%' ∉ flag.help.toList := by
      decide +kernel
    have listed :
        flag.reset ∈ (interface (.holding verbose profile subdivisions scale)).reset.flags :=
      List.mem_map_of_mem present
    exact standard flag.reset listed
  whole flag present text := by
    simp only [interface, ownFlags, Registry.interface, Registry.holding_eq, List.map_cons,
      List.map_nil, List.cons_append, List.nil_append, List.mem_cons, List.not_mem_nil,
        or_false] at present
    rcases present with rfl | rfl | rfl | rfl | rfl | rfl | rfl <;> exact nofun

end Program

end ExactQuadrature

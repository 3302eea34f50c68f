import ExactQuadrature.Proofs.Settings.Initials

/-! # The same settings with other values

Most steps change nothing about settings but their values (`Setting.Revalued`). Two such steps are
one (`Setting.Revalued.trans`), and a step that leaves every setting one value only has one result
(`Setting.Revalued.unique`). Settings with other values have the same flags but for what these start
with, so a command line is taken apart alike for them (`Registry.interface_reset`).
-/

namespace ExactQuadrature

namespace Setting

/-- Settings that differ from others in their values only, with values in some relation to them. -/
def Revalued (holds : Setting → SettingValue → Prop) : List Setting → List Setting → Prop :=
  List.Forall₂ fun setting other => ∃ value, holds setting value ∧
    other = { setting with value := value }

variable {holds also total : Setting → SettingValue → Prop} {settings others final : List Setting}

/-- Every later setting is one of the settings with another value. -/
theorem Revalued.exists_of_mem (revalued : Revalued holds settings others) {other : Setting}
    (present : other ∈ others) :
    ∃ setting ∈ settings, ∃ value, holds setting value ∧
        other = { setting with value := value } := by
  induction revalued with
  | nil => cases present
  | cons first _ ih =>
    rcases List.mem_cons.mp present with rfl | present
    · exact ⟨_, List.mem_cons_self, first⟩
    · obtain ⟨setting, listed, value⟩ := ih present
      exact ⟨setting, List.mem_cons_of_mem _ listed, value⟩

theorem Revalued.mono (revalued : Revalued holds settings others)
    (weaker : ∀ setting ∈ settings, ∀ value, holds setting value → also setting value) :
    Revalued also settings others := by
  refine ((List.forall₂_and_left _ _).mpr ⟨fun _ listed => listed, revalued⟩).imp ?_
  rintro setting _ ⟨listed, value, held, rfl⟩
  exact ⟨value, weaker setting listed value held, rfl⟩

/-- Settings whose values change twice, under both conditions. -/
theorem Revalued.trans (first : Revalued holds settings others)
    (second : Revalued also others final)
    (both : ∀ setting value later, holds setting value →
      also { setting with value := value } later → total setting later) :
    Revalued total settings final := by
  induction first generalizing final with
  | nil =>
    cases second
    exact .nil
  | cons own _ ih =>
    cases second with
    | cons ownLater rest =>
      obtain ⟨value, held, rfl⟩ := own
      obtain ⟨later, alsoHeld, rfl⟩ := ownLater
      exact .cons ⟨later, both _ value later held alsoHeld, rfl⟩ (ih rest)

/-- Settings are the same if no two values are in the relation to any of them. -/
theorem Revalued.unique (first : Revalued holds settings others)
    (second : Revalued also settings final)
    (one : ∀ setting value later, holds setting value → also setting later → value = later) :
    others = final := by
  induction first generalizing final with
  | nil =>
    cases second
    rfl
  | cons own _ ih =>
    cases second with
    | cons ownLater rest =>
      obtain ⟨value, held, rfl⟩ := own
      obtain ⟨later, alsoHeld, rfl⟩ := ownLater
      rw [one _ value later held alsoHeld, ih rest]

/-- The flag of a setting has nothing of the value of the setting but its initial value. -/
theorem reset_flag (setting : Setting) (value : SettingValue) :
    (flag { setting with value := value }).reset = setting.flag.reset := by
  obtain ⟨name, kind, default, before, description, placeholder⟩ := setting
  cases kind <;> rfl

/-- The flags of settings differ in their initial values only. -/
theorem Revalued.map_reset (revalued : Revalued holds settings others) :
    settings.map (Flag.reset ∘ flag) = others.map (Flag.reset ∘ flag) := by
  induction revalued with
  | nil => rfl
  | cons own _ ih =>
    obtain ⟨value, held, rfl⟩ := own
    rw [List.map_cons, List.map_cons, ih, Function.comp_apply, Function.comp_apply,
      reset_flag _ value]

end Setting

/-- The values of settings have no influence on how a command line is taken apart. -/
theorem Registry.interface_reset {registry later : Registry} {holds : Setting → SettingValue → Prop}
    (revalued : Setting.Revalued holds registry.settings later.settings) (flags : List Flag)
    (operand : Option String) :
    (registry.interface flags operand).reset = (later.interface flags operand).reset := by
  simp only [interface, Interface.reset, List.map_append, List.map_cons, List.map_map,
    revalued.map_reset]

end ExactQuadrature

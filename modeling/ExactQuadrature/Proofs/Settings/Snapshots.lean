import ExactQuadrature.Proofs.Settings.Revalued
import ExactQuadrature.Settings.Standard
import Mathlib.Data.List.Induction

/-! # Restored settings

Settings are given values, read from command lines, declared and restored in any order
(`Registry.Change`). Whatever happens to a registry, its settings are kept in their places, with
other values and with later ones behind them (`Registry.keeps_run`). Restoring a snapshot therefore
brings the settings back as they were when it was taken, and until another one is restored, it says
what settings that are declared later start with (`Registry.restore_undoes`).
-/

namespace ExactQuadrature

/-! ### What changes settings -/

namespace Setting

variable {holds : Setting → SettingValue → Prop} {settings kept others final : List Setting}

/-- Whatever values settings have. -/
abbrev Anyhow (_ : Setting) (_ : SettingValue) : Prop := True

theorem revalued_refl (settings : List Setting) : Revalued Anyhow settings settings :=
  List.forall₂_same.mpr fun setting _ => ⟨setting.value, trivial, rfl⟩

/-- Setting a value changes values only. -/
theorem revalued_setFirst (name : String) (value : SettingValue) (settings : List Setting) :
    Revalued Anyhow settings (Registry.setFirst name value settings) := by
  induction settings with
  | nil => exact .nil
  | cons setting rest ih =>
    rw [Registry.setFirst]
    split
    · exact .cons ⟨value, trivial, rfl⟩ (revalued_refl rest)
    · exact .cons ⟨setting.value, trivial, rfl⟩ ih

/-- Reading the slots changes values only. -/
theorem revalued_readSettings (slots : Slots) (settings : List Setting) :
    Revalued Anyhow settings (Registry.readSettings slots settings).2 := by
  induction settings with
  | nil => exact .nil
  | cons setting rest ih =>
    rw [Registry.readSettings]
    cases setting.valueFrom slots with
    | error fault => exact revalued_refl _
    | ok value => exact .cons ⟨value, trivial, rfl⟩ ih

/-- A setting with the value that a snapshot has for it. -/
def restored (values : Snapshot) (setting : Setting) : Setting :=
  { setting with value := (values.get? setting.name).getD setting.value }

/-- Restoring changes values only. -/
theorem revalued_restored (values : Snapshot) (settings : List Setting) :
    Revalued Anyhow settings (settings.map (restored values)) :=
  List.forall₂_map_right_iff.mpr (List.forall₂_same.mpr fun _ _ => ⟨_, trivial, rfl⟩)

/-- What becomes of settings becomes of those in front. -/
theorem Revalued.front (revalued : Revalued holds others final) (front : kept <+: others) :
    ∃ newer, newer <+: final ∧ Revalued holds kept newer := by
  obtain ⟨rest, rfl⟩ := front
  refine ⟨final.take kept.length, List.take_prefix _ _, ?_⟩
  have taken := List.forall₂_take kept.length revalued
  rwa [List.take_left] at taken

end Setting

namespace Registry

/-- A step that may change a registry. -/
inductive Change where
  | set (name : String) (value : SettingValue)
  | parse (flags : List Flag) (operand : Option String) (arguments : List String)
  | declare (name : String) (kind : SettingKind) (default : SettingValue) (description : String)
      (placeholder : Option String)
  | restore (values : Snapshot)
deriving DecidableEq

/-- What a step makes of a registry. -/
def change (registry : Registry) : Change → Registry
  | .set name value => registry.set name value
  | .parse flags operand arguments => (registry.parse flags operand arguments).2
  | .declare name kind default description placeholder =>
    registry.declare name kind default description placeholder
  | .restore values => registry.restore values

/-- What steps make of a registry, one after the other. -/
def run (registry : Registry) (changes : List Change) : Registry := changes.foldl change registry

/-- A registry that still has the settings of another one, with any values, and perhaps more behind
them. -/
def Keeps (registry later : Registry) : Prop :=
  ∃ kept, kept <+: later.settings ∧ Setting.Revalued Setting.Anyhow registry.settings kept

variable {registry next later : Registry}

/-- A registry whose values alone change keeps its settings. -/
theorem keeps_of_revalued
    (revalued : Setting.Revalued Setting.Anyhow registry.settings later.settings) :
    registry.Keeps later := ⟨later.settings, List.prefix_rfl, revalued⟩

theorem Keeps.trans (first : registry.Keeps next) (second : next.Keeps later) :
    registry.Keeps later := by
  obtain ⟨kept, front, revalued⟩ := first
  obtain ⟨others, behind, again⟩ := second
  obtain ⟨newer, inFront, both⟩ := again.front front
  exact ⟨newer, inFront.trans behind, revalued.trans both fun _ _ _ _ _ => trivial⟩

/-- A command line leaves a registry as it is, or the settings take what they can from some
slots. -/
theorem parse_cases (registry : Registry) (flags : List Flag) (operand : Option String)
    (arguments : List String) : (registry.parse flags operand arguments).2 = registry ∨
      ∃ slots, (registry.parse flags operand arguments).2 = (registry.readSlots slots).2 := by
  unfold Registry.parse
  cases (registry.interface flags operand).read arguments with
  | error halt => exact .inl rfl
  | ok slots =>
    refine .inr ⟨slots, ?_⟩
    dsimp only
    obtain ⟨_ | fault, later⟩ := registry.readSlots slots <;> rfl

/-- Every step keeps the settings there are. -/
theorem keeps_change (registry : Registry) (change : Change) :
    registry.Keeps (registry.change change) := by
  cases change with
  | set name value => exact keeps_of_revalued (Setting.revalued_setFirst name value _)
  | parse flags operand arguments =>
    refine keeps_of_revalued ?_
    rw [Registry.change]
    obtain unchanged | ⟨slots, taken⟩ := registry.parse_cases flags operand arguments
    · rw [unchanged]
      exact Setting.revalued_refl _
    · rw [taken]
      exact Setting.revalued_readSettings slots registry.settings
  | declare name kind default description placeholder =>
    exact ⟨registry.settings, List.prefix_append _ _, Setting.revalued_refl _⟩
  | restore values => exact keeps_of_revalued (Setting.revalued_restored values _)

/-- **Settings are kept** through any steps. -/
theorem keeps_run (registry : Registry) (changes : List Change) :
    registry.Keeps (registry.run changes) := by
  induction changes generalizing registry with
  | nil => exact keeps_of_revalued (Setting.revalued_refl _)
  | cons change rest ih => exact (registry.keeps_change change).trans (ih _)

/-- Only restoring changes what later settings start with. -/
theorem inherited_change (registry : Registry) {change : Change}
    (other : ∀ values, change ≠ .restore values) :
    (registry.change change).inherited = registry.inherited := by
  cases change with
  | set => rfl
  | parse flags operand arguments =>
    rw [Registry.change]
    obtain unchanged | ⟨slots, taken⟩ := registry.parse_cases flags operand arguments
    · rw [unchanged]
    · rw [taken]
      rfl
  | declare => rfl
  | restore values => exact absurd rfl (other values)

/-- Only restoring a snapshot touches what is inherited. -/
theorem inherited_run (registry : Registry) {changes : List Change}
    (others : ∀ values, .restore values ∉ changes) :
    (registry.run changes).inherited = registry.inherited := by
  induction changes generalizing registry with
  | nil => rfl
  | cons change rest ih =>
    refine (ih _ fun values present => others values (List.mem_cons_of_mem _ present)).trans ?_
    refine registry.inherited_change fun values same => others values ?_
    rw [same]
    exact List.mem_cons_self

/-! ### Snapshots -/

/-- Values by name with those of settings put under the names of these. -/
def record (values : Snapshot) (settings : List Setting) : Snapshot :=
  settings.foldl (fun values setting => values.put setting.name setting.value) values

/-- A snapshot records the settings from the beginning. -/
theorem snapshot_eq (registry : Registry) : registry.snapshot = record [] registry.settings := rfl

theorem record_append (values : Snapshot) (settings others : List Setting) :
    record values (settings ++ others) = record (record values settings) others :=
  List.foldl_append

/-- Distinct settings are recorded in order, each with its value. -/
theorem record_of_nodup (values : Snapshot) {settings : List Setting}
    (distinct : (values.map (·.1) ++ settings.map Setting.name).Nodup) :
    record values settings =
      values ++ settings.map fun setting => (setting.name, setting.value) := by
  induction settings generalizing values with
  | nil => exact (List.append_nil values).symm
  | cons setting rest ih =>
    have absent : setting.name ∉ values.map (·.1) := fun present =>
      (List.nodup_append.mp distinct).2.2 _ present _ List.mem_cons_self rfl
    rw [record, List.foldl_cons, Entries.put_of_notMem absent, ← record, ih, List.append_assoc]
    · rfl
    · rw [List.map_append, List.append_assoc]
      exact distinct

/-- The names that are recorded stay in the order in which they first came. -/
theorem map_fst_record (settings : List Setting) :
    (record [] settings).map (·.1) = (settings.map Setting.name).eraseDups := by
  induction settings using List.reverseRecOn with
  | nil => rfl
  | append_singleton settings setting ih =>
    have last : [setting.name].removeAll (settings.map Setting.name) =
        if setting.name ∈ settings.map Setting.name then [] else [setting.name] := by
      by_cases known : setting.name ∈ settings.map Setting.name <;>
        simp only [List.cons_removeAll, List.nil_removeAll, List.contains_eq_mem, known,
          decide_true, decide_false, Bool.true_eq_false, ↓reduceIte]
    rw [record_append, record, List.foldl_cons, List.foldl_nil, Entries.map_fst_put, ih,
      List.map_append, List.eraseDups_append, List.map_singleton, last]
    simp only [List.mem_eraseDups]
    split <;> rfl

/-- What is recorded stays in front where the settings have the values recorded under their
names. -/
theorem prefix_record {values entries : Snapshot} (front : values <+: entries)
    {settings : List Setting}
    (same :
      ∀ setting ∈ settings, ∀ held, values.get? setting.name = some held → held = setting.value) :
    values <+: record entries settings := by
  induction settings generalizing entries with
  | nil => exact front
  | cons setting rest ih =>
    obtain ⟨own, others⟩ := List.forall_mem_cons.mp same
    exact ih (Entries.prefix_put front own) others

/-- A snapshot of settings with names of their own lists the settings with their values. -/
theorem snapshot_of_nodup (distinct : (registry.settings.map Setting.name).Nodup) :
    registry.snapshot = registry.settings.map fun setting => (setting.name, setting.value) :=
  record_of_nodup [] distinct

/-- A snapshot holds the value of every setting. -/
theorem get?_snapshot (distinct : (registry.settings.map Setting.name).Nodup) {setting : Setting}
    (present : setting ∈ registry.settings) :
    registry.snapshot.get? setting.name = some setting.value := by
  rw [snapshot_of_nodup distinct]
  refine Entries.get?_of_mem ?_ (List.mem_map_of_mem present)
  rw [List.map_map]
  exact distinct

theorem settings_restore (registry : Registry) (values : Snapshot) :
    (registry.restore values).settings = registry.settings.map (Setting.restored values) := rfl

/-- Settings with any values are restored to what they were from a snapshot that has their
values. -/
theorem map_restored {values : Snapshot} {settings kept : List Setting}
    (revalued : Setting.Revalued Setting.Anyhow settings kept)
    (held : ∀ setting ∈ settings, values.get? setting.name = some setting.value) :
    kept.map (Setting.restored values) = settings := by
  induction revalued with
  | nil => rfl
  | cons first _ ih =>
    obtain ⟨own, others⟩ := List.forall_mem_cons.mp held
    obtain ⟨value, _, rfl⟩ := first
    rw [List.map_cons, ih others, Setting.restored]
    dsimp only
    rw [own, Option.getD_some]

/-- Restoring a snapshot brings settings back that are still there, with later ones behind them. -/
theorem Keeps.restore (keeps : registry.Keeps later)
    (distinct : (registry.settings.map Setting.name).Nodup) :
    ∃ newer : List Setting, (later.restore registry.snapshot).settings =
      registry.settings ++ newer.map (Setting.restored registry.snapshot) := by
  obtain ⟨kept, ⟨newer, front⟩, revalued⟩ := keeps
  refine ⟨newer, ?_⟩
  rw [settings_restore, ← front, List.map_append,
    map_restored revalued fun setting present => get?_snapshot distinct present]

/-- A snapshot taken right after one is restored begins with that one. -/
theorem Keeps.prefix_snapshot (keeps : registry.Keeps later)
    (distinct : (registry.settings.map Setting.name).Nodup) :
    registry.snapshot <+: (later.restore registry.snapshot).snapshot := by
  obtain ⟨newer, settings⟩ := keeps.restore distinct
  rw [snapshot_eq (later.restore _), settings, record_append, ← snapshot_eq]
  refine prefix_record List.prefix_rfl fun setting present held found => ?_
  obtain ⟨other, _, rfl⟩ := List.mem_map.mp present
  have named : registry.snapshot.get? other.name = some held := found
  rw [Setting.restored, named, Option.getD_some]

/-- **Restoring undoes all changes.** Take a snapshot of settings with names of their own, and
change them in any way. Restoring the snapshot brings all of them back, in their places and with
their values; it gives every later setting that the snapshot names its value there and leaves the
others. A snapshot taken then begins with the one restored and names all settings in the order of
their declaration. Until a snapshot is restored again, a setting that is declared starts with the
value in the snapshot if it is named there, and else with its default. -/
theorem restore_undoes {registry : Registry}
    (distinct : (registry.settings.map Setting.name).Nodup) (changes : List Change) :
    let later := registry.run changes
    let restored := later.restore registry.snapshot
    registry.snapshot = registry.settings.map (fun setting => (setting.name, setting.value)) ∧
      registry.settings <+: restored.settings ∧
      Setting.Revalued (fun setting value =>
          value = (registry.snapshot.get? setting.name).getD setting.value)
        later.settings restored.settings ∧
      registry.snapshot <+: restored.snapshot ∧
      restored.snapshot.map (·.1) = (later.settings.map Setting.name).eraseDups ∧
      ∀ more, (∀ values, Change.restore values ∉ more) →
        ∀ name kind default description placeholder,
          ((restored.run more).declare name kind default description placeholder).settings =
            (restored.run more).settings ++ [⟨name, kind, default,
              (registry.snapshot.get? name).getD default, description, placeholder⟩] := by
  intro later restored
  have keeps : registry.Keeps later := registry.keeps_run changes
  refine ⟨snapshot_of_nodup distinct, ?_, ?_, keeps.prefix_snapshot distinct, ?_, ?_⟩
  · obtain ⟨newer, settings⟩ := keeps.restore distinct
    exact ⟨_, settings.symm⟩
  · exact List.forall₂_map_right_iff.mpr (List.forall₂_same.mpr fun _ _ => ⟨_, rfl, rfl⟩)
  · have names : restored.settings.map Setting.name = later.settings.map Setting.name := by
      rw [settings_restore, List.map_map]
      rfl
    rw [snapshot_eq, map_fst_record, names]
  · intro more others name kind default description placeholder
    have inherited : (restored.run more).inherited = registry.snapshot :=
      restored.inherited_run others
    rw [declare, inherited]

/-- The standard settings are restored after one of them is set, another setting is declared,
another snapshot restored and a command line read. A setting that the other snapshot named starts
with its default again, and one that is declared twice with the value in the snapshot. -/
theorem restore_undoes_standard :
    let changes := [.set "subdivisions" (.whole 7), .declare "mode" .text (.text "fast") "" none,
      .restore [("mode", .text "slow"), ("limit", .whole 3), ("verbose", .truth true)],
      .parse [] none ["--step-scale=3", "--subd", "9"]]
    let restored := (standard.run changes).restore standard.snapshot
    let used := restored.run [.parse [] none ["--subdivisions=11"]]
    (standard.settings.map Setting.name).Nodup ∧ standard.settings <+: restored.settings ∧
      standard.snapshot <+: restored.snapshot ∧
      (used.declare "limit" .whole (.whole 5) "").settings =
        used.settings ++ [⟨"limit", .whole, .whole 5, .whole 5, "", none⟩] ∧
      (used.declare "subdivisions" .whole (.whole 5) "").settings =
        used.settings ++ [⟨"subdivisions", .whole, .whole 5, .whole 1000, "", none⟩] := by
  intro changes restored used
  have distinct : (standard.settings.map Setting.name).Nodup := by decide +kernel
  obtain ⟨_, back, _, front, _, starts⟩ := restore_undoes distinct changes
  have unnamed : standard.snapshot.get? "limit" = none := by decide +kernel
  have named : standard.snapshot.get? "subdivisions" = some (.whole 1000) := by decide +kernel
  have others : ∀ values, Change.restore values ∉ [.parse [] none ["--subdivisions=11"]] := by simp
  refine ⟨distinct, back, front, ?_, ?_⟩
  · have start := starts _ others "limit" .whole (.whole 5) "" none
    rwa [unnamed] at start
  · have start := starts _ others "subdivisions" .whole (.whole 5) "" none
    rwa [named] at start

end Registry

end ExactQuadrature

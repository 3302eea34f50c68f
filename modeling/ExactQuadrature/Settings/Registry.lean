import ExactQuadrature.Settings.CommandLine

/-! # Registries of settings

A registry holds settings in the order of their declaration. Each has a flag on the command line:
a truth value is raised by the flag, or lowered by it if it is true by default, and falls back to
its default on every command line; any other setting keeps its value until a flag gives another.
The flag of a setting writes the slot that its name spells without leading dashes; the setting
itself looks into the slot that its whole name spells.

A snapshot records the values of all settings by name. Restoring it sets the settings it names and
is remembered for settings that are declared later. -/

namespace ExactQuadrature

/-- A named value with its kind, its default, its description and the word that stands for its
argument, if that has one of its own. -/
structure Setting where
  name : String
  kind : SettingKind
  default : SettingValue
  value : SettingValue
  description : String
  placeholder : Option String
deriving DecidableEq, Inhabited

/-- Values of settings by name. -/
abbrev Snapshot := Entries SettingValue

/-- Settings in the order of their declaration, and the values that later ones start with. -/
structure Registry where
  settings : List Setting
  inherited : Snapshot
deriving DecidableEq, Inhabited

namespace Setting

/-- Whether the flag of a setting lowers it. -/
def isLowered (setting : Setting) : Bool := setting.kind == .truth && setting.default.isTrue

/-- The name of a flag without its dashes. -/
def flagName (setting : Setting) : String :=
  if setting.isLowered then "no-" ++ setting.name else setting.name

/-- The spelling of a flag. -/
def flagText (setting : Setting) : String := "--" ++ setting.flagName

/-- The name of the slot that a text spells. -/
def slotName (cs : List Char) : String :=
  String.ofList (cs.map fun c => if c = '-' then '_' else c)

/-- The slot that the flag of a setting writes. -/
def writtenSlot (setting : Setting) : String :=
  slotName (setting.flagText.toList.dropWhile (· = '-'))

/-- The slot that a setting takes its value from. -/
def readSlot (setting : Setting) : String := slotName setting.flagName.toList

/-- The help on a flag: its description, and its default unless it is raised or lowered. -/
def help (setting : Setting) : String :=
  if setting.kind = .truth then setting.description
  else
    let default := "default=" ++ setting.default.shown
    if setting.description = "" then default else setting.description ++ " (" ++ default ++ ")"

/-- A setting as it is shown in reports. -/
def shown (setting : Setting) : String :=
  "Option(" ++ Text.quoted setting.name ++ ", " ++ setting.kind.title ++ ", " ++
    setting.value.shown ++ ")"

/-- The flag of a setting. -/
def flag (setting : Setting) : Flag where
  names := [setting.flagText]
  slot := setting.writtenSlot
  effect := if setting.kind = .truth then .mark else .take setting.kind setting.value
  help := setting.help
  placeholder := if setting.kind = .truth then none else setting.placeholder

/-- The value that a setting takes from its slot. -/
def valueFrom (setting : Setting) (slots : Slots) : Except SettingsFault SettingValue :=
  match slots.get? setting.readSlot with
  | none => .error .missingSlot
  | some content =>
    setting.kind.accept (if setting.isLowered then .value (.truth !content.isTrue) else content)

end Setting

namespace Registry

/-- A registry without settings. -/
def empty : Registry := ⟨[], []⟩

/-- The first setting with a name. -/
def find? (registry : Registry) (name : String) : Option Setting :=
  registry.settings.find? fun setting => setting.name = name

/-- Declare a setting. It starts with the value of the latest restored snapshot, if that has one,
and else with its default. -/
def declare (registry : Registry) (name : String) (kind : SettingKind) (default : SettingValue)
    (description : String) (placeholder : Option String := none) : Registry :=
  let value := (registry.inherited.get? name).getD default
  { registry with
    settings := registry.settings ++ [⟨name, kind, default, value, description, placeholder⟩] }

/-- Give a value to the first setting with a name. -/
def setFirst (name : String) (value : SettingValue) : List Setting → List Setting
  | [] => []
  | setting :: rest =>
    if setting.name = name then { setting with value := value } :: rest
    else setting :: setFirst name value rest

/-- Give a value to a setting. -/
def set (registry : Registry) (name : String) (value : SettingValue) : Registry :=
  { registry with settings := setFirst name value registry.settings }

/-- The values of all settings. -/
def snapshot (registry : Registry) : Snapshot :=
  registry.settings.foldl (fun values setting => values.put setting.name setting.value) []

/-- Give every setting the value that a snapshot has for it, now and when it is declared later. -/
def restore (registry : Registry) (snapshot : Snapshot) : Registry where
  settings := registry.settings.map fun setting =>
    { setting with value := (snapshot.get? setting.name).getD setting.value }
  inherited := snapshot

/-- The flag that asks for help. -/
def helpFlag : Flag := ⟨["-h", "--help"], "help", .help, "Show this help and exit", none⟩

/-- The command line of the settings, besides flags and an operand of other use. -/
def interface (registry : Registry) (flags : List Flag) (operand : Option String) : Interface where
  flags := helpFlag :: flags ++ registry.settings.map Setting.flag
  operand := operand

/-- Take the values of settings from a command line, up to the first that cannot be had. -/
def readSettings (slots : Slots) : List Setting → Option SettingsFault × List Setting
  | [] => (none, [])
  | setting :: rest =>
    match setting.valueFrom slots with
    | .error fault => (some fault, setting :: rest)
    | .ok value =>
      let (fault, later) := readSettings slots rest
      (fault, { setting with value := value } :: later)

/-- Take the values of all settings from a command line, in the order of their declaration. If the
value of one cannot be had, that one and all later ones stay as they are. -/
def readSlots (registry : Registry) (slots : Slots) : Option SettingsFault × Registry :=
  let (fault, settings) := readSettings slots registry.settings
  (fault, { registry with settings := settings })

/-- Read a command line against the settings, and take their values from it. One that is not carried
out changes no setting. -/
def parse (registry : Registry) (flags : List Flag) (operand : Option String)
    (arguments : List String) : Except Halt Slots × Registry :=
  match (registry.interface flags operand).read arguments with
  | .error halt => (.error halt, registry)
  | .ok slots =>
    match registry.readSlots slots with
    | (none, later) => (.ok slots, later)
    | (some fault, later) => (.error (.fault fault), later)

end Registry

end ExactQuadrature

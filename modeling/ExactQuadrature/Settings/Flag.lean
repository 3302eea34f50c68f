import ExactQuadrature.Entries
import ExactQuadrature.Settings.Value

/-! # Flags and interfaces

An interface is what a command line is read against: flags that mark something, flags that take an
argument, a flag that asks for help, and at most one operand. A value that is read goes into a slot,
and flags that share a slot overwrite each other.

Flags cannot be told apart if two share a spelling or one has no name behind its dashes. -/

namespace ExactQuadrature

/-- What a flag does. One that takes an argument has a slot that holds a value before. -/
inductive FlagEffect where
  | help
  | mark
  | take (kind : SettingKind) (initial : SettingValue)
deriving DecidableEq, Inhabited

/-- A flag with its spellings, the slot that its value goes to, the template of its help text and
the word that stands for its argument, if that has one of its own. -/
structure Flag where
  names : List String
  slot : String
  effect : FlagEffect
  help : String
  placeholder : Option String
deriving DecidableEq, Inhabited

namespace Flag

/-- Whether a flag has an argument. -/
def takesArgument (flag : Flag) : Bool :=
  match flag.effect with
  | .take .. => true
  | _ => false

/-- What the slot of a flag holds before a command line is read. -/
def initial? (flag : Flag) : Option SettingValue :=
  match flag.effect with
  | .help => none
  | .mark => some (.truth false)
  | .take _ initial => some initial

/-- Whether a spelling consists of dashes only. -/
def isNameless (flag : Flag) : Bool := flag.names.any fun name => name.toList.all (· = '-')

/-- What the help text of a flag may show. -/
def ingredients (flag : Flag) : Entries Ingredient :=
  let own := match flag.effect with
    | .take kind initial =>
      [("nargs", .other), ("const", .other), ("default", initial.ingredient),
        ("type", .text kind.title), ("metavar", flag.placeholder.elim .other .text)]
    | _ =>
      [("nargs", .whole 0), ("const", .whole 1), ("default", .whole 0),
        ("type", .other), ("metavar", .other)]
  own ++ [("dest", .text flag.slot), ("help", .text flag.help), ("required", .whole 0),
    ("choices", .other), ("option_strings", .other), ("container", .other),
    ("prog", .text "program")]

/-- The reason for which the help text of a flag cannot be written, if that is so. -/
def helpFault? (flag : Flag) : Option TemplateFault := templateFault? flag.ingredients flag.help

end Flag

/-- What slots hold by their names. -/
abbrev Slots := Entries SlotContent

/-- The flags and the slot of the operand that a command line may have. -/
structure Interface where
  flags : List Flag
  operand : Option String
deriving DecidableEq, Inhabited

namespace Interface

/-- The flag with a given spelling. -/
def named? (interface : Interface) (name : String) : Option Flag :=
  interface.flags.find? fun flag => flag.names.contains name

/-- All spellings in order. -/
def names (interface : Interface) : List String := interface.flags.flatMap Flag.names

/-- What the slots hold before a command line is read. The first flag with a slot decides. -/
def initial (interface : Interface) : Slots :=
  interface.flags.foldl
    (fun slots flag => match flag.initial? with
      | some value => slots.putNew flag.slot (.value value)
      | none => slots) []

/-- The reason for which flags cannot be told apart, if that is so, given the spellings before
them. -/
def flagFault? (taken : List String) : List Flag → Option SettingsFault
  | [] => none
  | flag :: rest =>
    if flag.isNameless then some .namelessFlag
    else if flag.names.any taken.contains then some .sharedFlag
    else flagFault? (taken ++ flag.names) rest

end Interface

end ExactQuadrature

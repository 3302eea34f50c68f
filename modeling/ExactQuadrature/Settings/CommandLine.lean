import ExactQuadrature.Settings.Argument
import ExactQuadrature.Settings.Usage

/-! # Command lines

The arguments of a command line are read in order. A flag that wants an argument takes the text
attached to it or else the next operand; short flags may be run together, the last one with its
argument. A double dash attached to a flag stands for no argument at all, and its slot is left with
nothing. Whatever is left over is refused.

When a command line is refused or asks for help, a usage line is written, which has to hold
together, and for help the help texts of all flags are filled in. -/

namespace ExactQuadrature

/-- Why no settings are taken from a command line. -/
inductive Halt where
  | exit (reason : Exit)
  | fault (fault : SettingsFault)
deriving DecidableEq, Inhabited

namespace Interface

/-- Flags that were run together: those that are settled, each with its argument if it has one,
and the last one if it still waits for what follows. -/
structure Cluster where
  settled : List (Flag × Option String)
  waiting : Option Flag
deriving DecidableEq, Inhabited

/-- Split a flag and the text attached to it into the flags that the text stands for. -/
def cluster (interface : Interface) (flag : Flag) (long : Bool) (attached : List Char) :
    Except Exit Cluster :=
  if flag.takesArgument then .ok ⟨[(flag, some (String.ofList attached))], none⟩
  else
    match attached with
    | [] => .error .refused
    | c :: rest =>
      if long then .error .refused
      else
        match interface.named? (String.ofList ['-', c]) with
        | none => .error .refused
        | some next =>
          if rest.isEmpty then .ok ⟨[(flag, none)], some next⟩
          else do
            let later ← interface.cluster next false rest
            return { later with settled := (flag, none) :: later.settled }

/-- How far a command line has been read. -/
structure Progress where
  slots : Slots
  operandRead : Bool
  leftover : Bool
deriving DecidableEq, Inhabited

/-- Let a flag take effect. -/
def apply (slots : Slots) (flag : Flag) (argument : Option String) : Except Exit Slots :=
  match flag.effect, argument with
  | .help, _ => .error .helped
  | .mark, _ => .ok (slots.put flag.slot (.value (.truth true)))
  | .take kind _, some text =>
    if text = "--" then .ok (slots.put flag.slot .nothing)
    else
      match kind.read? text with
      | some value => .ok (slots.put flag.slot (.value value))
      | none => .error .refused
  | .take .., none => .error .refused

/-- Let flags take effect in order. -/
def applyAll (slots : Slots) (settled : List (Flag × Option String)) : Except Exit Slots :=
  settled.foldlM (fun slots (flag, argument) => apply slots flag argument) slots

/-- Put the operand into its slot, or leave it over if there is none to be read. -/
def takeOperand (interface : Interface) (progress : Progress) (text : Option String) : Progress :=
  match progress.operandRead, interface.operand with
  | false, some slot =>
    { progress with
      operandRead := true
      slots := match text with
        | some s => progress.slots.put slot (.value (.text s))
        | none => progress.slots }
  | _, _ => { progress with leftover := true }

/-- Read arguments in order. A flag that still wants its argument takes the next operand. -/
def readFrom (interface : Interface) (progress : Progress) : List Argument → Except Exit Progress
  | [] => .ok progress
  | .unknown :: rest => interface.readFrom { progress with leftover := true } rest
  | .operand text :: .separator :: rest =>
    if progress.operandRead ∨ interface.operand.isNone then
      interface.readFrom { progress with leftover := true } rest
    else interface.readFrom (interface.takeOperand progress (some text)) rest
  | .operand text :: rest =>
    interface.readFrom (interface.takeOperand progress (some text)) rest
  | .separator :: .operand text :: rest =>
    interface.readFrom (interface.takeOperand progress (some text)) rest
  | .separator :: rest => interface.readFrom (interface.takeOperand progress none) rest
  | .flag flag long attached :: rest => do
    let cluster ← match attached with
      | some text => interface.cluster flag long text
      | none => pure ⟨[], some flag⟩
    match cluster.waiting with
    | none =>
      let slots ← applyAll progress.slots cluster.settled
      interface.readFrom { progress with slots := slots } rest
    | some last =>
      if last.takesArgument then
        match rest with
        | .operand text :: rest =>
          let slots ← applyAll progress.slots (cluster.settled ++ [(last, some text)])
          interface.readFrom { progress with slots := slots } rest
        | _ => .error .refused
      else
        let slots ← applyAll progress.slots (cluster.settled ++ [(last, none)])
        interface.readFrom { progress with slots := slots } rest

/-- Read the text that a flag for whole numbers started with, if its slot still holds that. -/
def settle (slots : Slots) (flag : Flag) : Except Exit Slots :=
  match flag.effect, slots.get? flag.slot with
  | .take .whole (.text first), some (.value (.text held)) =>
    if first ≠ held then .ok slots
    else
      match WholeText.read? held with
      | some number => .ok (slots.put flag.slot (.value (.whole number)))
      | none => .error .refused
  | _, _ => .ok slots

/-- What the slots hold after a command line, if it is carried out. -/
def slotsAfter (interface : Interface) (arguments : List String) : Except Exit Slots := do
  let progress ← interface.readFrom ⟨interface.initial, false, false⟩
    (← interface.classifyAll arguments)
  let slots ← interface.flags.foldlM settle progress.slots
  if progress.leftover then .error .refused else return slots

/-- The reason for which nothing can be said about a command line that is not carried out, if that
is so. -/
def adviceFault? (interface : Interface) (reason : Exit) : Option SettingsFault :=
  if Usage.holdsTogether interface.usage then
    match reason with
    | .helped => (interface.flags.findSome? Flag.helpFault?).map .brokenHelp
    | .refused => none
  else some .brokenUsage

/-- Read a command line. -/
def read (interface : Interface) (arguments : List String) : Except Halt Slots :=
  match flagFault? [] interface.flags with
  | some fault => .error (.fault fault)
  | none =>
    match interface.slotsAfter arguments with
    | .ok slots => .ok slots
    | .error reason =>
      match interface.adviceFault? reason with
      | some fault => .error (.fault fault)
      | none => .error (.exit reason)

end Interface

end ExactQuadrature

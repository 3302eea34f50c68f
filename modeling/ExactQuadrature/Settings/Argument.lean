import ExactQuadrature.Settings.Flag

/-! # Arguments of a command line

An argument is an operand or a flag. A long flag may be shortened as long as it remains unambiguous
and may have its argument after an equals sign; what follows a short flag is attached to it. What
looks like a negative number, or has a space in it, is no flag, and nothing after a double dash
is. -/

namespace ExactQuadrature

/-- The reasons for which reading a command line ends early. -/
inductive Exit where
  | helped
  | refused
deriving DecidableEq, Inhabited

namespace Exit

/-- The status that a process ends with. -/
def status : Exit → Nat
  | helped => 0
  | refused => 2

end Exit

/-- What an argument of a command line is. A flag may have text attached to it. -/
inductive Argument where
  | operand (text : String)
  | separator
  | unknown
  | flag (flag : Flag) (long : Bool) (attached : Option (List Char))
deriving DecidableEq, Inhabited

namespace Interface

/-- The text before the first equals sign, and the text after it if there is one. -/
def splitEquals (cs : List Char) : List Char × Option (List Char) :=
  match cs.dropWhile (· ≠ '=') with
  | [] => (cs, none)
  | _ :: value => (cs.takeWhile (· ≠ '='), some value)

/-- The shape of a negative number: a minus sign and digits, with at most one point before the
last of them. A line feed may follow. -/
def looksNegative (cs : List Char) : Bool :=
  let isDigit := fun c => (Text.digitValue? c).isSome
  let body := match cs.reverse with
    | '\n' :: rest => rest.reverse
    | _ => cs
  match body with
  | '-' :: rest =>
    let afterWhole := rest.dropWhile isDigit
    match afterWhole with
    | [] => !rest.isEmpty
    | '.' :: places => !places.isEmpty && places.all isDigit
    | _ => false
  | _ => false

/-- The flags that a long argument may abbreviate. -/
def longMatches (interface : Interface) (cs : List Char) : List Argument :=
  let (start, value) := splitEquals cs
  let text := String.ofList start
  (interface.names.filter fun name => name.startsWith text).filterMap fun name =>
    (interface.named? name).map fun flag => .flag flag true value

/-- The flag that a short argument starts with; the rest of the argument is attached to it. -/
def shortMatches (interface : Interface) (cs : List Char) : List Argument :=
  match interface.named? (String.ofList (cs.take 2)) with
  | some flag => [.flag flag false (some (cs.drop 2))]
  | none => []

/-- What an argument before any separator is. -/
def classify (interface : Interface) (text : String) : Except Exit Argument :=
  let cs := text.toList
  let long := (cs.drop 1).head? = some '-'
  if cs.head? ≠ some '-' ∨ cs.length = 1 ∧ (interface.named? text).isNone then .ok (.operand text)
  else
    match interface.named? text with
    | some flag => .ok (.flag flag long none)
    | none =>
      match splitEquals cs with
      | (start, some value) =>
        match interface.named? (String.ofList start) with
        | some flag => .ok (.flag flag long (some value))
        | none => among text cs long
      | _ => among text cs long
where
  /-- The only flag that an argument can mean, if it does not mean something else. -/
  among (text : String) (cs : List Char) (long : Bool) : Except Exit Argument :=
    match if long then interface.longMatches cs else interface.shortMatches cs with
    | [argument] => .ok argument
    | [] => .ok (if looksNegative cs ∨ ' ' ∈ cs then .operand text else .unknown)
    | _ => .error .refused

/-- What all arguments are. After a separator there are only operands. -/
def classifyAll (interface : Interface) : List String → Except Exit (List Argument)
  | [] => .ok []
  | text :: rest =>
    if text = "--" then .ok (.separator :: rest.map .operand)
    else do
      let argument ← interface.classify text
      return argument :: (← interface.classifyAll rest)

end Interface

end ExactQuadrature

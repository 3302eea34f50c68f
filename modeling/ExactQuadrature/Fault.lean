import ExactQuadrature.Refusal
import ExactQuadrature.Text.Utf8

/-! # Faults

A computation that gives no result ends in a fault. Besides refused arguments and the signals of
decimal arithmetic there are faults of the task journal, of the settings, of the file system and
of text encoding. A run reports a fault it can explain to its user; `Fault.report?` is that
explanation. -/

namespace ExactQuadrature

/-- The ways in which a name fails to lead to a file. -/
inductive PathFault where
  | missing
  | notADirectory
  | isADirectory
  | noSuchDirectory
  | nameTooLong
  | nullCharacter
deriving DecidableEq, Inhabited

namespace PathFault

/-- The explanation of a path fault with its path. -/
def message : PathFault → String → String
  | missing, path => "[Errno 2] No such file or directory: " ++ Text.quoted path
  | notADirectory, path => "[Errno 20] Not a directory: " ++ Text.quoted path
  | isADirectory, path => "[Errno 21] Is a directory: " ++ Text.quoted path
  | noSuchDirectory, path => "Directory does not exist: " ++ path
  | nameTooLong, path => "[Errno 36] File name too long: " ++ Text.quoted path
  | nullCharacter, _ => "embedded null byte"

end PathFault

/-- The ways in which a computation can end without a result. -/
inductive Fault where
  | refused (reason : Refusal)
  | signal (signal : Signal)
  | precisionOutOfRange
  | precisionUnbounded
  | notASequence
  | uncountable
  | unclassifiable
  | noOpenTask
  | nameGivenTwice
  | interrupted
  | settings (fault : SettingsFault)
  | noPath
  | path (fault : PathFault) (name : String)
  | encoding (fault : Text.EncodingFault)
deriving DecidableEq, Inhabited

namespace Fault

/-- The explanation of a fault that a run reports instead of failing with it. -/
def report? : Fault → Option String
  | refused reason => some reason.message
  | precisionOutOfRange => some "valid range for prec is [1, MAX_PREC]"
  | path fault name => some (fault.message name)
  | encoding fault => some fault.message
  | _ => none

/-- Lift a signal of decimal arithmetic. -/
def ofSignal {α : Type} : Except Signal α → Except Fault α
  | .ok result => .ok result
  | .error raised => .error (.signal raised)

/-- Refuse an argument. -/
def refuse {α : Type} (reason : Refusal) : Except Fault α := .error (.refused reason)

end Fault

end ExactQuadrature

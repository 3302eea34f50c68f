import ExactQuadrature.Binary64
import ExactQuadrature.Decimal.Literal
import ExactQuadrature.Fault

/-! # Values offered as numbers

A caller may offer a number, a whole number, a text, or something that is none of these. Only
values that are exact decimals are taken: a binary floating-point number approximates the decimal
its author had in mind, and a truth value is not a quantity. -/

namespace ExactQuadrature

/-- A value offered where a number is wanted. -/
inductive Operand where
  | number (number : Number)
  | whole (value : Int)
  | text (text : String)
  | truth (value : Bool)
  | binary (value : Float)
  | nothing
  | sequence (items : List Operand)
deriving Inhabited

namespace Operand

/-- The value of a setting where a number is wanted. -/
def ofSetting : SettingValue → Operand
  | .truth value => truth value
  | .whole value => whole value
  | .text value => text value

/-- A finite number read from a value that shows as `shown`. -/
def finite (role shown : String) : Option Number → Except Fault Number
  | none => Fault.refuse (.notDecimal role shown)
  | some read =>
    if read.isFinite then .ok read else Fault.refuse (.notFinite role shown)

/-- The number that a value is, if it is an exact decimal. The role names it in a refusal.
A number is taken as it is; whole numbers and texts have to be finite. -/
def toNumber (role : String) : Operand → Except Fault Number
  | number n => .ok n
  | whole n => .ok (.ofInt n)
  | text s => finite role (Text.quoted s) (Number.ofText? s)
  | truth value => Fault.refuse (.notExact role (if value then "True" else "False"))
  | binary x => Fault.refuse (.notExact role (Binary64.naturalText x))
  | nothing => Fault.refuse (.notNumeric role "NoneType")
  | sequence _ => Fault.refuse (.notNumeric role "list")

mutual

/-- A value as it is shown inside a sequence. -/
def shownInside : Operand → String
  | number n => "Decimal('" ++ n.scientific ++ "')"
  | whole n => toString n
  | text s => Text.quoted s
  | truth value => if value then "True" else "False"
  | binary x => Binary64.naturalText x
  | nothing => "None"
  | sequence items => "[" ++ ", ".intercalate (shownItems items) ++ "]"

/-- The items of a sequence as they are shown. -/
def shownItems : List Operand → List String
  | [] => []
  | item :: rest => shownInside item :: shownItems rest

end

/-- A value as it is shown on its own: numbers in scientific form and texts as they are. -/
def shown : Operand → String
  | number n => n.scientific
  | text s => s
  | other => other.shownInside

end Operand

end ExactQuadrature

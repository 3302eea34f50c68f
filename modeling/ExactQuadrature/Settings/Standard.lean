import ExactQuadrature.Grid
import ExactQuadrature.Settings.Registry

/-! # The standard settings

Four settings steer a calculation: whether progress is reported, where a profile is written, into
how many steps an interval is divided, and to what scale results are rounded. -/

namespace ExactQuadrature

namespace Registry

/-- The standard settings with their defaults. -/
def standard : Registry :=
  Registry.empty
    |>.declare "verbose" .truth (.truth false) "Report parsing and integration progress on stderr"
    |>.declare "profile" .text (.text "") "Write per-task timings to this file when done"
      (some "PATH")
    |>.declare "subdivisions" .whole (.whole 1000)
      "Number of equal steps each quadrature rule takes"
    |>.declare "step-scale" .whole (.whole 6)
      "Fractional digits kept when rounding step widths and trapezoid areas"

/-- The truth value of a setting. -/
def truth (registry : Registry) (name : String) : Bool :=
  match registry.find? name with
  | some setting => setting.value.isTrue
  | none => false

/-- The value of a setting that is meant to hold a whole number. -/
def whole (registry : Registry) (name : String) : SettingValue :=
  match registry.find? name with
  | some setting => setting.value
  | none => .whole 0

/-- The text of a setting. -/
def text (registry : Registry) (name : String) : String :=
  match registry.find? name with
  | some ⟨_, _, _, .text value, _, _⟩ => value
  | _ => ""

/-- Whether progress is reported. -/
def verbose (registry : Registry) : Bool := registry.truth "verbose"

/-- Where a profile is written; nowhere if it is empty. -/
def profile (registry : Registry) : String := registry.text "profile"

/-- How an interval is divided, and to what scale results are rounded. -/
def stepping (registry : Registry) : Stepping :=
  ⟨registry.whole "subdivisions", registry.whole "step-scale"⟩

end Registry

end ExactQuadrature

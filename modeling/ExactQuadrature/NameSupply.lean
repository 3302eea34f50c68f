/-! # A supply of fresh names

A fresh name is an underscore, a hint and the number of a counter that never goes back. Names that
the caller has already taken are passed over, and their numbers with them. -/

namespace ExactQuadrature

/-- The number that the next name will be tried with. -/
structure NameSupply where
  next : Nat
deriving DecidableEq, Inhabited

namespace NameSupply

/-- A supply that has given no name yet. -/
def new : NameSupply := ⟨0⟩

/-- The name with a given hint and number. -/
def name (hint : String) (number : Nat) : String := "_" ++ hint ++ toString number

/-- The first number from a given one whose name is not taken. A name that is taken is struck from
the list before the next number is tried. -/
def firstFree (hint : String) (taken : List String) (number : Nat) : Nat :=
  if _met : name hint number ∈ taken then
    firstFree hint (taken.erase (name hint number)) (number + 1)
  else number
termination_by taken.length
decreasing_by
  rw [List.length_erase_of_mem _met]
  exact Nat.sub_lt (List.length_pos_of_mem _met) (by decide)

/-- A fresh name that is not among the taken ones, and the supply after it. -/
def fresh (supply : NameSupply) (hint : String) (taken : List String) : String × NameSupply :=
  let number := firstFree hint taken supply.next
  (name hint number, ⟨number + 1⟩)

end NameSupply

end ExactQuadrature

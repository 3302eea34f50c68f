/-! # Powers of ten and numbers of digits

A natural number has as many decimal digits as the least positive exponent whose power of ten
exceeds it. The search for that exponent starts from the number of bits, at an exponent that is
known not to be too large. -/

namespace ExactQuadrature

/-- The power of ten with a natural exponent. -/
def tenPow (k : Nat) : Nat := Nat.pow 10 k

/-- Powers of ten are positive. -/
theorem tenPow_pos (k : Nat) : 0 < tenPow k := Nat.pow_pos (by decide)

/-- A power of ten of a sum is a product. -/
theorem tenPow_add (m n : Nat) : tenPow (m + n) = tenPow m * tenPow n := Nat.pow_add 10 m n

/-- Powers of ten grow with their exponents. -/
theorem tenPow_le_tenPow {m n : Nat} (ordered : m ≤ n) : tenPow m ≤ tenPow n :=
  Nat.pow_le_pow_right (by decide) ordered

/-- Every number is below the power of ten that has it as its exponent. -/
theorem lt_tenPow (n : Nat) : n < tenPow n := Nat.lt_pow_self (by decide)

/-- An exponent whose power of ten does not exceed a positive number. It is found by the number of
bits: `59 / 196` is just below the logarithm of two. -/
def reachedExponent (n : Nat) : Nat := n.log2 * 59 / 196

/-- The power of ten of the reached exponent does not exceed the number. -/
theorem tenPow_reachedExponent_le {n : Nat} (nonzero : n ≠ 0) :
    tenPow (reachedExponent n) ≤ n := by
  have bits := Nat.log2_self_le nonzero
  refine Nat.le_trans ?_ bits
  have small : Nat.pow 10 59 ≤ Nat.pow 2 196 := by decide
  have scaled : reachedExponent n * 196 ≤ 59 * n.log2 := by
    unfold reachedExponent
    omega
  refine (Nat.pow_le_pow_iff_left (show (196 : Nat) ≠ 0 by decide)).mp ?_
  calc Nat.pow (tenPow (reachedExponent n)) 196
      = Nat.pow 10 (reachedExponent n * 196) := (Nat.pow_mul 10 _ _).symm
    _ ≤ Nat.pow 10 (59 * n.log2) := Nat.pow_le_pow_right (by decide) scaled
    _ = Nat.pow (Nat.pow 10 59) n.log2 := Nat.pow_mul 10 _ _
    _ ≤ Nat.pow (Nat.pow 2 196) n.log2 := Nat.pow_le_pow_left small _
    _ = Nat.pow 2 (196 * n.log2) := (Nat.pow_mul 2 _ _).symm
    _ = Nat.pow 2 (n.log2 * 196) := congrArg (Nat.pow 2) (Nat.mul_comm _ _)
    _ = Nat.pow (Nat.pow 2 n.log2) 196 := Nat.pow_mul 2 _ _

/-- The first exponent from `k` upwards whose power of ten exceeds a number, looked for in at most
a given number of steps. -/
def exceedingExponent (n : Nat) : Nat → Nat → Nat
  | 0, k => k
  | steps + 1, k => if n < tenPow k then k else exceedingExponent n steps (k + 1)

/-- With enough steps the power of ten exceeds the number. -/
theorem lt_tenPow_exceedingExponent {n steps k : Nat} (enough : n < tenPow (k + steps)) :
    n < tenPow (exceedingExponent n steps k) := by
  induction steps generalizing k with
  | zero => exact enough
  | succ steps ih =>
    unfold exceedingExponent
    split
    · assumption
    · exact ih (by rwa [Nat.succ_add_eq_add_succ])

/-- No smaller exponent would do. -/
theorem exceedingExponent_le {n steps k j : Nat} (notBelow : k ≤ j) (exceeds : n < tenPow j) :
    exceedingExponent n steps k ≤ j := by
  induction steps generalizing k with
  | zero => exact notBelow
  | succ steps ih =>
    unfold exceedingExponent
    split
    · exact notBelow
    · next short =>
      refine ih (Nat.lt_of_le_of_ne notBelow fun same => short ?_)
      rwa [same]

/-- The number of decimal digits of a natural number; zero has one digit. -/
def digitCount (n : Nat) : Nat := exceedingExponent n n (reachedExponent n + 1)

/-- A natural number is below the power of ten that has one digit more. -/
theorem lt_tenPow_digitCount (n : Nat) : n < tenPow (digitCount n) :=
  lt_tenPow_exceedingExponent
    (Nat.lt_of_lt_of_le (lt_tenPow n) (tenPow_le_tenPow (Nat.le_add_left _ _)))

/-- A natural number has at most `k > 0` digits exactly when it is below the power of ten with
exponent `k`. -/
theorem digitCount_le_iff {n k : Nat} (positive : 0 < k) : digitCount n ≤ k ↔ n < tenPow k := by
  constructor
  · intro few
    exact Nat.lt_of_lt_of_le (lt_tenPow_digitCount n) (tenPow_le_tenPow few)
  · intro below
    refine exceedingExponent_le ?_ below
    by_cases zero : n = 0
    · rw [zero]
      exact positive
    · refine Nat.not_le.mp fun reached => ?_
      have := tenPow_reachedExponent_le zero
      have := tenPow_le_tenPow reached
      omega

/-- Every natural number has a digit. -/
theorem digitCount_pos (n : Nat) : 0 < digitCount n := by
  refine Nat.pos_of_ne_zero fun none => ?_
  have one := (digitCount_le_iff (n := n) (show 0 < 1 by decide)).mp (by omega)
  have below := lt_tenPow_digitCount n
  rw [none] at below
  have zero : n = 0 := Nat.lt_one_iff.mp below
  rw [zero] at none
  exact absurd none (by decide)

end ExactQuadrature

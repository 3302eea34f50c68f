import ExactQuadrature.Proofs.Decimal.Representation
import ExactQuadrature.Proofs.Outcome

/-! # Numbers alike up to the sign of a zero

Two decimals are alike when they have the same value and the same exponent. They then have the same
coefficient, and only a zero may still differ in its sign (`Decimal.Alike.eq_of_unsigned`). Exact
sums and products of numbers that are alike are alike, or refused alike (`Number.Alike.add` and
`Number.Alike.mul`): whether a result fits depends on its coefficient and its exponent. Added to a
number that is no signed zero, they give the very same sum (`Number.Alike.add_unsigned`).
-/

namespace ExactQuadrature

namespace Decimal

/-- The same value in the same unit. -/
structure Alike (d e : Decimal) : Prop where
  value : d.value = e.value
  unit : d.exponent = e.exponent

/-- A decimal is its sign, its coefficient and its exponent. -/
theorem ext {d e : Decimal} (sign : d.negative = e.negative)
    (coefficient : d.coefficient = e.coefficient) (unit : d.exponent = e.exponent) : d = e := by
  cases d
  cases e
  cases sign
  cases coefficient
  cases unit
  rfl

namespace Alike

variable {d e : Decimal}

theorem refl (d : Decimal) : d.Alike d := ⟨rfl, rfl⟩

theorem symm (alike : d.Alike e) : e.Alike d := ⟨alike.value.symm, alike.unit.symm⟩

theorem trans {f : Decimal} (first : d.Alike e) (second : e.Alike f) : d.Alike f :=
  ⟨first.value.trans second.value, first.unit.trans second.unit⟩

theorem isZero (alike : d.Alike e) : d.isZero = e.isZero := by
  rw [Bool.eq_iff_iff, ← value_eq_zero_iff, ← value_eq_zero_iff, alike.value]

/-- Alike decimals have the same coefficient; only the sign of a zero may differ. -/
theorem coefficient (alike : d.Alike e) : d.coefficient = e.coefficient := by
  have shifted := coefficient_of_value_eq alike.value alike.unit.le
  have one : tenPow 0 = 1 := rfl
  rwa [alike.unit, Int.sub_self, Int.toNat_zero, one, Nat.mul_one] at shifted

theorem adjusted (alike : d.Alike e) : d.adjusted = e.adjusted := by
  rw [Decimal.adjusted, Decimal.adjusted, alike.coefficient, alike.unit]

/-- Decimals that are alike are equal unless they are zeros. -/
theorem eq_of_nonzero (alike : d.Alike e) (nonzero : d.isZero = false) : d = e := by
  have some_value := (value_ne_zero_iff d).mpr nonzero
  have sign : d.negative = e.negative := by
    rw [Bool.eq_iff_iff, negative_iff_value some_value, alike.value]
    exact (negative_iff_value (alike.value ▸ some_value)).symm
  exact Decimal.ext sign alike.coefficient alike.unit

/-- Decimals that are alike are equal unless one of them is a signed zero. -/
theorem eq_of_unsigned (alike : d.Alike e) (first : d.UnsignedZero) (second : e.UnsignedZero) :
    d = e := by
  cases zero : d.isZero with
  | false => exact alike.eq_of_nonzero zero
  | true =>
    have sign : d.negative = e.negative := by
      rw [first zero, second (alike.isZero ▸ zero)]
    exact Decimal.ext sign alike.coefficient alike.unit

theorem add {d' e' : Decimal} (left : d.Alike d') (right : e.Alike e') :
    (d.add e).Alike (d'.add e') where
  value := by rw [value_add, value_add, left.value, right.value]
  unit := by rw [exponent_add, exponent_add, left.unit, right.unit]

theorem mul {d' e' : Decimal} (left : d.Alike d') (right : e.Alike e') :
    (d.mul e).Alike (d'.mul e') where
  value := by rw [value_mul, value_mul, left.value, right.value]
  unit := by rw [exponent_mul, exponent_mul, left.unit, right.unit]

end Alike

end Decimal

namespace Number

/-- Finite numbers that are alike as decimals, or one and the same other number. -/
inductive Alike : Number → Number → Prop where
  | finite {d e : Decimal} (alike : d.Alike e) : Alike (.finite d) (.finite e)
  | infinite (negative : Bool) : Alike (.infinite negative) (.infinite negative)
  | notANumber (negative signaling : Bool) (payload : Nat) :
    Alike (.notANumber negative signaling payload) (.notANumber negative signaling payload)

/-- Not a zero with a minus sign. -/
def UnsignedZero (n : Number) : Prop := ∀ d : Decimal, n = .finite d → d.UnsignedZero

variable {a a' b b' : Number}

theorem Alike.refl (n : Number) : n.Alike n := by
  cases n with
  | finite d => exact .finite (.refl d)
  | infinite negative => exact .infinite negative
  | notANumber negative signaling payload => exact .notANumber negative signaling payload

theorem Alike.symm (alike : a.Alike b) : b.Alike a := by
  cases alike with
  | finite alike => exact .finite alike.symm
  | infinite negative => exact .infinite negative
  | notANumber negative signaling payload => exact .notANumber negative signaling payload

theorem Alike.trans {c : Number} (first : a.Alike b) (second : b.Alike c) : a.Alike c := by
  cases first with
  | finite first =>
    obtain ⟨second⟩ := second
    exact .finite (first.trans second)
  | infinite | notANumber => exact second

theorem Alike.isZero (alike : a.Alike a') : a.isZero = a'.isZero := by
  cases alike with
  | finite alike => exact alike.isZero
  | infinite | notANumber => rfl

/-- Decimals that are alike fit, or are refused, alike. -/
theorem alike_settle {d e : Decimal} (alike : d.Alike e) :
    Matching Alike (settle d) (settle e) := by
  cases zero : d.isZero with
  | false =>
    rw [alike.eq_of_nonzero zero]
    cases settle e with
    | error fault => exact .error fault
    | ok n => exact .ok (.refl n)
  | true =>
    have other : e.isZero = true := alike.isZero ▸ zero
    have fitted : ∀ {f : Decimal}, f.isZero = true → settle f = .ok (.finite
        { f with exponent := max Range.exact.tiny (min f.exponent Range.exact.maxExponent) }) := by
      intro f none
      rw [settle, Range.fit, if_pos none]
      rfl
    rw [fitted zero, fitted other]
    refine .ok (.finite ⟨?_, by rw [alike.unit]⟩)
    -- A zero stays one in every unit.
    have value := fun (f : Decimal) (exponent : Int) (none : f.isZero = true) =>
      (Decimal.value_eq_zero_iff { f with exponent := exponent }).mpr none
    rw [value d _ zero, value e _ other]

/-- Sums of alike numbers are alike, or both fail alike. -/
theorem Alike.add (left : a.Alike a') (right : b.Alike b') :
    Matching Alike (a.add b) (a'.add b') := by
  cases left with
  | finite left =>
    cases right with
    | finite right => exact alike_settle (left.add right)
    | infinite | notANumber => exact .refl Alike.refl _
  | infinite | notANumber => cases right <;> exact .refl Alike.refl _

/-- Products of alike numbers are alike, or both fail alike. -/
theorem Alike.mul (left : a.Alike a') (right : b.Alike b') :
    Matching Alike (a.mul b) (a'.mul b') := by
  cases left with
  | finite left =>
    cases right with
    | finite right => exact alike_settle (left.mul right)
    | infinite negative =>
      have same := left.isZero
      simp only [Number.mul, ← same]
      cases zero : Decimal.isZero _ with
      | true => exact .error _
      | false =>
        rw [left.eq_of_nonzero zero]
        exact .ok (.infinite _)
    | notANumber => exact .refl Alike.refl _
  | infinite negative =>
    cases right with
    | finite right =>
      have same := right.isZero
      simp only [Number.mul, ← same]
      cases zero : Decimal.isZero _ with
      | true => exact .error _
      | false =>
        rw [right.eq_of_nonzero zero]
        exact .ok (.infinite _)
    | infinite | notANumber => exact .refl Alike.refl _
  | notANumber => cases right <;> exact .refl Alike.refl _

theorem unsigned_zero : zero.UnsignedZero := by
  rintro _ ⟨⟩ _
  rfl

/-- Settling gives no decimal another sign. -/
theorem unsigned_of_settle {d : Decimal} (unsigned : d.UnsignedZero) {result : Number}
    (settled : settle d = .ok result) : result.UnsignedZero := by
  obtain ⟨kept, rfl, value, sign, _⟩ := value_of_settle settled
  rintro _ ⟨⟩ zero
  rw [sign]
  apply unsigned
  rw [← Decimal.value_eq_zero_iff, ← value]
  exact (Decimal.value_eq_zero_iff kept).mpr zero

/-- Only finite numbers have a finite sum. -/
theorem finite_of_add {d : Decimal} (added : a.add b = .ok (.finite d)) :
    ∃ x y : Decimal, a = .finite x ∧ b = .finite y := by
  cases a with
  | finite x =>
    cases b with
    | finite y => exact ⟨x, y, rfl, rfl⟩
    | infinite => cases added
    | notANumber _ signaling => cases signaling <;> cases added
  | infinite s =>
    cases b with
    | finite => cases added
    | infinite t =>
      simp only [Number.add] at added
      split at added <;> cases added
    | notANumber _ signaling => cases signaling <;> cases added
  | notANumber negative signaling payload =>
    have passed : add (.notANumber negative signaling payload) b =
        propagate (.notANumber negative signaling payload) b := by cases b <;> rfl
    rw [passed, propagate] at added
    split at added <;> cases added

/-- Adding to a number that is no signed zero gives none. -/
theorem UnsignedZero.add (unsigned : a.UnsignedZero) {result : Number}
    (added : a.add b = .ok result) : result.UnsignedZero := by
  rintro d rfl
  obtain ⟨x, y, rfl, rfl⟩ := finite_of_add added
  exact unsigned_of_settle ((unsigned x rfl).add y) added d rfl

/-- Numbers that are alike have the very same sum with a number that is no signed zero. -/
theorem Alike.add_unsigned (unsigned : a.UnsignedZero) (right : b.Alike b') :
    a.add b = a.add b' := by
  cases right with
  | finite right =>
    cases a with
    | finite x =>
      have first := (unsigned x rfl).add
      have same := ((Decimal.Alike.refl x).add right).eq_of_unsigned (first _) (first _)
      exact congrArg settle same
    | infinite | notANumber => rfl
  | infinite | notANumber => rfl

end Number

end ExactQuadrature

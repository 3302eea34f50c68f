import ExactQuadrature.Decimal.Notation
import ExactQuadrature.Proofs.Decimal.Representation
import ExactQuadrature.Proofs.Numeral

/-! # Plain forms

The plain form of a decimal is a well-formed numeral, with a minus sign before it if the decimal is
below zero (`Decimal.plainChars_eq`). The numeral is that of a decimal with the same value whose
exponent is not positive (`Decimal.toDecimal_plainNumeral`). Two decimals with one value and one
number of places after the point therefore have one plain form.
-/

namespace ExactQuadrature

/-- A power of ten appends zeros to the digits of a positive number. -/
theorem toDigits_mul_tenPow {n : Nat} (positive : 0 < n) (k : Nat) :
    Nat.toDigits 10 (n * tenPow k) = Nat.toDigits 10 n ++ List.replicate k '0' := by
  induction k with
  | zero =>
    rw [show tenPow 0 = 1 from rfl, Nat.mul_one, List.replicate_zero, List.append_nil]
  | succ k ih =>
    have scaled : n * tenPow (k + 1) = 10 * (n * tenPow k) + 0 := by
      rw [tenPow_add, show tenPow 1 = 10 from rfl]
      ring
    have more : 0 < n * tenPow k := Nat.mul_pos positive (tenPow_pos k)
    rw [scaled, ← Nat.toDigits_append_toDigits (by decide) more (by decide), ih,
      List.replicate_succ', List.append_assoc]
    rfl

/-- Zeros before the digits do not count. -/
theorem ofDigitChars_replicate_zero (k : Nat) (cs : List Char) :
    Nat.ofDigitChars 10 (List.replicate k '0' ++ cs) 0 = Nat.ofDigitChars 10 cs 0 := by
  induction k with
  | zero => rfl
  | succ k ih => exact ih

namespace LeadingDigits

theorem ne_nil {cs : List Char} (leading : LeadingDigits cs) : cs ≠ [] := by
  rcases leading with rfl | ⟨_, _, rfl, _⟩
  · exact List.cons_ne_nil _ _
  · exact List.cons_ne_nil _ _

/-- The first digits of digits without a needless leading zero have none either. -/
theorem take {cs : List Char} (leading : LeadingDigits cs) (k : Nat) :
    LeadingDigits (cs.take (k + 1)) := by
  rcases leading with rfl | ⟨first, rest, rfl, nonzero, digits⟩
  · exact .inl (congrArg ('0' :: ·) List.take_nil)
  · refine .inr ⟨first, rest.take k, rfl, nonzero, ?_⟩
    intro c present
    exact digits c (List.mem_of_mem_take present)

end LeadingDigits

namespace Numeral

/-- Digits with zeros before them, so that at least one digit stands before the last `places`. -/
def padded (digits : List Char) (places : Nat) : List Char :=
  List.replicate (places + 1 - digits.length) '0' ++ digits

/-- The numeral of digits with a point before the last `places` of them. -/
def ofDigits (digits : List Char) (places : Nat) : Numeral :=
  ⟨(padded digits places).take ((padded digits places).length - places),
    (padded digits places).drop ((padded digits places).length - places)⟩

/-- Padded digits reach to at least one whole digit. -/
theorem length_padded (digits : List Char) (places : Nat) :
    (padded digits places).length = max (places + 1) digits.length := by
  unfold padded
  rw [List.length_append, List.length_replicate]
  omega

/-- The fraction has as many digits as places were asked for. -/
theorem length_fraction_ofDigits (digits : List Char) (places : Nat) :
    (ofDigits digits places).fraction.length = places := by
  unfold ofDigits
  dsimp only
  rw [List.length_drop, length_padded]
  omega

/-- The numeral is written as the positional form of its digits. -/
theorem chars_ofDigits (digits : List Char) (places : Nat) :
    (ofDigits digits places).chars = Decimal.positional digits places := by
  have counted := length_fraction_ofDigits digits places
  unfold chars
  change _ = if places = 0 then (ofDigits digits places).whole
    else (ofDigits digits places).whole ++ '.' :: (ofDigits digits places).fraction
  by_cases none : places = 0
  · have empty : (ofDigits digits places).fraction = [] := by
      rw [← List.length_eq_zero_iff, counted, none]
    rw [if_pos none, if_pos empty, List.append_nil]
  · have present : (ofDigits digits places).fraction ≠ [] := by
      intro empty
      rw [empty] at counted
      exact none counted.symm
    rw [if_neg none, if_neg present]

/-- The numeral has the value of its digits. -/
theorem digits_ofDigits (digits : List Char) (places : Nat) :
    (ofDigits digits places).digits = Nat.ofDigitChars 10 digits 0 := by
  change Nat.ofDigitChars 10 ((padded digits places).take _ ++ (padded digits places).drop _) 0 = _
  rw [List.take_append_drop]
  exact ofDigitChars_replicate_zero _ _

/-- Leading digits make a well-formed numeral. -/
theorem wellFormed_ofDigits {digits : List Char} (leading : LeadingDigits digits) (places : Nat) :
    (ofDigits digits places).WellFormed := by
  have zeros : ∀ c ∈ padded digits places, c.isDigit = true := by
    intro c present
    rcases List.mem_append.mp present with zero | digit
    · rw [List.eq_of_mem_replicate zero]
      rfl
    · exact leading.isDigit c digit
  refine ⟨?_, fun c present => zeros c (List.mem_of_mem_drop present)⟩
  change LeadingDigits ((padded digits places).take ((padded digits places).length - places))
  rw [length_padded]
  unfold padded
  rcases Nat.lt_or_ge places digits.length with long | short
  · rw [Nat.sub_eq_zero_of_le long, List.replicate_zero, List.nil_append, max_eq_right long]
    obtain ⟨k, count⟩ := Nat.exists_eq_add_of_lt long
    rw [show digits.length - places = k + 1 by omega]
    exact leading.take k
  · rw [max_eq_left (by omega), Nat.add_sub_cancel_left,
      show places + 1 - digits.length = (places - digits.length) + 1 by omega]
    exact .inl rfl

/-- The digits of a numeral, padded to its places, are those that were written. -/
theorem padded_digits {n : Numeral} (formed : n.WellFormed) :
    padded (Nat.toDigits 10 n.digits) n.fraction.length = n.whole ++ n.fraction := by
  have digits : ∀ c ∈ n.whole ++ n.fraction, c.isDigit = true := fun c present =>
    (List.mem_append.mp present).elim (formed.whole.isDigit c) (formed.fraction c)
  rcases formed.whole with zero | ⟨first, rest, shape, nonzero, _⟩
  · -- Zeros are put back before the digits.
    have few : (Nat.toDigits 10 n.digits).length ≤ n.fraction.length + 1 := by
      rw [Nat.length_toDigits_le_iff (by decide) (by omega)]
      have below := ofDigitChars_lt digits
      rw [List.length_append, Nat.add_comm, zero] at below
      unfold Numeral.digits
      rw [zero]
      exact below
    refine eq_of_ofDigitChars_eq ?_ ?_ digits ?_
    · rw [length_padded, List.length_append, zero, max_eq_left few, Nat.add_comm]
      rfl
    · intro c present
      rcases List.mem_append.mp present with zero | digit
      · rw [List.eq_of_mem_replicate zero]
        rfl
      · exact (leadingDigits_toDigits _).isDigit c digit
    · rw [padded, ofDigitChars_replicate_zero, Nat.ofDigitChars_ten_toDigits]
      rfl
  · have leading : LeadingDigits (n.whole ++ n.fraction) :=
      .inr ⟨first, rest ++ n.fraction, by rw [shape, List.cons_append], nonzero, digits⟩
    rw [show Nat.toDigits 10 n.digits = _ from toDigits_ofDigitChars leading, padded,
      List.length_append, shape, List.length_cons, Nat.sub_eq_zero_of_le (by omega)]
    rfl

/-- **Digits and places write one numeral.** -/
theorem ofDigits_digits {n : Numeral} (formed : n.WellFormed) :
    ofDigits (Nat.toDigits 10 n.digits) n.fraction.length = n := by
  unfold ofDigits
  rw [padded_digits formed, List.length_append, Nat.add_sub_cancel, List.take_left, List.drop_left]

end Numeral

namespace Decimal

/-- The numeral of the plain form. -/
def plainNumeral (d : Decimal) : Numeral :=
  .ofDigits (Nat.toDigits 10 (d.magnitudeAt (min d.exponent 0))) (-d.exponent).toNat

theorem wellFormed_plainNumeral (d : Decimal) : d.plainNumeral.WellFormed :=
  Numeral.wellFormed_ofDigits (leadingDigits_toDigits _) _

/-- **What a numeral writes is shown as that numeral.** -/
theorem plainNumeral_toDecimal {n : Numeral} (formed : n.WellFormed) (negative : Bool) :
    (n.toDecimal negative).plainNumeral = n := by
  have places : (-(n.toDecimal negative).exponent).toNat = n.fraction.length := by
    change (- -(n.fraction.length : Int)).toNat = _
    omega
  have units : (n.toDecimal negative).magnitudeAt (min (n.toDecimal negative).exponent 0) =
      n.digits := by
    have fine : (n.toDecimal negative).exponent ≤ 0 := by
      change -(n.fraction.length : Int) ≤ 0
      omega
    unfold magnitudeAt
    rw [min_eq_left fine, Int.sub_self, Int.toNat_zero, show tenPow 0 = 1 from rfl, Nat.mul_one]
    rfl
  unfold plainNumeral
  rw [units, places, Numeral.ofDigits_digits formed]

/-- Without fractional places the positional form is just the digits. -/
theorem positional_zero {digits : List Char} (present : digits ≠ []) :
    positional digits 0 = digits := by
  have counted := List.length_pos_iff.mpr present
  unfold positional
  dsimp only
  rw [if_pos rfl, Nat.sub_zero, List.take_length, Nat.zero_add, Nat.sub_eq_zero_of_le counted,
    List.replicate_zero, List.nil_append]

/-- **Plain forms are numerals.** -/
theorem plainChars_eq (d : Decimal) :
    d.plainChars = signText (d.negative && !d.isZero) ++ d.plainNumeral.chars := by
  unfold plainChars plainNumeral magnitudeAt
  dsimp only
  rw [Numeral.chars_ofDigits]
  congr 1
  rcases Int.lt_or_le 0 d.exponent with coarse | fine
  · rw [min_eq_right coarse.le, Int.sub_zero, Int.toNat_of_nonpos (by omega : -d.exponent ≤ 0)]
    rw [positional_zero (leadingDigits_toDigits _).ne_nil,
      positional_zero (leadingDigits_toDigits _).ne_nil]
    cases none : d.isZero
    · have positive : 0 < d.coefficient := Nat.pos_of_ne_zero (beq_eq_false_iff_ne.mp none)
      rw [if_pos ⟨coarse, rfl⟩, toDigits_mul_tenPow positive]
    · have zero : d.coefficient = 0 := beq_iff_eq.mp none
      rw [if_neg (fun both => nomatch both.2), zero, Nat.zero_mul]
  · rw [if_neg (fun both => absurd both.1 (not_lt.mpr fine)), min_eq_left fine, Int.sub_self,
      Int.toNat_zero, show tenPow 0 = 1 from rfl, Nat.mul_one]

/-- The same value in a unit that is not above one. -/
def plainForm (d : Decimal) : Decimal :=
  ⟨d.negative, d.magnitudeAt (min d.exponent 0), min d.exponent 0⟩

/-- The plain numeral is read as the magnitude in units that are no coarser than one. -/
theorem toDecimal_plainNumeral (d : Decimal) (negative : Bool) :
    d.plainNumeral.toDecimal negative =
      ⟨negative, d.magnitudeAt (min d.exponent 0), min d.exponent 0⟩ := by
  have places : -(((-d.exponent).toNat : Nat) : Int) = min d.exponent 0 := by omega
  unfold Numeral.toDecimal plainNumeral
  rw [Numeral.digits_ofDigits, Nat.ofDigitChars_ten_toDigits, Numeral.length_fraction_ofDigits,
    places]

/-- The magnitude in finer units is the size of the value. -/
theorem abs_value_eq_magnitudeAt (d : Decimal) {exponent : Int} (finer : exponent ≤ d.exponent) :
    |d.value| = (d.magnitudeAt exponent : ℚ) * (10 : ℚ) ^ exponent := by
  have split : d.exponent = (d.exponent - exponent) + exponent := by ring
  unfold magnitudeAt
  rw [abs_value, Nat.cast_mul, cast_tenPow_toNat (sub_nonneg.mpr finer)]
  conv_lhs => rw [split, zpow_ten_add]
  ring

/-- The plain form has the value of the decimal. -/
theorem value_plainForm (d : Decimal) : d.plainForm.value = d.value := by
  rw [value_eq_unitsAt d (min_le_left d.exponent 0), value_eq, unitsAt_eq_mul]
  congr 2
  unfold significand plainForm magnitudeAt
  dsimp only
  cases d.negative
  · push_cast
    rfl
  · push_cast
    exact (neg_mul _ _).symm

/-- One value and one number of places after the point have one plain form. -/
theorem plainNumeral_congr {a b : Decimal} (same : a.value = b.value)
    (places : min a.exponent 0 = min b.exponent 0) : a.plainNumeral = b.plainNumeral := by
  have magnitudes : |a.value| = |b.value| := by rw [same]
  rw [abs_value_eq_magnitudeAt a (min_le_left a.exponent 0),
    abs_value_eq_magnitudeAt b (min_le_left b.exponent 0), places] at magnitudes
  have units : a.magnitudeAt (min b.exponent 0) = b.magnitudeAt (min b.exponent 0) := by
    exact_mod_cast mul_right_cancel₀ (ne_of_gt (zpow_ten_pos _)) magnitudes
  have after : (-a.exponent).toNat = (-b.exponent).toNat := by omega
  unfold plainNumeral
  rw [places, units, after]

/-- A nonzero decimal is determined by its value and its exponent. -/
theorem eq_of_value_eq {a b : Decimal} (same : a.value = b.value) (unit : a.exponent = b.exponent)
    (nonzero : a.value ≠ 0) : a = b := by
  have coefficients : a.coefficient = b.coefficient := by
    rw [coefficient_of_value_eq same unit.le, unit, Int.sub_self, Int.toNat_zero,
      show tenPow 0 = 1 from rfl, Nat.mul_one]
  have signs : a.negative = b.negative := by
    rw [Bool.eq_iff_iff, negative_iff_value nonzero, negative_iff_value (same ▸ nonzero), same]
  cases a
  cases b
  cases coefficients
  cases signs
  cases unit
  rfl

end Decimal

end ExactQuadrature

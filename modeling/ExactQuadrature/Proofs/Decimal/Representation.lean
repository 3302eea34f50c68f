import ExactQuadrature.Decimal.Number
import ExactQuadrature.Proofs.Decimal.Value

/-! # Rational numbers that a range represents

Whether exact arithmetic gives a result depends on the value of that result alone: fitting a
decimal into a range succeeds when some decimal of the range stands for the same rational number
(`Range.fit_of_represents`), and it never changes the value (`Range.value_of_fit`). Sums and
products of finite decimals therefore are those of rational numbers as long as these stay
represented (`Number.add_of_represents` and `Number.mul_of_represents`).
-/

namespace ExactQuadrature

/-- A larger number has no fewer digits. -/
theorem digitCount_mono {m n : Nat} (ordered : m ≤ n) : digitCount m ≤ digitCount n := by
  rw [digitCount_le_iff (digitCount_pos n)]
  exact lt_of_le_of_lt ordered (lt_tenPow_digitCount n)

/-- Every factor of ten adds a digit. -/
theorem digitCount_mul_tenPow {n : Nat} (nonzero : n ≠ 0) (k : Nat) :
    digitCount (n * tenPow k) = digitCount n + k := by
  have counted := digitCount_pos n
  apply le_antisymm
  · rw [digitCount_le_iff (by omega), tenPow_add]
    exact Nat.mul_lt_mul_of_pos_right (lt_tenPow_digitCount n) (tenPow_pos k)
  · have reached : tenPow (digitCount n - 1 + k) ≤ n * tenPow k := by
      rw [tenPow_add]
      exact Nat.mul_le_mul_right _ (Decimal.tenPow_le_of_ne_zero nonzero)
    by_contra fewer
    have within : digitCount (n * tenPow k) ≤ digitCount n - 1 + k := by omega
    have above := lt_tenPow_digitCount (n * tenPow k)
    have := tenPow_le_tenPow within
    omega

namespace Decimal

/-- A coefficient in a finer unit has as many more digits as the unit is finer. -/
theorem coefficient_of_value_eq {fine coarse : Decimal} (same : fine.value = coarse.value)
    (finer : fine.exponent ≤ coarse.exponent) :
    fine.coefficient = coarse.coefficient * tenPow (coarse.exponent - fine.exponent).toNat := by
  have magnitudes : |fine.value| = |coarse.value| := by rw [same]
  have split : coarse.exponent = (coarse.exponent - fine.exponent) + fine.exponent := by ring
  rw [abs_value, abs_value] at magnitudes
  conv_rhs at magnitudes => rw [split, zpow_ten_add, ← mul_assoc]
  have cancelled := mul_right_cancel₀ (ne_of_gt (zpow_ten_pos fine.exponent)) magnitudes
  rw [← cast_tenPow_toNat (sub_nonneg.mpr finer)] at cancelled
  exact_mod_cast cancelled

end Decimal

namespace Range

/-- A rational number that a decimal of the range stands for. -/
def Represents (range : Range) (value : ℚ) : Prop :=
  ∃ d : Decimal, range.Contains d ∧ d.value = value

/-- The value of a decimal that a range contains is represented in it. -/
theorem Contains.represents {range : Range} {d : Decimal} (inside : range.Contains d) :
    range.Represents d.value := ⟨d, inside, rfl⟩

/-- The leading digit of what a range represents has a place in it. -/
theorem adjusted_le_of_represents {range : Range} {d : Decimal} (nonzero : d.value ≠ 0)
    (represented : range.Represents d.value) : d.adjusted ≤ range.maxExponent := by
  obtain ⟨known, ⟨_, rest⟩, same⟩ := represented
  have some_value := (Decimal.value_ne_zero_iff known).mp (same ▸ nonzero)
  rw [if_neg (Bool.eq_false_iff.mp some_value)] at rest
  rw [Decimal.adjusted_congr nonzero same.symm]
  exact rest.1

/-- Whole numbers of a unit are represented if they have few enough digits. -/
theorem represents_of_units {range : Range} {units exponent : Int} (digit : 0 < range.precision)
    (low : range.tiny ≤ exponent) (few : |(units : ℚ)| < (10 : ℚ) ^ (range.precision : Int))
    (high : exponent + range.precision ≤ range.maxExponent + 1) :
    range.Represents (units * (10 : ℚ) ^ exponent) := by
  refine ⟨Decimal.ofSignificand units exponent, ⟨low, ?_⟩, ?_⟩
  · have below : digitCount units.natAbs ≤ range.precision := by
      rw [digitCount_le_iff digit]
      have natural : ((units.natAbs : Nat) : ℚ) < ((tenPow range.precision : Nat) : ℚ) := by
        rw [Nat.cast_natAbs, Int.cast_abs, cast_tenPow]
        exact_mod_cast few
      exact_mod_cast natural
    have counted := digitCount_pos units.natAbs
    change if (Decimal.ofSignificand units exponent).isZero = true then exponent ≤ range.maxExponent
      else exponent + digitCount units.natAbs - 1 ≤ range.maxExponent ∧
        digitCount units.natAbs ≤ range.precision
    split <;> omega
  · rw [Decimal.value_eq, Decimal.significand_ofSignificand, Decimal.exponent_ofSignificand]

/-- How a nonzero decimal fits: as it stands, or with low digits given up that are all zero. -/
theorem fit_cases {range : Range} {d fitted : Decimal} (nonzero : d.isZero = false)
    (fits : range.fit d = .ok fitted) :
    d.adjusted ≤ range.maxExponent ∧
      (range.excess d = 0 ∧ fitted = d ∨
        0 < range.excess d ∧ ∃ kept, d.coefficient = kept * tenPow (range.excess d) ∧
          fitted = ⟨d.negative, kept, d.exponent + range.excess d⟩) := by
  simp only [fit, nonzero, Bool.false_eq_true, ↓reduceIte] at fits
  split at fits
  · cases fits
  · next within =>
    refine ⟨not_lt.mp within, ?_⟩
    split at fits
    · next none =>
      cases fits
      exact .inl ⟨none, rfl⟩
    · next excess =>
      split at fits
      · cases fits
      · split at fits
        · cases fits
        · next divisible =>
          cases fits
          refine .inr ⟨Nat.pos_of_ne_zero excess, _, ?_, rfl⟩
          exact (Nat.div_mul_cancel (Nat.dvd_of_mod_eq_zero (not_not.mp divisible))).symm

/-- Fitting a decimal into a range keeps its value and its sign. -/
theorem value_of_fit {range : Range} {d fitted : Decimal} (fits : range.fit d = .ok fitted) :
    fitted.value = d.value ∧ fitted.negative = d.negative := by
  cases zero : d.isZero with
  | true =>
    simp only [fit, if_pos zero] at fits
    cases fits
    have alsoZero : ({ d with exponent := max range.tiny (min d.exponent range.maxExponent) } :
        Decimal).isZero = true := zero
    exact ⟨((Decimal.value_eq_zero_iff _).mpr alsoZero).trans
      ((Decimal.value_eq_zero_iff d).mpr zero).symm, rfl⟩
  | false =>
    obtain ⟨_, ⟨_, rfl⟩ | ⟨_, kept, whole, rfl⟩⟩ := fit_cases zero fits
    · exact ⟨rfl, rfl⟩
    · refine ⟨?_, rfl⟩
      have natural : (d.coefficient : ℚ) = kept * (10 : ℚ) ^ (range.excess d) := by
        rw [whole, Nat.cast_mul, cast_tenPow]
      simp only [Decimal.value_eq, Decimal.significand, zpow_ten_add, zpow_natCast]
      cases d.negative
      · simp only [Bool.false_eq_true, ↓reduceIte, Int.cast_natCast, natural]
        ring
      · simp only [↓reduceIte, Int.cast_neg, Int.cast_natCast, natural]
        ring

/-- A decimal whose value is represented fits, whatever its own unit. -/
theorem fit_of_represents {range : Range} {d : Decimal} (represented : range.Represents d.value) :
    ∃ fitted, range.fit d = .ok fitted := by
  obtain ⟨known, ⟨low, rest⟩, same⟩ := represented
  unfold fit
  by_cases zero : d.isZero = true
  · rw [if_pos zero]
    exact ⟨_, rfl⟩
  · have nonzero : d.value ≠ 0 := mt (Decimal.value_eq_zero_iff d).mp zero
    have knownNonzero : known.value ≠ 0 := same ▸ nonzero
    have counted := (Decimal.coefficient_ne_zero_iff known).mpr knownNonzero
    rw [if_neg (mt (Decimal.value_eq_zero_iff known).mpr knownNonzero)] at rest
    have leading := Decimal.adjusted_congr nonzero same.symm
    rw [if_neg zero, if_neg (by omega)]
    rcases le_or_gt known.exponent d.exponent with finer | coarser
    · have scaled := Decimal.coefficient_of_value_eq same finer
      have fewer : digitCount d.coefficient ≤ digitCount known.coefficient := by
        refine digitCount_mono ?_
        rw [scaled]
        exact Nat.le_mul_of_pos_right _ (tenPow_pos _)
      have none : range.excess d = 0 := by
        unfold excess
        omega
      rw [if_pos none]
      exact ⟨_, rfl⟩
    · have scaled := Decimal.coefficient_of_value_eq same.symm coarser.le
      have digits : digitCount d.coefficient =
          digitCount known.coefficient + (known.exponent - d.exponent).toNat := by
        rw [scaled, digitCount_mul_tenPow counted]
      have some_digit := digitCount_pos known.coefficient
      have small : range.excess d ≤ (known.exponent - d.exponent).toNat := by
        unfold excess
        omega
      have divides : d.coefficient % tenPow (range.excess d) = 0 := by
        refine Nat.mod_eq_zero_of_dvd ?_
        rw [scaled]
        exact Dvd.dvd.mul_left (Nat.pow_dvd_pow 10 small) _
      split
      · exact ⟨_, rfl⟩
      · rw [if_neg (by omega), if_neg (not_not.mpr divides)]
        exact ⟨_, rfl⟩

/-- What a range makes of a decimal lies in it. -/
theorem contains_of_fit {range : Range} (ordered : range.tiny ≤ range.maxExponent)
    {d fitted : Decimal} (fits : range.fit d = .ok fitted) : range.Contains fitted := by
  cases zero : d.isZero with
  | true =>
    simp only [fit, if_pos zero] at fits
    cases fits
    refine ⟨le_max_left _ _, ?_⟩
    change if d.isZero = true then max range.tiny (min d.exponent range.maxExponent) ≤ _ else _
    rw [if_pos zero]
    exact max_le ordered (min_le_right _ _)
  | false =>
    have digits : range.excess d =
        max (digitCount d.coefficient - range.precision) (range.tiny - d.exponent).toNat := rfl
    have leading : d.adjusted = d.exponent + digitCount d.coefficient - 1 := rfl
    obtain ⟨within, ⟨none, rfl⟩ | ⟨_, kept, whole, rfl⟩⟩ := fit_cases zero fits
    · refine ⟨by omega, ?_⟩
      rw [if_neg (Bool.eq_false_iff.mp zero)]
      omega
    · have counted : kept ≠ 0 := by
        rintro rfl
        rw [Nat.zero_mul] at whole
        simp only [Decimal.isZero, whole, beq_self_eq_true, Bool.true_eq_false] at zero
      have fewer := digitCount_mul_tenPow counted (range.excess d)
      rw [← whole] at fewer
      refine ⟨?_, ?_⟩
      · change range.tiny ≤ d.exponent + range.excess d
        omega
      · rw [if_neg (by simpa only [Decimal.isZero, beq_iff_eq] using counted)]
        simp only [Decimal.adjusted]
        omega

/-- What fits a range stands for a number that the range represents. -/
theorem represents_of_fit {range : Range} (ordered : range.tiny ≤ range.maxExponent)
    {d fitted : Decimal} (fits : range.fit d = .ok fitted) : range.Represents d.value :=
  ⟨fitted, contains_of_fit ordered fits, (value_of_fit fits).1⟩

/-- The widest range refuses in one way only. -/
theorem signal_of_fit {d : Decimal} {signal : Signal} (refused : exact.fit d = .error signal) :
    signal = .inexact := by
  unfold fit at refused
  split_ifs at refused <;> cases refused <;> rfl

/-- Fitting into the widest range gives no unit above ten, unless it was coarser before. -/
theorem exponent_fit_le {d fitted : Decimal} (fits : exact.fit d = .ok fitted) :
    fitted.exponent ≤ max d.exponent 1 := by
  have tiny : exact.tiny = -1999999999999999997 := rfl
  have highest : exact.maxExponent = 999999999999999999 := rfl
  have precision : exact.precision = 999999999999999999 := rfl
  cases zero : d.isZero with
  | true =>
    simp only [fit, if_pos zero] at fits
    cases fits
    change max exact.tiny (min d.exponent exact.maxExponent) ≤ _
    omega
  | false =>
    have digits : exact.excess d =
        max (digitCount d.coefficient - exact.precision) (exact.tiny - d.exponent).toNat := rfl
    have leading : d.adjusted = d.exponent + digitCount d.coefficient - 1 := rfl
    obtain ⟨within, ⟨_, rfl⟩ | ⟨_, kept, _, rfl⟩⟩ := fit_cases zero fits
    · exact le_max_left _ _
    · change d.exponent + exact.excess d ≤ _
      omega

end Range

namespace Number

/-- A result whose value is represented is settled without a change of value or sign, and in no
unit above ten unless it was in one. -/
theorem settle_of_represents {d : Decimal} (represented : Range.exact.Represents d.value) :
    ∃ settled : Decimal, settle d = .ok (.finite settled) ∧ settled.value = d.value ∧
      settled.negative = d.negative ∧ settled.exponent ≤ max d.exponent 1 := by
  obtain ⟨fitted, fits⟩ := Range.fit_of_represents represented
  obtain ⟨value, sign⟩ := Range.value_of_fit fits
  refine ⟨fitted, ?_, value, sign, Range.exponent_fit_le fits⟩
  simp only [settle, fits, Except.map]

/-- Whatever else is refused as inexact. -/
theorem settle_eq_error {d : Decimal} (unrepresented : ¬Range.exact.Represents d.value) :
    settle d = .error .inexact := by
  cases fits : Range.exact.fit d with
  | ok fitted => exact absurd (Range.represents_of_fit (by decide) fits) unrepresented
  | error signal =>
    rw [Range.signal_of_fit fits] at fits
    simp only [settle, fits, Except.map]

/-- Only what is represented is settled. -/
theorem represents_of_settle {d : Decimal} {result : Number} (settled : settle d = .ok result) :
    Range.exact.Represents d.value := by
  cases fits : Range.exact.fit d with
  | error signal =>
    simp only [settle, fits, Except.map] at settled
    cases settled
  | ok fitted => exact Range.represents_of_fit (by decide) fits

/-- A settled result is finite and has the value of the exact one. -/
theorem value_of_settle {d : Decimal} {result : Number} (settled : settle d = .ok result) :
    ∃ kept : Decimal, result = .finite kept ∧ kept.value = d.value ∧
      kept.negative = d.negative ∧ kept.exponent ≤ max d.exponent 1 := by
  obtain ⟨kept, also, rest⟩ := settle_of_represents (represents_of_settle settled)
  exact ⟨kept, Except.ok.inj (settled.symm.trans also), rest⟩

/-- The sum of finite decimals is exact as long as it is represented. -/
theorem add_of_represents {x y : Decimal}
    (represented : Range.exact.Represents (x.value + y.value)) :
    ∃ sum : Decimal, add (.finite x) (.finite y) = .ok (.finite sum) ∧
      sum.value = x.value + y.value := by
  rw [← Decimal.value_add] at represented
  obtain ⟨sum, settled, same, _⟩ := settle_of_represents represented
  exact ⟨sum, settled, same.trans (Decimal.value_add x y)⟩

/-- The product of finite decimals is exact as long as it is represented. -/
theorem mul_of_represents {x y : Decimal}
    (represented : Range.exact.Represents (x.value * y.value)) :
    ∃ product : Decimal, mul (.finite x) (.finite y) = .ok (.finite product) ∧
      product.value = x.value * y.value := by
  rw [← Decimal.value_mul] at represented
  obtain ⟨product, settled, same, _⟩ := settle_of_represents represented
  exact ⟨product, settled, same.trans (Decimal.value_mul x y)⟩

/-- A sum of finite decimals, where there is one, is finite and exact. -/
theorem value_of_add {x y : Decimal} {result : Number}
    (added : add (.finite x) (.finite y) = .ok result) :
    ∃ sum : Decimal, result = .finite sum ∧ sum.value = x.value + y.value := by
  obtain ⟨sum, shape, same, _⟩ := value_of_settle added
  exact ⟨sum, shape, same.trans (Decimal.value_add x y)⟩

/-- A product of finite decimals, where there is one, is finite and exact. -/
theorem value_of_mul {x y : Decimal} {result : Number}
    (multiplied : mul (.finite x) (.finite y) = .ok result) :
    ∃ product : Decimal, result = .finite product ∧ product.value = x.value * y.value := by
  obtain ⟨product, shape, same, _⟩ := value_of_settle multiplied
  exact ⟨product, shape, same.trans (Decimal.value_mul x y)⟩

end Number

end ExactQuadrature

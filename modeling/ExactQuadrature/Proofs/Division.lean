import ExactQuadrature.Division
import ExactQuadrature.Proofs.Decimal.LeadingDigits
import ExactQuadrature.Proofs.Outcome

/-! # Division to a fixed scale

Division cuts a quotient off behind its leading digits before it rounds it, but these reach past the
scale, so that the result is the exact quotient rounded once (`Division.divide_finite`). It is found
where the digits can be provided, the unit exists and the result lies in the widest range, and it
depends on the values of its operands alone, keeps their order and turns round with their signs
(`divide_rounds_once`).
-/

namespace ExactQuadrature

/-- A range that arithmetic may be asked to work in: no higher than the widest one, and with
exponents that go no further down than up. -/
structure Range.Admissible (range : Range) : Prop where
  high : range.maxExponent ≤ Range.exact.maxExponent
  balanced : -range.maxExponent ≤ range.minExponent

/-- The ordinary range is one that division can be done in. -/
theorem Range.admissible_ordinary : Range.ordinary.Admissible := ⟨by decide, by decide⟩

theorem Range.admissible_exact : Range.exact.Admissible := ⟨by decide, by decide⟩

namespace Decimal

/-- The decimal with the opposite value, in the same unit; a zero is its own opposite. -/
def mirrored (d : Decimal) : Decimal := if d.isZero then d else d.negate

/-- The mirrored decimal has the opposite value. -/
@[simp] theorem value_mirrored (d : Decimal) : d.mirrored.value = -d.value := by
  unfold mirrored
  split
  · next zero => rw [(value_eq_zero_iff d).mpr zero, neg_zero]
  · exact value_negate d

/-- The place of the leading digit does not depend on the sign. -/
theorem adjusted_negate (d : Decimal) : d.negate.adjusted = d.adjusted := rfl

/-- A range is symmetric: it contains a decimal together with the mirrored one. -/
theorem contains_mirrored (range : Range) (d : Decimal) :
    range.Contains d.mirrored ↔ range.Contains d := by
  unfold mirrored
  split <;> exact Iff.rfl

variable (a b : Decimal) (scale : Int)

/-- The opposite dividend has the mirrored quotient, with ties rounded the other way. -/
theorem quotient_negate_left : a.negate.quotient b scale = (a.quotient b scale).mirrored := by
  have same : quotientUnits a.negate b scale = quotientUnits a b scale := rfl
  unfold quotient mirrored isZero negate
  simp only [negate] at same
  rw [same]
  by_cases none : quotientUnits a b scale = 0
  · simp [none]
  · cases a.negative <;> cases b.negative <;> simp [none]

/-- The opposite divisor has the mirrored quotient, with ties rounded the other way. -/
theorem quotient_negate_right : a.quotient b.negate scale = (a.quotient b scale).mirrored := by
  have same : quotientUnits a b.negate scale = quotientUnits a b scale := rfl
  unfold quotient mirrored isZero negate
  simp only [negate] at same
  rw [same]
  by_cases none : quotientUnits a b scale = 0
  · simp [none]
  · cases a.negative <;> cases b.negative <;> simp [none]

end Decimal

namespace Division

variable {range : Range} {a b : Decimal} {scale unit : Int}

/-- Digits can be provided if there is at least one and no more than the widest range has. -/
theorem checkDigits_eq_ok {digits : Int} :
    checkDigits digits = .ok () ↔ 1 ≤ digits ∧ digits ≤ Range.exact.precision := by
  have precision : (Range.exact.precision : Int) = 999999999999999999 := rfl
  unfold checkDigits
  split
  · exact ⟨nofun, fun _ => by omega⟩
  · split
    · exact ⟨nofun, fun _ => by omega⟩
    · exact ⟨fun _ => by omega, fun _ => rfl⟩

/-- Digits that cannot be provided are refused, and those beyond a machine word in their own way. -/
theorem checkDigits_eq_error {digits : Int}
    (refused : ¬(1 ≤ digits ∧ digits ≤ Range.exact.precision)) :
    checkDigits digits = .error
      (if digits < -9223372036854775808 ∨ 9223372036854775807 < digits then .precisionUnbounded
      else .precisionOutOfRange) := by
  unfold checkDigits
  split
  · rfl
  · rw [if_pos (by omega)]

/-- The unit of a result exists for scales that are neither too coarse nor too fine. -/
theorem unitScale_eq_ok (range : Range) (scale : Int) (notCoarse : -range.maxExponent ≤ scale)
    (bounded : (scale.natAbs : Int) ≤ 2 * (range.maxExponent + range.precision)) :
    unitScale range scale = .ok (min scale (-range.tiny)) := by
  unfold unitScale
  rw [if_neg (by omega), if_neg (by omega)]

/-- The unit of a result is that of the scale or the finest one, and the scale is within its limits.
-/
theorem unitScale_eq_min (found : unitScale range scale = .ok unit) :
    unit = min scale (-range.tiny) ∧ -range.maxExponent ≤ scale ∧
      (scale.natAbs : Int) ≤ 2 * (range.maxExponent + range.precision) := by
  unfold unitScale at found
  split at found
  · cases found
  · split at found
    · cases found
    · cases found
      omega

/-- A range contains the unit of a scale if the exponent of the unit lies in the range. -/
theorem contains_unit (range : Range) (scale : Int) :
    range.Contains ⟨false, 1, -scale⟩ ↔
      range.tiny ≤ -scale ∧ -scale ≤ range.maxExponent ∧ 1 ≤ range.precision := by
  have single : digitCount 1 = 1 := by decide
  have some_unit : (⟨false, 1, -scale⟩ : Decimal).isZero = false := rfl
  simp only [Range.Contains, some_unit, Bool.false_eq_true, ↓reduceIte, Decimal.adjusted, single]
  omega

/-- The scales whose unit is an ordinary decimal. -/
theorem contains_unit_ordinary :
    Range.ordinary.Contains ⟨false, 1, -scale⟩ ↔ -999999 ≤ scale ∧ scale ≤ 1000026 := by
  have finest : Range.ordinary.tiny = -1000026 := rfl
  have highest : Range.ordinary.maxExponent = 999999 := rfl
  have digits : Range.ordinary.precision = 28 := rfl
  rw [contains_unit]
  omega

/-- A unit that lies in the range is the unit of results. -/
theorem unitScale_of_contains (admissible : range.Admissible)
    (unit : range.Contains ⟨false, 1, -scale⟩) : unitScale range scale = .ok scale := by
  obtain ⟨fine, coarse, digits⟩ := (contains_unit range scale).mp unit
  have balanced := admissible.balanced
  have finest : range.tiny = range.minExponent - (range.precision - 1) := rfl
  rw [unitScale_eq_ok range scale (by omega) (by omega), min_eq_left (by omega)]

/-- The scales that have an ordinary unit. -/
theorem unitScale_ordinary (found : unitScale .ordinary scale = .ok unit) :
    unit = min scale 1000026 ∧ -999999 ≤ scale ∧ scale ≤ 2000054 := by
  have highest : Range.ordinary.maxExponent = 999999 := rfl
  have digits : (Range.ordinary.precision : Int) = 28 := rfl
  have finest : Range.ordinary.tiny = -1000026 := rfl
  obtain ⟨rfl, coarse, bounded⟩ := unitScale_eq_min found
  omega

/-- The unit of a scale that has an ordinary unit is the same in the widest range, however fine. -/
theorem unitScale_exact (high : scale ≤ 2000054) (found : unitScale .exact scale = .ok unit) :
    unit = scale := by
  have finest : Range.exact.tiny = -1999999999999999997 := rfl
  obtain ⟨rfl, _⟩ := unitScale_eq_min found
  omega

/-- **The digits that are cut off do not matter.** Where its digits can be provided, a quotient is
rounded to the unit that the range allows, and refused only if the result lies beyond the widest
range. -/
theorem divide_finite (range : Range) (nonzero : b.value ≠ 0) (scale : Int) :
    divide range (.finite a) (.finite b) scale = (do
      checkDigits (max (a.adjusted - b.adjusted) 0 + scale + 3)
      let unit ← Fault.ofSignal (unitScale range scale)
      if Range.exact.Contains (a.quotient b unit) then return .finite (a.quotient b unit)
      else .error (.signal .invalidOperation)) := by
  have divisor : (Number.finite b).isZero = false := (Decimal.value_ne_zero_iff b).mp nonzero
  have digits : digitsNeeded (.finite a) (.finite b) scale =
      max (a.adjusted - b.adjusted) 0 + scale + 3 := rfl
  simp only [divide, divisor, Bool.false_eq_true, ↓reduceIte, digits]
  cases checked : checkDigits (max (a.adjusted - b.adjusted) 0 + scale + 3) with
  | error fault => rfl
  | ok =>
    obtain ⟨some_digit, _⟩ := checkDigits_eq_ok.mp checked
    rw [bind_ok, bind_ok]
    cases found : unitScale range scale with
    | error signal =>
      simp only [rounded, found]
      rfl
    | ok unit =>
      have coarser : unit ≤ scale := (unitScale_eq_min found).1 ▸ min_le_left _ _
      simp only [rounded, found, bind_ok, quantize, Fault.ofSignal_ok]
      rw [Decimal.toScale_leadingQuotient nonzero (by omega)]
      split <;> rfl

/-- A quotient whose digits cannot be provided is refused. -/
theorem divide_eq_error (range : Range) (nonzero : b.value ≠ 0)
    (refused : ¬(1 ≤ max (a.adjusted - b.adjusted) 0 + scale + 3 ∧
      max (a.adjusted - b.adjusted) 0 + scale + 3 ≤ Range.exact.precision)) :
    divide range (.finite a) (.finite b) scale = .error
      (if max (a.adjusted - b.adjusted) 0 + scale + 3 < -9223372036854775808 ∨
          9223372036854775807 < max (a.adjusted - b.adjusted) 0 + scale + 3
        then .precisionUnbounded else .precisionOutOfRange) := by
  rw [divide_finite range nonzero, checkDigits_eq_error refused, bind_error]

/-- A rounded quotient lies in the widest range if its leading digit does and its digits can be
provided. -/
theorem contains_quotient (nonzero : b.value ≠ 0) (coarse : -unit ≤ Range.exact.maxExponent)
    (few : max (a.adjusted - b.adjusted) 0 + unit + 3 ≤ Range.exact.precision)
    (bounded : |roundHalfAway unit (a.value / b.value)| <
        (10 : ℚ) ^ (Range.exact.maxExponent + 1)) :
    Range.exact.Contains (a.quotient b unit) := by
  have precision : (Range.exact.precision : Int) = 999999999999999999 := rfl
  have finest : Range.exact.tiny = -1999999999999999997 := rfl
  have exponent : (a.quotient b unit).exponent = -unit := rfl
  refine ⟨by omega, ?_⟩
  split
  · rwa [exponent]
  · next counted =>
    have some_value : (a.quotient b unit).value ≠ 0 := by rwa [Ne, Decimal.value_eq_zero_iff]
    have value := Decimal.value_quotient a b unit nonzero
    have leading : (a.quotient b unit).adjusted ≤ max (a.adjusted + 1 - b.adjusted) (-unit) := by
      rw [← Int.lt_add_one_iff, Decimal.adjusted_lt_iff some_value, value]
      have quotient :
          |a.value / b.value| ≤ (10 : ℚ) ^ max (a.adjusted + 1 - b.adjusted) (-unit) := by
        rw [abs_div]
        exact (Decimal.abs_div_abs_lt_zpow a nonzero).le.trans (zpow_ten_le.mpr (le_max_left _ _))
      exact (abs_roundHalfAway_le_zpow (le_max_right _ _) quotient).trans_lt
        (zpow_ten_lt.mpr (Int.lt_succ _))
    have digits : (a.quotient b unit).adjusted =
        -unit + digitCount (a.quotient b unit).coefficient - 1 := rfl
    constructor
    · rw [← Int.lt_add_one_iff, Decimal.adjusted_lt_iff some_value, value]
      exact bounded
    · omega

/-- A quotient whose leading digit stays below the highest place does so when it is rounded. -/
theorem abs_roundHalfAway_quotient_lt (nonzero : b.value ≠ 0)
    (coarse : -unit ≤ Range.exact.maxExponent)
    (room : a.adjusted - b.adjusted < Range.exact.maxExponent) :
    |roundHalfAway unit (a.value / b.value)| < (10 : ℚ) ^ (Range.exact.maxExponent + 1) := by
  have quotient : |a.value / b.value| ≤ (10 : ℚ) ^ Range.exact.maxExponent := by
    rw [abs_div]
    exact (Decimal.abs_div_abs_lt_zpow a nonzero).le.trans (zpow_ten_le.mpr (by omega))
  exact (abs_roundHalfAway_le_zpow coarse quotient).trans_lt (zpow_ten_lt.mpr (Int.lt_succ _))

/-- A quotient is found where its digits can be provided, its unit exists and the result lies in the
widest range. -/
theorem divide_of_bounded (nonzero : b.value ≠ 0) (found : unitScale range scale = .ok unit)
    (some_digit : 1 ≤ max (a.adjusted - b.adjusted) 0 + scale + 3)
    (few : max (a.adjusted - b.adjusted) 0 + scale + 3 ≤ Range.exact.precision)
    (coarse : -unit ≤ Range.exact.maxExponent)
    (bounded : |roundHalfAway unit (a.value / b.value)| <
        (10 : ℚ) ^ (Range.exact.maxExponent + 1)) :
    divide range (.finite a) (.finite b) scale = .ok (.finite (a.quotient b unit)) := by
  have coarser : unit ≤ scale := (unitScale_eq_min found).1 ▸ min_le_left _ _
  rw [divide_finite range nonzero, checkDigits_eq_ok.mpr ⟨some_digit, few⟩, found, bind_ok,
    Fault.ofSignal_ok, bind_ok, if_pos (contains_quotient nonzero coarse (by omega) bounded)]
  rfl

/-- A quotient is found where its unit exists, its digits can be provided and its leading digit has
a place. Only a scale so coarse that no digit would be looked at is refused. -/
theorem divide_cases (nonzero : b.isZero = false) (found : unitScale range scale = .ok unit)
    (coarse : -unit ≤ Range.exact.maxExponent)
    (few : max (a.adjusted - b.adjusted) 0 + scale + 3 ≤ Range.exact.precision)
    (room : a.adjusted - b.adjusted < Range.exact.maxExponent) :
    divide range (.finite a) (.finite b) scale = .ok (.finite (a.quotient b unit)) ∨
      scale < -2 ∧ divide range (.finite a) (.finite b) scale = .error .precisionOutOfRange := by
  have divisor := (Decimal.value_ne_zero_iff b).mpr nonzero
  have highest : Range.exact.maxExponent = 999999999999999999 := rfl
  have coarser : unit ≤ scale := (unitScale_eq_min found).1 ▸ min_le_left _ _
  by_cases some_digit : 1 ≤ max (a.adjusted - b.adjusted) 0 + scale + 3
  · exact .inl (divide_of_bounded divisor found some_digit few coarse
      (abs_roundHalfAway_quotient_lt divisor coarse room))
  · refine .inr ⟨by omega, ?_⟩
    rw [divide_eq_error range divisor (by omega), if_neg (by omega)]

/-- A quotient of finite decimals has its digits provided and is rounded to the unit that the range
allows. -/
theorem divide_eq_ok {result : Number}
    (divided : divide range (.finite a) (.finite b) scale = .ok result) :
    ∃ unit, unitScale range scale = .ok unit ∧ b.isZero = false ∧
      max (a.adjusted - b.adjusted) 0 + scale + 3 ≤ Range.exact.precision ∧
      result = .finite (a.quotient b unit) := by
  cases nonzero : b.isZero with
  | true =>
    have zero : (Number.finite b).isZero = true := nonzero
    simp only [divide, zero, ↓reduceIte] at divided
    cases divided
  | false =>
    rw [divide_finite range ((Decimal.value_ne_zero_iff b).mpr nonzero)] at divided
    obtain ⟨_, checked, divided⟩ := bind_eq_ok.mp divided
    obtain ⟨unit, found, divided⟩ := bind_eq_ok.mp divided
    refine ⟨unit, Fault.ofSignal_eq_ok.mp found, rfl, (checkDigits_eq_ok.mp checked).2, ?_⟩
    split at divided
    · exact (Except.ok.inj divided).symm
    · cases divided

/-- Where its unit lies in the range, a quotient that is found is the exact one rounded. -/
theorem divide_eq_quotient {result : Number} (admissible : range.Admissible)
    (unit : range.Contains ⟨false, 1, -scale⟩)
    (divided : divide range (.finite a) (.finite b) scale = .ok result) :
    b.value ≠ 0 ∧ result = .finite (a.quotient b scale) := by
  obtain ⟨_, found, nonzero, _, rfl⟩ := divide_eq_ok divided
  cases found.symm.trans (unitScale_of_contains admissible unit)
  exact ⟨(Decimal.value_ne_zero_iff b).mpr nonzero, rfl⟩

/-- A quotient turns round with the sign of either operand. -/
theorem divide_negate {q : Decimal}
    (divided : divide range (.finite a) (.finite b) scale = .ok (.finite q)) :
    divide range (.finite a.negate) (.finite b) scale = .ok (.finite q.mirrored) ∧
      divide range (.finite a) (.finite b.negate) scale = .ok (.finite q.mirrored) := by
  obtain ⟨unit, found, nonzero, _, shape⟩ := divide_eq_ok divided
  obtain rfl := Number.finite.inj shape
  have divisor := (Decimal.value_ne_zero_iff b).mpr nonzero
  have opposite : b.negate.value ≠ 0 := by rwa [Decimal.value_negate, neg_ne_zero]
  rw [divide_finite range divisor, found] at divided
  obtain ⟨_, checked, divided⟩ := bind_eq_ok.mp divided
  rw [Fault.ofSignal_ok, bind_ok] at divided
  split at divided
  · next inside =>
    simp only [divide_finite range divisor, divide_finite range opposite, Decimal.adjusted_negate,
      checked, found, Fault.ofSignal_ok, bind_ok, Decimal.quotient_negate_left,
      Decimal.quotient_negate_right, Decimal.contains_mirrored, if_pos inside]
    exact ⟨rfl, rfl⟩
  · cases divided

/-- A quotient with digits to provide and a unit in the range is found, unless it lies beyond the
widest range, which takes a unit above a hundred. -/
theorem exists_divide (admissible : range.Admissible) (unit : range.Contains ⟨false, 1, -scale⟩)
    (nonzero : b.value ≠ 0) (some_digit : 1 ≤ max (a.adjusted - b.adjusted) 0 + scale + 3)
    (few : max (a.adjusted - b.adjusted) 0 + scale + 3 ≤ Range.exact.precision)
    (inside : scale < -2 →
      |roundHalfAway scale (a.value / b.value)| < (10 : ℚ) ^ (Range.exact.maxExponent + 1)) :
    divide range (.finite a) (.finite b) scale = .ok (.finite (a.quotient b scale)) := by
  have highest : Range.exact.maxExponent = 999999999999999999 := rfl
  have precision : (Range.exact.precision : Int) = 999999999999999999 := rfl
  have found := unitScale_of_contains admissible unit
  have coarse : -scale ≤ Range.exact.maxExponent := by
    have notCoarse := (unitScale_eq_min found).2.1
    have high := admissible.high
    omega
  refine divide_of_bounded nonzero found some_digit few coarse ?_
  by_cases above : scale < -2
  · exact inside above
  · exact abs_roundHalfAway_quotient_lt nonzero coarse (by omega)

/-- An infinity has no quotient by a decimal. -/
theorem divide_infinite {negative : Bool} {result : Number} :
    divide range (.infinite negative) (.finite b) scale ≠ .ok result := by
  intro divided
  unfold divide at divided
  split at divided
  · cases divided
  · obtain ⟨_, _, divided⟩ := bind_eq_ok.mp divided
    obtain ⟨_, _, impossible⟩ := bind_eq_ok.mp (Fault.ofSignal_eq_ok.mp divided)
    cases impossible

end Division

open Division in
/-- **Division rounds once.** A finite quotient is refused where its digits cannot be provided.
Where they can and the range holds the unit `10 ^ (-scale)`, the quotient is found unless it leaves
the widest range, and is then the decimal that the exact quotient is rounded to. Results in such a
unit depend on the values of the operands alone, turn round with the sign of either, and keep the
order of dividends over a positive divisor. The everyday range holds the units of scales from
`-999999` to `1000026`. -/
theorem divide_rounds_once {range : Range} (admissible : range.Admissible) (scale : Int) :
    (∀ a b : Decimal, b.value ≠ 0 →
      let digits := max (a.adjusted - b.adjusted) 0 + scale + 3
      (¬(1 ≤ digits ∧ digits ≤ Range.exact.precision) →
        divide range (.finite a) (.finite b) scale = .error
          (if digits < -9223372036854775808 ∨ 9223372036854775807 < digits then .precisionUnbounded
          else .precisionOutOfRange)) ∧
      (1 ≤ digits → digits ≤ Range.exact.precision → range.Contains ⟨false, 1, -scale⟩ →
        (scale < -2 →
          |roundHalfAway scale (a.value / b.value)| < (10 : ℚ) ^ (Range.exact.maxExponent + 1)) →
        ∃ q : Decimal, divide range (.finite a) (.finite b) scale = .ok (.finite q) ∧
          q.IsRounded scale (a.value / b.value))) ∧
    (range.Contains ⟨false, 1, -scale⟩ →
      (∀ (a b : Decimal) (result : Number),
        divide range (.finite a) (.finite b) scale = .ok result →
          ∃ q : Decimal, result = .finite q ∧ q.IsRounded scale (a.value / b.value)) ∧
      (∀ (a a' b b' : Decimal) (result result' : Number), a.value = a'.value → b.value = b'.value →
        divide range (.finite a) (.finite b) scale = .ok result →
        divide range (.finite a') (.finite b') scale = .ok result' → result = result') ∧
      (∀ a b q : Decimal, divide range (.finite a) (.finite b) scale = .ok (.finite q) →
        divide range (.finite a.negate) (.finite b) scale = .ok (.finite q.mirrored) ∧
        divide range (.finite a) (.finite b.negate) scale = .ok (.finite q.mirrored)) ∧
      (∀ a a' b q q' : Decimal, 0 < b.value → a.value ≤ a'.value →
        divide range (.finite a) (.finite b) scale = .ok (.finite q) →
        divide range (.finite a') (.finite b) scale = .ok (.finite q') → q.value ≤ q'.value)) ∧
    (Range.ordinary.Contains ⟨false, 1, -scale⟩ ↔ -999999 ≤ scale ∧ scale ≤ 1000026) := by
  refine ⟨fun a b nonzero => ⟨divide_eq_error range nonzero, ?_⟩, fun unit => ⟨?_, ?_, ?_, ?_⟩,
    contains_unit_ordinary⟩
  · intro some_digit few unit inside
    exact ⟨a.quotient b scale, exists_divide admissible unit nonzero some_digit few inside,
      Decimal.isRounded_quotient nonzero scale⟩
  · intro a b result divided
    obtain ⟨nonzero, rfl⟩ := divide_eq_quotient admissible unit divided
    exact ⟨_, rfl, Decimal.isRounded_quotient nonzero scale⟩
  · intro a a' b b' result result' dividends divisors first second
    obtain ⟨nonzero, rfl⟩ := divide_eq_quotient admissible unit first
    obtain ⟨nonzero', rfl⟩ := divide_eq_quotient admissible unit second
    have rounded := Decimal.isRounded_quotient (a := a) nonzero scale
    rw [dividends, divisors] at rounded
    rw [rounded.unique (Decimal.isRounded_quotient nonzero' scale)]
  · intro a b q divided
    exact divide_negate divided
  · intro a a' b q q' above ordered first second
    obtain ⟨nonzero, shape⟩ := divide_eq_quotient admissible unit first
    obtain ⟨_, shape'⟩ := divide_eq_quotient admissible unit second
    rw [Number.finite.inj shape, Number.finite.inj shape', Decimal.value_quotient _ _ _ nonzero,
      Decimal.value_quotient _ _ _ nonzero]
    exact roundHalfAway_mono scale (div_le_div_of_nonneg_right ordered above.le)

/-- A negative dividend whose quotient lies in the middle between two units, found and turned
round. -/
theorem divide_rounds_once_tie :
    Range.ordinary.Admissible ∧ ∃ q : Decimal,
      divide .ordinary (.finite ⟨true, 15, -7⟩) (.finite (.ofInt 3)) 6 = .ok (.finite q) ∧
      q.IsRounded 6 (-1 / 2000000) ∧
      divide .ordinary (.finite ⟨false, 15, -7⟩) (.finite (.ofInt 3)) 6 =
        .ok (.finite q.mirrored) := by
  have three : (Decimal.ofInt 3).value = 3 := Decimal.value_ofInt 3
  have dividend : (⟨true, 15, -7⟩ : Decimal).value = -15 * (10 : ℚ) ^ (-7 : Int) := by
    rw [Decimal.value_eq]
    norm_num [Decimal.significand]
  obtain ⟨each, inUnit, _⟩ := divide_rounds_once Range.admissible_ordinary 6
  obtain ⟨_, found⟩ := each ⟨true, 15, -7⟩ (.ofInt 3) (by rw [three]; norm_num)
  obtain ⟨q, divided, rounded⟩ := found (by decide) (by decide) (by decide) fun coarse => by omega
  obtain ⟨_, _, opposite, _⟩ := inUnit (by decide)
  rw [dividend, three] at rounded
  refine ⟨Range.admissible_ordinary, q, divided, ?_, (opposite _ _ _ divided).1⟩
  have quotient : -15 * (10 : ℚ) ^ (-7 : Int) / 3 = -1 / 2000000 := by norm_num
  rwa [quotient] at rounded

/-- A number of digits below one beyond a machine word is refused in another way than one within;
more digits than arithmetic provides for are refused although result and unit lie in the range; and
a range whose exponents go further down than up has units that are not found. -/
theorem divide_unprovided :
    (Division.digitsNeeded (.finite .one) (.finite .one) (-100000000000000000000) < 1 ∧
      divide .ordinary (.finite .one) (.finite .one) (-100000000000000000000) =
        .error .precisionUnbounded) ∧
    (Range.ordinary.Contains ⟨false, 1, 0⟩ ∧
      Range.exact.Contains ⟨false, 1, 999999999999999999⟩ ∧
      divide .ordinary (.finite ⟨false, 1, 999999999999999999⟩) (.finite .one) 0 =
        .error .precisionOutOfRange) ∧
    (Range.Contains ⟨28, 0, -999999, .overflow⟩ ⟨false, 1, -100⟩ ∧
      divide ⟨28, 0, -999999, .overflow⟩ (.finite .one) (.finite .one) 100 =
        .error (.signal .invalidOperation)) := by
  decide +kernel

end ExactQuadrature

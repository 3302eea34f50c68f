import ExactQuadrature.Decimal.Arithmetic

/-! # The order of decimals in a common unit

The order of two decimals is that of their numbers of units, for any unit that is no coarser than
either. Comparing leading digits first is therefore only a shortcut. -/

namespace ExactQuadrature

namespace Decimal

/-- The signed number of units is the magnitude with the sign. -/
theorem unitsAt_eq (d : Decimal) (exponent : Int) :
    d.unitsAt exponent =
      if d.negative then -(d.magnitudeAt exponent : Int) else d.magnitudeAt exponent := by
  rw [unitsAt_eq_mul]
  unfold magnitudeAt significand
  cases d.negative <;>
    simp only [Bool.false_eq_true, if_true, if_false, Int.natCast_mul, Int.neg_mul]

/-- A magnitude in a finer unit is a multiple of that in a coarser one. -/
theorem magnitudeAt_finer (d : Decimal) {fine coarse : Int} (finer : fine ≤ coarse)
    (within : coarse ≤ d.exponent) :
    d.magnitudeAt fine = d.magnitudeAt coarse * tenPow (coarse - fine).toNat := by
  unfold magnitudeAt
  rw [Nat.mul_assoc, ← tenPow_add]
  congr 2
  omega

/-- A nonzero natural number is at least the power of ten of its leading digit. -/
theorem tenPow_le_of_ne_zero {n : Nat} (nonzero : n ≠ 0) : tenPow (digitCount n - 1) ≤ n := by
  by_cases single : digitCount n = 1
  · rw [single]
    exact Nat.one_le_iff_ne_zero.mpr nonzero
  · have many : 0 < digitCount n - 1 := by
      have := digitCount_pos n
      omega
    have notFewer : ¬digitCount n ≤ digitCount n - 1 := by omega
    rw [digitCount_le_iff many] at notFewer
    omega

/-- A lower leading digit means a smaller magnitude, in every unit. -/
theorem magnitudeAt_lt_of_adjusted {a b : Decimal} {exponent : Int} (first : exponent ≤ a.exponent)
    (second : exponent ≤ b.exponent) (nonzero : b.coefficient ≠ 0)
    (lower : a.adjusted < b.adjusted) : a.magnitudeAt exponent < b.magnitudeAt exponent := by
  unfold adjusted at lower
  unfold magnitudeAt
  have above := lt_tenPow_digitCount a.coefficient
  have below := tenPow_le_of_ne_zero nonzero
  have counted := digitCount_pos b.coefficient
  calc a.coefficient * tenPow (a.exponent - exponent).toNat
      < tenPow (digitCount a.coefficient) * tenPow (a.exponent - exponent).toNat :=
        Nat.mul_lt_mul_of_pos_right above (tenPow_pos _)
    _ = tenPow (digitCount a.coefficient + (a.exponent - exponent).toNat) :=
        (tenPow_add _ _).symm
    _ ≤ tenPow (digitCount b.coefficient - 1 + (b.exponent - exponent).toNat) :=
        tenPow_le_tenPow (by omega)
    _ = tenPow (digitCount b.coefficient - 1) * tenPow (b.exponent - exponent).toNat :=
        tenPow_add _ _
    _ ≤ b.coefficient * tenPow (b.exponent - exponent).toNat := Nat.mul_le_mul_right _ below

/-- A common positive factor does not change an order. -/
theorem compare_mul_right (m n factor : Nat) (positive : 0 < factor) :
    compare (m * factor) (n * factor) = compare m n := by
  rcases Nat.lt_trichotomy m n with less | equal | greater
  · rw [Nat.compare_eq_lt.mpr less,
      Nat.compare_eq_lt.mpr (Nat.mul_lt_mul_of_pos_right less positive)]
  · rw [equal, Nat.compare_eq_eq.mpr rfl, Nat.compare_eq_eq.mpr rfl]
  · rw [Nat.compare_eq_gt.mpr greater,
      Nat.compare_eq_gt.mpr (Nat.mul_lt_mul_of_pos_right greater positive)]

/-- Only a zero has no units. -/
theorem magnitudeAt_eq_zero {d : Decimal} (exponent : Int) :
    d.magnitudeAt exponent = 0 ↔ d.coefficient = 0 := by
  unfold magnitudeAt
  rw [Nat.mul_eq_zero]
  exact or_iff_left (Nat.ne_of_gt (tenPow_pos _))

/-- Magnitudes are in the order of their units. -/
theorem compareMagnitude_eq (a b : Decimal) {exponent : Int} (first : exponent ≤ a.exponent)
    (second : exponent ≤ b.exponent) :
    compareMagnitude a b = compare (a.magnitudeAt exponent) (b.magnitudeAt exponent) := by
  unfold compareMagnitude
  split
  · next some_zero =>
    simp only [isZero, Bool.or_eq_true, beq_iff_eq] at some_zero
    rcases some_zero with zero | zero
    · rw [(magnitudeAt_eq_zero exponent).mpr zero, zero]
      by_cases other : b.coefficient = 0
      · rw [(magnitudeAt_eq_zero exponent).mpr other, other]
      · have some_units := mt (magnitudeAt_eq_zero exponent).mp other
        rw [Nat.compare_eq_lt.mpr (by omega), Nat.compare_eq_lt.mpr (by omega)]
    · rw [(magnitudeAt_eq_zero exponent).mpr zero, zero]
      by_cases other : a.coefficient = 0
      · rw [(magnitudeAt_eq_zero exponent).mpr other, other]
      · have some_units := mt (magnitudeAt_eq_zero exponent).mp other
        rw [Nat.compare_eq_gt.mpr (by omega), Nat.compare_eq_gt.mpr (by omega)]
  · next nonzero =>
    simp only [isZero, Bool.or_eq_true, beq_iff_eq, not_or] at nonzero
    split
    · next different =>
      rcases Int.lt_or_gt_of_ne different with lower | higher
      · rw [Int.compare_eq_lt.mpr lower, Nat.compare_eq_lt.mpr
          (magnitudeAt_lt_of_adjusted first second nonzero.2 lower)]
      · rw [Int.compare_eq_gt.mpr higher, Nat.compare_eq_gt.mpr
          (magnitudeAt_lt_of_adjusted second first nonzero.1 higher)]
    · dsimp only
      have finer : exponent ≤ min a.exponent b.exponent := by omega
      rw [magnitudeAt_finer a finer (by omega), magnitudeAt_finer b finer (by omega),
        compare_mul_right _ _ _ (tenPow_pos _)]

/-- Decimals are in the order of their signed units. -/
theorem order_eq (a b : Decimal) {exponent : Int} (first : exponent ≤ a.exponent)
    (second : exponent ≤ b.exponent) :
    order a b = compare (a.unitsAt exponent) (b.unitsAt exponent) := by
  have zeroUnits : ∀ d : Decimal, d.isZero = true → d.magnitudeAt exponent = 0 := by
    intro d zero
    exact (magnitudeAt_eq_zero exponent).mpr (by simpa only [isZero, beq_iff_eq] using zero)
  have someUnits : ∀ d : Decimal, ¬d.isZero = true → 0 < d.magnitudeAt exponent := by
    intro d nonzero
    refine Nat.pos_of_ne_zero (mt (magnitudeAt_eq_zero exponent).mp ?_)
    simpa only [isZero, beq_iff_eq] using nonzero
  rw [unitsAt_eq, unitsAt_eq]
  unfold order
  by_cases zeroA : a.isZero = true
  · by_cases zeroB : b.isZero = true
    · simp [zeroA, zeroB, zeroUnits a zeroA, zeroUnits b zeroB]
    · have positive := someUnits b zeroB
      cases b.negative
      · simp only [zeroA, zeroB, zeroUnits a zeroA, Bool.and_false, if_false, if_true,
          Bool.false_eq_true, ite_self, Int.natCast_zero, Int.neg_zero]
        exact (Int.compare_eq_lt.mpr (by omega)).symm
      · simp only [zeroA, zeroB, zeroUnits a zeroA, Bool.and_false, if_false, if_true,
          Bool.false_eq_true, ite_self, Int.natCast_zero, Int.neg_zero]
        exact (Int.compare_eq_gt.mpr (by omega)).symm
  · have positiveA := someUnits a zeroA
    by_cases zeroB : b.isZero = true
    · cases a.negative
      · simp only [zeroA, zeroB, zeroUnits b zeroB, Bool.false_and, if_false, if_true,
          Bool.false_eq_true, ite_self, Int.natCast_zero, Int.neg_zero]
        exact (Int.compare_eq_gt.mpr (by omega)).symm
      · simp only [zeroA, zeroB, zeroUnits b zeroB, Bool.false_and, if_false, if_true,
          Bool.false_eq_true, ite_self, Int.natCast_zero, Int.neg_zero]
        exact (Int.compare_eq_lt.mpr (by omega)).symm
    · have positiveB := someUnits b zeroB
      simp only [zeroA, zeroB, Bool.false_and, Bool.false_eq_true, if_false]
      cases a.negative <;> cases b.negative <;> simp only [if_true, if_false, Bool.false_eq_true]
      · rw [compareMagnitude_eq a b first second]
        rcases Nat.lt_trichotomy (a.magnitudeAt exponent) (b.magnitudeAt exponent)
          with less | equal | greater
        · rw [Nat.compare_eq_lt.mpr less, Int.compare_eq_lt.mpr (by omega)]
        · rw [Nat.compare_eq_eq.mpr equal, Int.compare_eq_eq.mpr (by omega)]
        · rw [Nat.compare_eq_gt.mpr greater, Int.compare_eq_gt.mpr (by omega)]
      · exact (Int.compare_eq_gt.mpr (by omega)).symm
      · exact (Int.compare_eq_lt.mpr (by omega)).symm
      · rw [compareMagnitude_eq b a second first]
        rcases Nat.lt_trichotomy (b.magnitudeAt exponent) (a.magnitudeAt exponent)
          with less | equal | greater
        · rw [Nat.compare_eq_lt.mpr less, Int.compare_eq_lt.mpr (by omega)]
        · rw [Nat.compare_eq_eq.mpr equal, Int.compare_eq_eq.mpr (by omega)]
        · rw [Nat.compare_eq_gt.mpr greater, Int.compare_eq_gt.mpr (by omega)]

/-- The strict order is that of signed units. -/
theorem lessThan_iff (a b : Decimal) {exponent : Int} (first : exponent ≤ a.exponent)
    (second : exponent ≤ b.exponent) :
    a.lessThan b = true ↔ a.unitsAt exponent < b.unitsAt exponent := by
  unfold lessThan
  rw [order_eq a b first second, beq_iff_eq, Int.compare_eq_lt]

/-- The units of a sum are those of its operands together. -/
theorem unitsAt_add (a b : Decimal) {exponent : Int} (first : exponent ≤ a.exponent)
    (second : exponent ≤ b.exponent) :
    (a.add b).unitsAt exponent = a.unitsAt exponent + b.unitsAt exponent := by
  have finer : ∀ d : Decimal, min a.exponent b.exponent ≤ d.exponent →
      d.unitsAt exponent =
        d.unitsAt (min a.exponent b.exponent) *
          tenPow (min a.exponent b.exponent - exponent).toNat := by
    intro d coarser
    rw [unitsAt_eq_mul, unitsAt_eq_mul, Int.mul_assoc, ← Int.natCast_mul, ← tenPow_add]
    congr 3
    omega
  rw [finer a (by omega), finer b (by omega), ← Int.add_mul, ← significand_add, unitsAt_eq_mul,
    exponent_add]

end Decimal

end ExactQuadrature

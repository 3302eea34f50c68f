import ExactQuadrature.Proofs.Quadrature.StepWidth

/-! # The points of a grid

The `k`-th point of a grid lies exactly `k` steps above the lower bound. The number of points below
the upper bound is the number of steps that fit into the interval, rounded up, and the points
that a grid walks are the ones with lower numbers, in order (`Grid.points_eq`).
-/

namespace ExactQuadrature

namespace Grid

/-- The point reached after a number of steps. -/
def point (grid : Grid) : Nat → Decimal
  | 0 => grid.lower
  | k + 1 => (grid.point k).add grid.width

/-- The number of steps that fit into the interval, rounded up. -/
def stepCount (grid : Grid) : Nat :=
  ⌈(grid.upper.value - grid.lower.value) / grid.width.value⌉₊

theorem point_succ (grid : Grid) (k : Nat) :
    grid.point (k + 1) = (grid.point k).add grid.width := rfl

/-- Steps are added without rounding. -/
theorem value_point (grid : Grid) (k : Nat) :
    (grid.point k).value = grid.lower.value + k * grid.width.value := by
  induction k with
  | zero => rw [Nat.cast_zero, zero_mul, add_zero, point]
  | succ k ih =>
    rw [point_succ, Decimal.value_add, ih]
    push_cast
    ring

/-- The points below the upper bound are those numbered below the number of steps. -/
theorem point_lt_upper_iff (grid : Grid) (k : Nat) :
    (grid.point k).value < grid.upper.value ↔ k < grid.stepCount := by
  unfold stepCount
  rw [Nat.lt_ceil, lt_div_iff₀ grid.width_pos, value_point, lt_sub_iff_add_lt, add_comm]

/-- From some point onwards a grid walks the points with higher numbers, up to the number of steps.
-/
theorem pointsFrom_point (grid : Grid) (k n : Nat) (total : k + n = grid.stepCount) :
    grid.pointsFrom (grid.point k) = (List.range' k n).map grid.point := by
  induction n generalizing k with
  | zero =>
    have atEnd : ¬(grid.point k).lessThan grid.upper = true := by
      rw [Decimal.lessThan_iff_value, point_lt_upper_iff]
      omega
    rw [pointsFrom, dif_neg atEnd]
    rfl
  | succ n ih =>
    have below : (grid.point k).lessThan grid.upper = true := by
      rw [Decimal.lessThan_iff_value, point_lt_upper_iff]
      omega
    rw [pointsFrom, dif_pos below, ← point_succ, ih (k + 1) (by omega), List.range'_succ,
      List.map_cons]

/-- A grid walks its points in order, up to the last one below the upper bound. -/
theorem points_eq (grid : Grid) : grid.points = (List.range grid.stepCount).map grid.point := by
  unfold points
  rw [List.range_eq_range', ← pointsFrom_point grid 0 grid.stepCount (Nat.zero_add _)]
  rfl

end Grid

end ExactQuadrature

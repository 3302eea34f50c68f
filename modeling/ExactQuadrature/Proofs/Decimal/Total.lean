import ExactQuadrature.Proofs.Decimal.Alike
import Mathlib.Algebra.BigOperators.Group.List.Basic

/-! # Totals of decimals

A total is what decimals come to when they are added to zero one after the other. It has the sum of
their values, the finest of their units as far as that is not above one, and no minus sign if it is
a zero. Nothing else has these (`Decimal.eq_total`), so a total depends neither on the order nor on
the grouping of the decimals, down to its coefficient and its exponent (`Decimal.total_perm` and
`Decimal.total_add_total`).
-/

namespace ExactQuadrature

namespace Decimal

variable {d : Decimal} {ds es : List Decimal}

/-- The sum of decimals, added to zero one after the other. -/
def total (ds : List Decimal) : Decimal := ds.foldl add zero

/-- The finest exponent of some decimals, or zero if all are above it. -/
def finest (ds : List Decimal) : Int := (ds.map exponent).foldr min 0

theorem total_snoc (ds : List Decimal) (d : Decimal) : total (ds ++ [d]) = (total ds).add d := by
  unfold total
  rw [List.foldl_append]
  rfl

theorem finest_cons (d : Decimal) (ds : List Decimal) :
    finest (d :: ds) = min d.exponent (finest ds) := rfl

/-- The finest unit is no coarser than one. -/
theorem finest_nonpos (ds : List Decimal) : finest ds ≤ 0 := by
  induction ds with
  | nil => exact le_rfl
  | cons d rest ih => exact (min_le_right _ _).trans ih

theorem finest_append (ds es : List Decimal) : finest (ds ++ es) = min (finest ds) (finest es) := by
  induction ds with
  | nil => exact (min_eq_right (finest_nonpos es)).symm
  | cons d rest ih => rw [List.cons_append, finest_cons, ih, finest_cons, min_assoc]

/-- A bound on every exponent is one on the finest. -/
theorem le_finest {bound : Int} (nonpos : bound ≤ 0) (each : ∀ d ∈ ds, bound ≤ d.exponent) :
    bound ≤ finest ds := by
  induction ds with
  | nil => exact nonpos
  | cons d rest ih =>
    obtain ⟨own, others⟩ := List.forall_mem_cons.mp each
    exact le_min own (ih others)

/-- The total has the sum of the values. -/
@[simp] theorem value_total (ds : List Decimal) : (total ds).value = (ds.map value).sum := by
  induction ds using List.reverseRecOn with
  | nil => exact value_zero
  | append_singleton ds d ih =>
    rw [total_snoc, value_add, ih, List.map_append, List.sum_append, List.map_singleton,
      List.sum_singleton]

/-- The total is in the finest unit. -/
@[simp] theorem exponent_total (ds : List Decimal) : (total ds).exponent = finest ds := by
  induction ds using List.reverseRecOn with
  | nil => rfl
  | append_singleton ds d ih =>
    have last : finest [d] = min d.exponent 0 := rfl
    rw [total_snoc, exponent_add, ih, finest_append, last, min_comm d.exponent, ← min_assoc,
      min_eq_left (finest_nonpos ds)]

/-- A total of zero carries no sign. -/
theorem unsigned_total (ds : List Decimal) : (total ds).UnsignedZero := by
  induction ds using List.reverseRecOn with
  | nil => exact fun _ => rfl
  | append_singleton ds d ih =>
    rw [total_snoc]
    exact ih.add d

/-- **Totals are determined** by their value and their unit. -/
theorem eq_total (unsigned : d.UnsignedZero) (value : d.value = (ds.map Decimal.value).sum)
    (unit : d.exponent = finest ds) : d = total ds := by
  have alike : d.Alike (total ds) :=
    ⟨value.trans (value_total ds).symm, unit.trans (exponent_total ds).symm⟩
  exact alike.eq_of_unsigned unsigned (unsigned_total ds)

/-- The order does not matter. -/
theorem total_perm (perm : ds.Perm es) : total ds = total es := by
  refine eq_total (unsigned_total ds) ?_ ?_
  · rw [value_total]
    exact (perm.map value).sum_eq
  · rw [exponent_total]
    exact (perm.map exponent).foldr_eq 0

/-- The grouping does not matter. -/
theorem total_add_total (ds es : List Decimal) : (total ds).add (total es) = total (ds ++ es) := by
  refine eq_total ((unsigned_total ds).add _) ?_ ?_
  · rw [value_add, value_total, value_total, List.map_append, List.sum_append]
  · rw [exponent_add, exponent_total, exponent_total, finest_append]

/-- Added to zero, a total is left as it is. -/
theorem total_total (ds : List Decimal) : total [total ds] = total ds := total_add_total [] ds

/-- Zeros in the unit one do not matter. -/
theorem total_append_zero (ds : List Decimal) : total (ds ++ [zero]) = total ds := by
  have single : total [zero] = total [] := by decide
  rw [← total_add_total, single, total_add_total, List.append_nil]

/-- Every decimal adds one digit at most. -/
theorem abs_value_total_lt {whole : Nat} (each : ∀ d ∈ ds, |d.value| < 10 ^ whole) :
    |(total ds).value| < 10 ^ (whole + ds.length) := by
  rw [value_total]
  induction ds with
  | nil =>
    rw [List.map_nil, List.sum_nil, abs_zero]
    positivity
  | cons d rest ih =>
    obtain ⟨own, others⟩ := List.forall_mem_cons.mp each
    have later := ih others
    have triangle := abs_add_le d.value (rest.map value).sum
    have wider : (10 : ℚ) ^ whole ≤ 10 ^ (whole + rest.length) :=
      pow_le_pow_right₀ (by norm_num) (Nat.le_add_right _ _)
    rw [List.map_cons, List.sum_cons, List.length_cons, ← add_assoc, pow_succ]
    linarith [pow_pos (by norm_num : (0 : ℚ) < 10) (whole + rest.length)]

end Decimal

/-- A decimal with few digits lies in the widest range as it stands. -/
theorem Range.contains_of_digits {d : Decimal} {whole places : Nat} (below : |d.value| < 10 ^ whole)
    (fine : -(places : Int) ≤ d.exponent) (coarse : d.exponent ≤ 0)
    (few : whole + places ≤ Range.exact.precision) : Range.exact.Contains d := by
  have precision : Range.exact.precision = 999999999999999999 := rfl
  have highest : Range.exact.maxExponent = 999999999999999999 := rfl
  have tiny : Range.exact.tiny = -1999999999999999997 := rfl
  refine ⟨by omega, ?_⟩
  split
  · omega
  · next counted =>
    have nonzero : d.value ≠ 0 := by rwa [Ne, Decimal.value_eq_zero_iff]
    have leading : d.adjusted < (whole : Int) := by
      rwa [Decimal.adjusted_lt_iff nonzero, zpow_natCast]
    have digits : d.adjusted = d.exponent + digitCount d.coefficient - 1 := rfl
    omega

end ExactQuadrature

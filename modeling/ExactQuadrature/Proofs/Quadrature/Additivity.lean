import ExactQuadrature.Proofs.Polynomial.Addition
import ExactQuadrature.Proofs.Quadrature.Comparison

/-! # Integrals of sums

At every point a sum of polynomials has the sum of their values. A rectangle over it is therefore as
large as the two rectangles over its terms, while the trapezoids are rounded one by one and may
differ by one unit (`Rule.abs_areaValue_add_sub_le`). Over all steps the integral of a sum by
rectangles is exactly the sum of the integrals, and by trapezoids it differs by one unit for every
step at most (`Polynomial.integrals_add`).
-/

namespace ExactQuadrature

open Finset

namespace Rule

/-- How often an area is rounded. -/
def roundings : Rule → Nat
  | rectangles => 0
  | trapezoids => 1

/-- **One step.** The area over a sum differs from the areas over its terms by a unit for every
rounding. -/
theorem abs_areaValue_add_sub_le (rule : Rule) (scale : Int) {f g h : ℚ → ℚ}
    (sum : ∀ x, h x = f x + g x) (width x : ℚ) :
    |rule.areaValue scale h width x -
        (rule.areaValue scale f width x + rule.areaValue scale g width x)| ≤
      rule.roundings * (10 : ℚ) ^ (-scale) := by
  cases rule with
  | rectangles =>
    simp only [areaValue, roundings, sum, mul_add, sub_self, abs_zero, Nat.cast_zero, zero_mul,
      le_refl]
  | trapezoids =>
    have split : width * (h x + h (x + width)) / 2 =
        width * (f x + f (x + width)) / 2 + width * (g x + g (x + width)) / 2 := by
      rw [sum, sum]
      ring
    simp only [areaValue, roundings, split, Nat.cast_one, one_mul]
    exact abs_roundHalfAway_add_sub_le scale _ _

/-- **All steps.** -/
theorem abs_sum_areaValue_add_sub_le (rule : Rule) (scale : Int) {f g h : ℚ → ℚ}
    (sum : ∀ x, h x = f x + g x) (width : ℚ) (point : Nat → ℚ) (n : Nat) :
    |∑ k ∈ range n, rule.areaValue scale h width (point k) -
        (∑ k ∈ range n, rule.areaValue scale f width (point k) +
          ∑ k ∈ range n, rule.areaValue scale g width (point k))| ≤
      n * (rule.roundings * (10 : ℚ) ^ (-scale)) := by
  rw [← sum_add_distrib]
  exact abs_sum_sub_sum_le (fun k => rule.abs_areaValue_add_sub_le scale sum width (point k)) n

end Rule

namespace Polynomial

variable {p q r : Polynomial} {ds es : List Decimal} {scale : Int} {stepping : Stepping}
  {lower upper : Operand} {l u width : Number}

/-- The integral of a sum is near the sum of the integrals. -/
theorem near_sum (finiteP : p.coefficients = ds.map .finite)
    (finiteQ : q.coefficients = es.map .finite)
    (added : p.add q = .ok r) (offered : Grid.Offered stepping lower upper scale l u width)
    {grid : Grid} (made : Grid.make stepping l u = .ok grid)
    {rule : Rule} {R P Q : Number} (whole : r.integral rule stepping lower upper = .ok R)
    (first : p.integral rule stepping lower upper = .ok P)
    (second : q.integral rule stepping lower upper = .ok Q) :
    ∃ x y z : Decimal, R = .finite x ∧ P = .finite y ∧ Q = .finite z ∧
      |x.value - (y.value + z.value)| ≤
        grid.stepCount * (rule.roundings * (10 : ℚ) ^ (-scale)) := by
  obtain ⟨cs, finiteR, values⟩ := exactValue_of_add finiteP finiteQ added
  obtain ⟨x, rfl, xValue⟩ := value_integral finiteR offered made whole
  obtain ⟨y, rfl, yValue⟩ := value_integral finiteP offered made first
  obtain ⟨z, rfl, zValue⟩ := value_integral finiteQ offered made second
  refine ⟨x, y, z, rfl, rfl, rfl, ?_⟩
  rw [xValue, yValue, zValue]
  exact rule.abs_sum_areaValue_add_sub_le scale values _ _ _

/-- Coefficients of few digits have sums, with one digit more. -/
theorem exists_add_sized {length : Nat} (sizedP : p.Sized length) (sizedQ : q.Sized length)
    (few : 2 * length + 1 ≤ Range.exact.precision) :
    ∃ r, p.add q = .ok r ∧ r.Sized (length + 1) ∧ r.degree = max p.degree q.degree := by
  obtain ⟨ds, finiteP, eachP⟩ := sizedP
  obtain ⟨es, finiteQ, eachQ⟩ := sizedQ
  have digits : ∀ {fs : List Decimal}, (∀ d ∈ fs, d.Sized length length 1) → ∀ place,
      DigitsWithin length length (fs.getD place .zero).value := by
    intro fs each place
    rw [List.getD_eq_getElem?_getD]
    cases there : fs[place]? with
    | none => exact (Decimal.Sized.zero le_rfl).digits
    | some d => exact (each d (List.mem_of_getElem? there)).digits
  have found : ∃ r, p.add q = .ok r := by
    refine exists_add fun place _ => ?_
    rw [finiteP, finiteQ]
    exact exists_addTerms (placeHolds_getD ds place) (placeHolds_getD es place)
      ((digits eachP place).represents (by omega))
      (((digits eachP place).add (digits eachQ place)).represents (by omega))
  obtain ⟨r, added⟩ := found
  obtain ⟨cs, finiteR, total, values, collected⟩ := coefficients_of_add finiteP finiteQ added
  refine ⟨r, added, ⟨cs, finiteR, ?_⟩, ?_⟩
  · intro c present
    obtain ⟨place, there⟩ := List.mem_iff_getElem?.mp present
    have value := values place
    rw [List.getD_eq_getElem?_getD, there, Option.getD_some] at value
    have sum := (digits eachP place).add (digits eachQ place)
    rw [← value] at sum
    exact ⟨sum.mono le_rfl (Nat.le_succ length), (collected c present).unit⟩
  · simp only [degree, finiteP, finiteQ, finiteR, List.length_map, total]
    omega

/-- A polynomial of some number of digits is one of more digits too. -/
theorem Sized.mono {length more : Nat} (sized : p.Sized length) (longer : length ≤ more) :
    p.Sized more := by
  obtain ⟨ds, finite, each⟩ := sized
  exact ⟨ds, finite, fun d present => (each d present).mono longer longer le_rfl⟩

/-- **Integration respects addition.** Where the bounds have a step width, the integral by
rectangles that is found for a sum of two polynomials has exactly the sum of the values of their
integrals, and the one by trapezoids differs from that by one unit for every step at most. If bounds
and coefficients have few digits, the sum and all integrals are found. -/
theorem integrals_add (finiteP : p.coefficients = ds.map .finite)
    (finiteQ : q.coefficients = es.map .finite)
    (offered : Grid.Offered stepping lower upper scale l u width) :
    ∃ a b dx : Decimal, l = .finite a ∧ u = .finite b ∧ width = .finite dx ∧
      let steps := ⌈(b.value - a.value) / dx.value⌉₊
      (∀ sum, p.add q = .ok sum → ∀ (rule : Rule) whole first second R P Q,
        (sum.integrate rule stepping lower upper).outcome whole = .ok R →
        (p.integrate rule stepping lower upper).outcome first = .ok P →
        (q.integrate rule stepping lower upper).outcome second = .ok Q →
          ∃ x y z : Decimal, R = .finite x ∧ P = .finite y ∧ Q = .finite z ∧
            (rule = .rectangles → x.value = y.value + z.value) ∧
            |x.value - (y.value + z.value)| ≤ steps * (10 : ℚ) ^ (-scale)) ∧
      (∀ length, p.Sized length → q.Sized length → a.Sized length length 0 →
          b.Sized length length 0 →
        demand (length + 1) (max p.degree q.degree) ≤ Range.exact.precision →
          ∃ sum, p.add q = .ok sum ∧ ∀ (rule : Rule) (journal : Journal),
            (∃ R, (sum.integrate rule stepping lower upper).outcome journal = .ok R) ∧
            (∃ P, (p.integrate rule stepping lower upper).outcome journal = .ok P) ∧
            ∃ Q, (q.integrate rule stepping lower upper).outcome journal = .ok Q) := by
  obtain ⟨grid, made, rfl, rfl, rfl⟩ := offered.exists_grid
  refine ⟨grid.lower, grid.upper, grid.width, rfl, rfl, rfl, ?_, ?_⟩
  · intro sum added rule whole first second R P Q foundR foundP foundQ
    rw [(yields_integral _ _ _ _ _).outcome] at foundR foundP foundQ
    obtain ⟨x, y, z, rfl, rfl, rfl, near⟩ :=
      near_sum finiteP finiteQ added offered made foundR foundP foundQ
    refine ⟨x, y, z, rfl, rfl, rfl, ?_, near.trans ?_⟩
    · rintro rfl
      rw [Rule.roundings, Nat.cast_zero, zero_mul, mul_zero] at near
      exact sub_eq_zero.mp (abs_nonpos_iff.mp near)
    · have once : (rule.roundings : ℚ) ≤ 1 := by cases rule <;> simp [Rule.roundings]
      exact mul_le_mul_of_nonneg_left (mul_le_of_le_one_left (zpow_ten_pos _).le once)
        (Nat.cast_nonneg _)
  · intro length sizedP sizedQ lowerSized upperSized few
    have small : 2 * length + 1 ≤ Range.exact.precision := by
      rw [demand_eq] at few
      omega
    obtain ⟨sum, added, sizedSum, degree⟩ := exists_add_sized sizedP sizedQ small
    -- All three polynomials are taken to have as many digits and places as the sum may have.
    have each : ∀ s : Polynomial, s.Sized (length + 1) → s.degree ≤ max p.degree q.degree →
        ∀ (rule : Rule) (journal : Journal),
          ∃ total, (s.integrate rule stepping lower upper).outcome journal = .ok total :=
      fun s sized below => integrate_found offered sized
        (lowerSized.mono (Nat.le_succ _) (Nat.le_succ _) le_rfl)
        (upperSized.mono (Nat.le_succ _) (Nat.le_succ _) le_rfl) ((demand_mono _ below).trans few)
    exact ⟨sum, added, fun rule journal => ⟨each sum sizedSum degree.le rule journal,
      each p (sizedP.mono (Nat.le_succ _)) (le_max_left _ _) rule journal,
      each q (sizedQ.mono (Nat.le_succ _)) (le_max_right _ _) rule journal⟩⟩

/-- A constant of half a unit for every step, added to itself: both trapezoids over it are rounded
up, and those over the sum are not rounded. The integrals differ by as much as they may. -/
theorem integrals_add_constants :
    let constant : Polynomial := ⟨[.finite ⟨false, 1, -3⟩], List.cons_ne_nil _ _⟩
    ∃ (sum : Polynomial) (x y : Decimal), constant.add constant = .ok sum ∧
      (sum.integrate .trapezoids (.ofWhole 2 3) (.whole 0) (.text "1")).outcome
        (Journal.new false []) = .ok (.finite x) ∧
      (constant.integrate .trapezoids (.ofWhole 2 3) (.whole 0) (.text "1")).outcome
        (Journal.new false []) = .ok (.finite y) ∧
      x ≠ y.add y ∧ |x.value - (y.value + y.value)| ≤ 2 / 1000 := by
  intro constant
  have added : constant.add constant =
      .ok ⟨[.finite ⟨false, 2, -3⟩], List.cons_ne_nil _ _⟩ := by decide +kernel
  have ofSum :
      ((⟨[.finite ⟨false, 2, -3⟩], List.cons_ne_nil _ _⟩ : Polynomial).integrate .trapezoids
      (.ofWhole 2 3) (.whole 0) (.text "1")).outcome (Journal.new false []) =
        .ok (.finite ⟨false, 2, -3⟩) := by decide +kernel
  have ofTerm : (constant.integrate .trapezoids (.ofWhole 2 3) (.whole 0) (.text "1")).outcome
      (Journal.new false []) = .ok (.finite ⟨false, 2, -3⟩) := by decide +kernel
  have finite : constant.coefficients = [⟨false, 1, -3⟩].map Number.finite := rfl
  obtain ⟨a, b, dx, lower, upper, width, near, _⟩ :=
    integrals_add finite finite offered_halves
  obtain rfl := Number.finite.inj lower
  obtain rfl := Number.finite.inj upper
  obtain rfl := Number.finite.inj width
  obtain ⟨x, y, z, xShape, yShape, zShape, _, bounded⟩ :=
    near _ added .trapezoids _ _ _ _ _ _ ofSum ofTerm ofTerm
  obtain rfl := Number.finite.inj xShape
  obtain rfl := Number.finite.inj yShape
  obtain rfl := Number.finite.inj zShape
  refine ⟨_, _, _, added, ofSum, ofTerm, by decide, bounded.trans ?_⟩
  rw [value_half, Decimal.value_one, Decimal.value_zero]
  norm_num

end Polynomial

end ExactQuadrature

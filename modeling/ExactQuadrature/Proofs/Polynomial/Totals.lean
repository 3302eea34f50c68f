import ExactQuadrature.Proofs.Decimal.Total
import ExactQuadrature.Proofs.Polynomial.Agreement

/-! # Sums of polynomials down to the representation

A sum of polynomials is built place by place, and at every place the coefficients of all operands
make up a column. As long as the totals of columns lie in the widest range as they stand, the sum
has exactly these totals as its coefficients (`Polynomial.StandsFor.add`), and polynomials with the
same totals are the same (`Polynomial.IsTotal.unique`). So sums of polynomials inherit what holds of
totals: order and grouping do not matter, not even to exponents (`Polynomial.addition_laws`).
-/

namespace ExactQuadrature

namespace Polynomial

open Decimal (total finest)

variable {p q s t : Polynomial} {as bs : List (List Decimal)} {ds es fs : List Decimal}

/-- The coefficients that some lists have at a place. -/
def column (operands : List (List Decimal)) (place : Nat) : List Decimal :=
  operands.filterMap fun ds => ds[place]?

theorem column_append (as bs : List (List Decimal)) (place : Nat) :
    column (as ++ bs) place = column as place ++ column bs place := List.filterMap_append

/-- The column of one operand is its coefficient, if it has one. -/
theorem column_singleton (ds : List Decimal) (place : Nat) :
    column [ds] place = ds[place]?.toList := by
  unfold column
  rw [List.filterMap_cons]
  cases ds[place]? <;> rfl

/-- The total of a column, where any of the lists has a coefficient. -/
def totalAt? (operands : List (List Decimal)) (place : Nat) : Option Decimal :=
  if column operands place = [] then none else some (total (column operands place))

/-- Every coefficient is the total of its column. -/
def IsTotal (p : Polynomial) (operands : List (List Decimal)) : Prop :=
  ∀ place, p.coefficients[place]? = (totalAt? operands place).map .finite

/-- Every coefficient comes to the total of its column when it is added to zero. -/
def StandsFor (p : Polynomial) (operands : List (List Decimal)) : Prop :=
  ∀ place, ∃ x : Option Decimal, p.coefficients[place]? = x.map .finite ∧
    (x = none ↔ column operands place = []) ∧ total x.toList = total (column operands place)

/-- The totals of all columns lie in the widest range as they stand, with all their trailing
zeros. -/
def TotalsWithin (operands : List (List Decimal)) : Prop :=
  ∀ place, Range.exact.Contains (total (column operands place))

/-- Operands with the same totals are within the range alike. -/
theorem TotalsWithin.congr (within : TotalsWithin as)
    (same : ∀ place, total (column as place) = total (column bs place)) : TotalsWithin bs :=
  fun place => same place ▸ within place

/-- The order of the operands does not change the totals. -/
theorem total_column_perm (perm : as.Perm bs) (place : Nat) :
    total (column as place) = total (column bs place) := Decimal.total_perm (perm.filterMap _)

theorem totalAt?_perm (perm : as.Perm bs) (place : Nat) :
    totalAt? as place = totalAt? bs place := by
  have columns : (column as place).Perm (column bs place) := perm.filterMap _
  have empty : column as place = [] ↔ column bs place = [] := by
    rw [← List.length_eq_zero_iff, columns.length_eq, List.length_eq_zero_iff]
  simp only [totalAt?, empty, Decimal.total_perm columns]

/-- A polynomial stands for its own decimals. -/
theorem standsFor_singleton (finite : p.coefficients = ds.map .finite) : p.StandsFor [ds] := by
  intro place
  refine ⟨ds[place]?, by rw [finite, List.getElem?_map], ?_, by rw [column_singleton]⟩
  rw [column_singleton]
  cases ds[place]? with
  | none => exact ⟨fun _ => rfl, fun _ => rfl⟩
  | some d => exact ⟨nofun, nofun⟩

/-- A polynomial that is the total stands for its operands. -/
theorem IsTotal.standsFor (isTotal : p.IsTotal as) : p.StandsFor as := by
  intro place
  refine ⟨totalAt? as place, isTotal place, ?_⟩
  unfold totalAt?
  split
  · next empty =>
    rw [empty]
    exact ⟨⟨fun _ => rfl, fun _ => rfl⟩, rfl⟩
  · next present => exact ⟨⟨nofun, fun empty => absurd empty present⟩, Decimal.total_total _⟩

/-- Polynomials with the same totals are the same. -/
theorem IsTotal.unique (first : s.IsTotal as) (second : t.IsTotal bs)
    (same : ∀ place, totalAt? as place = totalAt? bs place) : s = t := by
  have coefficients : s.coefficients = t.coefficients := by
    refine List.ext_getElem? fun place => ?_
    rw [first place, second place, same place]
  obtain ⟨_, _⟩ := s
  obtain ⟨_, _⟩ := t
  cases coefficients
  rfl

/-- The decimals of a polynomial whose coefficients are totals. -/
theorem IsTotal.exists_decimals (isTotal : s.IsTotal as) :
    ∃ cs : List Decimal, s.coefficients = cs.map .finite ∧
        ∀ place, cs[place]? = totalAt? as place := by
  have each : ∀ c ∈ s.coefficients, ∃ d : Decimal, c = .finite d := by
    intro c present
    obtain ⟨place, there⟩ := List.mem_iff_getElem?.mp present
    rw [isTotal place] at there
    obtain ⟨d, _, shape⟩ := Option.map_eq_some_iff.mp there
    exact ⟨d, shape.symm⟩
  obtain ⟨cs, shape⟩ := exists_map_eq each
  refine ⟨cs, shape, fun place => ?_⟩
  have held := isTotal place
  rw [shape, List.getElem?_map] at held
  exact Option.map_injective (fun _ _ => Number.finite.inj) held

/-- Within the range the terms of one power add up to their total. -/
theorem addTerms_finite {x y : Option Decimal} (first : Range.exact.Contains (total x.toList))
    (both : Range.exact.Contains (total (x.toList ++ y.toList))) :
    addTerms (x.map .finite) (y.map .finite) = .ok (.finite (total (x.toList ++ y.toList))) := by
  have begins : (x.map Number.finite).elim (.ok .zero) (Number.add .zero) =
      .ok (.finite (total x.toList)) := by
    cases x with
    | none => rfl
    | some d => exact Number.add_finite first
  rw [addTerms_eq, begins, bind_ok]
  cases y with
  | none =>
    rw [Option.toList_none, List.append_nil]
    rfl
  | some e =>
    rw [Option.toList_some, Decimal.total_snoc] at both ⊢
    exact Number.add_finite both

/-- **Sums are totals.** Where the totals of the first operand and of both lie in the widest range,
two polynomials have a sum, and its coefficients are the totals of both. -/
theorem StandsFor.add (first : p.StandsFor as) (second : q.StandsFor bs) (own : TotalsWithin as)
    (both : TotalsWithin (as ++ bs)) : ∃ s, p.add q = .ok s ∧ s.IsTotal (as ++ bs) := by
  have places : ∀ place, addTerms p.coefficients[place]? q.coefficients[place]? =
      .ok (.finite (total (column (as ++ bs) place))) := by
    intro place
    obtain ⟨x, foundX, _, totalX⟩ := first place
    obtain ⟨y, foundY, _, totalY⟩ := second place
    have joint : total (x.toList ++ y.toList) = total (column (as ++ bs) place) := by
      rw [column_append, ← Decimal.total_add_total, totalX, totalY, Decimal.total_add_total]
    rw [foundX, foundY, ← joint]
    exact addTerms_finite (totalX ▸ own place) (joint ▸ both place)
  -- The sum reaches a place exactly if one of the operands does, and then the column is not empty.
  have reached : ∀ place, place < max p.coefficients.length q.coefficients.length ↔
      column (as ++ bs) place ≠ [] := by
    intro place
    obtain ⟨x, foundX, emptyX, _⟩ := first place
    obtain ⟨y, foundY, emptyY, _⟩ := second place
    rw [← not_le, not_iff_not, max_le_iff, ← List.getElem?_eq_none_iff, ← List.getElem?_eq_none_iff,
      foundX, foundY, Option.map_eq_none_iff, Option.map_eq_none_iff, emptyX, emptyY, column_append,
      List.append_eq_nil_iff]
  obtain ⟨s, added⟩ := exists_add fun place _ => ⟨_, places place⟩
  obtain ⟨length, sums⟩ := add_eq_ok_iff.mp added
  refine ⟨s, added, fun place => ?_⟩
  unfold totalAt?
  split
  · next empty =>
    have beyond := (not_iff_not.mpr (reached place)).mpr (not_not.mpr empty)
    rw [← length] at beyond
    exact List.getElem?_eq_none (not_lt.mp beyond)
  · next present =>
    have inside := (reached place).mpr present
    rw [← length] at inside
    have there := List.getElem?_eq_getElem inside
    rw [there, Option.map_some, ← Except.ok.inj ((sums place _ there).symm.trans (places place))]

/-- The coefficients of a sum of two polynomials: as many as the longer one has, none of them a
negative zero, and each in the finest unit that is present at its place, but in none above one. -/
theorem shape_of_totals {cs : List Decimal}
    (totals : ∀ place, cs[place]? = totalAt? [ds, es] place) :
    cs.length = max ds.length es.length ∧ (∀ c ∈ cs, c.UnsignedZero) ∧
      ∀ (place : Nat) (c : Decimal), cs[place]? = some c →
        c.exponent = min 0 (min (ds.getD place .zero).exponent (es.getD place .zero).exponent) := by
  have columns : ∀ place, column [ds, es] place = ds[place]?.toList ++ es[place]?.toList := by
    intro place
    rw [← column_singleton ds, ← column_singleton es, ← column_append]
    rfl
  have found : ∀ (place : Nat) (c : Decimal), cs[place]? = some c →
      c = total (ds[place]?.toList ++ es[place]?.toList) := by
    intro place c there
    rw [totals, totalAt?, columns] at there
    split at there
    · cases there
    · exact (Option.some.inj there).symm
  refine ⟨?_, ?_, ?_⟩
  · -- A place is past the sum exactly if it is past both operands.
    refine eq_of_forall_ge_iff fun place => ?_
    rw [max_le_iff, ← List.getElem?_eq_none_iff, ← List.getElem?_eq_none_iff,
      ← List.getElem?_eq_none_iff, totals, totalAt?, columns]
    cases ds[place]? <;> cases es[place]? <;> simp
  · intro c present
    obtain ⟨place, there⟩ := List.mem_iff_getElem?.mp present
    rw [found place c there]
    exact Decimal.unsigned_total _
  · intro place c there
    have single : ∀ x : Option Decimal, finest x.toList = min 0 (x.getD .zero).exponent := by
      intro x
      cases x with
      | none => rfl
      | some d => exact min_comm _ _
    rw [found place c there, Decimal.exponent_total, Decimal.finest_append, single, single,
      List.getD_eq_getElem?_getD, List.getD_eq_getElem?_getD, min_min_min_comm, min_self]

/-- Sums of few digits lie in the widest range as they stand. -/
theorem totalsWithin_of_digits {operands : List (List Decimal)} {whole places : Nat}
    (each : ∀ ds ∈ operands, ∀ d ∈ ds, d.adjusted < whole ∧ -(places : Int) ≤ d.exponent)
    (few : whole + operands.length + places ≤ Range.exact.precision) : TotalsWithin operands := by
  intro place
  have members :
      ∀ d ∈ column operands place, d.adjusted < whole ∧ -(places : Int) ≤ d.exponent := by
    intro d present
    obtain ⟨ds, listed, there⟩ := List.mem_filterMap.mp present
    exact each ds listed d (List.mem_of_getElem? there)
  have small : ∀ d ∈ column operands place, |d.value| < (10 : ℚ) ^ whole := by
    intro d present
    rw [← zpow_natCast]
    exact (Decimal.abs_value_lt_zpow d).trans_le (zpow_ten_le.mpr (members d present).1)
  have fewer : (column operands place).length ≤ operands.length := List.length_filterMap_le _ _
  have below := Decimal.abs_value_total_lt small
  have fine : -(places : Int) ≤ finest (column operands place) :=
    Decimal.le_finest (by omega) fun d present => (members d present).2
  have coarse := Decimal.finest_nonpos (column operands place)
  rw [← Decimal.exponent_total] at fine coarse
  exact Range.contains_of_digits below fine coarse (by omega)

/-- All sums of adjacent operands stay within the widest range. -/
def SumsWithin (operands : List (List Decimal)) : Prop :=
  ∀ block, block <:+: operands → TotalsWithin block

/-- Operands of few enough digits can be added in any order. -/
theorem sumsWithin_of_digits {operands : List (List Decimal)} (whole places : Nat)
    (each : ∀ ds ∈ operands, ∀ d ∈ ds, d.adjusted < whole ∧ -(places : Int) ≤ d.exponent)
    (few : whole + operands.length + places ≤ Range.exact.precision) : SumsWithin operands := by
  intro block inside
  have fewer := inside.length_le
  exact totalsWithin_of_digits (fun ds listed => each ds (inside.subset listed)) (by omega)

/-- The zero polynomial adds a zero to the first column. -/
theorem total_column_zero (as : List (List Decimal)) (place : Nat) :
    total (column (as ++ [[.zero]]) place) = total (column as place) := by
  rw [column_append, column_singleton]
  cases place with
  | zero => exact Decimal.total_append_zero _
  | succ place => exact congrArg total (List.append_nil _)

/-- Adding the zero polynomial changes no total. -/
theorem totalAt?_zero (some_term : column as 0 ≠ []) (place : Nat) :
    totalAt? (as ++ [[.zero]]) place = totalAt? as place := by
  have empty : column (as ++ [[.zero]]) place = [] ↔ column as place = [] := by
    rw [column_append, column_singleton, List.append_eq_nil_iff]
    cases place with
    | zero => exact ⟨And.left, fun none => absurd none some_term⟩
    | succ place => exact and_iff_left rfl
  simp only [totalAt?, empty, total_column_zero]

/-- Adding the zero polynomial settles every coefficient. -/
theorem StandsFor.add_zero (stands : p.StandsFor as) (some_term : column as 0 ≠ [])
    (within : TotalsWithin as) : ∃ z, p.add .zero = .ok z ∧ z.IsTotal as := by
  have finite : Polynomial.zero.coefficients = [Decimal.zero].map .finite := rfl
  have both : TotalsWithin (as ++ [[.zero]]) :=
    within.congr fun place => (total_column_zero as place).symm
  obtain ⟨z, added, isTotal⟩ := stands.add (standsFor_singleton finite) within both
  exact ⟨z, added, fun place => by rw [isTotal place, totalAt?_zero some_term]⟩

/-- Settled coefficients are alike to those they came from if these are in no unit above one. -/
theorem alike_settled_iff (isTotal : s.IsTotal [ds]) (finite : p.coefficients = ds.map .finite) :
    s.Alike p ↔ ∀ d ∈ ds, d.exponent ≤ 0 := by
  have settled : s.coefficients = (ds.map fun d => total [d]).map .finite := by
    refine List.ext_getElem? fun place => ?_
    rw [isTotal place, totalAt?, column_singleton, List.getElem?_map, List.getElem?_map]
    cases ds[place]? <;> rfl
  have each : ∀ d : Decimal, Number.Alike (.finite (total [d])) (.finite d) ↔ d.exponent ≤ 0 := by
    intro d
    have unit : (total [d]).exponent = min d.exponent 0 := Decimal.exponent_total [d]
    constructor
    · rintro ⟨alike⟩
      exact min_eq_left_iff.mp (unit.symm.trans alike.unit)
    · intro fine
      refine .finite ⟨?_, unit.trans (min_eq_left fine)⟩
      rw [Decimal.value_total, List.map_singleton, List.sum_singleton]
  rw [Alike, settled, finite, List.forall₂_map_left_iff, List.forall₂_map_left_iff,
    List.forall₂_map_right_iff, List.forall₂_same]
  exact forall₂_congr fun d _ => each d

/-- **The algebra of addition, down to the representation.** As long as all sums stay within the
widest range, addition of polynomials of decimals is commutative and associative in the sign, the
coefficient and the exponent of every coefficient. A sum has as many coefficients as the longer
operand, none of them a negative zero, each in the finest unit present at its place and in none
above one. Adding the zero polynomial twice is adding it once, and leaves a polynomial as it was, up
to agreement, exactly if no coefficient is in a unit above one. -/
theorem addition_laws {r : Polynomial} (finiteP : p.coefficients = ds.map .finite)
    (finiteQ : q.coefficients = es.map .finite) (finiteR : r.coefficients = fs.map .finite) :
    (SumsWithin [ds, es] → ∃ (sum : Polynomial) (cs : List Decimal),
      p.add q = .ok sum ∧ q.add p = .ok sum ∧ sum.coefficients = cs.map .finite ∧
        cs.length = max ds.length es.length ∧ (∀ c ∈ cs, c.UnsignedZero) ∧
        ∀ (place : Nat) (c : Decimal), cs[place]? = some c →
          c.exponent = min 0 (min (ds.getD place .zero).exponent (es.getD place .zero).exponent)) ∧
    (SumsWithin [ds, es, fs] → ∃ first second all, p.add q = .ok first ∧ q.add r = .ok second ∧
      first.add r = .ok all ∧ p.add second = .ok all) ∧
    (SumsWithin [ds] → ∃ settled, p.add .zero = .ok settled ∧ settled.add .zero = .ok settled ∧
      (settled.agrees p = .ok true ↔ ∀ d ∈ ds, d.exponent ≤ 0)) := by
  have standsP := standsFor_singleton finiteP
  have standsQ := standsFor_singleton finiteQ
  have standsR := standsFor_singleton finiteR
  refine ⟨fun within => ?_, fun within => ?_, fun within => ?_⟩
  · have both := within _ List.infix_rfl
    have swapped : [ds, es].Perm [es, ds] := .swap _ _ _
    obtain ⟨sum, added, isTotal⟩ := standsP.add standsQ (within [ds] ⟨[], [es], rfl⟩) both
    obtain ⟨other, alsoAdded, alsoTotal⟩ := standsQ.add standsP (within [es] ⟨[ds], [], rfl⟩)
      (both.congr (total_column_perm swapped))
    obtain rfl := isTotal.unique alsoTotal (totalAt?_perm swapped)
    obtain ⟨cs, shape, totals⟩ := isTotal.exists_decimals
    exact ⟨sum, cs, added, alsoAdded, shape, shape_of_totals totals⟩
  · have firstTwo := within [ds, es] ⟨[], [fs], rfl⟩
    have lastTwo := within [es, fs] ⟨[ds], [], rfl⟩
    have three := within _ List.infix_rfl
    have ownP := within [ds] ⟨[], [es, fs], rfl⟩
    obtain ⟨first, addedFirst, isFirst⟩ := standsP.add standsQ ownP firstTwo
    obtain ⟨second, addedSecond, isSecond⟩ :=
      standsQ.add standsR (within [es] ⟨[ds], [fs], rfl⟩) lastTwo
    obtain ⟨all, addedAll, isAll⟩ := isFirst.standsFor.add standsR firstTwo three
    obtain ⟨other, addedOther, isOther⟩ := standsP.add isSecond.standsFor ownP three
    obtain rfl := isAll.unique isOther fun _ => rfl
    exact ⟨first, second, all, addedFirst, addedSecond, addedAll, addedOther⟩
  · have own := within _ List.infix_rfl
    have some_term : column [ds] 0 ≠ [] := by
      obtain ⟨d, rest, rfl⟩ := List.exists_cons_of_ne_nil (decimals_ne_nil finiteP)
      exact List.cons_ne_nil _ _
    obtain ⟨settled, added, isTotal⟩ := standsP.add_zero some_term own
    obtain ⟨again, addedAgain, isAgain⟩ := isTotal.standsFor.add_zero some_term own
    obtain rfl := isTotal.unique isAgain fun _ => rfl
    refine ⟨settled, added, addedAgain, ?_⟩
    obtain ⟨cs, shape, _⟩ := isTotal.exists_decimals
    rw [agrees_eq_true_iff (isFinite_of_decimals shape) (isFinite_of_decimals finiteP)]
    exact alike_settled_iff isTotal finiteP

/-- Coefficients in three units, one of them above one, a negative zero, and a sum that cancels:
whichever sum is formed first, the constant is a zero with three places. -/
theorem addition_laws_cancelling :
    let p : Polynomial := ⟨[.finite ⟨false, 1, 1⟩, .finite ⟨true, 0, -1⟩], List.cons_ne_nil _ _⟩
    let q : Polynomial := ⟨[.finite ⟨false, 250, -2⟩], List.cons_ne_nil _ _⟩
    let r : Polynomial := ⟨[.finite ⟨true, 12500, -3⟩, .zero, .ofInt 1], List.cons_ne_nil _ _⟩
    ∃ first second all, p.add q = .ok first ∧ q.add p = .ok first ∧ q.add r = .ok second ∧
      first.add r = .ok all ∧ p.add second = .ok all ∧
      all.coefficients = [.finite ⟨false, 0, -3⟩, .finite ⟨false, 0, -1⟩, .ofInt 1] ∧
      ∃ settled, p.add .zero = .ok settled ∧ settled.agrees p ≠ .ok true := by
  intro p q r
  have finiteP : p.coefficients = [⟨false, 1, 1⟩, ⟨true, 0, -1⟩].map Number.finite := rfl
  have finiteQ : q.coefficients = [⟨false, 250, -2⟩].map Number.finite := rfl
  have finiteR : r.coefficients = [⟨true, 12500, -3⟩, .zero, .one].map Number.finite := rfl
  obtain ⟨commutes, associates, settles⟩ := addition_laws finiteP finiteQ finiteR
  obtain ⟨sum, _, addedSum, swapped, _⟩ :=
    commutes (sumsWithin_of_digits 2 2 (by decide) (by decide))
  obtain ⟨first, second, all, addedFirst, addedSecond, addedAll, regrouped⟩ :=
    associates (sumsWithin_of_digits 2 3 (by decide) (by decide))
  obtain ⟨settled, addedZero, _, agrees⟩ :=
    settles (sumsWithin_of_digits 2 1 (by decide) (by decide))
  obtain rfl := Except.ok.inj (addedSum.symm.trans addedFirst)
  refine ⟨sum, second, all, addedSum, swapped, addedSecond, addedAll, regrouped, ?_, settled,
    addedZero, ?_⟩
  · have computed : (p.add q >>= (·.add r)) = .ok ⟨[.finite ⟨false, 0, -3⟩, .finite ⟨false, 0, -1⟩,
        .ofInt 1], List.cons_ne_nil _ _⟩ := by decide +kernel
    rw [addedSum, bind_ok, addedAll] at computed
    rw [Except.ok.inj computed]
  · rw [Ne, agrees]
    decide

end Polynomial

end ExactQuadrature

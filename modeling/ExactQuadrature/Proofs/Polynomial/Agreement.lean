import ExactQuadrature.Polynomial.Agreement
import ExactQuadrature.Proofs.Decimal.Alike
import ExactQuadrature.Proofs.Polynomial.Evaluation
import ExactQuadrature.Proofs.Polynomial.Places
import ExactQuadrature.Proofs.Polynomial.Trimming

/-! # What polynomials that agree have in common

Polynomials of decimals can always be compared, and they agree exactly when their coefficients are
alike, place by place (`Polynomial.agrees_iff`). Everything that is computed from the coefficients
keeps that: polynomials that are alike have alike sums, alike trimmed forms and alike values at
every point, or are refused alike; and their written forms are the same (`Polynomial.Alike.text`).
-/

namespace ExactQuadrature

open List (Forall₂)

/-- A finite number is a decimal. -/
theorem Number.exists_of_isFinite {n : Number} (finite : n.isFinite = true) :
    ∃ d : Decimal, n = .finite d := by
  cases n with
  | finite d => exact ⟨d, rfl⟩
  | infinite | notANumber => cases finite

/-- Finite numbers can be compared, and agree when they are alike. -/
theorem Number.agrees_finite {a b : Number} (first : a.isFinite = true)
    (second : b.isFinite = true) :
    ∃ same, a.agrees false b = .ok same ∧ (same = true ↔ a.Alike b) := by
  obtain ⟨d, rfl⟩ := Number.exists_of_isFinite first
  obtain ⟨e, rfl⟩ := Number.exists_of_isFinite second
  refine ⟨d.sameValue e && d.exponent == e.exponent, rfl, ?_⟩
  rw [Bool.and_eq_true, Decimal.sameValue_iff_value, beq_iff_eq]
  constructor
  · rintro ⟨value, unit⟩
    exact .finite ⟨value, unit⟩
  · rintro ⟨alike⟩
    exact ⟨alike.value, alike.unit⟩

namespace Polynomial

/-- Every coefficient is a decimal. -/
def IsFinite (p : Polynomial) : Prop := ∀ c ∈ p.coefficients, c.isFinite = true

instance (p : Polynomial) : Decidable p.IsFinite :=
  inferInstanceAs (Decidable (∀ c ∈ p.coefficients, c.isFinite = true))

/-- Equally many coefficients, which are alike place by place. -/
def Alike (p q : Polynomial) : Prop := Forall₂ Number.Alike p.coefficients q.coefficients

variable {p p' q q' : Polynomial} {as bs as' bs' : List Number}

/-- The coefficients of a finite polynomial are decimals. -/
theorem IsFinite.exists_decimals (finite : p.IsFinite) :
    ∃ ds : List Decimal, p.coefficients = ds.map .finite :=
  exists_map_eq fun c present => Number.exists_of_isFinite (finite c present)

theorem isFinite_of_decimals {ds : List Decimal} (shape : p.coefficients = ds.map .finite) :
    p.IsFinite := by
  intro c present
  rw [shape] at present
  obtain ⟨d, _, rfl⟩ := List.mem_map.mp present
  rfl

theorem Alike.refl (p : Polynomial) : p.Alike p :=
  List.forall₂_same.mpr fun c _ => Number.Alike.refl c

theorem Alike.symm (alike : p.Alike q) : q.Alike p :=
  Forall₂.flip (alike.imp fun _ _ own => own.symm)

theorem Alike.trans {r : Polynomial} (first : p.Alike q) (second : q.Alike r) : p.Alike r := by
  unfold Alike at first second ⊢
  generalize p.coefficients = as, q.coefficients = bs, r.coefficients = cs at first second ⊢
  induction first generalizing cs with
  | nil => exact second
  | cons own _ ih =>
    cases second with
    | cons other others => exact .cons (own.trans other) (ih _ others)

/-- The comparison of decimals succeeds and decides whether they are alike in turn. -/
theorem agreeTerms_finite (first : ∀ a ∈ as, a.isFinite = true)
    (second : ∀ b ∈ bs, b.isFinite = true) :
    ∃ same, agreeTerms false as bs = .ok same ∧ (same = true ↔ Forall₂ Number.Alike as bs) := by
  induction as generalizing bs with
  | nil =>
    cases bs with
    | nil => exact ⟨true, rfl, fun _ => .nil, fun _ => rfl⟩
    | cons b bs => exact ⟨false, rfl, nofun, nofun⟩
  | cons a as ih =>
    cases bs with
    | nil => exact ⟨false, rfl, nofun, nofun⟩
    | cons b bs =>
      obtain ⟨finiteA, finiteAs⟩ := List.forall_mem_cons.mp first
      obtain ⟨finiteB, finiteBs⟩ := List.forall_mem_cons.mp second
      obtain ⟨own, compared, ownIff⟩ := Number.agrees_finite finiteA finiteB
      obtain ⟨others, othersCompared, othersIff⟩ := ih finiteAs finiteBs
      rw [agreeTerms, compared, bind_ok, List.forall₂_cons, ← ownIff, ← othersIff]
      cases own with
      | false => exact ⟨false, rfl, nofun, fun both => both.1⟩
      | true => exact ⟨others, othersCompared, fun same => ⟨rfl, same⟩, fun both => both.2⟩

/-- **Agreement is likeness.** -/
theorem agrees_iff (first : p.IsFinite) (second : q.IsFinite) :
    ∃ same, p.agrees q = .ok same ∧ (same = true ↔ p.Alike q) := agreeTerms_finite first second

/-- Finite polynomials agree just if they are alike. -/
theorem agrees_eq_true_iff (first : p.IsFinite) (second : q.IsFinite) :
    p.agrees q = .ok true ↔ p.Alike q := by
  obtain ⟨same, compared, iff⟩ := agrees_iff first second
  rw [compared, ← iff]
  constructor
  · exact Except.ok.inj
  · exact congrArg Except.ok

/-- Agreement of polynomials of decimals is an equivalence relation. -/
theorem equivalence_agrees :
    Equivalence fun p q : { p : Polynomial // p.IsFinite } => p.1.agrees q.1 = .ok true := by
  refine ⟨fun p => (agrees_eq_true_iff p.2 p.2).mpr (.refl p.1), ?_, ?_⟩
  · intro p q same
    rw [agrees_eq_true_iff p.2 q.2] at same
    rw [agrees_eq_true_iff q.2 p.2]
    exact same.symm
  · intro p q r
    rw [agrees_eq_true_iff p.2 q.2, agrees_eq_true_iff q.2 r.2, agrees_eq_true_iff p.2 r.2]
    exact Alike.trans

/-- Alike coefficients give alike values, or fail alike. -/
theorem alike_evaluateTerms (x : Number) (alike : Forall₂ Number.Alike as bs) :
    Matching Number.Alike (evaluateTerms x as) (evaluateTerms x bs) := by
  induction alike with
  | nil => exact .ok (.refl .zero)
  | cons own later ih =>
    cases later with
    | nil => exact .ok own
    | cons =>
      rw [evaluateTerms_cons, evaluateTerms_cons]
      exact (ih.bind fun _ _ value => value.mul (.refl x)).bind fun _ _ scaled => scaled.add own

/-- Polynomials that are alike have alike values. -/
theorem Alike.evaluate (alike : p.Alike q) (x : Number) :
    Matching Number.Alike (p.evaluate x) (q.evaluate x) :=
  Fault.matching_ofSignal (alike_evaluateTerms x alike)

/-- Alike coefficients have alike sums, or fail alike. -/
theorem alike_addTerms {a a' b b' : Option Number} (first : Option.Rel Number.Alike a a')
    (second : Option.Rel Number.Alike b b') :
    Matching Number.Alike (addTerms a b) (addTerms a' b') := by
  have begins : Matching Number.Alike (a.elim (.ok .zero) (Number.add .zero))
      (a'.elim (.ok .zero) (Number.add .zero)) := by
    cases first with
    | none => exact .ok (.refl .zero)
    | some alike => exact (Number.Alike.refl .zero).add alike
  rw [addTerms_eq, addTerms_eq]
  refine begins.bind fun started started' alike => ?_
  cases second with
  | none => exact .ok alike
  | some own => exact alike.add own

theorem alike_zipWithAll (first : Forall₂ Number.Alike as as')
    (second : Forall₂ Number.Alike bs bs') :
    Forall₂ (Matching Number.Alike) (List.zipWithAll addTerms as bs)
      (List.zipWithAll addTerms as' bs') := by
  induction first generalizing bs bs' with
  | nil =>
    rw [List.nil_zipWithAll, List.nil_zipWithAll, List.forall₂_map_left_iff,
      List.forall₂_map_right_iff]
    exact second.imp fun b b' own => alike_addTerms .none (.some own)
  | cons own later ih =>
    cases second with
    | nil =>
      rw [List.zipWithAll_nil, List.zipWithAll_nil, List.forall₂_map_left_iff,
        List.forall₂_map_right_iff]
      exact (later.cons own).imp fun a a' own => alike_addTerms (.some own) .none
    | cons other others => exact .cons (alike_addTerms (.some own) (.some other)) (ih others)

/-- Finite coefficients have a finite sum. -/
theorem isFinite_of_addTerms {a b : Option Number} {c : Number}
    (first : ∀ x, a = some x → x.isFinite = true) (second : ∀ y, b = some y → y.isFinite = true)
    (added : addTerms a b = .ok c) : c.isFinite = true := by
  have sum : ∀ {x y z : Number}, x.isFinite = true → y.isFinite = true → x.add y = .ok z →
      z.isFinite = true := by
    intro x y z finiteX finiteY found
    obtain ⟨_, rfl⟩ := Number.exists_of_isFinite finiteX
    obtain ⟨_, rfl⟩ := Number.exists_of_isFinite finiteY
    obtain ⟨_, rfl, _⟩ := Number.value_of_add found
    rfl
  rw [addTerms_eq] at added
  obtain ⟨started, start, rest⟩ := bind_eq_ok.mp added
  have begins : started.isFinite = true := by
    cases a with
    | none =>
      cases start
      rfl
    | some x => exact sum rfl (first x rfl) start
  cases b with
  | none =>
    cases rest
    exact begins
  | some y => exact sum begins (second y rfl) rest

/-- Polynomials that are alike have alike sums. -/
theorem Alike.add (first : p.Alike p') (second : q.Alike q') :
    Matching Alike (p.add q) (p'.add q') := by
  refine (Fault.matching_ofSignal (.mapM_id (alike_zipWithAll first second))).bind
    fun as bs alike => ?_
  cases alike with
  | nil => exact .error _
  | cons own later => exact .ok (.cons own later)

/-- The sum of finite polynomials is finite. -/
theorem IsFinite.add {r : Polynomial} (first : p.IsFinite) (second : q.IsFinite)
    (added : p.add q = .ok r) : r.IsFinite := by
  intro c present
  obtain ⟨place, found⟩ := List.mem_iff_getElem?.mp present
  have places := (add_eq_ok_iff.mp added).2 place c found
  refine isFinite_of_addTerms ?_ ?_ places
  · exact fun a there => first a (List.mem_of_getElem? there)
  · exact fun b there => second b (List.mem_of_getElem? there)

/-- Sums of polynomials that agree agree, or there are none. -/
theorem Alike.matching_add (first : p.Alike p') (second : q.Alike q') (finiteP : p.IsFinite)
    (finiteP' : p'.IsFinite) (finiteQ : q.IsFinite) (finiteQ' : q'.IsFinite) :
    Matching (fun sum sum' => sum.agrees sum' = .ok true) (p.add q) (p'.add q') := by
  have sums := first.add second
  have left : ∀ r, p.add q = .ok r → r.IsFinite := fun _ => finiteP.add finiteQ
  have right : ∀ r, p'.add q' = .ok r → r.IsFinite := fun _ => finiteP'.add finiteQ'
  generalize p.add q = sum, p'.add q' = sum' at sums left right ⊢
  cases sums with
  | ok alike => exact .ok ((agrees_eq_true_iff (left _ rfl) (right _ rfl)).mpr alike)
  | error fault => exact .error fault

/-- Trimming keeps a polynomial finite. -/
theorem IsFinite.trimmed (finite : p.IsFinite) : p.trimmed.IsFinite := by
  obtain ⟨ds, shape⟩ := finite.exists_decimals
  exact isFinite_of_decimals (coefficients_trimmed shape)

/-- Without the zeros in front, alike lists stay alike. -/
theorem alike_dropWhile (alike : Forall₂ Number.Alike as bs) :
    Forall₂ Number.Alike (as.dropWhile Number.isZero) (bs.dropWhile Number.isZero) := by
  induction alike with
  | nil => exact .nil
  | @cons a b _ _ own later ih =>
    rw [List.dropWhile_cons, List.dropWhile_cons, ← own.isZero]
    split
    · exact ih
    · exact .cons own later

/-- Alike lists are trimmed alike. -/
theorem alike_trimTerms (alike : Forall₂ Number.Alike as bs) :
    Forall₂ Number.Alike (trimTerms as) (trimTerms bs) := by
  cases alike with
  | nil => exact .nil
  | cons own later =>
    refine .cons own ?_
    rw [List.forall₂_reverse_iff]
    exact alike_dropWhile (List.forall₂_reverse_iff.mpr later)

theorem Alike.trimmed (alike : p.Alike q) : p.trimmed.Alike q.trimmed := alike_trimTerms alike

/-- Alike decimals are rendered as the same term. -/
theorem term?_congr {d e : Decimal} (alike : d.Alike e) (place : Nat) :
    term? (d, place) = term? (e, place) := by
  cases zero : d.isZero with
  | true =>
    have other : e.isZero = true := alike.isZero ▸ zero
    rw [term?, if_pos zero, term?, if_pos other]
  | false => rw [alike.eq_of_nonzero zero]

/-- Polynomials that are alike are written in the same way. -/
theorem Alike.text (alike : p.Alike q) (first : p.IsFinite) (second : q.IsFinite) :
    p.text = q.text := by
  obtain ⟨ds, shape⟩ := first.exists_decimals
  obtain ⟨es, otherShape⟩ := second.exists_decimals
  rw [Alike, shape, otherShape, List.forall₂_map_left_iff, List.forall₂_map_right_iff] at alike
  rw [text_eq shape, text_eq otherShape, rendered_congr alike.length_eq]
  intro place d e foundD foundE
  obtain ⟨insideD, rfl⟩ := List.getElem?_eq_some_iff.mp foundD
  obtain ⟨insideE, rfl⟩ := List.getElem?_eq_some_iff.mp foundE
  obtain ⟨own⟩ := alike.get insideD insideE
  exact term?_congr own place

end Polynomial

end ExactQuadrature

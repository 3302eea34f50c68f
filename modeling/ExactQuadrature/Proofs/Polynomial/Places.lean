import ExactQuadrature.Expression.Grammar
import ExactQuadrature.Proofs.Outcome

/-! # Sums of polynomials place by place

The sum of two polynomials has as many places as the longer one, and at every place the sum of the
two coefficients there (`Polynomial.add_eq_ok_iff`). A monomial has zeros below its coefficient
and nothing above it.
-/

namespace ExactQuadrature

/-- The longer list determines the length. -/
theorem length_zipWithAll {α β γ : Type} (f : Option α → Option β → γ) (as : List α)
    (bs : List β) : (List.zipWithAll f as bs).length = max as.length bs.length := by
  induction as generalizing bs with
  | nil => simp
  | cons a as ih =>
    cases bs with
    | nil => simp
    | cons b bs =>
      rw [List.zipWithAll_cons_cons, List.length_cons, ih, List.length_cons, List.length_cons]
      omega

/-- Every place inside combines what both lists have there. -/
theorem getElem?_zipWithAll_of_lt {α β γ : Type} (f : Option α → Option β → γ) {as : List α}
    {bs : List β} {place : Nat} (inside : place < max as.length bs.length) :
    (List.zipWithAll f as bs)[place]? = some (f as[place]? bs[place]?) := by
  rw [List.getElem?_zipWithAll]
  cases first : as[place]? with
  | some a => rfl
  | none =>
    cases second : bs[place]? with
    | some b => rfl
    | none =>
      rw [List.getElem?_eq_none_iff] at first second
      omega

/-- Copies of one element before a last one. -/
theorem getElem?_replicate_concat {α : Type} (a last : α) (n place : Nat) :
    (List.replicate n a ++ [last])[place]? =
      if place < n then some a else if place = n then some last else none := by
  by_cases below : place < n
  · rw [if_pos below, List.getElem?_append_left (by rwa [List.length_replicate]),
      List.getElem?_replicate_of_lt below]
  · rw [if_neg below, List.getElem?_append_right (by rw [List.length_replicate]; omega),
      List.length_replicate]
    by_cases own : place = n
    · rw [if_pos own, own, Nat.sub_self]
      rfl
    · rw [if_neg own]
      exact List.getElem?_eq_none (by rw [List.length_singleton]; omega)

namespace Polynomial

/-- The decimals of a monomial. -/
def monomialList (c : Decimal) (exponent : Nat) : List Decimal :=
  List.replicate exponent .zero ++ [c]

/-- The coefficients of a monomial are zeros and its own. -/
theorem coefficients_monomial (c : Decimal) (exponent : Nat) :
    (monomial (.finite c) exponent).coefficients = (monomialList c exponent).map .finite := by
  rw [monomialList, List.map_append, List.map_replicate]
  rfl

/-- A monomial has its coefficient at its power and zeros below. -/
theorem getElem?_monomial (c : Number) (exponent place : Nat) :
    (monomial c exponent).coefficients[place]? =
      if place < exponent then some .zero else if place = exponent then some c else none :=
  getElem?_replicate_concat Number.zero c exponent place

theorem length_monomial (c : Number) (exponent : Nat) :
    (monomial c exponent).coefficients.length = exponent + 1 := by
  unfold monomial
  dsimp only
  rw [List.length_append, List.length_replicate, List.length_singleton]

/-- Two polynomials have at least one place together. -/
theorem zipWithAll_ne_nil {γ : Type} (f : Option Number → Option Number → γ) (p q : Polynomial) :
    List.zipWithAll f p.coefficients q.coefficients ≠ [] := by
  intro none
  have total := congrArg List.length none
  have counted := List.length_pos_iff.mpr p.nonempty
  rw [length_zipWithAll, List.length_nil] at total
  omega

/-- The first term is added to zero and the second to the result, as far as they are there. -/
theorem addTerms_eq (a b : Option Number) :
    addTerms a b = (a.elim (.ok .zero) (Number.add .zero) >>= fun first =>
      b.elim (.ok first) first.add) := by
  cases a <;> cases b <;> rfl

/-- A sum of polynomials is found if every place is. -/
theorem add_eq_ok {p q r : Polynomial} :
    p.add q = .ok r ↔
      List.zipWithAll addTerms p.coefficients q.coefficients = r.coefficients.map .ok := by
  unfold add
  dsimp only
  rw [bind_eq_ok]
  constructor
  · rintro ⟨sums, found, whole⟩
    rw [← mapM_id_eq_ok, Fault.ofSignal_eq_ok.mp found]
    cases sums with
    | nil => cases whole
    | cons first rest =>
      cases whole
      rfl
  · intro shape
    refine ⟨r.coefficients, Fault.ofSignal_eq_ok.mpr (mapM_id_eq_ok.mpr shape), ?_⟩
    obtain ⟨coefficients, nonempty⟩ := r
    cases coefficients with
    | nil => exact absurd rfl nonempty
    | cons first rest => rfl

/-- **Sums place by place.** -/
theorem add_eq_ok_iff {p q r : Polynomial} :
    p.add q = .ok r ↔
      r.coefficients.length = max p.coefficients.length q.coefficients.length ∧
        ∀ (place : Nat) (c : Number), r.coefficients[place]? = some c →
          addTerms p.coefficients[place]? q.coefficients[place]? = .ok c := by
  rw [add_eq_ok]
  constructor
  · intro shape
    have total := congrArg List.length shape
    rw [length_zipWithAll, List.length_map] at total
    refine ⟨total.symm, fun place c found => ?_⟩
    have inside := (List.getElem?_eq_some_iff.mp found).1
    have there : (List.zipWithAll addTerms p.coefficients q.coefficients)[place]? =
        (r.coefficients.map Except.ok)[place]? := by rw [shape]
    rw [List.getElem?_map, found, getElem?_zipWithAll_of_lt _ (total ▸ inside)] at there
    exact Option.some.inj there
  · rintro ⟨total, places⟩
    apply List.ext_getElem
    · rw [length_zipWithAll, List.length_map, total]
    · intro place inside alsoInside
      rw [List.length_map] at alsoInside
      have own := places place _ (List.getElem?_eq_getElem alsoInside)
      apply Option.some.inj
      rw [← List.getElem?_eq_getElem inside, List.getElem_map, ← own,
        getElem?_zipWithAll_of_lt _ (total ▸ alsoInside)]

/-- A sum exists when it does at every place. -/
theorem exists_add {p q : Polynomial}
    (places : ∀ place < max p.coefficients.length q.coefficients.length,
      ∃ c, addTerms p.coefficients[place]? q.coefficients[place]? = .ok c) :
    ∃ r, p.add q = .ok r := by
  have each : ∀ outcome ∈ List.zipWithAll addTerms p.coefficients q.coefficients,
      ∃ c, outcome = .ok c := by
    intro outcome present
    obtain ⟨place, found⟩ := List.mem_iff_getElem?.mp present
    have inside := (List.getElem?_eq_some_iff.mp found).1
    rw [length_zipWithAll] at inside
    obtain ⟨c, there⟩ := places place inside
    rw [getElem?_zipWithAll_of_lt _ inside, there] at found
    exact ⟨c, (Option.some.inj found).symm⟩
  obtain ⟨sums, shape⟩ := exists_map_eq each
  have some_place : sums ≠ [] := by
    rintro rfl
    exact zipWithAll_ne_nil addTerms p q shape
  exact ⟨⟨sums, some_place⟩, add_eq_ok.mpr shape⟩

/-- Only decimal arithmetic keeps a sum from existing. -/
theorem add_eq_error {p q : Polynomial} {fault : Fault} (failed : p.add q = .error fault) :
    ∃ raised, fault = .signal raised := by
  unfold add at failed
  dsimp only at failed
  rcases bind_eq_error.mp failed with unsummed | ⟨sums, summed, unlisted⟩
  · obtain ⟨raised, _, same⟩ := Fault.ofSignal_eq_error.mp unsummed
    exact ⟨raised, same⟩
  · cases sums with
    | nil =>
      have shape := mapM_id_eq_ok.mp (Fault.ofSignal_eq_ok.mp summed)
      exact absurd shape (zipWithAll_ne_nil addTerms p q)
    | cons first rest => cases unlisted

end Polynomial

end ExactQuadrature

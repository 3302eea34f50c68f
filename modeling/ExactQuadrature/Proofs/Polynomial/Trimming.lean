import ExactQuadrature.Proofs.Polynomial.Rendering
import Mathlib.Data.List.ReduceOption

/-! # Trimmed polynomials and their written form

Trimming drops zeros at the end and nothing else (`Polynomial.exists_zeros`), and stops at a nonzero
coefficient or at the first one. A zero is not rendered, so the trimmed polynomial has the written
form of the whole one (`Polynomial.rendered_trimmedList`); and so has every polynomial
whose coefficients are rendered alike, place by place (`Polynomial.rendered_congr`).
-/

namespace ExactQuadrature

namespace Polynomial

/-- The decimals without the zeros at their end, but always with the first one. -/
def trimmedList : List Decimal → List Decimal
  | [] => []
  | first :: rest => first :: (rest.reverse.dropWhile Decimal.isZero).reverse

/-- Decimals are trimmed as numbers are. -/
theorem trimTerms_map (ds : List Decimal) :
    trimTerms (ds.map .finite) = (trimmedList ds).map .finite := by
  cases ds with
  | nil => rfl
  | cons first rest =>
    have zeros : Number.isZero ∘ Number.finite = Decimal.isZero := rfl
    rw [List.map_cons, trimTerms, ← List.map_reverse, List.dropWhile_map, zeros, ← List.map_reverse]
    rfl

/-- Trimming a polynomial of decimals trims these. -/
theorem coefficients_trimmed {p : Polynomial} {ds : List Decimal}
    (finite : p.coefficients = ds.map .finite) :
    p.trimmed.coefficients = (trimmedList ds).map .finite := by
  rw [← trimTerms_map, ← finite]
  rfl

/-- Trimming only takes away at the end. -/
theorem trimTerms_prefix (cs : List Number) : trimTerms cs <+: cs := by
  cases cs with
  | nil => exact List.prefix_rfl
  | cons first rest =>
    rw [trimTerms, List.prefix_cons_inj, ← List.reverse_suffix, List.reverse_reverse]
    exact List.dropWhile_suffix _

/-- What is taken away are zeros. -/
theorem exists_zeros (ds : List Decimal) :
    ∃ zeros : List Decimal, (∀ d ∈ zeros, d.isZero = true) ∧ ds = trimmedList ds ++ zeros := by
  cases ds with
  | nil => exact ⟨[], (fun d absent => nomatch absent), rfl⟩
  | cons first rest =>
    refine ⟨(rest.reverse.takeWhile Decimal.isZero).reverse, ?_, ?_⟩
    · intro d present
      exact List.mem_takeWhile_imp (List.mem_reverse.mp present)
    · unfold trimmedList
      rw [List.cons_append, ← List.reverse_append, List.takeWhile_append_dropWhile,
        List.reverse_reverse]

/-- Trimming stops at a nonzero decimal or at the first one. -/
theorem trimmedList_ends {ds : List Decimal} (present : ds ≠ []) :
    ∃ top d, (trimmedList ds).length = top + 1 ∧ (trimmedList ds)[top]? = some d ∧
      (top = 0 ∨ d.isZero = false) := by
  cases ds with
  | nil => exact absurd rfl present
  | cons first rest =>
    change ∃ top d, (first :: (rest.reverse.dropWhile Decimal.isZero).reverse).length = top + 1 ∧
      (first :: (rest.reverse.dropWhile Decimal.isZero).reverse)[top]? = some d ∧ _
    cases kept : rest.reverse.dropWhile Decimal.isZero with
    | nil => exact ⟨0, first, rfl, rfl, .inl rfl⟩
    | cons last before =>
      have nonzero : last.isZero = false := by
        have ended := List.head?_dropWhile_not Decimal.isZero rest.reverse
        rwa [kept] at ended
      refine ⟨before.length + 1, last, ?_, ?_, .inr nonzero⟩
      · rw [List.length_cons, List.length_reverse, List.length_cons]
      · rw [List.getElem?_cons_succ, List.reverse_cons, ← List.length_reverse]
        exact List.getElem?_concat_length

/-- How a decimal is rendered at its place, if it is not zero. -/
def term? (place : Decimal × Nat) : Option (Bool × WrittenTerm) :=
  if place.1.isZero then none else some (place.1.negative, .render place.1 place.2)

/-- The rendered terms come from the highest place to the lowest. -/
theorem rendered_places (ds : List Decimal) :
    rendered (places ds) = (ds.zipIdx.map term?).reverse.reduceOption := by
  unfold rendered places
  rw [← List.map_reverse]
  induction ds.zipIdx.reverse with
  | nil => rfl
  | cons place rest ih =>
    rw [List.map_cons]
    cases zero : place.1.isZero
    · have shown : term? place = some (place.1.negative, .render place.1 place.2) := by
        unfold term?
        rw [zero]
        rfl
      rw [List.filter_cons_of_pos (by rw [zero]; rfl), List.map_cons, shown,
        List.reduceOption_cons_of_some, ih]
    · have hidden : term? place = none := by
        unfold term?
        rw [zero]
        rfl
      rw [List.filter_cons_of_neg (by rw [zero]; exact Bool.false_ne_true), hidden,
        List.reduceOption_cons_of_none, ih]

/-- Zeros at the end are not rendered. -/
theorem rendered_append_zeros (ds : List Decimal) {zeros : List Decimal}
    (none : ∀ d ∈ zeros, d.isZero = true) :
    rendered (places (ds ++ zeros)) = rendered (places ds) := by
  have hidden : (zeros.zipIdx (0 + ds.length)).reverse.filter (fun place => !place.1.isZero) =
      [] := by
    rw [List.filter_eq_nil_iff]
    intro place present
    rw [none _ (List.fst_mem_of_mem_zipIdx (List.mem_reverse.mp present))]
    exact Bool.false_ne_true
  unfold places
  rw [List.zipIdx_append, List.reverse_append, List.filter_append, hidden, List.nil_append]

theorem rendered_trimmedList (ds : List Decimal) :
    rendered (places (trimmedList ds)) = rendered (places ds) := by
  obtain ⟨zeros, none, shape⟩ := exists_zeros ds
  conv_rhs => rw [shape]
  exact (rendered_append_zeros _ none).symm

/-- Decimals that are rendered alike, place by place, have one written form. -/
theorem rendered_congr {ds es : List Decimal} (length : ds.length = es.length)
    (alike : ∀ (place : Nat) (d e : Decimal), ds[place]? = some d → es[place]? = some e →
      term? (d, place) = term? (e, place)) :
    rendered (places ds) = rendered (places es) := by
  have each : ds.zipIdx.map term? = es.zipIdx.map term? := by
    apply List.ext_getElem
    · rw [List.length_map, List.length_map, List.length_zipIdx, List.length_zipIdx, length]
    · intro place inside alsoInside
      rw [List.length_map, List.length_zipIdx] at inside alsoInside
      rw [List.getElem_map, List.getElem_map, List.getElem_zipIdx, List.getElem_zipIdx,
        Nat.zero_add]
      exact alike place _ _ (List.getElem?_eq_getElem inside) (List.getElem?_eq_getElem alsoInside)
  rw [rendered_places, rendered_places, each]

/-- The places are those of coefficients other than zero. -/
theorem mem_places {ds : List Decimal} {d : Decimal} {place : Nat} :
    (d, place) ∈ places ds ↔ ds[place]? = some d ∧ d.isZero = false := by
  unfold places
  rw [List.mem_filter, List.mem_reverse, List.mem_zipIdx_iff_getElem?, Bool.not_eq_true']

/-- No place comes twice. -/
theorem nodup_places (ds : List Decimal) : ((places ds).map Prod.snd).Nodup := by
  unfold places
  refine List.Nodup.sublist (List.filter_sublist.map _) ?_
  rw [List.map_reverse, List.nodup_reverse, List.zipIdx_map_snd]
  exact List.nodup_range'

end Polynomial

end ExactQuadrature

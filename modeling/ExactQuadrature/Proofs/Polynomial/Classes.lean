import ExactQuadrature.Proofs.Polynomial.Agreement
import Mathlib.Data.Set.Card

/-! # Classes of polynomials that agree

A collection of polynomials is counted by keeping those that agree with none before them. These
represent the collection (`MadePolynomial.Represents`): every polynomial of it agrees with one of
them, and they do not agree with one another. The number that is counted is therefore the number of
classes of polynomials that agree (`MadePolynomial.countDistinct_eq`).
-/

namespace ExactQuadrature

/-- The classes of polynomials of decimals that agree. -/
def Polynomial.agreement : Setoid { p : Polynomial // p.IsFinite } :=
  ⟨_, Polynomial.equivalence_agrees⟩

namespace MadePolynomial

open ExactQuadrature.Polynomial

/-- If two polynomials were made on one occasion, they share their numbers, of which one of them may
have fewer. -/
def Shares (p q : MadePolynomial) : Prop :=
  p.occasion = q.occasion → p.polynomial.coefficients <+: q.polynomial.coefficients ∨
    q.polynomial.coefficients <+: p.polynomial.coefficients

/-- A collection as it can be made. -/
def Sharing (ps : List MadePolynomial) : Prop := ∀ p ∈ ps, ∀ q ∈ ps, p.Shares q

variable {p q : MadePolynomial} {ps kept seen : List MadePolynomial}

theorem Shares.symm (shares : p.Shares q) : q.Shares p := fun same => (shares same.symm).symm

/-- A polynomial that shares with all others joins them. -/
theorem Sharing.cons (sharing : Sharing ps) (own : ∀ q ∈ ps, p.Shares q) : Sharing (p :: ps) := by
  have itself : p.Shares p := fun _ => .inl List.prefix_rfl
  intro first firstPresent second secondPresent
  rcases List.mem_cons.mp firstPresent with rfl | firstInside
  · rcases List.mem_cons.mp secondPresent with rfl | secondInside
    · exact itself
    · exact own second secondInside
  · rcases List.mem_cons.mp secondPresent with rfl | secondInside
    · exact (own first firstInside).symm
    · exact sharing first firstInside second secondInside

/-- A polynomial may be made with numbers of its own. -/
theorem Sharing.fresh (sharing : Sharing ps) (own : ∀ q ∈ ps, p.occasion ≠ q.occasion) :
    Sharing (p :: ps) :=
  sharing.cons fun q present same => absurd same (own q present)

/-- A trimmed form shares the numbers of the whole. -/
theorem Sharing.trimmed (sharing : Sharing ps) (present : p ∈ ps) : Sharing (p.trimmed :: ps) := by
  have shorter : p.trimmed.polynomial.coefficients <+: p.polynomial.coefficients :=
    trimTerms_prefix p.polynomial.coefficients
  refine sharing.cons fun q other same => ?_
  rcases sharing p present q other same with below | above
  · exact .inl (shorter.trans below)
  · exact List.prefix_or_prefix_of_prefix shorter above

/-- Coefficients made on one occasion agree if there are as many of them. -/
theorem agreeTerms_same (as bs : List Number) :
    agreeTerms true as bs = .ok (decide (as.length = bs.length)) := by
  induction as generalizing bs with
  | nil => cases bs <;> rfl
  | cons a as ih =>
    cases bs with
    | nil => rfl
    | cons b bs =>
      simp only [List.length_cons, Nat.add_right_cancel_iff]
      exact ih bs

/-- Whether polynomials agree is always decided, and they do when they are alike. -/
theorem agrees_decided (first : p.polynomial.IsFinite) (second : q.polynomial.IsFinite)
    (shares : p.Shares q) :
    ∃ same, p.agrees q = .ok same ∧ (same = true ↔ p.polynomial.Alike q.polynomial) := by
  by_cases occasion : p.occasion = q.occasion
  · refine ⟨decide (p.polynomial.coefficients.length = q.polynomial.coefficients.length), ?_, ?_⟩
    · rw [agrees, beq_iff_eq.mpr occasion, agreeTerms_same]
      rfl
    · rw [decide_eq_true_iff]
      refine ⟨fun length => ?_, List.Forall₂.length_eq⟩
      have same : p.polynomial.coefficients = q.polynomial.coefficients := by
        rcases shares occasion with shorter | longer
        · exact shorter.eq_of_length length
        · exact (longer.eq_of_length length.symm).symm
      rw [Polynomial.Alike, same]
      exact Alike.refl _
  · obtain ⟨same, compared, iff⟩ := agrees_iff first second
    refine ⟨same, ?_, iff⟩
    rw [agrees, beq_eq_false_iff_ne.mpr occasion]
    exact congrArg Fault.ofSignal compared

/-- What holds of the polynomials that are kept from a collection. -/
structure Represents (kept seen : List MadePolynomial) : Prop where
  chosen : ∀ k ∈ kept, k ∈ seen
  apart : kept.Pairwise fun k l => ¬k.polynomial.Alike l.polynomial
  covering : ∀ p ∈ seen, ∃ k ∈ kept, p.polynomial.Alike k.polynomial

/-- One more polynomial is kept or is represented already. -/
theorem Represents.step (represents : Represents kept seen)
    (decided : ∀ k ∈ kept, ∃ same, p.agrees k = .ok same ∧
      (same = true ↔ p.polynomial.Alike k.polynomial)) :
    ∃ next, (do return if ← kept.anyM p.agrees then kept else kept ++ [p] : Except Fault _) =
        .ok next ∧
      Represents next (seen ++ [p]) := by
  obtain ⟨met, tested, iff⟩ := anyM_of_decided decided
  rw [tested, bind_ok]
  cases met with
  | true =>
    refine ⟨kept, rfl, fun k present => List.mem_append_left _ (represents.chosen k present),
      represents.apart, fun q present => ?_⟩
    rcases List.mem_append.mp present with before | last
    · exact represents.covering q before
    · rw [List.mem_singleton.mp last]
      exact iff.mp rfl
  | false =>
    have fresh : ∀ k ∈ kept, ¬p.polynomial.Alike k.polynomial := fun k present alike =>
      Bool.false_ne_true (iff.mpr ⟨k, present, alike⟩)
    refine ⟨kept ++ [p], rfl, ?_, ?_, ?_⟩
    · intro k present
      rcases List.mem_append.mp present with before | last
      · exact List.mem_append_left _ (represents.chosen k before)
      · exact List.mem_append_right _ last
    · refine List.pairwise_append.mpr ⟨represents.apart, List.pairwise_singleton _ _, ?_⟩
      intro k present l last alike
      rw [List.mem_singleton.mp last] at alike
      exact fresh k present alike.symm
    · intro q present
      rcases List.mem_append.mp present with before | last
      · obtain ⟨k, there, alike⟩ := represents.covering q before
        exact ⟨k, List.mem_append_left _ there, alike⟩
      · rw [List.mem_singleton.mp last]
        exact ⟨p, List.mem_append_right _ (List.mem_singleton.mpr rfl), .refl _⟩

/-- The representatives are found and represent all polynomials. -/
theorem exists_representatives (finite : ∀ p ∈ ps, p.polynomial.IsFinite) (sharing : Sharing ps) :
    ∃ kept, representatives ps = .ok kept ∧ Represents kept ps := by
  unfold representatives
  induction ps using List.reverseRecOn with
  | nil => exact ⟨[], rfl, nofun, .nil, nofun⟩
  | append_singleton ps p ih =>
    have last : p ∈ ps ++ [p] := List.mem_append_right _ (List.mem_singleton.mpr rfl)
    have before : ∀ q ∈ ps, q ∈ ps ++ [p] := fun q present => List.mem_append_left _ present
    obtain ⟨kept, folded, represents⟩ := ih (fun q present => finite q (before q present))
      fun q present r other => sharing q (before q present) r (before r other)
    obtain ⟨next, stepped, also⟩ := represents.step fun k present => by
      have there := before k (represents.chosen k present)
      exact agrees_decided (finite p last) (finite k there) (sharing p last k there)
    refine ⟨next, ?_, also⟩
    rw [List.foldlM_append, folded, bind_ok]
    exact List.foldlM_cons.trans (by rw [stepped]; rfl)

/-- The classes of the polynomials in a collection. -/
def classes (ps : List MadePolynomial) : Set (Quotient Polynomial.agreement) :=
  { c | ∃ p ∈ ps, ∃ finite : p.polynomial.IsFinite, c = ⟦⟨p.polynomial, finite⟩⟧ }

/-- Two polynomials are in one class just if they are alike. -/
theorem mk_eq_iff {p q : Polynomial} (first : p.IsFinite) (second : q.IsFinite) :
    (⟦⟨p, first⟩⟧ : Quotient Polynomial.agreement) = ⟦⟨q, second⟩⟧ ↔ p.Alike q :=
  Quotient.eq.trans (agrees_eq_true_iff first second)

/-- There is one representative for every class. -/
theorem ncard_classes (represents : Represents kept ps) (finite : ∀ p ∈ ps, p.polynomial.IsFinite) :
    (classes ps).ncard = kept.length := by
  classical
  have finiteKept : ∀ k ∈ kept, k.polynomial.IsFinite := fun k present =>
    finite k (represents.chosen k present)
  let list : List (Quotient Polynomial.agreement) :=
    kept.pmap (fun k finite => ⟦⟨k.polynomial, finite⟩⟧) finiteKept
  have distinct : list.Nodup := represents.apart.pmap finiteKept fun _ _ _ _ apart same =>
    apart ((mk_eq_iff _ _).mp same)
  have all : classes ps = list.toFinset := by
    ext c
    rw [Finset.mem_coe, List.mem_toFinset, List.mem_pmap]
    constructor
    · rintro ⟨p, present, finiteP, rfl⟩
      obtain ⟨k, there, alike⟩ := represents.covering p present
      exact ⟨k, there, (mk_eq_iff _ _).mpr alike.symm⟩
    · rintro ⟨k, there, rfl⟩
      exact ⟨k, represents.chosen k there, finiteKept k there, rfl⟩
  rw [all, Set.ncard_coe_finset, List.toFinset_card_of_nodup distinct, List.length_pmap]

/-- **Counting up to agreement counts classes.** -/
theorem countDistinct_eq (finite : ∀ p ∈ ps, p.polynomial.IsFinite) (sharing : Sharing ps) :
    countDistinct ps = .ok (classes ps).ncard := by
  obtain ⟨kept, found, represents⟩ := exists_representatives finite sharing
  have quiet : ps.any (fun p => p.polynomial.coefficients.any Number.isSignaling) = false := by
    rw [List.any_eq_false]
    intro p present signaling
    obtain ⟨c, there, raised⟩ := List.any_eq_true.mp signaling
    obtain ⟨d, rfl⟩ := Number.exists_of_isFinite (finite p present c there)
    cases raised
  rw [countDistinct, quiet, found, ncard_classes represents finite]
  rfl

end MadePolynomial

end ExactQuadrature

import ExactQuadrature.Proofs.Calculation.Results
import ExactQuadrature.Proofs.Text.Terminators

/-! # The lines of an output

The written forms of numbers hold no character that ends a line (`Number.isLine_scientific`,
`Number.isLine_plain`), and so nothing that is calculated holds one
(`Calculation.isLine_of_mem_yieldOf`).
-/

namespace ExactQuadrature

namespace Text

/-- No character that is visible or a space, and has a short code, ends a line. -/
theorem isLineEnd_eq_false {c : Char} (low : 0x20 ≤ c.toNat) (high : c.toNat ≤ 0x7e) :
    isLineEnd c = false := by
  simp only [isLineEnd, List.contains_eq_mem, List.mem_cons, List.not_mem_nil, or_false,
    decide_eq_false_iff_not]
  omega

/-- Two texts without line ends make one without line ends. -/
theorem IsLine.append {first second : String} (isLine : IsLine first) (also : IsLine second) :
    IsLine (first ++ second) := by
  unfold IsLine
  rw [String.toList_append]
  exact List.forall_mem_append.mpr ⟨isLine, also⟩

end Text

/-- No character of a literal ends a line. -/
theorem Literal.Bare.not_lineEnd {c : Char} (bare : Literal.Bare c) : Text.isLineEnd c = false := by
  rcases bare with digit | mark
  · obtain ⟨low, high⟩ := isDigit_toNat digit
    exact Text.isLineEnd_eq_false (by omega) (by omega)
  · simp only [List.mem_cons, List.not_mem_nil, or_false] at mark
    rcases mark with rfl | rfl | rfl | rfl <;> rfl

namespace Number

/-- A sign holds no line end. -/
theorem not_lineEnd_signText (negative : Bool) :
    ∀ c ∈ Decimal.signText negative, Text.isLineEnd c = false :=
  fun c present => (Literal.bare_signText negative c present).not_lineEnd

/-- The words for numbers without digits end no line. -/
theorem not_lineEnd_wordChars (n : Number) : ∀ c ∈ n.wordChars, Text.isLineEnd c = false := by
  cases n with
  | finite d => exact nofun
  | infinite negative =>
    have word : Text.IsLine "Infinity" := by decide
    exact List.forall_mem_append.mpr ⟨not_lineEnd_signText negative, word⟩
  | notANumber negative signaling payload =>
    have word : Text.IsLine (if signaling then "sNaN" else "NaN") := by
      cases signaling <;> decide
    refine List.forall_mem_append.mpr ⟨List.forall_mem_append.mpr
      ⟨not_lineEnd_signText negative, word⟩, ?_⟩
    split
    · exact nofun
    · exact fun c present => Literal.Bare.not_lineEnd (.inl
        ((leadingDigits_toDigits payload).isDigit c present))

/-- **A scientific form is a line.** -/
theorem isLine_scientific (n : Number) : Text.IsLine n.scientific := by
  unfold Text.IsLine scientific
  rw [String.toList_ofList]
  cases n with
  | finite d => exact fun c present => (d.bare_scientificChars c present).not_lineEnd
  | infinite negative => exact not_lineEnd_wordChars (.infinite negative)
  | notANumber negative signaling payload =>
    exact not_lineEnd_wordChars (.notANumber negative signaling payload)

/-- **A plain form is a line.** -/
theorem isLine_plain (d : Decimal) : Text.IsLine (Number.finite d).plain := by
  unfold Text.IsLine plain
  rw [String.toList_ofList]
  change ∀ c ∈ d.plainChars, _
  rw [d.plainChars_eq]
  refine List.forall_mem_append.mpr ⟨not_lineEnd_signText _, fun c present => ?_⟩
  exact (Literal.bare_chars d.wellFormed_plainNumeral c present).not_lineEnd

end Number

namespace Calculation

/-- The line with the bounds is a single line. -/
theorem isLine_boundsLine (bounds : Bounds) : Text.IsLine (boundsLine bounds) := by
  have title : Text.IsLine "bounds: " := by decide
  have comma : Text.IsLine ", " := by decide
  exact ((title.append (Number.isLine_plain _)).append comma).append (Number.isLine_plain _)

/-- The line with two results is a single line. -/
theorem isLine_resultText (rectangles trapezoids : Number) :
    Text.IsLine (resultText rectangles trapezoids) := by
  have title : Text.IsLine "integrated using rectangles: " := by decide
  have second : Text.IsLine ", integrated using trapezoids: " := by decide
  exact ((title.append rectangles.isLine_scientific).append second).append
    trapezoids.isLine_scientific

/-- **What a calculation yields is made of lines.** -/
theorem isLine_of_mem_yieldOf {stepping : Stepping} {format : PolynomialFormat}
    {lines : List String}
    {line : String} (member : line ∈ (yieldOf stepping format lines).lines) : Text.IsLine line := by
  unfold yieldOf at member
  split at member
  · cases member
  · next bounds ps _ =>
    rcases List.mem_cons.mp member with rfl | result
    · exact isLine_boundsLine bounds
    · obtain ⟨k, shown⟩ := List.mem_iff_getElem?.mp result
      have answered := List.mem_of_getElem? (Yield.getElem?_ofAnswers shown)
      obtain ⟨p, _, answer⟩ := List.mem_map.mp answered
      obtain ⟨rectangles, trapezoids, _, _, rfl⟩ := answer_eq_ok.mp answer
      exact isLine_resultText rectangles trapezoids

end Calculation

end ExactQuadrature

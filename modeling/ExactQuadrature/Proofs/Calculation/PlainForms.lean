import ExactQuadrature.Proofs.Calculation.Yield
import ExactQuadrature.Proofs.Decimal.Literal

/-! # Plain forms are read back

Plain forms and the numerals of input lines are inverse to each other (`plain_forms_inverse`). A
plain form is a numeral, with a minus only before a number below zero, and it is read as a decimal
of the same value in the same unit, or in unit one if that was coarser; and a numeral that writes no
zero with a sign is the plain form of what it is read as. The bounds that a calculation repeats can
therefore be given to another one (`Bounds.exists_read_shown`).
-/

namespace ExactQuadrature

/-- A text of a signed numeral without a plus is read as what it writes, if it has no more
characters than the widest range has digits. -/
theorem SignedNumeral.ofText?_of_short {n : SignedNumeral} (formed : n.WellFormed)
    (noPlus : n.sign ≠ some false)
    (short : (String.ofList n.chars).length ≤ Range.exact.precision) :
    Number.ofText? (String.ofList n.chars) = some (.finite n.toDecimal) := by
  rw [← String.length_toList, String.toList_ofList] at short
  exact Number.ofText?_chars formed noPlus
    (Numeral.contains_of_scanSigned? (scanSigned?_whole formed) short)

namespace Decimal

/-- The plain form of a decimal is written by a signed numeral. -/
theorem plain_eq (d : Decimal) : (Number.finite d).plain = String.ofList d.signedNumeral.chars :=
  congrArg String.ofList d.chars_signedNumeral.symm

/-- A plain form never starts with a plus, and with a minus only below zero. -/
theorem sign_signedNumeral (d : Decimal) :
    d.signedNumeral.sign ≠ some false ∧ (d.signedNumeral.sign = some true → d.value < 0) := by
  unfold signedNumeral
  dsimp only
  cases signed : d.negative && !d.isZero with
  | false => exact ⟨nofun, nofun⟩
  | true =>
    obtain ⟨negative, nonzero⟩ := Bool.and_eq_true_iff.mp signed
    rw [Bool.not_eq_true'] at nonzero
    exact ⟨nofun, fun _ => (negative_iff_value ((value_ne_zero_iff d).mpr nonzero)).mp negative⟩

end Decimal

namespace Bounds

/-- Numerals with a comma and a space between them are the decimals of a bounds line. -/
theorem decimals?_chars {lower upper : SignedNumeral} (first : lower.WellFormed)
    (second : upper.WellFormed) :
    decimals? (lower.chars ++ ',' :: ' ' :: upper.chars) =
      some (lower.toDecimal, upper.toDecimal) := by
  have none : ∀ b ∈ ([] : List Char), Text.isBlank b = true := List.forall_mem_nil _
  have start : (lower.chars ++ ',' :: ' ' :: upper.chars).dropWhile Text.isBlank =
      lower.chars ++ ',' :: ' ' :: upper.chars := first.dropWhile_blanks none _
  have scanned : Numeral.scanSigned? (lower.chars ++ ',' :: ' ' :: upper.chars) =
      some (lower.toDecimal, ',' :: ' ' :: upper.chars) := by
    refine SignedNumeral.scanSigned?_chars first fun c rest shape => ?_
    cases shape
    decide
  have comma : (',' :: ' ' :: upper.chars).dropWhile Text.isBlank = ',' :: ' ' :: upper.chars :=
    Text.dropWhile_blanks none (by decide)
  have later : (' ' :: upper.chars).dropWhile Text.isBlank = upper.chars := by
    have space : ∀ b ∈ [' '], Text.isBlank b = true := List.forall_mem_singleton.mpr rfl
    have dropped := second.dropWhile_blanks space []
    rwa [List.append_nil] at dropped
  unfold decimals?
  rw [start, scanned]
  simp only [Option.bind_eq_bind, Option.bind_some, comma, later,
    SignedNumeral.scanSigned?_whole second]
  rfl

/-- **Bounds can be given again as they are shown.** -/
theorem exists_read_shown (bounds : Bounds) :
    ∃ again, Bounds.read ((Number.finite bounds.lower).plain ++ ", " ++
        (Number.finite bounds.upper).plain) = .ok again ∧
      again.lower = bounds.lower.signedNumeral.toDecimal ∧
      again.upper = bounds.upper.signedNumeral.toDecimal := by
  have increasing : bounds.lower.signedNumeral.toDecimal.lessThan
      bounds.upper.signedNumeral.toDecimal = true := by
    rw [Decimal.lessThan_iff_value, Decimal.value_signedNumeral, Decimal.value_signedNumeral]
    exact (Decimal.lessThan_iff_value _ _).mp bounds.increasing
  refine ⟨⟨_, _, increasing⟩, ?_, rfl, rfl⟩
  have found := decimals?_chars bounds.lower.wellFormed_signedNumeral
    bounds.upper.wellFormed_signedNumeral
  have characters : ((Number.finite bounds.lower).plain ++ ", " ++
      (Number.finite bounds.upper).plain).toList =
      bounds.lower.signedNumeral.chars ++ ',' :: ' ' :: bounds.upper.signedNumeral.chars := by
    simp only [Decimal.plain_eq, String.toList_append, String.toList_ofList, List.append_assoc]
    rfl
  unfold Bounds.read
  rw [characters, found]
  exact dif_pos increasing

/-- Decimals of a bounds line are in units not above one. -/
theorem fine_of_read {text : String} {bounds : Bounds} (read : Bounds.read text = .ok bounds) :
    bounds.lower.exponent ≤ 0 ∧ bounds.upper.exponent ≤ 0 := by
  obtain ⟨lower, upper⟩ := sized_of_read read
  exact ⟨lower.unit, upper.unit⟩

end Bounds

namespace Calculation

/-- The first line of an output repeats the bounds. -/
theorem head?_run {stepping : Stepping} {format : PolynomialFormat} {first : String}
    {rest : List String} {journal : Journal} {bounds : Bounds}
    (start : Bounds.read first = .ok bounds) :
    (∀ line, ((run stepping format (first :: rest)).run journal).1.lines.head? = some line →
      line = boundsLine bounds) ∧
    ((∀ text ∈ rest, ∃ p, format.parse text = .ok p) →
      ((run stepping format (first :: rest)).run journal).1.lines.head? =
          some (boundsLine bounds)) := by
  rw [(run_yields stepping format (first :: rest) journal).1, yieldOf, inputOf, start, bind_ok]
  cases polynomials : rest.mapM format.parse with
  | error fault =>
    refine ⟨fun line absent => (by cases absent), fun readable => ?_⟩
    obtain ⟨text, present, failed⟩ :=
      List.exists_of_findSome?_eq_some (mapM_eq_error.mp polynomials)
    obtain ⟨p, parsed⟩ := readable text present
    rw [Function.comp_apply, parsed] at failed
    cases failed
  | ok ps => exact ⟨fun line same => (Option.some.inj same).symm, fun _ => rfl⟩

end Calculation

/-- **Plain forms and numerals are inverse to each other.** The plain form of any decimal is a
numeral without needless zeros before it, with a minus sign only below zero. It is scanned as a
decimal of the same value, in the same unit or in unit one if that was coarser, and never as a zero
with a sign; a numeral without a plus that writes no such zero is the plain form of what it is
scanned as. Read as a literal they give the same, up to as many characters as the widest range has
digits. What the first line of an output says behind its title is therefore read as bounds of the
same values and units. -/
theorem plain_forms_inverse :
    (∀ d : Decimal, ∃ (n : SignedNumeral) (e : Decimal),
      n.WellFormed ∧ n.sign ≠ some false ∧ (n.sign = some true → d.value < 0) ∧
      (Number.finite d).plain = String.ofList n.chars ∧
      Numeral.scanSigned? (Number.finite d).plain.toList = some (e, []) ∧
      e.value = d.value ∧ e.exponent = min d.exponent 0 ∧ e.UnsignedZero ∧
      ((Number.finite d).plain.length ≤ Range.exact.precision →
        Number.ofText? (Number.finite d).plain = some (.finite e))) ∧
    (∀ n : SignedNumeral, n.WellFormed → n.sign ≠ some false → n.toDecimal.UnsignedZero →
      Numeral.scanSigned? (String.ofList n.chars).toList = some (n.toDecimal, []) ∧
      (Number.finite n.toDecimal).plain = String.ofList n.chars ∧
      ((String.ofList n.chars).length ≤ Range.exact.precision →
        Number.ofText? (String.ofList n.chars) = some (.finite n.toDecimal))) ∧
    ∀ (first : String) (bounds : Bounds), Bounds.read first = .ok bounds →
      ∃ (shown : String) (again : Bounds), Bounds.read shown = .ok again ∧
        again.lower.value = bounds.lower.value ∧ again.lower.exponent = bounds.lower.exponent ∧
        again.upper.value = bounds.upper.value ∧ again.upper.exponent = bounds.upper.exponent ∧
        ∀ stepping format rest journal,
          (∀ line, ((Calculation.run stepping format (first :: rest)).run journal).1.lines.head? =
            some line → line = "bounds: " ++ shown) ∧
          ((∀ text ∈ rest, ∃ p, format.parse text = .ok p) →
            ((Calculation.run stepping format (first :: rest)).run journal).1.lines.head? =
              some ("bounds: " ++ shown)) := by
  refine ⟨fun d => ?_, fun n formed noPlus unsigned => ?_, fun first bounds read => ?_⟩
  · have formed := d.wellFormed_signedNumeral
    obtain ⟨noPlus, below⟩ := d.sign_signedNumeral
    refine ⟨d.signedNumeral, d.signedNumeral.toDecimal, formed, noPlus, below, d.plain_eq, ?_,
      d.value_signedNumeral, ?_, d.unsigned_signedNumeral, ?_⟩
    · rw [d.plain_eq, String.toList_ofList]
      exact SignedNumeral.scanSigned?_whole formed
    · rw [d.toDecimal_signedNumeral]
    · rw [d.plain_eq]
      exact SignedNumeral.ofText?_of_short formed noPlus
  · refine ⟨?_, ?_, SignedNumeral.ofText?_of_short formed noPlus⟩
    · rw [String.toList_ofList]
      exact SignedNumeral.scanSigned?_whole formed
    · rw [Decimal.plain_eq, SignedNumeral.eq_signedNumeral formed noPlus unsigned]
  · obtain ⟨again, readAgain, lower, upper⟩ := bounds.exists_read_shown
    obtain ⟨lowerFine, upperFine⟩ := Bounds.fine_of_read read
    have title :
        Calculation.boundsLine bounds = "bounds: " ++ ((Number.finite bounds.lower).plain ++
        ", " ++ (Number.finite bounds.upper).plain) := by
      unfold Calculation.boundsLine
      rw [String.append_assoc, String.append_assoc, String.append_assoc]
    refine ⟨_, again, readAgain, ?_, ?_, ?_, ?_, fun stepping format rest journal => ?_⟩
    · rw [lower, Decimal.value_signedNumeral]
    · rw [lower, Decimal.toDecimal_signedNumeral, min_eq_left lowerFine]
    · rw [upper, Decimal.value_signedNumeral]
    · rw [upper, Decimal.toDecimal_signedNumeral, min_eq_left upperFine]
    · rw [← title]
      exact Calculation.head?_run read

/-- A coarse unit below zero, a zero before the point, and a bound that is a zero with a sign. -/
theorem plain_forms_inverse_scales :
    (∃ e : Decimal, Numeral.scanSigned? (Number.finite ⟨true, 5, 3⟩).plain.toList = some (e, []) ∧
      e.value = -5000 ∧ e.exponent = 0) ∧
    (Number.finite (Numeral.toDecimal ⟨['0'], ['0', '5', '0']⟩ true)).plain = "-0.050" ∧
    Number.ofText? "-0.050" = some (.finite ⟨true, 50, -3⟩) ∧
    ∃ (shown : String) (again : Bounds), Bounds.read shown = .ok again ∧ again.lower.value = 0 ∧
      again.lower.exponent = -1 ∧
      ((Calculation.run (.ofWhole 2 1) .expression ["-0.0, 7"]).run
          (Journal.new false [])).1.lines.head? =
        some ("bounds: " ++ shown) := by
  obtain ⟨shows, inverse, bounds⟩ := plain_forms_inverse
  have formed : (⟨some true, ⟨['0'], ['0', '5', '0']⟩⟩ : SignedNumeral).WellFormed :=
    ⟨.inl rfl, List.all_eq_true.mp rfl⟩
  obtain ⟨_, again, taken⟩ := inverse _ formed (by decide) (by decide)
  refine ⟨?_, again, taken (by decide), ?_⟩
  · obtain ⟨_, e, _, _, _, _, scanned, value, unit, _⟩ := shows ⟨true, 5, 3⟩
    refine ⟨e, scanned, ?_, unit⟩
    rw [value, Decimal.value_eq]
    norm_num [Decimal.significand]
  · have read : Bounds.read "-0.0, 7" = .ok ⟨⟨true, 0, -1⟩, ⟨false, 7, 0⟩, by decide⟩ := by decide
    obtain ⟨shown, again, readAgain, value, unit, _, _, repeats⟩ := bounds _ _ read
    refine ⟨shown, again, readAgain, ?_, unit, (repeats _ _ [] _).2 (List.forall_mem_nil _)⟩
    rw [value]
    exact (Decimal.value_eq_zero_iff _).mpr rfl

end ExactQuadrature

import ExactQuadrature.Proofs.Calculation.Formats
import ExactQuadrature.Proofs.Decimal.Literal
import ExactQuadrature.Proofs.Quadrature.Agreement
import ExactQuadrature.Proofs.Quadrature.Comparison

/-! # Results are read back

An integral is a sum that begins with zero, so it is a decimal of the widest range and no zero with
a sign (`Polynomial.settled_total`). Its scientific form has neither blanks nor commas and is taken
as that decimal again, with its sign, its coefficient and its exponent (`Calculation.ExactField`).
The line with both integrals of a polynomial has one comma, so it is split between them in one way
only (`results_read_back`).
-/

namespace ExactQuadrature

namespace Number

/-- A decimal of the widest range that is no zero with a sign. -/
def Settled (n : Number) : Prop :=
  ∃ d : Decimal, n = .finite d ∧ Range.exact.Contains d ∧ d.UnsignedZero

/-- Zero, which totals start from, is settled. -/
theorem settled_zero : zero.Settled := ⟨.zero, rfl, by decide, by decide⟩

/-- Adding a decimal keeps a total in the widest range, and its zeros without a sign. -/
theorem Settled.add {total result : Number} (settled : total.Settled) {area : Decimal}
    (added : total.add (.finite area) = .ok result) : result.Settled := by
  obtain ⟨t, rfl, _, unsigned⟩ := settled
  have noSign : (Number.finite t).UnsignedZero := by
    intro d same
    cases same
    exact unsigned
  have resultUnsigned := noSign.add added
  change settle (t.add area) = .ok result at added
  unfold settle at added
  cases fits : Range.exact.fit (t.add area) with
  | error signal =>
    rw [fits] at added
    cases added
  | ok fitted =>
    rw [fits] at added
    cases added
    exact ⟨fitted, rfl, Range.contains_of_fit (by decide) fits, resultUnsigned fitted rfl⟩

end Number

namespace Polynomial

variable {p : Polynomial} {ds : List Decimal} {rule : Rule} {scale : Int} {grid : Grid}

/-- A total that starts from a settled number is settled, since every area is. -/
theorem settled_totalFrom (finite : p.coefficients = ds.map .finite) (high : scale ≤ 2000054)
    {points : List Decimal} {total result : Number} (settled : total.Settled)
    (found : p.totalFrom rule scale grid total points = .ok result) : result.Settled := by
  induction points generalizing total with
  | nil =>
    cases found
    exact settled
  | cons x rest ih =>
    simp only [totalFrom, List.foldlM_cons] at found
    obtain ⟨next, step, later⟩ := bind_eq_ok.mp found
    obtain ⟨_, areaFound, added⟩ := bind_eq_ok.mp step
    obtain ⟨area, rfl, _⟩ := value_area finite high areaFound
    exact ih (settled.add (Fault.ofSignal_eq_ok.mp added)) later

/-- **Integrals are settled.** -/
theorem settled_total (finite : p.coefficients = ds.map .finite) {stepping : Stepping}
    {bounds : Bounds} {total : Number} (found : p.total rule stepping bounds = .ok total) :
    total.Settled := by
  obtain ⟨grid, made, rest⟩ := bind_eq_ok.mp found
  obtain ⟨scale, places, summed⟩ := bind_eq_ok.mp rest
  obtain ⟨width, widthFound, _⟩ := bind_eq_ok.mp made
  exact settled_totalFrom finite (Grid.scale_of_stepWidth widthFound places).2
    Number.settled_zero summed

end Polynomial

namespace Calculation

/-- A field of a line that stands for a decimal. It has neither blanks nor commas, and it is taken
as that decimal, which is no zero with a sign. -/
structure ExactField (field : String) (d : Decimal) : Prop where
  characters : ∀ c ∈ field.toList, Text.isBlank c = false ∧ c ≠ ','
  unsigned : d.UnsignedZero
  taken : ∀ role, (Operand.text field).toNumber role = .ok (.finite d)

/-- **Scientific forms are exact fields.** -/
theorem exactField_scientific {d : Decimal} (inside : Range.exact.Contains d)
    (unsigned : d.UnsignedZero) : ExactField (Number.finite d).scientific d where
  characters c present := by
    rw [Number.scientific, String.toList_ofList] at present
    have bare := d.bare_scientificChars c present
    exact ⟨bare.not_blank, bare.ne_comma⟩
  unsigned := unsigned
  taken role := by
    rw [Operand.toNumber, Number.ofText?_scientific inside]
    rfl

/-- **One way to split.** A line of two fields without commas is split between them only. -/
theorem split_resultText {first second before after : String}
    (firstBare : ∀ c ∈ first.toList, c ≠ ',')
    (secondBare : ∀ c ∈ second.toList, c ≠ ',')
    (same : "integrated using rectangles: " ++ first ++ ", integrated using trapezoids: " ++
        second =
      before ++ ", integrated using trapezoids: " ++ after) :
    before = "integrated using rectangles: " ++ first ∧ after = second := by
  have chars := congrArg String.toList same
  have comma : ", integrated using trapezoids: ".toList =
      ',' :: " integrated using trapezoids: ".toList := rfl
  simp only [String.toList_append, comma, List.append_assoc, List.cons_append] at chars
  rw [← List.append_assoc] at chars
  have noneBefore : ',' ∉ "integrated using rectangles: ".toList ++ first.toList := by
    rw [List.mem_append, not_or]
    exact ⟨by decide, fun present => firstBare _ present rfl⟩
  have noneBehind : ',' ∉ " integrated using trapezoids: ".toList ++ second.toList := by
    rw [List.mem_append, not_or]
    exact ⟨by decide, fun present => secondBare _ present rfl⟩
  obtain ⟨left, _, right⟩ := (List.append_cons_inj_of_notMem noneBefore noneBehind).mp chars
  rw [← String.toList_append, String.toList_inj] at left
  exact ⟨left.symm, (String.toList_inj.mp (List.append_cancel_left right)).symm⟩

namespace Yield

variable {answers : List (Except Fault String)}

/-- Every line is the answer in its place. -/
theorem getElem?_ofAnswers {k : Nat} {line : String}
    (shown : (ofAnswers answers).lines[k]? = some line) :
    answers[k]? = some (.ok line) := by
  induction answers generalizing k with
  | nil => cases shown
  | cons answer rest ih =>
    cases answer with
    | error fault => cases shown
    | ok text =>
      cases k with
      | zero => exact congrArg (some ∘ Except.ok) (Option.some.inj shown)
      | succ k => exact ih shown

/-- Without a fault there is a line for every answer. -/
theorem length_ofAnswers (faultless : (ofAnswers answers).fault = none) :
    (ofAnswers answers).lines.length = answers.length := by
  induction answers with
  | nil => rfl
  | cons answer rest ih =>
    cases answer with
    | error fault => cases faultless
    | ok text => exact congrArg (· + 1) (ih faultless)

end Yield

end Calculation

/-- **Results are read back exactly.** A calculation without a fault yields a line for every line of
its input. Each line behind the first gives the integrals of the polynomial in its place by both
rules: it is split in one way only, into fields without blanks and commas, and each field is taken
as the very decimal that the integration comes to, which is no zero with a sign. -/
theorem results_read_back (stepping : Stepping) (format : PolynomialFormat) (lines : List String)
    (journal : Journal) :
    (((Calculation.run stepping format lines).run journal).1.fault = none →
      ((Calculation.run stepping format lines).run journal).1.lines.length = lines.length) ∧
    ∀ (k : Nat) (line : String),
      ((Calculation.run stepping format lines).run journal).1.lines[k + 1]? = some line →
      ∃ (first text : String) (bounds : Bounds) (p : Polynomial) (r t : Decimal)
          (shown shown' : String),
        lines[0]? = some first ∧ Bounds.read first = .ok bounds ∧
        lines[k + 1]? = some text ∧ format.parse text = .ok p ∧
        (∀ other, (p.integrate .rectangles stepping (.number (.finite bounds.lower))
          (.number (.finite bounds.upper))).outcome other = .ok (.finite r)) ∧
        (∀ other, (p.integrate .trapezoids stepping (.number (.finite bounds.lower))
          (.number (.finite bounds.upper))).outcome other = .ok (.finite t)) ∧
        line = "integrated using rectangles: " ++ shown ++
          ", integrated using trapezoids: " ++ shown' ∧
        Calculation.ExactField shown r ∧ Calculation.ExactField shown' t ∧
        ∀ before after, line = before ++ ", integrated using trapezoids: " ++ after →
          before = "integrated using rectangles: " ++ shown ∧ after = shown' := by
  rw [(Calculation.run_yields stepping format lines journal).1, Calculation.yieldOf]
  cases given : Calculation.inputOf format lines with
  | error fault =>
    refine ⟨fun faultless => ?_, fun k line shown => ?_⟩
    · cases faultless
    · cases shown
  | ok input =>
    obtain ⟨bounds, ps⟩ := input
    obtain ⟨first, rest, rfl, start, polynomials⟩ := Calculation.inputOf_eq_ok given
    have parsed := mapM_eq_ok.mp polynomials
    refine ⟨fun faultless => ?_, fun k line shown => ?_⟩
    · have count := congrArg List.length parsed
      rw [List.length_map, List.length_map] at count
      have answers := Calculation.Yield.length_ofAnswers faultless
      rw [List.length_map] at answers
      exact congrArg (· + 1) (answers.trans count.symm)
    · have answered := Calculation.Yield.getElem?_ofAnswers shown
      rw [List.getElem?_map, Option.map_eq_some_iff] at answered
      obtain ⟨p, there, answered⟩ := answered
      have place : (rest.map format.parse)[k]? = some (.ok p) := by
        rw [parsed, List.getElem?_map, there]
        rfl
      rw [List.getElem?_map, Option.map_eq_some_iff] at place
      obtain ⟨text, known, own⟩ := place
      obtain ⟨_, ds, finite, _⟩ := PolynomialFormat.exists_sized own
      obtain ⟨_, _, rectangles, trapezoids, rfl⟩ := Calculation.answer_eq_ok.mp answered
      obtain ⟨r, rfl, rInside, rUnsigned⟩ := Polynomial.settled_total finite rectangles
      obtain ⟨t, rfl, tInside, tUnsigned⟩ := Polynomial.settled_total finite trapezoids
      have rField := Calculation.exactField_scientific rInside rUnsigned
      have tField := Calculation.exactField_scientific tInside tUnsigned
      refine ⟨first, text, bounds, p, r, t, _, _, rfl, start, known, own, fun other => ?_,
        fun other => ?_, rfl, rField, tField, fun before after same => ?_⟩
      · rw [(p.yields_integrate .rectangles stepping bounds).outcome, rectangles]
      · rw [(p.yields_integrate .trapezoids stepping bounds).outcome, trapezoids]
      · exact Calculation.split_resultText (fun c present => (rField.characters c present).2)
          (fun c present => (tField.characters c present).2) same

/-- Two results in scientific form, one of them a zero. -/
theorem results_read_back_tiny :
    ∃ (p : Polynomial) (r t : Decimal), CoefficientLine.read "0.000000003" = .ok p ∧
      (p.integrate .rectangles (.ofWhole 2 7) (.number (.finite .zero))
        (.number (.finite .one))).outcome (Journal.new false []) = .ok (.finite r) ∧
      (p.integrate .trapezoids (.ofWhole 2 7) (.number (.finite .zero))
        (.number (.finite .one))).outcome (Journal.new false []) = .ok (.finite t) ∧
      Calculation.ExactField "3.0000000E-9" r ∧ Calculation.ExactField "0E-7" t := by
  have line : ((Calculation.run (.ofWhole 2 7) .coefficients ["0,1", "0.000000003"]).run
      (Journal.new false [])).1.lines[0 + 1]? =
      some "integrated using rectangles: 3.0000000E-9, integrated using trapezoids: 0E-7" := by
    decide +kernel
  obtain ⟨_, _, _, p, r, t, shown, shown', known, read, there, parsed, rectangles, trapezoids, _,
    rField, tField, split⟩ := (results_read_back _ _ _ _).2 0 _ line
  cases known
  cases there
  cases read.symm.trans Calculation.read_unit
  obtain ⟨left, rfl⟩ := split "integrated using rectangles: 3.0000000E-9" "0E-7" (by decide)
  obtain rfl : "3.0000000E-9" = shown := by
    rw [show "integrated using rectangles: 3.0000000E-9" =
      "integrated using rectangles: " ++ "3.0000000E-9" by decide, ← String.toList_inj,
      String.toList_append, String.toList_append] at left
    exact String.toList_inj.mp (List.append_cancel_left left)
  exact ⟨p, r, t, parsed, rectangles _, trapezoids _, rField, tField⟩

end ExactQuadrature

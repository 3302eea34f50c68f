import ExactQuadrature.Proofs.Expression.Totals

/-! # Concatenated expressions

No numeral goes on past a sign, so a text that begins with one is scanned behind separated symbols
as it is scanned alone (`Scan.fromPosition_append`), and a sign behind a complete expression begins
another term (`Expression.termsAfter_append`). Expressions of which the second begins with a sign
therefore write the concatenation of their texts, and whatever continues an expression with a sign
is an expression itself (`WrittenExpression.exists_continuation`). The polynomial of the whole is
the sum of both polynomials, and the order of the signed terms is of no account, both down to the
exponents (`read_append`).
-/

namespace ExactQuadrature

open WrittenExpression (signChar signSymbol)

namespace Scan

/-- **The seam of two scans.** Separated symbols are scanned in the same way before a text that goes
on with none of their numerals, and that text is scanned from where they end. -/
theorem fromPosition_append {symbols : List Symbol} (separated : Separated symbols) {cs : List Char}
    (ends : Numeral.Ends cs) (position : Nat) :
    ∃ own past, own.map Token.symbol = symbols ∧
      fromPosition position (symbols.flatMap Symbol.chars ++ cs) =
        ⟨own ++ (fromPosition past cs).tokens, (fromPosition past cs).fault⟩ := by
  induction symbols generalizing position with
  | nil => exact ⟨[], position, rfl, rfl⟩
  | cons symbol rest ih =>
    have stops : symbol.isNumber = true → Numeral.Ends (rest.flatMap Symbol.chars ++ cs) := by
      intro number
      cases rest with
      | nil => exact ends
      | cons next more =>
        rw [List.flatMap_cons, List.append_assoc]
        exact Symbol.ends_of_not_number (separated.2.1 number next more rfl) _
    have scanned := Symbol.scan?_chars separated.1 stops
    obtain ⟨own, past, shape, later⟩ := ih separated.2.2 (position + symbol.chars.length)
    refine ⟨⟨symbol, position⟩ :: own, past, by rw [List.map_cons, shape], ?_⟩
    rw [List.flatMap_cons, List.append_assoc, fromPosition_of_scan? scanned, later]
    rfl

/-- A text that begins with a sign is scanned to that sign and more. -/
theorem fromPosition_sign (position : Nat) (negative : Bool) (rest : List Char) :
    ∃ more fault, fromPosition position (signChar negative :: rest) =
      ⟨⟨signSymbol negative, position⟩ :: more, fault⟩ :=
  ⟨_, _, fromPosition_of_scan? (Symbol.scan?_sign negative rest)⟩

/-- No numeral goes on with a sign. -/
theorem ends_sign (negative : Bool) (rest : List Char) :
    Numeral.Ends (signChar negative :: rest) := by
  have ends := Symbol.ends_of_not_number (WrittenExpression.isNumber_signSymbol negative) rest
  rwa [WrittenExpression.chars_signSymbol] at ends

end Scan

namespace Expression

variable {place : Place} {draft : Draft} {fault : Option Misreading} {token : Token}
  {rest tokens : List Token}

/-- **The seam of two expressions.** Behind tokens that are read as terms a sign begins another
term. -/
theorem termsAfter_append {ts : List Term} (read : termsAfter place draft none tokens = .ok ts)
    (fault : Option Misreading) (negative : Bool) (position : Nat) (more : List Token) :
    termsAfter place draft fault (tokens ++ ⟨signSymbol negative, position⟩ :: more) =
      (termsAfter .sign (Draft.signed negative) fault more).map (ts ++ ·) := by
  -- The induction is on the first tokens. They have a result, so the place behind them is complete.
  induction tokens generalizing place draft ts with
  | nil =>
    rw [termsAfter_nil] at read
    split at read
    · next ends =>
      obtain ⟨term, settled, result⟩ := bind_eq_ok.mp read
      cases result
      rw [List.nil_append, termsAfter_sign (Place.next?_of_complete ends negative) ends, settled,
        bind_ok, WrittenExpression.signSymbol_eq_minus]
      cases termsAfter .sign (Draft.signed negative) fault more <;> rfl
    · cases read
  | cons token rest ih =>
    rw [List.cons_append]
    cases allowed : place.next? token.symbol with
    | none =>
      rw [termsAfter_refused allowed] at read
      cases read
    | some next =>
      by_cases sign : next = .sign
      · subst sign
        cases ends : place.isComplete with
        | true =>
          rw [termsAfter_sign allowed ends] at read ⊢
          obtain ⟨term, settled, afterTerm⟩ := bind_eq_ok.mp read
          obtain ⟨others, readRest, result⟩ := bind_eq_ok.mp afterTerm
          cases result
          rw [settled, bind_ok, ih readRest]
          cases termsAfter .sign (Draft.signed negative) fault more <;> rfl
        | false =>
          rw [termsAfter_leading allowed ends] at read ⊢
          exact ih read
      · rw [termsAfter_inside allowed sign] at read ⊢
        exact ih read

end Expression

namespace WrittenExpression

open Expression ExactQuadrature.Polynomial

variable {e f g : WrittenExpression}

/-- A text of one expression after another. The second one needs a sign to begin with. -/
def append (e f : WrittenExpression) : WrittenExpression :=
  ⟨e.sign, e.first, e.rest ++ f.signedTerms⟩

theorem signedTerms_append (e f : WrittenExpression) :
    (e.append f).signedTerms = e.signedTerms ++ f.signedTerms := rfl

/-- The terms of both as the program keeps them. -/
theorem terms_append (e f : WrittenExpression) : (e.append f).terms = e.terms ++ f.terms := by
  unfold terms
  rw [signedTerms_append, List.map_append]

/-- A second expression with a sign is written right behind the first. -/
theorem chars_append (e : WrittenExpression) {negative : Bool} (sign : f.sign = some negative) :
    (e.append f).chars = e.chars ++ f.chars := by
  have own : f.signedTerms = (negative, f.first) :: f.rest := by
    unfold signedTerms
    rw [sign]
    rfl
  unfold append chars
  simp only [own, sign, List.flatMap_append, List.flatMap_cons, Option.map_some, Option.toList_some,
    List.append_assoc, List.cons_append, List.nil_append]

/-- Well-formed expressions make a well-formed one. -/
theorem WellFormed.append (first : e.WellFormed) (second : f.WellFormed) :
    (e.append f).WellFormed :=
  List.forall_mem_append.mpr ⟨first, second⟩

/-- An expression that begins with the character of a sign begins with a sign. -/
theorem sign_of_begins (formed : f.WellFormed) {negative : Bool} {rest : List Char}
    (begins : f.chars = signChar negative :: rest) : f.sign = some negative := by
  obtain ⟨covers, _⟩ := Scan.fromPosition_of_separated (separated formed) 0
  obtain ⟨more, fault, scanned⟩ := Scan.fromPosition_sign 0 negative rest
  rw [f.flatMap_symbols, begins, scanned, List.map_cons] at covers
  obtain ⟨sign, first, later⟩ := f
  cases sign with
  | none => exact absurd covers.symm (first_ne_sign first negative _ _)
  | some other =>
    cases negative <;> cases other <;> first | rfl | cases covers

/-- Where the text of the second begins with a sign, two expressions write both texts together. -/
theorem Writes.append {s t : String} (first : e.Writes s) (second : f.Writes t) {negative : Bool}
    {rest : List Char} (begins : t.toList = signChar negative :: rest) :
    (e.append f).Writes (s ++ t) := by
  have sign := sign_of_begins second.1 (second.2.trans begins)
  refine ⟨first.1.append second.1, ?_⟩
  rw [chars_append e sign, first.2, second.2, String.toList_append]

/-- **What continues an expression with a sign is an expression.** -/
theorem exists_continuation {s t : String} (first : e.Writes s) (whole : g.Writes (s ++ t))
    {negative : Bool} {rest : List Char} (begins : t.toList = signChar negative :: rest) :
    ∃ f : WrittenExpression, f.Writes t := by
  have read : Expression.terms (s ++ t) = .ok g.terms :=
    (terms_eq_ok_iff _ _).mpr ⟨g, whole.1, whole.2, rfl⟩
  -- The whole is scanned to the tokens of the first text and then to those of the second, whose
  -- first one is the sign.
  obtain ⟨own, past, ownShape, scanned⟩ :=
    Scan.fromPosition_append (separated first.1) (Scan.ends_sign negative rest) 0
  obtain ⟨more, fault, later⟩ := Scan.fromPosition_sign past negative rest
  have joint : (s ++ t).toList = e.symbols.flatMap Symbol.chars ++ signChar negative :: rest := by
    rw [String.toList_append, e.flatMap_symbols, first.2, begins]
  rw [Expression.terms, Scan.ofText, joint, scanned, later] at read
  dsimp only at read
  rw [termsAfter_append (termsAfter_written first.1 ownShape)] at read
  cases fault with
  | some misreading =>
    cases rest : termsAfter .sign (Draft.signed negative) (some misreading) more with
    | error => rw [rest] at read; cases read
    | ok ts => exact absurd rest (termsAfter_fault _ _ _ _ _)
  | none =>
    have sound := Scan.fromPosition_sound (congrArg Scan.fault later)
    rw [later] at sound
    obtain ⟨covers, formed⟩ := sound
    cases others : termsAfter .sign (Draft.signed negative) none more with
    | error misreading => rw [others] at read; cases read
    | ok ts =>
      have alone : termsAfter .start (Draft.signed false) none
          (⟨signSymbol negative, past⟩ :: more) = .ok ts := by
        rw [← others]
        cases negative <;> rfl
      obtain ⟨f, formedF, shape, _⟩ := exists_written formed alone
      exact ⟨f, formedF, by rw [← f.flatMap_symbols, shape, covers, begins]⟩

/-- The whole digits of both add up. -/
theorem wholeDigits_append (before after : List (Bool × WrittenTerm)) :
    wholeDigits (before ++ after) = wholeDigits before + wholeDigits after := by
  unfold wholeDigits
  rw [List.map_append, List.sum_append]

theorem fractionDigits_append (before after : List (Bool × WrittenTerm)) :
    fractionDigits (before ++ after) = fractionDigits before + fractionDigits after := by
  unfold fractionDigits
  rw [List.map_append, List.sum_append]

/-- **The sum of the whole** is the sum of the sums. -/
theorem sum_append (formedE : e.WellFormed) (formedF : f.WellFormed)
    (few : wholeDigits (e.append f).signedTerms + fractionDigits (e.append f).signedTerms ≤
      Range.exact.precision) :
    ∃ p q r, Expression.sum e.terms = .ok p ∧ Expression.sum f.terms = .ok q ∧
      Expression.sum (e.append f).terms = .ok r ∧ p.add q = .ok r := by
  have formed := formedE.append formedF
  have shares := few
  rw [signedTerms_append, wholeDigits_append, fractionDigits_append] at shares
  have fewE : wholeDigits e.signedTerms + fractionDigits e.signedTerms ≤ Range.exact.precision := by
    omega
  obtain ⟨p, sumE, isP⟩ := exists_total formedE fewE
  obtain ⟨q, sumF, isQ⟩ := exists_total formedF (by omega)
  obtain ⟨r, sumBoth, isR⟩ := exists_total formed few
  have whole := totalsWithin_running formed few List.prefix_rfl
  rw [terms_append] at whole isR
  have perm := operands_append_perm e.terms f.terms
  have both : TotalsWithin (operands e.terms ++ operands f.terms) :=
    whole.congr fun place => by rw [total_column_perm perm, total_column_zero]
  obtain ⟨s, added, isS⟩ := isP.standsFor.add isQ.standsFor
    (totalsWithin_running formedE fewE List.prefix_rfl) both
  obtain rfl := isS.unique isR fun place => by
    rw [totalAt?_perm perm, totalAt?_zero (column_operands_zero _)]
  exact ⟨p, q, s, sumE, sumF, sumBoth, added⟩

/-- **The order of signed terms is of no account.** -/
theorem sum_perm (formed : e.WellFormed) (perm : e.signedTerms.Perm f.signedTerms)
    (few : wholeDigits e.signedTerms + fractionDigits e.signedTerms ≤ Range.exact.precision) :
    ∃ p, Expression.sum e.terms = .ok p ∧ Expression.sum f.terms = .ok p := by
  have formedF : f.WellFormed := fun term present => formed term (perm.mem_iff.mpr present)
  have whole : wholeDigits e.signedTerms = wholeDigits f.signedTerms := (perm.map _).sum_eq
  have fraction : fractionDigits e.signedTerms = fractionDigits f.signedTerms := (perm.map _).sum_eq
  obtain ⟨p, sumE, isP⟩ := exists_total formed few
  obtain ⟨q, sumF, isQ⟩ := exists_total formedF (by omega)
  obtain rfl := isP.unique isQ (totalAt?_operands_perm (perm.map _))
  exact ⟨p, sumE, sumF⟩

/-- What an expression writes is read, unless it is longer than the widest range has digits and a
sum leaves that range. -/
theorem Writes.read_or_signal {text : String} (writes : e.Writes text) :
    (∃ p, Expression.read text = .ok p) ∨
      (Range.exact.precision < text.length ∧
          ∃ raised, Expression.read text = .error (.signal raised)) := by
  by_cases short : text.length ≤ Range.exact.precision
  · exact .inl (writes.exists_read short)
  · rw [writes.read_eq_sum]
    cases read : Expression.sum e.terms with
    | ok p => exact .inl ⟨p, rfl⟩
    | error fault =>
      obtain ⟨raised, rfl⟩ := Expression.sum_eq_error read
      exact .inr ⟨Nat.lt_of_not_le short, raised, rfl⟩

/-- A text that is not too long has few enough digits. -/
theorem Writes.few_digits {text : String} (writes : e.Writes text)
    (short : text.length ≤ Range.exact.precision) :
    wholeDigits e.signedTerms + fractionDigits e.signedTerms ≤ Range.exact.precision := by
  have digits := e.digits_le_chars
  rw [writes.2, String.length_toList] at digits
  exact digits.trans short

end WrittenExpression

/-- A text that begins with a plus or a minus. -/
def BeginsWithSign (text : String) : Prop :=
  text.toList.head? = some '+' ∨ text.toList.head? = some '-'

/-- The sign that a text begins with, and what stands behind it. -/
theorem BeginsWithSign.exists_rest {text : String} (begins : BeginsWithSign text) :
    ∃ negative rest, text.toList = signChar negative :: rest := by
  rcases begins with plus | minus
  · obtain ⟨rest, shape⟩ := List.head?_eq_some_iff.mp plus
    exact ⟨false, rest, shape⟩
  · obtain ⟨rest, shape⟩ := List.head?_eq_some_iff.mp minus
    exact ⟨true, rest, shape⟩

/-- **Concatenating expressions is adding polynomials.** Where two texts are read and the second
begins with a sign, both together are read as the sum of the two polynomials. If a text and a longer
one that goes on with a sign are read, so is what it goes on with. Texts of expressions with the
same signed terms in another order are read as the same polynomial. Sums and polynomials are the
same down to their exponents, and nothing fails but a text with more characters than the widest
range has digits. -/
theorem read_append (journal : Journal) :
    let read := fun text => (PolynomialFormat.expression.read text).outcome journal
    (∀ s t p q, BeginsWithSign t → read s = .ok p → read t = .ok q →
      (∃ r, read (s ++ t) = .ok r ∧ ((s ++ t).length ≤ Range.exact.precision → p.add q = .ok r)) ∨
      (Range.exact.precision < (s ++ t).length ∧
          ∃ raised, read (s ++ t) = .error (.signal raised))) ∧
    (∀ s t p r, BeginsWithSign t → read s = .ok p → read (s ++ t) = .ok r →
      (∃ q, read t = .ok q) ∨
      (Range.exact.precision < t.length ∧ ∃ raised, read t = .error (.signal raised))) ∧
    ∀ (e e' : WrittenExpression) s s' p, e.Writes s → e'.chars = s'.toList →
      e.signedTerms.Perm e'.signedTerms → read s = .ok p →
        (∃ p', read s' = .ok p' ∧ (s.length ≤ Range.exact.precision → p' = p)) ∨
        (Range.exact.precision < s'.length ∧ ∃ raised, read s' = .error (.signal raised)) := by
  intro read
  have plain : read = Expression.read :=
    funext fun text => PolynomialFormat.outcome_read_expression text journal
  rw [plain]
  refine ⟨?_, ?_, ?_⟩
  · intro s t p q begins readS readT
    obtain ⟨negative, rest, shape⟩ := begins.exists_rest
    obtain ⟨e, writesS⟩ := WrittenExpression.writes_of_read readS
    obtain ⟨f, writesT⟩ := WrittenExpression.writes_of_read readT
    have writes := writesS.append writesT shape
    refine writes.read_or_signal.imp_left fun ⟨r, readBoth⟩ => ⟨r, readBoth, fun short => ?_⟩
    obtain ⟨p', q', r', sumS, sumT, sumBoth, added⟩ :=
      WrittenExpression.sum_append writesS.1 writesT.1 (writes.few_digits short)
    rw [← writesS.read_eq_sum, readS] at sumS
    rw [← writesT.read_eq_sum, readT] at sumT
    rw [← writes.read_eq_sum, readBoth] at sumBoth
    rw [Except.ok.inj sumS, Except.ok.inj sumT, added, Except.ok.inj sumBoth]
  · intro s t p r begins readS readBoth
    obtain ⟨negative, rest, shape⟩ := begins.exists_rest
    obtain ⟨e, writesS⟩ := WrittenExpression.writes_of_read readS
    obtain ⟨g, writes⟩ := WrittenExpression.writes_of_read readBoth
    obtain ⟨f, writesT⟩ := WrittenExpression.exists_continuation writesS writes shape
    exact writesT.read_or_signal
  · intro e e' s s' p writes chars perm readS
    have formed : e'.WellFormed := fun term present => writes.1 term (perm.mem_iff.mpr present)
    have writes' : e'.Writes s' := ⟨formed, chars⟩
    refine writes'.read_or_signal.imp_left fun ⟨p', readS'⟩ => ⟨p', readS', fun short => ?_⟩
    obtain ⟨both, sumS, sumS'⟩ := WrittenExpression.sum_perm writes.1 perm (writes.few_digits short)
    rw [← writes.read_eq_sum, readS] at sumS
    rw [← writes'.read_eq_sum, readS'] at sumS'
    rw [Except.ok.inj sumS', Except.ok.inj sumS]

/-- Two expressions whose terms cancel, with scales that do not, and the first of them in another
order. -/
theorem read_append_cancelling :
    let read := fun text => (PolynomialFormat.expression.read text).outcome (Journal.new false [])
    let p : Polynomial := ⟨[.ofInt (-3), .zero, .finite ⟨false, 5, -1⟩], List.cons_ne_nil _ _⟩
    let r : Polynomial := ⟨[.zero, .zero, .finite ⟨false, 0, -2⟩], List.cons_ne_nil _ _⟩
    read "0.5x^2-3" = .ok p ∧ read "-3+0.5x^2" = .ok p ∧ (∃ q, read "+3-0.50x^2" = .ok q) ∧
      read "0.5x^2-3+3-0.50x^2" = .ok r := by
  intro read p r
  have half : Numeral.WellFormed ⟨['0'], ['5']⟩ := ⟨.inl rfl, List.forall_mem_singleton.mpr rfl⟩
  have halves : Numeral.WellFormed ⟨['0'], ['5', '0']⟩ :=
    ⟨.inl rfl, List.forall_mem_cons.mpr ⟨rfl, List.forall_mem_singleton.mpr rfl⟩⟩
  have three : Numeral.WellFormed ⟨['3'], []⟩ :=
    ⟨.inr ⟨'3', [], rfl, by decide, List.forall_mem_singleton.mpr rfl⟩, nofun⟩
  have square : WrittenPower.exponent (.raised 2) ≤ largestExponent := by decide
  let e : WrittenExpression := ⟨none, .product ⟨['0'], ['5']⟩ false (.raised 2),
    [(true, .constant ⟨['3'], []⟩)]⟩
  let turned : WrittenExpression := ⟨some true, .constant ⟨['3'], []⟩,
    [(false, .product ⟨['0'], ['5']⟩ false (.raised 2))]⟩
  let f : WrittenExpression := ⟨some false, .constant ⟨['3'], []⟩,
    [(true, .product ⟨['0'], ['5', '0']⟩ false (.raised 2))]⟩
  have writesE : e.Writes "0.5x^2-3" :=
    ⟨List.forall_mem_cons.mpr ⟨⟨half, square⟩, List.forall_mem_singleton.mpr three⟩, by decide⟩
  have writesF : f.Writes "+3-0.50x^2" :=
    ⟨List.forall_mem_cons.mpr ⟨three, List.forall_mem_singleton.mpr ⟨halves, square⟩⟩, by decide⟩
  have readE : read "0.5x^2-3" = .ok p := by
    refine (PolynomialFormat.outcome_read_expression _ _).trans (writesE.read_eq_sum.trans ?_)
    decide +kernel
  have readF : read "+3-0.50x^2" = .ok ⟨[.ofInt 3, .zero, .finite ⟨true, 50, -2⟩],
      List.cons_ne_nil _ _⟩ := by
    refine (PolynomialFormat.outcome_read_expression _ _).trans (writesF.read_eq_sum.trans ?_)
    decide +kernel
  obtain ⟨appended, continued, reordered⟩ := read_append (Journal.new false [])
  have signed : BeginsWithSign "+3-0.50x^2" := .inl (by decide)
  obtain ⟨whole, readWhole, added⟩ :=
    (appended _ _ _ _ signed readE readF).resolve_right fun long => absurd long.1 (by decide)
  obtain ⟨p', readTurned, same⟩ :=
    (reordered e turned _ "-3+0.5x^2" p writesE (by decide) (.swap _ _ _) readE).resolve_right
      fun long => absurd long.1 (by decide)
  obtain ⟨q, readQ⟩ := (continued _ _ _ _ signed readE readWhole).resolve_right
    fun long => absurd long.1 (by decide)
  obtain rfl := same (by decide)
  refine ⟨readE, readTurned, ⟨q, readQ⟩, ?_⟩
  have sum : p.add ⟨[.ofInt 3, .zero, .finite ⟨true, 50, -2⟩], List.cons_ne_nil _ _⟩ = .ok r := by
    decide +kernel
  rw [added (by decide)] at sum
  exact readWhole.trans sum

end ExactQuadrature

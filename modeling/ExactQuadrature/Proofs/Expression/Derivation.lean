import ExactQuadrature.Proofs.Expression.Scanning
import ExactQuadrature.Proofs.Outcome

/-! # The language of expressions

The tokens of a written expression are read as its terms: while a term is read, its draft holds what
the symbols taken in so far say (`Pending`), which every further symbol of the term preserves
(`Pending.extend`) and from which the written term is recovered where it ends (`Pending.complete`).
A text therefore is read as terms exactly when it is a written expression, and the terms are
those that are written (`Expression.terms_eq_ok_iff`).
-/

namespace ExactQuadrature

/-- What may stand before a power: nothing, a numeral, or a numeral and a star. -/
inductive Factor : Option Numeral → List Symbol → Prop where
  | missing : Factor none []
  | plain {numeral : Numeral} (formed : numeral.WellFormed) :
      Factor (some numeral) [.number numeral]
  | starred {numeral : Numeral} (formed : numeral.WellFormed) :
      Factor (some numeral) [.number numeral, .times]

namespace Factor

/-- The coefficient that a draft has, without its sign. -/
def magnitude : Option Numeral → Decimal
  | some numeral => numeral.toDecimal false
  | none => .one

/-- A factor and a power make up a term. -/
theorem complete {coefficient : Option Numeral} {symbols : List Symbol}
    (factor : Factor coefficient symbols) (power : WrittenPower)
    (small : power.exponent ≤ largestExponent) :
    ∃ term : WrittenTerm, term.WellFormed ∧ term.symbols = symbols ++ power.symbols ∧
      term.magnitude = magnitude coefficient ∧ term.exponent = power.exponent := by
  cases factor with
  | missing => exact ⟨.monic power, small, rfl, rfl, rfl⟩
  | @plain numeral formed =>
    exact ⟨.product numeral false power, ⟨formed, small⟩, rfl, rfl, rfl⟩
  | @starred numeral formed =>
    exact ⟨.product numeral true power, ⟨formed, small⟩, rfl, rfl, rfl⟩

end Factor

/-- A term as far as it has been read: the place, the draft, and the symbols taken in. -/
inductive Pending (negative : Bool) : Place → Draft → List Symbol → Prop where
  | sign : Pending negative .sign (.signed negative) []
  | coefficient {numeral : Numeral} (formed : numeral.WellFormed) :
      Pending negative .coefficient ⟨negative, some numeral, false, none⟩ [.number numeral]
  | times {numeral : Numeral} (formed : numeral.WellFormed) :
      Pending negative .times ⟨negative, some numeral, false, none⟩ [.number numeral, .times]
  | unknown {coefficient : Option Numeral} {symbols : List Symbol}
      (factor : Factor coefficient symbols) :
      Pending negative .unknown ⟨negative, coefficient, true, none⟩ (symbols ++ [.unknown])
  | caret {coefficient : Option Numeral} {symbols : List Symbol}
      (factor : Factor coefficient symbols) :
      Pending negative .caret ⟨negative, coefficient, true, none⟩ (symbols ++ [.unknown, .caret])
  | exponent {coefficient : Option Numeral} {symbols : List Symbol} {numeral : Numeral}
      {position : Nat} (factor : Factor coefficient symbols) (formed : numeral.WellFormed) :
      Pending negative .exponent ⟨negative, coefficient, true, some (numeral, position)⟩
        (symbols ++ [.unknown, .caret, .number numeral])

namespace Pending

variable {negative : Bool} {place next : Place} {draft : Draft} {symbols : List Symbol}

/-- Every symbol that continues a term is taken in. -/
theorem extend (pending : Pending negative place draft symbols) {token : Token}
    (formed : token.symbol.WellFormed) (allowed : place.next? token.symbol = some next)
    (inside : next ≠ .sign) :
    Pending negative next (draft.extend token) (symbols ++ [token.symbol]) := by
  obtain ⟨symbol, position⟩ := token
  cases pending with
  | sign =>
    cases symbol <;> cases allowed
    · exact .coefficient formed
    · exact .unknown .missing
  | coefficient numeralFormed =>
    cases symbol <;> cases allowed
    · exact .unknown (.plain numeralFormed)
    · exact absurd rfl inside
    · exact absurd rfl inside
    · exact .times numeralFormed
  | times numeralFormed =>
    cases symbol <;> cases allowed
    exact .unknown (.starred numeralFormed)
  | unknown factor =>
    cases symbol <;> cases allowed
    · exact absurd rfl inside
    · exact absurd rfl inside
    · rw [List.append_assoc]
      exact .caret factor
  | caret factor =>
    cases symbol <;> cases allowed
    rw [List.append_assoc]
    exact .exponent factor formed
  | exponent factor numeralFormed =>
    cases symbol <;> cases allowed
    · exact absurd rfl inside
    · exact absurd rfl inside

/-- A sign may only follow a complete term, unless it is the first symbol of all. -/
theorem complete_before_sign (pending : Pending negative place draft symbols) {symbol : Symbol}
    (allowed : place.next? symbol = some .sign) : place.isComplete = true := by
  cases pending with
  | sign => cases symbol <;> cases allowed
  | times formed => cases symbol <;> cases allowed
  | caret factor => cases symbol <;> cases allowed
  | coefficient formed => rfl
  | unknown factor => rfl
  | exponent factor formed => rfl

/-- The draft of a complete term has the value of the written term with the same symbols. -/
theorem complete (pending : Pending negative place draft symbols)
    (ends : place.isComplete = true) {term : Term} (settled : draft.term = .ok term) :
    ∃ written : WrittenTerm, written.WellFormed ∧ written.symbols = symbols ∧
      written.toTerm negative = term := by
  cases pending with
  | sign => cases ends
  | times formed => cases ends
  | caret factor => cases ends
  | @coefficient numeral formed =>
    cases settled
    exact ⟨.constant numeral, formed, rfl, rfl⟩
  | unknown factor =>
    obtain ⟨written, formed, shape, magnitude, exponent⟩ := factor.complete .bare (by decide)
    cases settled
    refine ⟨written, formed, shape, ?_⟩
    unfold WrittenTerm.toTerm
    rw [magnitude, exponent]
    rfl
  | @exponent coefficient symbols numeral position factor formed =>
    obtain ⟨power, meant, rest⟩ := bind_eq_ok.mp settled
    change Draft.exponentOf numeral position = _ at meant
    unfold Draft.exponentOf at meant
    split at meant
    · cases meant
    · next whole =>
      split at meant
      · cases meant
      · next small =>
        cases meant
        cases rest
        have digits : Nat.toDigits 10 numeral.digits = numeral.whole := by
          unfold Numeral.digits
          rw [not_not.mp whole, List.append_nil]
          exact toDigits_ofDigitChars formed.whole
        have same : (⟨Nat.toDigits 10 numeral.digits, []⟩ : Numeral) = numeral := by
          rw [digits, ← not_not.mp whole]
        obtain ⟨written, writtenFormed, shape, magnitude, exponent⟩ :=
          factor.complete (.raised numeral.digits) (not_lt.mp small)
        refine ⟨written, writtenFormed, ?_, ?_⟩
        · rw [shape]
          change symbols ++ [.unknown, .caret, .number ⟨Nat.toDigits 10 numeral.digits, []⟩] = _
          rw [same]
        · unfold WrittenTerm.toTerm
          rw [magnitude, exponent]
          rfl

end Pending

namespace WrittenExpression

/-- A minus is the sign of what is negative. -/
theorem signSymbol_eq_minus (negative : Bool) : (signSymbol negative == .minus) = negative := by
  cases negative <;> rfl

end WrittenExpression

namespace Place

/-- Only a sign leads to the place after one. -/
theorem next?_eq_sign {place : Place} {symbol : Symbol} (allowed : place.next? symbol = some sign) :
    symbol = WrittenExpression.signSymbol (symbol == .minus) := by
  cases place <;> cases symbol <;> first | rfl | cases allowed

/-- Where an expression may end, a sign may follow. -/
theorem next?_of_complete {place : Place} (ends : place.isComplete = true) (negative : Bool) :
    place.next? (WrittenExpression.signSymbol negative) = some sign := by
  cases place <;> cases ends <;> cases negative <;> rfl

end Place

namespace Expression

variable {place next : Place} {draft : Draft} {fault : Option Misreading} {token : Token}
  {rest : List Token}

/-- The end of the text. -/
theorem termsAfter_nil :
    termsAfter place draft none [] =
      if place.isComplete then do return [← draft.term] else .error .unexpectedEnd := rfl

/-- A token decides by the place that it leads to. -/
theorem termsAfter_cons :
    termsAfter place draft fault (token :: rest) =
      match place.next? token.symbol with
      | none => .error (.unexpectedToken token.text token.position)
      | some next =>
        if place.isComplete && next == .sign then do
          let term ← draft.term
          let terms ← termsAfter next (Draft.signed (token.symbol == .minus)) fault rest
          return term :: terms
        else if next == .sign then
          termsAfter next (Draft.signed (token.symbol == .minus)) fault rest
        else termsAfter next (draft.extend token) fault rest := rfl

/-- A token that may not follow ends the reading. -/
theorem termsAfter_refused (refused : place.next? token.symbol = none) :
    termsAfter place draft fault (token :: rest) =
      .error (.unexpectedToken token.text token.position) := by
  rw [termsAfter_cons, refused]

/-- A token inside a term extends its draft. -/
theorem termsAfter_inside (allowed : place.next? token.symbol = some next) (inside : next ≠ .sign) :
    termsAfter place draft fault (token :: rest) =
      termsAfter next (draft.extend token) fault rest := by
  have other : (next == .sign) = false := beq_false_of_ne inside
  rw [termsAfter_cons, allowed]
  dsimp only
  rw [other, Bool.and_false]
  rfl

/-- A sign after a complete term finishes that term and begins another. -/
theorem termsAfter_sign (allowed : place.next? token.symbol = some .sign)
    (ends : place.isComplete = true) :
    termsAfter place draft fault (token :: rest) = do
      let term ← draft.term
      let terms ← termsAfter .sign (Draft.signed (token.symbol == .minus)) fault rest
      return term :: terms := by
  rw [termsAfter_cons, allowed]
  dsimp only
  rw [ends]
  rfl

/-- A sign that no term precedes begins the first one. -/
theorem termsAfter_leading (allowed : place.next? token.symbol = some .sign)
    (begins : place.isComplete = false) :
    termsAfter place draft fault (token :: rest) =
      termsAfter .sign (Draft.signed (token.symbol == .minus)) fault rest := by
  rw [termsAfter_cons, allowed]
  dsimp only
  rw [begins]
  rfl

/-- The end of the text settles the last term. -/
theorem termsAfter_end (ends : place.isComplete = true) :
    termsAfter place draft none [] = do return [← draft.term] :=
  termsAfter_nil.trans (if_pos ends)

/-- A text that stops inside a term ends unexpectedly. -/
theorem termsAfter_unfinished (begun : place.isComplete = false) :
    termsAfter place draft none [] = .error .unexpectedEnd :=
  termsAfter_nil.trans (if_neg (Bool.not_eq_true _ ▸ begun))

/-- A sign at the start begins the first term; without one, the term begins as after a plus. -/
theorem termsAfter_start (tokens : List Token) :
    (∃ negative position more,
      tokens = ⟨WrittenExpression.signSymbol negative, position⟩ :: more ∧
        termsAfter .start (Draft.signed false) fault tokens =
          termsAfter .sign (Draft.signed negative) fault more) ∨
      termsAfter .start (Draft.signed false) fault tokens =
        termsAfter .sign (Draft.signed false) fault tokens := by
  cases tokens with
  | nil => exact .inr rfl
  | cons token more =>
    obtain ⟨symbol, position⟩ := token
    cases symbol with
    | plus => exact .inl ⟨false, position, more, rfl, rfl⟩
    | minus => exact .inl ⟨true, position, more, rfl, rfl⟩
    | number numeral => exact .inr rfl
    | unknown => exact .inr rfl
    | times => exact .inr rfl
    | caret => exact .inr rfl

/-- Tokens that a misreading ends are not read as terms. -/
theorem termsAfter_fault (place : Place) (draft : Draft) (misreading : Misreading)
    (tokens : List Token) (terms : List Term) :
    termsAfter place draft (some misreading) tokens ≠ .ok terms := by
  intro read
  induction tokens generalizing place draft terms with
  | nil => cases read
  | cons token rest ih =>
    rw [termsAfter_cons] at read
    split at read
    · cases read
    · split at read
      · obtain ⟨term, _, afterTerm⟩ := bind_eq_ok.mp read
        obtain ⟨others, readRest, _⟩ := bind_eq_ok.mp afterTerm
        exact ih _ _ _ readRest
      · split at read
        · exact ih _ _ _ read
        · exact ih _ _ _ read

/-- **Soundness.** Tokens that are read as terms complete the pending term and write the others. -/
theorem termsAfter_sound {negative : Bool} {symbols : List Symbol} {tokens : List Token}
    {terms : List Term} (pending : Pending negative place draft symbols)
    (formed : ∀ symbol ∈ tokens.map Token.symbol, symbol.WellFormed)
    (read : termsAfter place draft none tokens = .ok terms) :
    ∃ (first : WrittenTerm) (later : List (Bool × WrittenTerm)),
      (∀ term ∈ (negative, first) :: later, term.2.WellFormed) ∧
        symbols ++ tokens.map Token.symbol =
          first.symbols ++ later.flatMap WrittenExpression.signedSymbols ∧
        terms = ((negative, first) :: later).map fun term => term.2.toTerm term.1 := by
  induction tokens generalizing place draft symbols negative terms with
  | nil =>
    rw [termsAfter_nil] at read
    split at read
    · next ends =>
      obtain ⟨term, settled, result⟩ := bind_eq_ok.mp read
      cases result
      obtain ⟨first, firstFormed, shape, value⟩ := pending.complete ends settled
      refine ⟨first, [], ?_, ?_, ?_⟩
      · intro term present
        rw [List.mem_singleton.mp present]
        exact firstFormed
      · rw [shape]
        rfl
      · rw [← value]
        rfl
    · cases read
  | cons token rest ih =>
    rw [List.map_cons, List.forall_mem_cons] at formed
    cases allowed : place.next? token.symbol with
    | none =>
      rw [termsAfter_refused allowed] at read
      cases read
    | some next =>
      by_cases sign : next = .sign
      · subst sign
        have ends := pending.complete_before_sign allowed
        rw [termsAfter_sign allowed ends] at read
        obtain ⟨term, settled, afterTerm⟩ := bind_eq_ok.mp read
        obtain ⟨others, readRest, result⟩ := bind_eq_ok.mp afterTerm
        cases result
        obtain ⟨first, firstFormed, shape, value⟩ := pending.complete ends settled
        obtain ⟨second, later, laterFormed, covers, meaning⟩ := ih .sign formed.2 readRest
        refine ⟨first, (token.symbol == .minus, second) :: later, ?_, ?_, ?_⟩
        · exact List.forall_mem_cons.mpr ⟨firstFormed, laterFormed⟩
        · rw [List.nil_append] at covers
          rw [List.map_cons, covers, shape, List.flatMap_cons]
          unfold WrittenExpression.signedSymbols
          rw [← Place.next?_eq_sign allowed]
          rfl
        · rw [meaning, ← value]
          rfl
      · rw [termsAfter_inside allowed sign] at read
        obtain ⟨first, later, allFormed, covers, meaning⟩ :=
          ih (pending.extend formed.1 allowed sign) formed.2 read
        refine ⟨first, later, allFormed, ?_, meaning⟩
        rw [← covers, List.append_assoc]
        rfl

/-- The tokens of a power complete every term that may go on with the unknown. -/
theorem termsAfter_power (place : Place) (fault : Option Misreading) (negative : Bool)
    (coefficient : Option Numeral) {power : WrittenPower} {tokens : List Token}
    (allowed : place.next? .unknown = some .unknown)
    (small : power.exponent ≤ largestExponent) (shape : tokens.map Token.symbol = power.symbols) :
    ∃ last final, last.isComplete = true ∧
      final.term = .ok ⟨if negative then (Factor.magnitude coefficient).negate
        else Factor.magnitude coefficient, power.exponent⟩ ∧
      ∀ rest, termsAfter place ⟨negative, coefficient, false, none⟩ fault (tokens ++ rest) =
        termsAfter last final fault rest := by
  cases power with
  | bare =>
    obtain ⟨⟨_, position⟩, _, rfl, rfl, ended⟩ := List.map_eq_cons_iff.mp shape
    obtain rfl := List.map_eq_nil_iff.mp ended
    refine ⟨.unknown, ⟨negative, coefficient, true, none⟩, rfl, ?_, fun rest => ?_⟩
    · cases coefficient <;> rfl
    · exact termsAfter_inside allowed (by decide)
  | raised exponent =>
    obtain ⟨⟨_, first⟩, _, rfl, rfl, more⟩ := List.map_eq_cons_iff.mp shape
    obtain ⟨⟨_, second⟩, _, rfl, rfl, last⟩ := List.map_eq_cons_iff.mp more
    obtain ⟨⟨_, position⟩, _, rfl, rfl, ended⟩ := List.map_eq_cons_iff.mp last
    obtain rfl := List.map_eq_nil_iff.mp ended
    have digits : (⟨Nat.toDigits 10 exponent, []⟩ : Numeral).digits = exponent := by
      unfold Numeral.digits
      rw [List.append_nil, Nat.ofDigitChars_ten_toDigits]
    have meant : Draft.exponentOf ⟨Nat.toDigits 10 exponent, []⟩ position = .ok exponent := by
      unfold Draft.exponentOf
      change exponent ≤ largestExponent at small
      rw [digits, if_neg (fun absent => absent rfl), if_neg (not_lt.mpr small)]
    refine ⟨.exponent,
      ⟨negative, coefficient, true, some (⟨Nat.toDigits 10 exponent, []⟩, position)⟩,
      rfl, ?_, fun rest => ?_⟩
    · unfold Draft.term
      dsimp only
      rw [meant]
      cases coefficient <;> rfl
    · calc
        termsAfter place ⟨negative, coefficient, false, none⟩ fault
            (⟨.unknown, first⟩ :: ⟨.caret, second⟩ ::
              ⟨.number ⟨Nat.toDigits 10 exponent, []⟩, position⟩ :: rest) =
          termsAfter .unknown ⟨negative, coefficient, true, none⟩ fault
            (⟨.caret, second⟩ :: ⟨.number ⟨Nat.toDigits 10 exponent, []⟩, position⟩ :: rest) :=
          termsAfter_inside allowed (by decide)
        _ = termsAfter .caret ⟨negative, coefficient, true, none⟩ fault
            (⟨.number ⟨Nat.toDigits 10 exponent, []⟩, position⟩ :: rest) :=
          termsAfter_inside rfl (by decide)
        _ = _ := termsAfter_inside rfl (by decide)

/-- The tokens of a term after its sign complete it. -/
theorem termsAfter_term (fault : Option Misreading) (negative : Bool) {term : WrittenTerm}
    {tokens : List Token}
    (formed : term.WellFormed) (shape : tokens.map Token.symbol = term.symbols) :
    ∃ last final, last.isComplete = true ∧ final.term = .ok (term.toTerm negative) ∧
      ∀ rest, termsAfter .sign (Draft.signed negative) fault (tokens ++ rest) =
        termsAfter last final fault rest := by
  cases term with
  | constant numeral =>
    obtain ⟨⟨_, position⟩, _, rfl, rfl, ended⟩ := List.map_eq_cons_iff.mp shape
    obtain rfl := List.map_eq_nil_iff.mp ended
    exact ⟨.coefficient, ⟨negative, some numeral, false, none⟩, rfl, rfl, fun rest => rfl⟩
  | monic power =>
    exact termsAfter_power .sign fault negative none rfl formed shape
  | product numeral starred power =>
    obtain ⟨⟨_, position⟩, _, rfl, rfl, more⟩ := List.map_eq_cons_iff.mp shape
    cases starred
    · obtain ⟨last, final, ends, settled, reads⟩ :=
        termsAfter_power .coefficient fault negative (some numeral) rfl formed.2 more
      exact ⟨last, final, ends, settled, reads⟩
    · obtain ⟨⟨_, between⟩, _, rfl, rfl, powerShape⟩ := List.map_eq_cons_iff.mp more
      obtain ⟨last, final, ends, settled, reads⟩ :=
        termsAfter_power .times fault negative (some numeral) rfl formed.2 powerShape
      exact ⟨last, final, ends, settled, reads⟩

/-- **Completeness.** The tokens of written terms are read as these terms. -/
theorem termsAfter_complete {negative : Bool} {first : WrittenTerm}
    {later : List (Bool × WrittenTerm)} {tokens : List Token}
    (formed : ∀ term ∈ (negative, first) :: later, term.2.WellFormed)
    (shape : tokens.map Token.symbol =
      first.symbols ++ later.flatMap WrittenExpression.signedSymbols) :
    termsAfter .sign (Draft.signed negative) none tokens =
      .ok (((negative, first) :: later).map fun term => term.2.toTerm term.1) := by
  induction later generalizing negative first tokens with
  | nil =>
    rw [List.flatMap_nil, List.append_nil] at shape
    obtain ⟨last, final, ends, settled, reads⟩ :=
      termsAfter_term none negative (formed _ (List.mem_singleton.mpr rfl)) shape
    rw [← List.append_nil tokens, reads, termsAfter_end ends, settled]
    rfl
  | cons second later ih =>
    obtain ⟨firstFormed, laterFormed⟩ := List.forall_mem_cons.mp formed
    obtain ⟨own, more, rfl, ownShape, moreShape⟩ := List.map_eq_append_iff.mp shape
    obtain ⟨⟨_, position⟩, others, rfl, rfl, othersShape⟩ := List.map_eq_cons_iff.mp moreShape
    obtain ⟨last, final, ends, settled, reads⟩ :=
      termsAfter_term none negative firstFormed ownShape
    rw [reads, termsAfter_sign (Place.next?_of_complete ends second.1) ends, settled]
    dsimp only
    rw [WrittenExpression.signSymbol_eq_minus, bind_ok, ih laterFormed othersShape]
    rfl

end Expression

namespace WrittenExpression

/-- No term begins with a sign. -/
theorem first_ne_sign (term : WrittenTerm) (negative : Bool) (more later : List Symbol) :
    term.symbols ++ later ≠ signSymbol negative :: more := by
  intro same
  cases term with
  | constant numeral => cases negative <;> cases same
  | product numeral starred power => cases negative <;> cases same
  | monic power => cases power <;> cases negative <;> cases same

end WrittenExpression

namespace Expression

/-- Tokens without a misreading that are read as terms are those of a written expression. -/
theorem exists_written {tokens : List Token} {ts : List Term}
    (formed : ∀ symbol ∈ tokens.map Token.symbol, symbol.WellFormed)
    (read : termsAfter .start (Draft.signed false) none tokens = .ok ts) :
    ∃ e : WrittenExpression, e.WellFormed ∧ e.symbols = tokens.map Token.symbol ∧ e.terms = ts := by
  rcases termsAfter_start tokens with ⟨negative, position, more, rfl, start⟩ | start
  · rw [start] at read
    rw [List.map_cons] at formed
    obtain ⟨first, later, allFormed, moreShape, meaning⟩ :=
      termsAfter_sound .sign (List.forall_mem_cons.mp formed).2 read
    rw [List.nil_append] at moreShape
    refine ⟨⟨some negative, first, later⟩, allFormed, ?_, meaning.symm⟩
    rw [List.map_cons, moreShape]
    rfl
  · rw [start] at read
    obtain ⟨first, later, allFormed, shape, meaning⟩ := termsAfter_sound .sign formed read
    rw [List.nil_append] at shape
    exact ⟨⟨none, first, later⟩, allFormed, shape.symm, meaning.symm⟩

/-- The tokens of a written expression are read as its terms. -/
theorem termsAfter_written {e : WrittenExpression} (formed : e.WellFormed) {tokens : List Token}
    (covers : tokens.map Token.symbol = e.symbols) :
    termsAfter .start (Draft.signed false) none tokens = .ok e.terms := by
  obtain ⟨sign, first, later⟩ := e
  cases sign with
  | none =>
    rcases termsAfter_start tokens with ⟨negative, position, more, shape, start⟩ | start
    · rw [shape, List.map_cons] at covers
      exact absurd covers.symm (WrittenExpression.first_ne_sign first negative _ _)
    · rw [start]
      exact termsAfter_complete formed covers
  | some negative =>
    obtain ⟨⟨_, position⟩, more, shape, rfl, moreShape⟩ := List.map_eq_cons_iff.mp covers
    rw [shape]
    calc
      termsAfter .start (Draft.signed false) none
        (⟨WrittenExpression.signSymbol negative, position⟩ :: more) =
          termsAfter .sign (Draft.signed negative) none more := by
        cases negative <;> rfl
      _ = _ := termsAfter_complete formed moreShape

/-- **The language of expressions.** A text is read as terms exactly when it is a written
expression, and then as the terms that are written. -/
theorem terms_eq_ok_iff (text : String) (ts : List Term) :
    terms text = .ok ts ↔
      ∃ e : WrittenExpression, e.WellFormed ∧ e.chars = text.toList ∧ e.terms = ts := by
  unfold terms Scan.ofText
  generalize scanned : Scan.fromPosition 0 text.toList = scan
  dsimp only
  constructor
  · intro read
    cases faultless : scan.fault with
    | some misreading =>
      rw [faultless] at read
      exact absurd read (termsAfter_fault _ _ _ _ _)
    | none =>
      rw [faultless] at read
      have sound := Scan.fromPosition_sound (scanned ▸ faultless)
      rw [scanned] at sound
      obtain ⟨covers, formed⟩ := sound
      obtain ⟨e, allFormed, shape, meaning⟩ := exists_written formed read
      exact ⟨e, allFormed, by rw [← e.flatMap_symbols, shape, covers], meaning⟩
  · rintro ⟨e, formed, same, rfl⟩
    obtain ⟨covers, faultless⟩ :=
      Scan.fromPosition_of_separated (WrittenExpression.separated formed) 0
    rw [e.flatMap_symbols, same, scanned] at covers faultless
    rw [faultless]
    exact termsAfter_written formed covers

end Expression

end ExactQuadrature

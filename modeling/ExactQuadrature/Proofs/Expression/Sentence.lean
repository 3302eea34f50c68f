import ExactQuadrature.Proofs.Expression.Derivation

/-! # Sentences and what can become one

The grammar of expressions as rules for lists of symbols, whatever the values of their exponents.
Symbols are viable if some continuation makes a sentence of them. The table of places decides both.
It allows the symbols of a sentence one after the other and ends where a term is complete
(`Place.after?_sentence`); and what it allows is an opening and a term begun (`Begun.extend`,
`Begun.sign`), which can be completed (`Begun.exists_sentence`).
-/

namespace ExactQuadrature

open WrittenExpression (signSymbol)

/-- The unknown alone, or raised by a numeral. -/
inductive PowerForm : List Symbol → Prop where
  | bare : PowerForm [.unknown]
  | raised {numeral : Numeral} (formed : numeral.WellFormed) :
      PowerForm [.unknown, .caret, .number numeral]

/-- A numeral, a power, or a numeral and a power with or without a star between them. -/
inductive TermForm : List Symbol → Prop where
  | constant {numeral : Numeral} (formed : numeral.WellFormed) : TermForm [.number numeral]
  | product {numeral : Numeral} {power : List Symbol} (formed : numeral.WellFormed)
      (form : PowerForm power) : TermForm (.number numeral :: power)
  | starred {numeral : Numeral} {power : List Symbol} (formed : numeral.WellFormed)
      (form : PowerForm power) : TermForm (.number numeral :: .times :: power)
  | monic {power : List Symbol} (form : PowerForm power) : TermForm power

/-- A sign and a term. -/
inductive SignedTermForm : List Symbol → Prop where
  | signed (negative : Bool) {term : List Symbol} (form : TermForm term) :
      SignedTermForm (signSymbol negative :: term)

/-- Any number of signed terms. -/
inductive RestForm : List Symbol → Prop where
  | none : RestForm []
  | more {term rest : List Symbol} (first : SignedTermForm term) (later : RestForm rest) :
      RestForm (term ++ rest)

/-- A first term with or without a sign, and any number of signed terms. -/
inductive Sentence : List Symbol → Prop where
  | unsigned {term rest : List Symbol} (first : TermForm term) (later : RestForm rest) :
      Sentence (term ++ rest)
  | signed {term rest : List Symbol} (first : SignedTermForm term) (later : RestForm rest) :
      Sentence (term ++ rest)

/-- Symbols that can be continued to a sentence. -/
def Viable (symbols : List Symbol) : Prop := ∃ more, Sentence (symbols ++ more)

/-- The first of some viable symbols are viable. -/
theorem Viable.of_append {before after : List Symbol} (viable : Viable (before ++ after)) :
    Viable before := by
  obtain ⟨more, sentence⟩ := viable
  exact ⟨after ++ more, by rwa [← List.append_assoc]⟩

/-- A signed term more is still a rest. -/
theorem RestForm.snoc {rest term : List Symbol} (form : RestForm rest)
    (last : SignedTermForm term) :
    RestForm (rest ++ term) := by
  induction form with
  | none =>
    rw [List.nil_append, ← List.append_nil term]
    exact .more last .none
  | more first _ ih =>
    rw [List.append_assoc]
    exact .more first ih

/-- A sentence goes on with a signed term. -/
theorem Sentence.snoc {symbols term : List Symbol} (sentence : Sentence symbols)
    (last : SignedTermForm term) : Sentence (symbols ++ term) := by
  cases sentence with
  | unsigned first later =>
    rw [List.append_assoc]
    exact .unsigned first (later.snoc last)
  | signed first later =>
    rw [List.append_assoc]
    exact .signed first (later.snoc last)

namespace Place

/-- The place that symbols lead to, where the table allows each of them. -/
def after? (place : Place) (symbols : List Symbol) : Option Place := symbols.foldlM next? place

theorem after?_append (place : Place) (before after : List Symbol) :
    place.after? (before ++ after) = (place.after? before).bind (·.after? after) :=
  List.foldlM_append

/-- A first symbol leads where the table says. -/
theorem after?_cons {place next : Place} {symbol : Symbol}
    (allowed : place.next? symbol = some next)
    (rest : List Symbol) : place.after? (symbol :: rest) = next.after? rest := by
  unfold after?
  rw [List.foldlM_cons, allowed]
  rfl

/-- A last symbol leads where the table says for the place behind the others. -/
theorem after?_concat {place middle : Place} {before : List Symbol}
    (reached : place.after? before = some middle) (symbol : Symbol) :
    place.after? (before ++ [symbol]) = middle.next? symbol := by
  rw [after?_append, reached]
  exact Option.bind_fun_some (middle.next? symbol)

/-- Symbols lead somewhere only if the first ones do. -/
theorem exists_after?_of_append {place last : Place} {before after : List Symbol}
    (found : place.after? (before ++ after) = some last) :
    ∃ middle, place.after? before = some middle := by
  rw [after?_append, Option.bind_eq_some_iff] at found
  obtain ⟨middle, reached, _⟩ := found
  exact ⟨middle, reached⟩

/-- A power leads to a complete place from wherever the unknown is allowed. -/
theorem after?_power {place : Place} (allowed : place.next? .unknown = some .unknown)
    {power : List Symbol} (form : PowerForm power) :
    ∃ last, place.after? power = some last ∧ last.isComplete = true := by
  cases form with
  | bare => exact ⟨.unknown, after?_cons allowed [], rfl⟩
  | @raised numeral formed => exact ⟨.exponent, after?_cons allowed [.caret, .number numeral], rfl⟩

/-- A term leads to a complete place from the start and from a sign. -/
theorem after?_term {place : Place} (begins : place = .start ∨ place = .sign) {term : List Symbol}
    (form : TermForm term) : ∃ last, place.after? term = some last ∧ last.isComplete = true := by
  have number : ∀ numeral, place.next? (.number numeral) = some .coefficient := by
    rcases begins with rfl | rfl <;> exact fun _ => rfl
  cases form with
  | constant formed => exact ⟨.coefficient, after?_cons (number _) [], rfl⟩
  | product formed power =>
    rw [after?_cons (number _)]
    exact after?_power rfl power
  | starred formed power =>
    rw [after?_cons (number _)]
    exact after?_power (show times.next? .unknown = some .unknown from rfl) power
  | monic power =>
    refine after?_power ?_ power
    rcases begins with rfl | rfl <;> rfl

/-- A signed term leads to where a term is complete. -/
theorem after?_signedTerm {place : Place} (begins : place = .start ∨ place.isComplete = true)
    {term : List Symbol} (form : SignedTermForm term) :
    ∃ last, place.after? term = some last ∧ last.isComplete = true := by
  cases form with
  | signed negative form =>
    have sign : place.next? (signSymbol negative) = some .sign := by
      rcases begins with rfl | ends
      · cases negative <;> rfl
      · exact next?_of_complete ends negative
    rw [after?_cons sign]
    exact after?_term (.inr rfl) form

theorem after?_rest {place : Place} (ends : place.isComplete = true) {rest : List Symbol}
    (form : RestForm rest) : ∃ last, place.after? rest = some last ∧ last.isComplete = true := by
  induction form generalizing place with
  | none => exact ⟨place, rfl, ends⟩
  | more first _ ih =>
    obtain ⟨middle, reached, complete⟩ := after?_signedTerm (.inr ends) first
    rw [after?_append, reached]
    exact ih complete

/-- **Sentences end in a complete place.** -/
theorem after?_sentence {symbols : List Symbol} (sentence : Sentence symbols) :
    ∃ last, start.after? symbols = some last ∧ last.isComplete = true := by
  cases sentence with
  | unsigned first later =>
    obtain ⟨middle, reached, complete⟩ := after?_term (.inl rfl) first
    rw [after?_append, reached]
    exact after?_rest complete later
  | signed first later =>
    obtain ⟨middle, reached, complete⟩ := after?_signedTerm (.inl rfl) first
    rw [after?_append, reached]
    exact after?_rest complete later

/-- **Viable symbols are allowed one after the other.** -/
theorem exists_after?_of_viable {symbols : List Symbol} (viable : Viable symbols) :
    ∃ place, start.after? symbols = some place := by
  obtain ⟨more, sentence⟩ := viable
  obtain ⟨last, reached, _⟩ := after?_sentence sentence
  exact exists_after?_of_append reached

/-- Whatever but a sign is allowed at the start is allowed after a sign, and leads to the same
place. -/
theorem next?_start_inside {symbol : Symbol} {next : Place}
    (allowed : start.next? symbol = some next)
    (inside : next ≠ sign) : sign.next? symbol = some next := by
  cases symbol <;> cases allowed <;> first | rfl | exact absurd rfl inside

end Place

/-- What stands before a term: nothing, a sign, or a sentence and a sign. -/
inductive Opening : List Symbol → Prop where
  | none : Opening []
  | first (negative : Bool) : Opening [signSymbol negative]
  | later {symbols : List Symbol} (sentence : Sentence symbols) (negative : Bool) :
      Opening (symbols ++ [signSymbol negative])

/-- An opening and a term are a sentence. -/
theorem Opening.sentence {opening term : List Symbol} (opens : Opening opening)
    (form : TermForm term) :
    Sentence (opening ++ term) := by
  cases opens with
  | none =>
    rw [List.nil_append, ← List.append_nil term]
    exact .unsigned form .none
  | first negative =>
    rw [← List.append_nil (_ ++ term)]
    exact .signed (.signed negative form) .none
  | later sentence negative =>
    rw [List.append_assoc]
    exact sentence.snoc (.signed negative form)

/-- A factor and a power are a term. -/
theorem Factor.termForm {coefficient : Option Numeral} {symbols power : List Symbol}
    (factor : Factor coefficient symbols) (form : PowerForm power) :
    TermForm (symbols ++ power) := by
  cases factor with
  | missing => exact .monic form
  | plain formed => exact .product formed form
  | starred formed => exact .starred formed form

/-- **Every term begun can be completed**, and a complete one is so as it stands. -/
theorem Pending.exists_termForm {negative : Bool} {place : Place} {draft : Draft}
    {symbols : List Symbol}
    (pending : Pending negative place draft symbols) :
    ∃ more, TermForm (symbols ++ more) ∧ (place.isComplete = true → more = []) := by
  cases pending with
  | sign => exact ⟨[.unknown], .monic .bare, nofun⟩
  | coefficient formed => exact ⟨[], .constant formed, fun _ => rfl⟩
  | times formed => exact ⟨[.unknown], .starred formed .bare, nofun⟩
  | unknown factor =>
    exact ⟨[], by rw [List.append_nil]; exact factor.termForm .bare, fun _ => rfl⟩
  | caret factor =>
    refine ⟨[.number ⟨['0'], []⟩], ?_, nofun⟩
    rw [List.append_assoc]
    exact factor.termForm (.raised ⟨.inl rfl, nofun⟩)
  | exponent factor formed =>
    exact ⟨[], by rw [List.append_nil]; exact factor.termForm (.raised formed), fun _ => rfl⟩

/-- Symbols read from the start: none, or an opening and a term begun. -/
inductive Begun : Place → Draft → List Symbol → Prop where
  | start : Begun .start (.signed false) []
  | term {negative : Bool} {place : Place} {draft : Draft} {opening symbols : List Symbol}
      (opens : Opening opening) (pending : Pending negative place draft symbols) :
      Begun place draft (opening ++ symbols)

namespace Begun

variable {place next : Place} {draft : Draft} {symbols : List Symbol} {token : Token}

/-- **What was read can be completed**, and is a sentence where a term is complete. -/
theorem exists_sentence (begun : Begun place draft symbols) :
    ∃ more, Sentence (symbols ++ more) ∧ (place.isComplete = true → more = []) := by
  cases begun with
  | start => exact ⟨[.unknown], Opening.none.sentence (.monic .bare), nofun⟩
  | term opens pending =>
    obtain ⟨more, form, complete⟩ := pending.exists_termForm
    exact ⟨more, by rw [List.append_assoc]; exact opens.sentence form, complete⟩

/-- What has begun can be gone on with. -/
theorem viable (begun : Begun place draft symbols) : Viable symbols :=
  let ⟨more, sentence, _⟩ := begun.exists_sentence
  ⟨more, sentence⟩

/-- Where a term is complete, what has begun is a sentence. -/
theorem sentence (begun : Begun place draft symbols) (ends : place.isComplete = true) :
    Sentence symbols := by
  obtain ⟨more, sentence, complete⟩ := begun.exists_sentence
  rwa [complete ends, List.append_nil] at sentence

/-- A symbol of the same term is taken in. -/
theorem extend (begun : Begun place draft symbols) (formed : token.symbol.WellFormed)
    (allowed : place.next? token.symbol = some next) (inside : next ≠ .sign) :
    Begun next (draft.extend token) (symbols ++ [token.symbol]) := by
  cases begun with
  | start =>
    exact .term .none (Pending.sign.extend formed (Place.next?_start_inside allowed inside) inside)
  | term opens pending =>
    rw [List.append_assoc]
    exact .term opens (pending.extend formed allowed inside)

/-- A sign begins another term. -/
theorem sign {symbol : Symbol} (begun : Begun place draft symbols)
    (allowed : place.next? symbol = some .sign) :
    Begun .sign (.signed (symbol == .minus)) (symbols ++ [symbol]) := by
  have isSign := Place.next?_eq_sign allowed
  have opens : Opening (symbols ++ [symbol]) := by
    rw [isSign]
    cases begun with
    | start => exact .first _
    | term opens pending =>
      exact .later ((Begun.term opens pending).sentence (pending.complete_before_sign allowed)) _
  rw [← List.append_nil (symbols ++ [symbol])]
  exact .term opens .sign

end Begun

end ExactQuadrature

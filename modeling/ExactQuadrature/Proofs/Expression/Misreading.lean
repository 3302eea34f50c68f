import ExactQuadrature.Proofs.Expression.Meaning
import ExactQuadrature.Proofs.Expression.Progress

/-! # Which misreading is reported

A text that is no expression may be wrong in several places and in several ways. What is reported is
what a reader from the left with one token of lookahead meets first (`MetFirst`): a character or a
token that cannot follow what has been read, the end of the text where it cannot end, or the first
misfit among the exponents once the sign or the end of the text behind it has been seen. The report
and what is met first determine each other (`misreading_reported_iff`).
-/

namespace ExactQuadrature

open WrittenExpression (signSymbol)

/-- The symbols of a text that begin before a position. -/
def symbolsBefore (text : String) (position : Nat) : List Symbol :=
  ((Scan.ofText text).tokens.filter (·.position < position)).map Token.symbol

/-- Exponents before a position fit, but for one that ends there. -/
def FitBefore (text : String) (position : Nat) : Prop :=
  ∀ numeral earlier, IsExponent (Scan.ofText text).tokens numeral earlier → earlier < position →
    earlier + numeral.chars.length ≠ position → numeral.FitsExponent

/-- **The first misfit.** Of all exponents it is the first that does not fit. The symbols up to it
are viable, and a sign or the end of the text follows. -/
structure FirstMisfit (text : String) (numeral : Numeral) (position : Nat) : Prop where
  exponent : IsExponent (Scan.ofText text).tokens numeral position
  misfit : ¬ numeral.FitsExponent
  leftmost : ∀ other earlier, IsExponent (Scan.ofText text).tokens other earlier →
    earlier < position → other.FitsExponent
  viable : Viable (symbolsBefore text (position + 1))
  ends : SignOrEnd (text.toList.drop (position + numeral.chars.length))

/-- **What a reader meets first** who reads from the left, one token ahead, and settles the value of
a term when a sign or the end of the text follows it. -/
inductive MetFirst (text : String) : Misreading → Prop where
  | illegalCharacter {c : Char} {position : Nat}
      (found : (Scan.ofText text).fault = some (.illegalCharacter c position))
      (stands : text.toList[position]? = some c)
      (viable : Viable (symbolsBefore text position)) (fits : FitBefore text position) :
      MetFirst text (.illegalCharacter c position)
  | unexpectedToken {token : Token} (found : token ∈ (Scan.ofText text).tokens)
      (viable : Viable (symbolsBefore text token.position))
      (stops : ¬ Viable (symbolsBefore text token.position ++ [token.symbol]))
      (fits : FitBefore text token.position) :
      MetFirst text (.unexpectedToken token.text token.position)
  | unexpectedEnd (scanned : (Scan.ofText text).fault = none)
      (viable : Viable ((Scan.ofText text).tokens.map Token.symbol))
      (unfinished : ¬ Sentence ((Scan.ofText text).tokens.map Token.symbol))
      (fits : ∀ numeral position, IsExponent (Scan.ofText text).tokens numeral position →
        numeral.FitsExponent) :
      MetFirst text .unexpectedEnd
  | fractionalExponent {numeral : Numeral} {position : Nat}
    (first : FirstMisfit text numeral position)
      (fraction : numeral.fraction ≠ []) :
      MetFirst text (.fractionalExponent (String.ofList numeral.chars) position)
  | oversizedExponent {numeral : Numeral} {position : Nat}
    (first : FirstMisfit text numeral position)
      (whole : numeral.fraction = []) (large : largestExponent < numeral.digits) :
      MetFirst text (.oversizedExponent (String.ofList numeral.chars) position)

/-- The misfit of the first exponent that does not fit is what is met first. -/
theorem FirstMisfit.metFirst {text : String} {numeral : Numeral} {position : Nat}
    {misreading : Misreading} (first : FirstMisfit text numeral position)
    (misfit : numeral.Misfit position misreading) : MetFirst text misreading := by
  cases misfit with
  | fractional fraction => exact .fractionalExponent first fraction
  | oversized whole large => exact .oversizedExponent first whole large

namespace Scan

variable {text : String} {before after : List Token} {token : Token}

theorem wellFormed_ofText (text : String) :
    ∀ token ∈ (ofText text).tokens, token.symbol.WellFormed :=
  fun token (present : token ∈ (fromPosition 0 text.toList).tokens) => wellFormed_of_mem present

/-- A token stands where those before it end. -/
theorem position_eq_extent (split : (ofText text).tokens = before ++ token :: after) :
    token.position = Token.extent before := by
  have stands := position_of_split split
  rwa [Nat.zero_add] at stands

/-- First tokens end where the last of them does. -/
theorem extent_eq_end (split : (ofText text).tokens = before ++ [token] ++ after) :
    Token.extent (before ++ [token]) = token.position + token.symbol.chars.length := by
  rw [List.append_assoc, List.singleton_append] at split
  rw [Token.extent_concat, position_eq_extent split]

/-- Each of the first tokens ends no later than they do. -/
theorem end_le_extent (split : (ofText text).tokens = before ++ after) (present : token ∈ before) :
    token.position + token.symbol.chars.length ≤ Token.extent before := by
  obtain ⟨first, last, rfl⟩ := List.append_of_mem present
  rw [List.append_assoc, List.cons_append] at split
  rw [position_eq_extent split, Token.extent_append, Token.extent_cons]
  omega

/-- The other tokens begin no earlier than the first ones end. -/
theorem extent_le_position (split : (ofText text).tokens = before ++ after)
    (present : token ∈ after) :
    Token.extent before ≤ token.position := by
  obtain ⟨first, last, rfl⟩ := List.append_of_mem present
  rw [← List.append_assoc] at split
  rw [position_eq_extent split, Token.extent_append]
  exact Nat.le_add_right _ _

/-- Exactly the first tokens begin before the end of these. -/
theorem symbolsBefore_extent (split : (ofText text).tokens = before ++ after) :
    symbolsBefore text (Token.extent before) = before.map Token.symbol := by
  unfold symbolsBefore
  rw [split]
  refine congrArg (List.map Token.symbol) (filter_before (fun token present => ?_)
    fun token present => extent_le_position split present)
  have own := Symbol.chars_pos (wellFormed_ofText text token
    (split ▸ List.mem_append_left _ present))
  have ends := end_le_extent split present
  omega

/-- The tokens up to another one begin before what follows the position of that. -/
theorem symbolsBefore_succ (split : (ofText text).tokens = before ++ [token] ++ after) :
    symbolsBefore text (token.position + 1) = (before ++ [token]).map Token.symbol := by
  obtain ⟨earlier, later⟩ := positions_of_split
    (split.trans (by rw [List.append_assoc, List.singleton_append]))
  unfold symbolsBefore
  rw [split]
  refine congrArg (List.map Token.symbol) (filter_before (fun other present => ?_) later)
  rcases List.mem_append.mp present with before | own
  · exact Nat.lt_succ_of_lt (earlier other before)
  · rw [List.mem_singleton.mp own]
    exact Nat.lt_succ_self _

/-- What first tokens leave of a text is what the other tokens cover, and what no symbol begins. -/
theorem drop_extent (split : (ofText text).tokens = before ++ after) :
    ∃ rest, text.toList.drop (Token.extent before) =
        (after.map Token.symbol).flatMap Symbol.chars ++ rest ∧
      Symbol.scan? rest = none ∧
      (ofText text).fault =
        rest.head?.map (.illegalCharacter · (Token.extent (ofText text).tokens)) := by
  obtain ⟨rest, covers, _, ends, fault⟩ := fromPosition_covers 0 text.toList
  refine ⟨rest, ?_, ends, ?_⟩
  · rw [show (fromPosition 0 text.toList).tokens = _ from split, List.map_append,
      List.flatMap_append, List.append_assoc] at covers
    rw [← covers]
    exact List.drop_left
  · rw [Nat.zero_add] at fault
    exact fault

/-- What is left behind first tokens begins with a sign or is nothing, if so are the other
tokens. -/
theorem signOrEnd_drop (split : (ofText text).tokens = before ++ after) :
    SignOrEnd (text.toList.drop (Token.extent before)) ↔
      (after = [] ∧ (ofText text).fault = none) ∨
        ∃ negative position more, after = ⟨signSymbol negative, position⟩ :: more := by
  obtain ⟨rest, covers, ends, fault⟩ := drop_extent split
  rw [covers, signOrEnd_iff (fun token present => wellFormed_ofText text token
    (split ▸ List.mem_append_right _ present)) ends, fault, Option.map_eq_none_iff,
    List.head?_eq_none_iff]

/-- A fault is the character behind all tokens. -/
theorem fault_eq_some {misreading : Misreading} (found : (ofText text).fault = some misreading) :
    ∃ c, misreading = .illegalCharacter c (Token.extent (ofText text).tokens) ∧
      text.toList[Token.extent (ofText text).tokens]? = some c := by
  obtain ⟨rest, covers, _, fault⟩ := drop_extent (List.append_nil (ofText text).tokens).symm
  rw [found, eq_comm, Option.map_eq_some_iff] at fault
  obtain ⟨c, head, rfl⟩ := fault
  refine ⟨c, rfl, ?_⟩
  rw [← List.head?_drop, covers]
  exact head

end Scan

namespace Expression

open Scan

variable {text : String} {before after : List Token} {token : Token} {place : Place} {draft : Draft}
  {numeral : Numeral} {position : Nat} {misreading : Misreading}

namespace Reached

/-- An exponent that is part of the term begun ends what has been read. -/
theorem ends_pending (reached : Reached before place draft)
    (pending : draft.exponent = some (numeral, position)) :
    IsExponent before numeral position ∧
      ∃ earlier, before = earlier ++ [⟨.number numeral, position⟩] := by
  obtain ⟨first, caret, rfl⟩ := reached.pending numeral position pending
  refine ⟨⟨caret, (List.suffix_append _ _).isInfix⟩, first ++ [⟨.caret, caret⟩], ?_⟩
  rw [List.append_assoc]
  rfl

/-- Exponents before the end of what has been read fit, but for one that is part of the term
begun. -/
theorem fits_or_pending (reached : Reached before place draft)
    (split : (ofText text).tokens = before ++ after)
    (exponent : IsExponent (ofText text).tokens numeral position)
    (earlier : position < Token.extent before) :
    numeral.FitsExponent ∨ draft.exponent = some (numeral, position) := by
  rw [split] at exponent
  rcases exponent.of_append with among | later
  · exact reached.settled numeral position among
  · exact absurd earlier (not_lt.mpr (extent_le_position split later))

/-- All exponents before the end of what has been read fit. -/
theorem fitBefore (reached : Reached before place draft)
    (split : (ofText text).tokens = before ++ after) : FitBefore text (Token.extent before) := by
  intro numeral position exponent earlier apart
  refine (reached.fits_or_pending split exponent earlier).resolve_right fun pending => ?_
  obtain ⟨_, first, rfl⟩ := reached.ends_pending pending
  exact apart (extent_eq_end split).symm

/-- **A term without a value that a sign or the end of the text follows** ends in the first
misfit. -/
theorem firstMisfit (reached : Reached before place draft)
    (split : (ofText text).tokens = before ++ after)
    (ends : (after = [] ∧ (ofText text).fault = none) ∨
      ∃ negative stands more, after = ⟨signSymbol negative, stands⟩ :: more)
    (pending : draft.exponent = some (numeral, position)) (misfit : ¬ numeral.FitsExponent) :
    FirstMisfit text numeral position := by
  obtain ⟨exponent, earlier, rfl⟩ := reached.ends_pending pending
  have extent := extent_eq_end split
  refine ⟨split ▸ exponent.append after, misfit, fun other stands among before => ?_, ?_, ?_⟩
  · refine (reached.fits_or_pending split among ?_).resolve_right fun same => ?_
    · rw [extent]
      exact Nat.lt_add_right _ before
    · rw [pending] at same
      cases same
      exact absurd before (lt_irrefl position)
  · rw [symbolsBefore_succ split]
    exact reached.begun.viable
  · rw [← show _ = position + numeral.chars.length from extent]
    exact (signOrEnd_drop split).mpr ends

/-- What may follow what has been read is what the table of places allows. -/
theorem viable_concat_iff (reached : Reached before place draft)
    (formed : token.symbol.WellFormed) :
    Viable (before.map Token.symbol ++ [token.symbol]) ↔
      ∃ next, place.next? token.symbol = some next := by
  constructor
  · intro viable
    obtain ⟨next, path⟩ := Place.exists_after?_of_viable viable
    exact ⟨next, (Place.after?_concat reached.path token.symbol).symm.trans path⟩
  · rintro ⟨next, allowed⟩
    by_cases sign : next = .sign
    · subst sign
      exact (reached.begun.sign allowed).viable
    · exact (reached.begun.extend formed allowed sign).viable

/-- What has been read is a sentence where a term is complete, and only there. -/
theorem sentence_iff (reached : Reached before place draft) :
    Sentence (before.map Token.symbol) ↔ place.isComplete = true := by
  refine ⟨fun sentence => ?_, reached.begun.sentence⟩
  obtain ⟨last, path, ends⟩ := Place.after?_sentence sentence
  rw [reached.path] at path
  cases path
  exact ends

/-- **First tokens of a text that are viable are read**, if the exponents before their end fit. -/
theorem exists_of_fitBefore (split : (ofText text).tokens = before ++ after)
    (viable : Viable (before.map Token.symbol)) (fits : FitBefore text (Token.extent before)) :
    ∃ place draft terms, Reached before place draft ∧
      ∀ fault rest, termsAfter .start (.signed false) fault (before ++ rest) =
        (termsAfter place draft fault rest).map (terms ++ ·) := by
  have formed : ∀ token ∈ before, token.symbol.WellFormed := fun token present =>
    wellFormed_ofText text token (split ▸ List.mem_append_left _ present)
  refine exists_reached formed viable ?_
  rintro earlier last rfl numeral position exponent
  -- An exponent before the last token ends before that begins.
  have own := Symbol.chars_pos (formed last (List.mem_append_right _ List.mem_cons_self))
  have ends : position + numeral.chars.length ≤ Token.extent earlier :=
    end_le_extent (split.trans (List.append_assoc _ _ _)) exponent.mem
  have extent := Token.extent_concat earlier last
  refine fits numeral position (split ▸ (exponent.append _).append _) ?_ ?_ <;> omega

end Reached

/-- The terms of a text are read up to where the reading stops. -/
theorem stopped_terms (text : String) :
    Stopped (ofText text).tokens (ofText text).fault (terms text) :=
  Reached.start.stopped (wellFormed_ofText text) _

/-- **What ends the reading was met first.** -/
theorem metFirst_of_terms (failed : terms text = .error misreading) : MetFirst text misreading := by
  have stopped := stopped_terms text
  rw [failed] at stopped
  cases stopped with
  | unscanned reached found =>
    have all := (List.append_nil (ofText text).tokens).symm
    obtain ⟨c, rfl, stands⟩ := fault_eq_some found
    exact .illegalCharacter found stands (symbolsBefore_extent all ▸ reached.begun.viable)
      (reached.fitBefore all)
  | @unexpected before after token place draft split reached refused =>
    have stands := position_eq_extent split
    have symbols : symbolsBefore text token.position = before.map Token.symbol := by
      rw [stands, symbolsBefore_extent split]
    have present : token ∈ (ofText text).tokens :=
      split ▸ List.mem_append_right _ List.mem_cons_self
    refine .unexpectedToken present ?_ ?_ ?_
    · rw [symbols]
      exact reached.begun.viable
    · rw [symbols, reached.viable_concat_iff (wellFormed_ofText text token present), refused]
      rintro ⟨_, impossible⟩
      cases impossible
    · rw [stands]
      exact reached.fitBefore split
  | @unfinished place draft reached faultless begun =>
    refine .unexpectedEnd faultless reached.begun.viable ?_ fun numeral position exponent => ?_
    · rw [reached.sentence_iff, begun]
      exact Bool.false_ne_true
    · refine (reached.settled numeral position exponent).resolve_right fun pending => ?_
      rw [reached.begun.eq_exponent pending] at begun
      cases begun
  | unsettled split reached ends failed =>
    obtain ⟨numeral, position, pending, misfit⟩ := Draft.term_eq_error.mp failed
    exact (reached.firstMisfit split ends pending misfit.not_fits).metFirst misfit

/-- Exponents before the end of the first misfit fit. -/
theorem fitBefore_of_firstMisfit (first : FirstMisfit text numeral position)
    (split : (ofText text).tokens = before ++ [⟨.number numeral, position⟩] ++ after) :
    FitBefore text (position + numeral.chars.length) := by
  intro other earlier exponent starts apart
  have stands : position = Token.extent before :=
    position_eq_extent (split.trans (by rw [List.append_assoc, List.singleton_append]))
  refine first.leftmost other earlier exponent ?_
  rw [split] at exponent
  rcases exponent.of_append with among | later
  · rcases isExponent_concat.mp among with among | ⟨same, _⟩
    · have own := Symbol.chars_pos (wellFormed_ofText text _
        (split ▸ (among.append _ |>.append _).mem))
      have ends := end_le_extent (split.trans (List.append_assoc _ _ _)) among.mem
      exact stands ▸ Nat.lt_of_lt_of_le (Nat.lt_add_of_pos_right own) ends
    · cases same
      exact absurd rfl apart
  · have ends := extent_le_position split later
    rw [extent_eq_end split] at ends
    exact absurd starts (not_lt.mpr ends)

/-- **The first misfit ends the reading.** -/
theorem terms_of_firstMisfit (first : FirstMisfit text numeral position)
    (misfit : numeral.Misfit position misreading) : terms text = .error misreading := by
  obtain ⟨caret, earlier, after, shape⟩ := first.exponent
  have split : (ofText text).tokens =
      (earlier ++ [⟨.caret, caret⟩]) ++ [⟨.number numeral, position⟩] ++ after := by
    rw [← shape, List.append_assoc earlier [_] [_]]
    rfl
  have extent : _ = position + numeral.chars.length := extent_eq_end split
  have viable := first.viable
  rw [symbolsBefore_succ split] at viable
  obtain ⟨place, draft, read, reached, reads⟩ := Reached.exists_of_fitBefore split viable
    (extent ▸ fitBefore_of_firstMisfit first split)
  have pending : draft.exponent = some (numeral, position) :=
    (reached.settled numeral position (isExponent_concat.mpr
      (.inr ⟨rfl, caret, List.getLast?_concat⟩))).resolve_left first.misfit
  have valueless : draft.term = .error misreading :=
    Draft.term_eq_error.mpr ⟨numeral, position, pending, misfit⟩
  obtain rfl := reached.begun.eq_exponent pending
  have ends := first.ends
  rw [← extent, signOrEnd_drop split] at ends
  unfold terms
  dsimp only
  rw [split, reads]
  rcases ends with ⟨rfl, faultless⟩ | ⟨negative, stands, more, rfl⟩
  · rw [faultless, termsAfter_end rfl, valueless]
    rfl
  · rw [termsAfter_sign (Place.next?_of_complete rfl negative) rfl, valueless]
    rfl

/-- **What is met first ends the reading.** -/
theorem terms_of_metFirst (met : MetFirst text misreading) : terms text = .error misreading := by
  have all := (List.append_nil (ofText text).tokens).symm
  cases met with
  | @illegalCharacter c position found _ viable fits =>
    obtain ⟨_, same, _⟩ := fault_eq_some found
    cases same
    rw [symbolsBefore_extent all] at viable
    obtain ⟨place, draft, read, _, reads⟩ := Reached.exists_of_fitBefore all viable fits
    have reads := reads (some (.illegalCharacter c (Token.extent (ofText text).tokens))) []
    rw [List.append_nil] at reads
    unfold terms
    dsimp only
    rw [found, reads]
    rfl
  | @unexpectedToken token found viable stops fits =>
    obtain ⟨before, after, split⟩ := List.append_of_mem found
    rw [position_eq_extent split] at viable stops fits ⊢
    rw [symbolsBefore_extent split] at viable stops
    obtain ⟨place, draft, read, reached, reads⟩ := Reached.exists_of_fitBefore split viable fits
    rw [reached.viable_concat_iff (wellFormed_ofText text token found)] at stops
    have refused : place.next? token.symbol = none :=
      Option.eq_none_iff_forall_ne_some.mpr fun next allowed => stops ⟨next, allowed⟩
    unfold terms
    dsimp only
    rw [split, reads, termsAfter_refused refused, position_eq_extent split]
    rfl
  | unexpectedEnd scanned viable unfinished fits =>
    obtain ⟨place, draft, read, reached, reads⟩ := Reached.exists_of_fitBefore all viable
      fun numeral position exponent _ _ => fits numeral position exponent
    rw [reached.sentence_iff, Bool.not_eq_true] at unfinished
    have reads := reads none []
    rw [List.append_nil] at reads
    unfold terms
    dsimp only
    rw [scanned, reads, termsAfter_unfinished unfinished]
    rfl
  | fractionalExponent first fraction => exact terms_of_firstMisfit first (.fractional fraction)
  | oversizedExponent first whole large => exact terms_of_firstMisfit first (.oversized whole large)

end Expression

/-- **The misreading reported is the one met first.** A text is refused for an illegal character or
for an unexpected token only behind viable symbols, of which the token makes ones that are not. It
is refused for its end only if all of it is scanned to viable symbols that are no sentence. An
exponent is reported exactly if it is the first misfit, the symbols up to it are viable, and a sign
or the end of the text follows. No misfit stands before what is reported, unless it ends there. -/
theorem misreading_reported_iff (text : String) (journal : Journal) (misreading : Misreading) :
    (PolynomialFormat.expression.read text).outcome journal =
        .error (.refused (.notAnExpression text misreading)) ↔
      MetFirst text misreading := by
  rw [PolynomialFormat.outcome_read_expression]
  unfold Expression.read
  constructor
  · intro refused
    cases read : Expression.terms text with
    | ok terms =>
      rw [read] at refused
      obtain ⟨_, impossible⟩ := Expression.sum_eq_error refused
      cases impossible
    | error found =>
      rw [read] at refused
      cases refused
      exact Expression.metFirst_of_terms read
  · intro met
    rw [Expression.terms_of_metFirst met]
    rfl

-- The second caret is met before the misfit is settled.
example : Expression.terms "x^2.5^x" = .error (.unexpectedToken "^" 5) := by cbv

end ExactQuadrature

import ExactQuadrature.Proofs.Expression.Positions
import ExactQuadrature.Proofs.Expression.Sentence

/-! # How far an expression is read

An expression is read from the left, one token ahead. What has been read is viable, and every
exponent in it has been found fit but one that comes last (`Reached`). One more token keeps this, if
the table of places allows it and the term that it ends has a value (`Reached.step`); so reading
stops at the first token that is not allowed, at the first misfit that a sign or the end of the text
follows, or where the text goes no further (`Reached.stopped`). Viable tokens are read in any case,
as long as no misfit stands before the last of them (`Reached.exists_reached`).
-/

namespace ExactQuadrature

open WrittenExpression (signSymbol)

namespace Numeral

/-- A whole number that is not too large for an exponent. -/
def FitsExponent (n : Numeral) : Prop := n.fraction = [] ∧ n.digits ≤ largestExponent

/-- What is wrong with a numeral as an exponent. -/
inductive Misfit (n : Numeral) (position : Nat) : Misreading → Prop where
  | fractional (fraction : n.fraction ≠ []) :
      Misfit n position (.fractionalExponent (String.ofList n.chars) position)
  | oversized (whole : n.fraction = []) (large : largestExponent < n.digits) :
      Misfit n position (.oversizedExponent (String.ofList n.chars) position)

theorem Misfit.not_fits {n : Numeral} {position : Nat} {misreading : Misreading}
    (misfit : n.Misfit position misreading) : ¬ n.FitsExponent := by
  rintro ⟨whole, small⟩
  cases misfit with
  | fractional fraction => exact fraction whole
  | oversized _ large => exact absurd large (not_lt.mpr small)

end Numeral

namespace Draft

variable {draft : Draft} {numeral : Numeral} {position : Nat} {misreading : Misreading}

/-- An exponent is refused just for its misfit. -/
theorem exponentOf_eq_error :
    exponentOf numeral position = .error misreading ↔ numeral.Misfit position misreading := by
  unfold exponentOf
  constructor
  · intro failed
    split at failed
    · next fraction =>
      cases failed
      exact .fractional fraction
    · next whole =>
      split at failed
      · next large =>
        cases failed
        exact .oversized (not_not.mp whole) large
      · cases failed
  · rintro (fraction | ⟨whole, large⟩)
    · rw [if_pos fraction]
    · rw [if_neg (not_not.mpr whole), if_pos large]

/-- A term has no value only if its exponent is a misfit. -/
theorem term_eq_error :
    draft.term = .error misreading ↔ ∃ numeral position,
      draft.exponent = some (numeral, position) ∧ numeral.Misfit position misreading := by
  unfold term
  rcases draft with ⟨negative, coefficient, hasUnknown, none | ⟨numeral, position⟩⟩
  · constructor
    · intro impossible
      cases impossible
    · rintro ⟨_, _, impossible, _⟩
      cases impossible
  · dsimp only
    rw [bind_eq_error, exponentOf_eq_error]
    constructor
    · rintro (misfit | ⟨_, _, impossible⟩)
      · exact ⟨numeral, position, rfl, misfit⟩
      · cases impossible
    · rintro ⟨_, _, same, misfit⟩
      cases same
      exact .inl misfit

/-- The exponent of a term that is settled fits. -/
theorem fits_of_term {term : Term} (settled : draft.term = .ok term)
    (pending : draft.exponent = some (numeral, position)) : numeral.FitsExponent := by
  by_contra unfit
  have misfit : ∃ misreading, numeral.Misfit position misreading := by
    by_cases whole : numeral.fraction = []
    · exact ⟨_, .oversized whole (not_le.mp fun small => unfit ⟨whole, small⟩)⟩
    · exact ⟨_, .fractional whole⟩
  obtain ⟨misreading, misfit⟩ := misfit
  rw [term_eq_error.mpr ⟨numeral, position, pending, misfit⟩] at settled
  cases settled

end Draft

namespace Begun

variable {place : Place} {draft : Draft} {symbols : List Symbol}

/-- A draft has an exponent only where that was read last. -/
theorem eq_exponent (begun : Begun place draft symbols) {given : Numeral × Nat}
    (pending : draft.exponent = some given) : place = .exponent := by
  cases begun with
  | start => cases pending
  | term _ term => cases term <;> first | rfl | cases pending

/-- A numeral behind a caret becomes the exponent of the draft. -/
theorem exponent_extend (begun : Begun .caret draft symbols) (numeral : Numeral) (position : Nat) :
    (draft.extend ⟨.number numeral, position⟩).exponent = some (numeral, position) := by
  cases begun with
  | term _ term =>
    cases term
    rfl

end Begun

namespace Place

/-- The last token before the place behind a caret is one, and before no other place. -/
theorem getLast?_iff_caret {tokens : List Token} {place : Place}
    (path : start.after? (tokens.map Token.symbol) = some place) :
    (∃ caret, tokens.getLast? = some ⟨.caret, caret⟩) ↔ place = caret := by
  induction tokens using List.reverseRecOn with
  | nil =>
    cases path
    constructor
    · rintro ⟨_, impossible⟩
      cases impossible
    · intro impossible
      cases impossible
  | append_singleton before token _ =>
    rw [List.map_append] at path
    obtain ⟨previous, reached⟩ := exists_after?_of_append path
    have allowed := (after?_concat reached token.symbol).symm.trans path
    obtain ⟨symbol, position⟩ := token
    rw [List.getLast?_concat]
    constructor
    · rintro ⟨_, same⟩
      cases same
      cases previous <;> cases allowed
      rfl
    · rintro rfl
      cases previous <;> cases symbol <;> cases allowed
      exact ⟨position, rfl⟩

end Place

namespace Expression

/-- **What has been read.** The place after some first tokens and the term begun there. All
exponents have been found fit, except for one that comes last and is part of the term. -/
structure Reached (before : List Token) (place : Place) (draft : Draft) : Prop where
  path : Place.start.after? (before.map Token.symbol) = some place
  begun : Begun place draft (before.map Token.symbol)
  pending : ∀ numeral position, draft.exponent = some (numeral, position) →
    ∃ earlier caret, before = earlier ++ [⟨.caret, caret⟩, ⟨.number numeral, position⟩]
  settled : ∀ numeral position, IsExponent before numeral position →
    numeral.FitsExponent ∨ draft.exponent = some (numeral, position)

namespace Reached

variable {before after rest : List Token} {token : Token} {place next : Place} {draft : Draft}

/-- Nothing has been read at the start. -/
theorem start : Reached [] .start (.signed false) where
  path := rfl
  begun := .start
  pending := nofun
  settled _ _ exponent := nomatch exponent.mem

/-- One more symbol that is allowed leads to the next place. -/
theorem path_concat (reached : Reached before place draft)
    (allowed : place.next? token.symbol = some next) :
    Place.start.after? ((before ++ [token]).map Token.symbol) = some next := by
  rw [List.map_append]
  exact (Place.after?_concat reached.path token.symbol).trans allowed

/-- A token of the same term keeps what has been read. -/
theorem extend (reached : Reached before place draft) (formed : token.symbol.WellFormed)
    (allowed : place.next? token.symbol = some next) (inside : next ≠ .sign) :
    Reached (before ++ [token]) next (draft.extend token) := by
  have begun : Begun next (draft.extend token) ((before ++ [token]).map Token.symbol) := by
    rw [List.map_append]
    exact reached.begun.extend formed allowed inside
  refine ⟨reached.path_concat allowed, begun, fun numeral position pending => ?_,
    fun numeral position exponent => ?_⟩
  · -- Only a numeral behind a caret leads to the place of an exponent.
    obtain rfl := begun.eq_exponent pending
    obtain ⟨symbol, stands⟩ := token
    cases place <;> cases symbol <;> cases allowed
    rw [reached.begun.exponent_extend] at pending
    cases pending
    obtain ⟨caret, last⟩ := (Place.getLast?_iff_caret reached.path).mpr rfl
    obtain ⟨earlier, rfl⟩ := List.getLast?_eq_some_iff.mp last
    exact ⟨earlier, caret, by rw [List.append_assoc]; rfl⟩
  · rcases isExponent_concat.mp exponent with earlier | ⟨rfl, last⟩
    · rcases reached.settled numeral position earlier with fits | pending
      · exact .inl fits
      · -- Behind an exponent only a sign is allowed.
        obtain rfl := reached.begun.eq_exponent pending
        cases shape : token.symbol <;> rw [shape] at allowed <;> cases allowed <;>
          exact absurd rfl inside
    · obtain rfl := (Place.getLast?_iff_caret reached.path).mp last
      exact .inr (reached.begun.exponent_extend numeral position)

/-- A sign behind a term that has a value keeps what has been read. -/
theorem sign (reached : Reached before place draft)
    (allowed : place.next? token.symbol = some .sign)
    (settled : place.isComplete = true → ∃ term, draft.term = .ok term) :
    Reached (before ++ [token]) .sign (.signed (token.symbol == .minus)) := by
  refine ⟨reached.path_concat allowed, ?_, nofun, fun numeral position exponent => ?_⟩
  · rw [List.map_append]
    exact reached.begun.sign allowed
  · rcases isExponent_concat.mp exponent with earlier | ⟨rfl, _⟩
    · rcases reached.settled numeral position earlier with fits | pending
      · exact .inl fits
      · obtain rfl := reached.begun.eq_exponent pending
        obtain ⟨term, value⟩ := settled rfl
        exact .inl (Draft.fits_of_term value pending)
    · cases place <;> cases allowed

/-- **One more token.** Reading goes on behind a token that is allowed, unless it ends a term
without a value. -/
theorem step (reached : Reached before place draft) (formed : token.symbol.WellFormed)
    (allowed : place.next? token.symbol = some next)
    (settled : next = .sign → place.isComplete = true → ∃ term, draft.term = .ok term) :
    ∃ draft' terms, Reached (before ++ [token]) next draft' ∧
      ∀ fault rest, termsAfter place draft fault (token :: rest) =
        (termsAfter next draft' fault rest).map (terms ++ ·) := by
  have unchanged : ∀ outcome : Except Misreading (List Term), outcome = outcome.map ([] ++ ·) := by
    rintro (misreading | terms) <;> rfl
  by_cases sign : next = .sign
  · subst sign
    cases ends : place.isComplete with
    | true =>
      obtain ⟨term, value⟩ := settled rfl ends
      refine ⟨_, [term], reached.sign allowed fun _ => ⟨term, value⟩, fun fault rest => ?_⟩
      rw [termsAfter_sign allowed ends, value, bind_ok]
      cases termsAfter .sign (Draft.signed (token.symbol == .minus)) fault rest <;> rfl
    | false =>
      refine ⟨_, [], reached.sign allowed fun complete => absurd complete (by rw [ends]; decide),
        fun fault rest => ?_⟩
      rw [termsAfter_leading allowed ends, ← unchanged]
  · refine ⟨_, [], reached.extend formed allowed sign, fun fault rest => ?_⟩
    rw [termsAfter_inside allowed sign, ← unchanged]

/-- **Viable tokens are read**, if all their exponents fit but one that comes last. -/
theorem exists_reached (formed : ∀ token ∈ before, token.symbol.WellFormed)
    (viable : Viable (before.map Token.symbol))
    (fits : ∀ earlier last, before = earlier ++ [last] →
      ∀ numeral position, IsExponent earlier numeral position → numeral.FitsExponent) :
    ∃ place draft terms, Reached before place draft ∧
      ∀ fault rest, termsAfter .start (.signed false) fault (before ++ rest) =
        (termsAfter place draft fault rest).map (terms ++ ·) := by
  induction before using List.reverseRecOn with
  | nil =>
    refine ⟨_, _, [], start, fun fault rest => ?_⟩
    rw [List.nil_append]
    cases termsAfter .start (.signed false) fault rest <;> rfl
  | append_singleton before token ih =>
    obtain ⟨earlierFormed, own⟩ := List.forall_mem_append.mp formed
    have fitsAll := fits before token rfl
    have viableBefore : Viable (before.map Token.symbol) := by
      rw [List.map_append] at viable
      exact viable.of_append
    obtain ⟨place, draft, terms, reached, reads⟩ := ih earlierFormed viableBefore (by
      rintro earlier last rfl numeral position exponent
      exact fitsAll numeral position (exponent.append _))
    obtain ⟨next, path⟩ := Place.exists_after?_of_viable viable
    rw [List.map_append] at path
    have allowed : place.next? token.symbol = some next :=
      (Place.after?_concat reached.path token.symbol).symm.trans path
    obtain ⟨draft', more, later, goesOn⟩ := reached.step (own token List.mem_cons_self) allowed (by
      intro _ _
      cases value : draft.term with
      | ok term => exact ⟨term, rfl⟩
      | error misreading =>
        obtain ⟨numeral, position, pending, misfit⟩ := Draft.term_eq_error.mp value
        obtain ⟨earlier, caret, rfl⟩ := reached.pending numeral position pending
        exact absurd (fitsAll numeral position ⟨caret, (List.suffix_append _ _).isInfix⟩)
          misfit.not_fits)
    refine ⟨next, draft', terms ++ more, later, fun fault rest => ?_⟩
    rw [List.append_assoc, reads, List.singleton_append, goesOn]
    cases termsAfter next draft' fault rest with
    | error misreading => rfl
    | ok ts => exact congrArg Except.ok (List.append_assoc terms more ts).symm

end Reached

/-- How reading tokens ends, with what has been read until then. -/
inductive Stopped (tokens : List Token) (fault : Option Misreading) :
    Except Misreading (List Term) → Prop where
  | unscanned {place : Place} {draft : Draft} {misreading : Misreading}
      (reached : Reached tokens place draft) (found : fault = some misreading) :
      Stopped tokens fault (.error misreading)
  | unexpected {before after : List Token} {token : Token} {place : Place} {draft : Draft}
      (split : tokens = before ++ token :: after) (reached : Reached before place draft)
      (refused : place.next? token.symbol = none) :
      Stopped tokens fault (.error (.unexpectedToken token.text token.position))
  | unfinished {place : Place} {draft : Draft} (reached : Reached tokens place draft)
      (faultless : fault = none) (begun : place.isComplete = false) :
      Stopped tokens fault (.error .unexpectedEnd)
  | unsettled {before after : List Token} {place : Place} {draft : Draft} {misreading : Misreading}
      (split : tokens = before ++ after) (reached : Reached before place draft)
      (ends : (after = [] ∧ fault = none) ∨
        ∃ negative position more, after = ⟨signSymbol negative, position⟩ :: more)
      (failed : draft.term = .error misreading) : Stopped tokens fault (.error misreading)
  | read (terms : List Term) : Stopped tokens fault (.ok terms)

/-- **Reading to the end.** -/
theorem Reached.stopped {before rest : List Token} {place : Place} {draft : Draft}
    (reached : Reached before place draft) (formed : ∀ token ∈ rest, token.symbol.WellFormed)
    (fault : Option Misreading) :
    Stopped (before ++ rest) fault (termsAfter place draft fault rest) := by
  induction rest generalizing before place draft with
  | nil =>
    rw [List.append_nil]
    cases fault with
    | some misreading => exact .unscanned reached rfl
    | none =>
      rw [termsAfter_nil]
      cases ends : place.isComplete with
      | false => exact .unfinished reached rfl ends
      | true =>
        cases value : draft.term with
        | ok term => exact .read _
        | error misreading =>
          exact .unsettled (List.append_nil _).symm reached (.inl ⟨rfl, rfl⟩) value
  | cons token rest ih =>
    obtain ⟨own, others⟩ := List.forall_mem_cons.mp formed
    cases allowed : place.next? token.symbol with
    | none =>
      rw [termsAfter_refused allowed]
      exact .unexpected rfl reached allowed
    | some next =>
      by_cases settled : next = .sign → place.isComplete = true → ∃ term, draft.term = .ok term
      · obtain ⟨draft', terms, later, goesOn⟩ := reached.step own allowed settled
        have stopped := ih later others
        rw [List.append_assoc, List.singleton_append] at stopped
        rw [goesOn]
        cases outcome : termsAfter next draft' fault rest with
        | ok ts => exact .read _
        | error misreading =>
          rw [outcome] at stopped
          exact stopped
      · push Not at settled
        obtain ⟨rfl, ends, valueless⟩ := settled
        cases value : draft.term with
        | ok term => exact absurd value (valueless term)
        | error misreading =>
          rw [termsAfter_sign allowed ends, value]
          refine .unsettled rfl reached
            (.inr ⟨token.symbol == .minus, token.position, rest, ?_⟩) value
          rw [← Place.next?_eq_sign allowed]

end Expression

end ExactQuadrature

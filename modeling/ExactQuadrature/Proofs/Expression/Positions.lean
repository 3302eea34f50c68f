import ExactQuadrature.Proofs.Expression.Scanning

/-! # Positions of tokens

Every token stands where the characters of those before it end (`Scan.position_of_split`), so tokens
stand in order (`Scan.positions_of_split`), and what follows a token in the text is what follows it
among the tokens (`signOrEnd_iff`). A numeral behind a caret is an exponent, whatever it is worth;
one more token makes one more exponent only if a caret comes last (`isExponent_concat`).
-/

namespace ExactQuadrature

open WrittenExpression (signChar signSymbol)

namespace Symbol

/-- A well-formed symbol takes at least one character. -/
theorem chars_pos {symbol : Symbol} (formed : symbol.WellFormed) : 0 < symbol.chars.length :=
  scan?_length (scan?_whole formed)

/-- Only a sign begins with the character of a sign. -/
theorem eq_sign_of_chars {symbol : Symbol} (formed : symbol.WellFormed) {negative : Bool}
    {rest : List Char} (begins : symbol.chars = signChar negative :: rest) :
    symbol = signSymbol negative := by
  have scanned := scan?_whole formed
  rw [begins, scan?_sign] at scanned
  exact (congrArg Prod.fst (Option.some.inj scanned)).symm

end Symbol

/-- The number of characters of tokens. -/
def Token.extent (tokens : List Token) : Nat :=
  ((tokens.map Token.symbol).flatMap Symbol.chars).length

theorem Token.extent_append (before after : List Token) :
    extent (before ++ after) = extent before + extent after := by
  unfold extent
  rw [List.map_append, List.flatMap_append, List.length_append]

/-- A first token adds its own characters. -/
theorem Token.extent_cons (token : Token) (rest : List Token) :
    extent (token :: rest) = token.symbol.chars.length + extent rest := by
  unfold extent
  rw [List.map_cons, List.flatMap_cons, List.length_append]

theorem Token.extent_concat (before : List Token) (token : Token) :
    extent (before ++ [token]) = extent before + token.symbol.chars.length := by
  rw [extent_append]
  exact congrArg (extent before + ·) (extent_cons token [])

namespace Scan

variable {position : Nat} {cs : List Char} {before after : List Token} {token : Token}

/-- The tokens of a scan are well formed. -/
theorem wellFormed_of_mem (member : token ∈ (fromPosition position cs).tokens) :
    token.symbol.WellFormed := by
  obtain ⟨_, _, formed, _⟩ := fromPosition_covers position cs
  exact formed _ (List.mem_map_of_mem member)

/-- The first token is the symbol that the text begins with, and the others are those of the
rest. -/
theorem scan?_of_tokens {later : List Token}
    (found : (fromPosition position cs).tokens = token :: later) :
    ∃ rest, Symbol.scan? cs = some (token.symbol, rest) ∧ token.position = position ∧
      (fromPosition (position + token.symbol.chars.length) rest).tokens = later := by
  cases scanned : Symbol.scan? cs with
  | some begins =>
    rw [fromPosition_of_scan? scanned] at found
    cases found
    exact ⟨begins.2, rfl, rfl, rfl⟩
  | none =>
    cases cs with
    | nil =>
      rw [fromPosition_nil] at found
      cases found
    | cons c rest =>
      rw [fromPosition_of_no_symbol scanned] at found
      cases found

/-- **A token stands where those before it end.** -/
theorem position_of_split
    (split : (fromPosition position cs).tokens = before ++ token :: after) :
    token.position = position + Token.extent before := by
  induction before generalizing position cs with
  | nil =>
    obtain ⟨_, _, stands, _⟩ := scan?_of_tokens split
    exact stands
  | cons first before ih =>
    obtain ⟨rest, _, _, later⟩ := scan?_of_tokens split
    rw [ih later, Token.extent_cons, Nat.add_assoc]

/-- Tokens before another one stand before it, and those after it behind it. -/
theorem positions_of_split (split : (fromPosition position cs).tokens = before ++ token :: after) :
    (∀ other ∈ before, other.position < token.position) ∧
      ∀ other ∈ after, token.position < other.position := by
  have stands := position_of_split split
  have formed : ∀ other ∈ before ++ token :: after, 0 < other.symbol.chars.length :=
    fun other present => Symbol.chars_pos (wellFormed_of_mem (split ▸ present))
  constructor
  · intro other present
    have own := formed other (List.mem_append_left _ present)
    obtain ⟨first, last, rfl⟩ := List.append_of_mem present
    rw [List.append_assoc, List.cons_append] at split
    have earlier := position_of_split split
    rw [Token.extent_append, Token.extent_cons] at stands
    omega
  · intro other present
    have own := formed token (List.mem_append_right _ List.mem_cons_self)
    obtain ⟨first, last, rfl⟩ := List.append_of_mem present
    rw [← List.cons_append, ← List.append_assoc] at split
    have later := position_of_split split
    rw [Token.extent_append, Token.extent_cons] at later
    omega

end Scan

/-- The tokens before a position are the first ones, if they stand before it and the others do
not. -/
theorem filter_before {position : Nat} {before after : List Token}
    (earlier : ∀ token ∈ before, token.position < position)
    (later : ∀ token ∈ after, position ≤ token.position) :
    (before ++ after).filter (·.position < position) = before := by
  rw [List.filter_append, List.filter_eq_self.mpr, List.filter_eq_nil_iff.mpr, List.append_nil]
  · intro token present
    rw [decide_eq_true_eq, not_lt]
    exact later token present
  · exact fun token present => decide_eq_true (earlier token present)

/-- A numeral directly behind a caret is an exponent, whatever it is worth. -/
def IsExponent (tokens : List Token) (numeral : Numeral) (position : Nat) : Prop :=
  ∃ caret, [⟨.caret, caret⟩, ⟨.number numeral, position⟩] <:+: tokens

/-- An exponent is one in a longer list of tokens. -/
theorem IsExponent.append {before : List Token} {numeral : Numeral} {position : Nat}
    (exponent : IsExponent before numeral position) (after : List Token) :
    IsExponent (before ++ after) numeral position := by
  obtain ⟨caret, inside⟩ := exponent
  exact ⟨caret, inside.trans (List.prefix_append before after).isInfix⟩

theorem IsExponent.mem {tokens : List Token} {numeral : Numeral} {position : Nat}
    (exponent : IsExponent tokens numeral position) : ⟨.number numeral, position⟩ ∈ tokens := by
  obtain ⟨caret, inside⟩ := exponent
  exact inside.subset (List.mem_cons_of_mem _ List.mem_cons_self)

/-- **One more token** is an exponent if it is a numeral and a caret comes last. -/
theorem isExponent_concat {before : List Token} {token : Token} {numeral : Numeral}
    {position : Nat} :
    IsExponent (before ++ [token]) numeral position ↔
      IsExponent before numeral position ∨
        token = ⟨.number numeral, position⟩ ∧ ∃ caret, before.getLast? = some ⟨.caret, caret⟩ := by
  constructor
  · rintro ⟨caret, inside⟩
    rcases List.infix_concat_iff.mp inside with last | earlier
    · obtain none | ⟨first, shape, ends⟩ := List.suffix_concat_iff.mp last
      · cases none
      · obtain ⟨rfl, same⟩ := List.append_inj' (show first ++ [token] =
          [⟨.caret, caret⟩] ++ [⟨.number numeral, position⟩] from shape.symm) rfl
        exact .inr ⟨List.head_eq_of_cons_eq same, caret,
          List.singleton_suffix_iff_getLast?_eq_some.mp ends⟩
    · exact .inl ⟨caret, earlier⟩
  · rintro (earlier | ⟨rfl, caret, ends⟩)
    · exact earlier.append _
    · obtain ⟨first, rfl⟩ := List.getLast?_eq_some_iff.mp ends
      refine ⟨caret, List.IsSuffix.isInfix ⟨first, ?_⟩⟩
      rw [List.append_assoc]
      rfl

/-- An exponent stands among the first tokens, or is one of the others. -/
theorem IsExponent.of_append {before after : List Token} {numeral : Numeral} {position : Nat}
    (exponent : IsExponent (before ++ after) numeral position) :
    IsExponent before numeral position ∨ ⟨.number numeral, position⟩ ∈ after := by
  induction after using List.reverseRecOn with
  | nil =>
    rw [List.append_nil] at exponent
    exact .inl exponent
  | append_singleton after token ih =>
    rw [← List.append_assoc] at exponent
    rcases isExponent_concat.mp exponent with earlier | ⟨rfl, _⟩
    · exact (ih earlier).imp_right (List.mem_append_left _)
    · exact .inr (List.mem_append_right _ List.mem_cons_self)

/-- A sign or the end of a text. -/
def SignOrEnd (cs : List Char) : Prop := cs = [] ∨ ∃ negative rest, cs = signChar negative :: rest

/-- **What follows in the text follows among the tokens.** A sign follows if it is the next token,
and the end of the text if there are no more tokens and nothing is left. -/
theorem signOrEnd_iff {tokens : List Token} {rest : List Char}
    (formed : ∀ token ∈ tokens, token.symbol.WellFormed) (ends : Symbol.scan? rest = none) :
    SignOrEnd ((tokens.map Token.symbol).flatMap Symbol.chars ++ rest) ↔
      (tokens = [] ∧ rest = []) ∨
        ∃ negative position more, tokens = ⟨signSymbol negative, position⟩ :: more := by
  cases tokens with
  | nil =>
    constructor
    · rintro (none | ⟨negative, after, begins⟩)
      · exact .inl ⟨rfl, none⟩
      · rw [show rest = _ from begins, Symbol.scan?_sign] at ends
        cases ends
    · rintro (⟨_, rfl⟩ | ⟨_, _, _, impossible⟩)
      · exact .inl rfl
      · cases impossible
  | cons token more =>
    obtain ⟨own, _⟩ := List.forall_mem_cons.mp formed
    rw [List.map_cons, List.flatMap_cons, List.append_assoc]
    have some_char := Symbol.chars_pos own
    constructor
    · intro follows
      cases chars : token.symbol.chars with
      | nil =>
        rw [chars] at some_char
        cases some_char
      | cons c others =>
        rw [chars] at follows
        obtain none | ⟨negative, after, begins⟩ := follows
        · cases none
        · obtain ⟨rfl, _⟩ := List.cons.inj begins
          refine .inr ⟨negative, token.position, more, ?_⟩
          rw [← Symbol.eq_sign_of_chars own chars]
    · rintro (⟨impossible, _⟩ | ⟨negative, position, _, shape⟩)
      · cases impossible
      · cases shape
        refine .inr ⟨negative, (more.map Token.symbol).flatMap Symbol.chars ++ rest, ?_⟩
        rw [WrittenExpression.chars_signSymbol]
        rfl

end ExactQuadrature

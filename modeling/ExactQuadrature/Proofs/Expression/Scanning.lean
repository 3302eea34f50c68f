import ExactQuadrature.Proofs.Expression.Written

/-! # Scanning symbols

Symbols of which no two adjacent ones are numerals are scanned one by one from their characters
(`Scan.fromPosition_of_separated`). A scan gives well-formed symbols whose characters make up the
text as far as it goes (`Scan.fromPosition_covers`), which is all of it if there is no fault. The
symbols of a written expression are separated in this way (`WrittenExpression.separated`).
-/

namespace ExactQuadrature

namespace Symbol

/-- The numeral of a symbol, if it is one, is well formed. -/
def WellFormed : Symbol → Prop
  | number numeral => numeral.WellFormed
  | _ => True

/-- Whether a symbol is a numeral. -/
def isNumber : Symbol → Bool
  | number _ => true
  | _ => false

/-- No numeral, and so neither a digit nor a point, begins the characters of any other symbol. -/
theorem ends_of_not_number {symbol : Symbol} (other : symbol.isNumber = false) (rest : List Char) :
    Numeral.Ends (symbol.chars ++ rest) := by
  intro c more shape
  cases symbol with
  | number numeral => cases other
  | unknown => cases shape; decide
  | plus => cases shape; decide
  | minus => cases shape; decide
  | times => cases shape; decide
  | caret => cases shape; decide

/-- A symbol is scanned from its characters, if no numeral goes on behind it. -/
theorem scan?_chars {symbol : Symbol} {rest : List Char} (formed : symbol.WellFormed)
    (ends : symbol.isNumber = true → Numeral.Ends rest) :
    scan? (symbol.chars ++ rest) = some (symbol, rest) := by
  cases symbol with
  | number numeral =>
    unfold scan?
    rw [show (number numeral).chars = numeral.chars from rfl, Numeral.scan?_chars formed (ends rfl)]
  | unknown => rfl
  | plus => rfl
  | minus => rfl
  | times => rfl
  | caret => rfl

/-- A symbol that makes up the whole text is scanned from it. -/
theorem scan?_whole {symbol : Symbol} (formed : symbol.WellFormed) :
    scan? symbol.chars = some (symbol, []) := by
  have scanned : scan? (symbol.chars ++ []) = some (symbol, []) :=
    scan?_chars formed fun _ => Numeral.ends_nil
  rwa [List.append_nil] at scanned

theorem scan?_sign (negative : Bool) (rest : List Char) :
    scan? (WrittenExpression.signChar negative :: rest) =
      some (WrittenExpression.signSymbol negative, rest) := by
  cases negative <;> rfl

/-- What is scanned is well formed. -/
theorem wellFormed_of_scan? {cs rest : List Char} {symbol : Symbol}
    (scanned : scan? cs = some (symbol, rest)) : symbol.WellFormed := by
  unfold scan? at scanned
  split at scanned
  · next numeral after found =>
    cases scanned
    exact Numeral.wellFormed_of_scan? found
  · split at scanned
    · cases scanned
    · obtain ⟨_, found, shape⟩ := Option.map_eq_some_iff.mp scanned
      cases shape
      unfold ofChar? at found
      repeat' split at found
      all_goals cases found
      all_goals trivial

end Symbol

/-- Well-formed symbols of which no two adjacent ones are numerals. -/
def Separated : List Symbol → Prop
  | [] => True
  | symbol :: rest =>
    symbol.WellFormed ∧
      (symbol.isNumber = true → ∀ next more, rest = next :: more → next.isNumber = false) ∧
      Separated rest

namespace Scan

/-- A symbol that is scanned is the first token, and the others follow behind it. -/
theorem fromPosition_of_scan? {position : Nat} {cs rest : List Char} {symbol : Symbol}
    (scanned : Symbol.scan? cs = some (symbol, rest)) :
    fromPosition position cs =
      ⟨⟨symbol, position⟩ :: (fromPosition (position + symbol.chars.length) rest).tokens,
        (fromPosition (position + symbol.chars.length) rest).fault⟩ := by
  rw [fromPosition]
  split
  · next found after shape =>
    rw [scanned] at shape
    cases shape
    rfl
  · next shape =>
    rw [scanned] at shape
    cases shape

/-- A character that begins no symbol ends the scan. -/
theorem fromPosition_of_no_symbol {position : Nat} {c : Char} {rest : List Char}
    (scanned : Symbol.scan? (c :: rest) = none) :
    fromPosition position (c :: rest) = ⟨[], some (.illegalCharacter c position)⟩ := by
  rw [fromPosition]
  split
  · next found after shape =>
    rw [scanned] at shape
    cases shape
  · rfl

/-- In separated symbols no numeral goes on behind a number. -/
theorem ends_of_separated {symbol : Symbol} {rest : List Symbol}
    (separated : Separated (symbol :: rest)) (number : symbol.isNumber = true) :
    Numeral.Ends (rest.flatMap Symbol.chars) := by
  cases rest with
  | nil =>
    intro c more shape
    cases shape
  | cons next more =>
    rw [List.flatMap_cons]
    exact Symbol.ends_of_not_number (separated.2.1 number next more rfl) _

/-- **Scanning loses no separated symbol.** -/
theorem fromPosition_of_separated {symbols : List Symbol} (separated : Separated symbols)
    (position : Nat) :
    (fromPosition position (symbols.flatMap Symbol.chars)).tokens.map Token.symbol = symbols ∧
      (fromPosition position (symbols.flatMap Symbol.chars)).fault = none := by
  induction symbols generalizing position with
  | nil =>
    rw [List.flatMap_nil, fromPosition]
    exact ⟨rfl, rfl⟩
  | cons symbol rest ih =>
    have scanned := Symbol.scan?_chars separated.1 (ends_of_separated separated)
    have later := ih separated.2.2 (position + symbol.chars.length)
    rw [List.flatMap_cons, fromPosition_of_scan? scanned]
    exact ⟨congrArg (symbol :: ·) later.1, later.2⟩

theorem fromPosition_nil (position : Nat) : fromPosition position [] = ⟨[], none⟩ := by
  rw [fromPosition]
  rfl

/-- **A scan covers the text as far as it goes.** It gives well-formed symbols, and what they leave
of the text begins with none. If anything is left, its first character is the fault. -/
theorem fromPosition_covers (position : Nat) (cs : List Char) :
    ∃ rest, ((fromPosition position cs).tokens.map Token.symbol).flatMap Symbol.chars ++ rest = cs ∧
      (∀ symbol ∈ (fromPosition position cs).tokens.map Token.symbol, symbol.WellFormed) ∧
      Symbol.scan? rest = none ∧
      (fromPosition position cs).fault = rest.head?.map fun c => .illegalCharacter c (position +
        (((fromPosition position cs).tokens.map Token.symbol).flatMap Symbol.chars).length) := by
  induction position, cs using fromPosition.induct with
  | case1 position cs symbol rest scanned ih =>
    obtain ⟨left, covers, formed, ends, fault⟩ := ih
    rw [fromPosition_of_scan? scanned, List.map_cons, List.flatMap_cons]
    refine ⟨left, ?_, ?_, ends, ?_⟩
    · rw [List.append_assoc, covers]
      exact Symbol.scan?_append scanned
    · exact List.forall_mem_cons.mpr ⟨Symbol.wellFormed_of_scan? scanned, formed⟩
    · rw [fault, List.length_append, Nat.add_assoc]
  | case2 position scanned =>
    rw [fromPosition_nil]
    exact ⟨[], rfl, nofun, scanned, rfl⟩
  | case3 position c rest scanned =>
    rw [fromPosition_of_no_symbol scanned]
    exact ⟨c :: rest, rfl, nofun, scanned, rfl⟩

/-- **A scan without a fault covers the text.** -/
theorem fromPosition_sound {position : Nat} {cs : List Char}
    (faultless : (fromPosition position cs).fault = none) :
    ((fromPosition position cs).tokens.map Token.symbol).flatMap Symbol.chars = cs ∧
      ∀ symbol ∈ (fromPosition position cs).tokens.map Token.symbol, symbol.WellFormed := by
  obtain ⟨rest, covers, formed, _, fault⟩ := fromPosition_covers position cs
  rw [faultless, eq_comm, Option.map_eq_none_iff, List.head?_eq_none_iff] at fault
  rw [fault, List.append_nil] at covers
  exact ⟨covers, formed⟩

end Scan

/-- The numeral of an exponent is well formed. -/
theorem wellFormed_toDigits (n : Nat) : (⟨Nat.toDigits 10 n, []⟩ : Numeral).WellFormed :=
  ⟨leadingDigits_toDigits n, fun _ absent => nomatch absent⟩

/-- Symbols after which a numeral may stand: none, or symbols that begin with no numeral. -/
def BeginsApart (symbols : List Symbol) : Prop :=
  ∀ next more, symbols = next :: more → next.isNumber = false

/-- A symbol that is no number stays apart from whatever follows. -/
theorem Separated.other {symbol : Symbol} {later : List Symbol} (formed : symbol.WellFormed)
    (other : symbol.isNumber = false) (rest : Separated later) : Separated (symbol :: later) := by
  refine ⟨formed, fun number => ?_, rest⟩
  rw [other] at number
  cases number

namespace WrittenPower

/-- The symbols of a power are separated. -/
theorem separated (power : WrittenPower) {later : List Symbol} (apart : BeginsApart later)
    (rest : Separated later) :
    Separated (power.symbols ++ later) ∧ BeginsApart (power.symbols ++ later) := by
  cases power with
  | bare =>
    refine ⟨.other trivial rfl rest, ?_⟩
    rintro next more shape
    cases shape
    rfl
  | raised exponent =>
    refine ⟨.other trivial rfl (.other trivial rfl ⟨wellFormed_toDigits exponent, fun _ => apart,
      rest⟩), ?_⟩
    rintro next more shape
    cases shape
    rfl

end WrittenPower

namespace WrittenTerm

/-- The symbols of a term are separated. -/
theorem separated {term : WrittenTerm} (formed : term.WellFormed) {later : List Symbol}
    (apart : BeginsApart later) (rest : Separated later) : Separated (term.symbols ++ later) := by
  cases term with
  | constant numeral => exact ⟨formed, fun _ => apart, rest⟩
  | monic power => exact (power.separated apart rest).1
  | product numeral starred power =>
    obtain ⟨powerRest, powerApart⟩ := power.separated apart rest
    cases starred
    · exact ⟨formed.1, fun _ => powerApart, powerRest⟩
    · refine ⟨formed.1, fun _ => ?_, .other trivial rfl powerRest⟩
      rintro next more shape
      cases shape
      rfl

end WrittenTerm

namespace WrittenExpression

theorem isNumber_signSymbol (negative : Bool) : (signSymbol negative).isNumber = false := by
  cases negative <;> rfl

theorem wellFormed_signSymbol (negative : Bool) : (signSymbol negative).WellFormed := by
  cases negative <;> trivial

/-- A sign stays apart from whatever follows. -/
theorem separated_sign (negative : Bool) {later : List Symbol} (rest : Separated later) :
    Separated (signSymbol negative :: later) :=
  .other (wellFormed_signSymbol negative) (isNumber_signSymbol negative) rest

/-- The symbols of signed terms are separated. -/
theorem separated_later {later : List (Bool × WrittenTerm)}
    (formed : ∀ term ∈ later, term.2.WellFormed) :
    Separated (later.flatMap signedSymbols) ∧ BeginsApart (later.flatMap signedSymbols) := by
  induction later with
  | nil => exact ⟨trivial, fun _ _ absent => nomatch absent⟩
  | cons term later ih =>
    obtain ⟨termFormed, laterFormed⟩ := List.forall_mem_cons.mp formed
    obtain ⟨rest, apart⟩ := ih laterFormed
    refine ⟨separated_sign term.1 (WrittenTerm.separated termFormed apart rest), ?_⟩
    intro next more shape
    cases shape
    exact isNumber_signSymbol term.1

/-- The symbols of an expression can be told apart. -/
theorem separated {e : WrittenExpression} (formed : e.WellFormed) : Separated e.symbols := by
  obtain ⟨firstFormed, laterFormed⟩ := List.forall_mem_cons.mp formed
  obtain ⟨rest, apart⟩ := separated_later laterFormed
  have terms := WrittenTerm.separated firstFormed apart rest
  unfold symbols
  rw [List.append_assoc]
  cases e.sign with
  | none => exact terms
  | some negative => exact separated_sign negative terms

end WrittenExpression

end ExactQuadrature

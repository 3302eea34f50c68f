import ExactQuadrature.Proofs.Calculation.Yield
import ExactQuadrature.Proofs.Polynomial.Agreement
import ExactQuadrature.Proofs.SignedNumeral

/-! # Lines of coefficients

A line of coefficients is written as signed numerals with separators between them, each a comma with
any number of blanks on either side. Such lines are read number by number
(`CoefficientLine.decimals?_chars`), and no others are (`CoefficientLine.exists_of_decimals?`), so a
text is read as a polynomial exactly if it is such a line, with every sign, digit and place of its
numbers (`read_coefficients`). The plain forms of decimals in units not above one are such numbers,
and what they are joined to is read as the polynomial that they come from.
-/

namespace ExactQuadrature

/-- A comma with blanks before and after it. -/
structure Separator where
  before : List Char
  after : List Char
deriving DecidableEq

namespace Separator

def chars (s : Separator) : List Char := s.before ++ ',' :: s.after

/-- Nothing but blanks on either side of the comma. -/
structure WellFormed (s : Separator) : Prop where
  before : ∀ c ∈ s.before, Text.isBlank c = true
  after : ∀ c ∈ s.after, Text.isBlank c = true

/-- A separator ends a numeral. -/
theorem WellFormed.ends {s : Separator} (formed : s.WellFormed) (rest : List Char) :
    Numeral.Ends (s.chars ++ rest) := by
  intro c more shape
  rcases before : s.before with _ | ⟨first, others⟩
  · rw [chars, before] at shape
    cases shape
    decide
  · rw [chars, before] at shape
    cases shape
    have blank := formed.before c (before ▸ List.mem_cons_self)
    refine ⟨Bool.eq_false_iff.mpr fun digit => ?_, ?_⟩
    · rw [Text.isBlank_of_isDigit digit] at blank
      cases blank
    · rintro rfl
      cases blank

end Separator

/-- Items with separators between them. -/
structure SeparatedList (α : Type) where
  first : α
  rest : List (Separator × α)

namespace SeparatedList

variable {α β : Type}

def items (l : SeparatedList α) : List α := l.first :: l.rest.map Prod.snd

/-- The characters of a list, given those of its items. -/
def chars (write : α → List Char) (l : SeparatedList α) : List Char :=
  write l.first ++ l.rest.flatMap fun next => next.1.chars ++ write next.2

/-- A list with one more item is written as that item, the separator and the rest. -/
theorem chars_cons (write : α → List Char) (first second : α) (separator : Separator)
    (later : List (Separator × α)) :
    chars write ⟨first, (separator, second) :: later⟩ =
      write first ++ (separator.chars ++ chars write ⟨second, later⟩) := by
  unfold chars
  rw [List.flatMap_cons, List.append_assoc separator.chars]

/-- All separators are well formed. -/
def WellSeparated (l : SeparatedList α) : Prop := ∀ next ∈ l.rest, next.1.WellFormed

def map (f : α → β) (l : SeparatedList α) : SeparatedList β :=
  ⟨f l.first, l.rest.map fun next => (next.1, f next.2)⟩

/-- Mapping a separated list maps its items and keeps the separators. -/
theorem items_map (f : α → β) (l : SeparatedList α) : (l.map f).items = l.items.map f := by
  unfold items map
  rw [List.map_map, List.map_cons, List.map_map]
  rfl

/-- A mapped list is written like the list itself, with the map before each item. -/
theorem chars_map (write : β → List Char) (f : α → β) (l : SeparatedList α) :
    (l.map f).chars write = l.chars (write ∘ f) := by
  unfold chars map
  rw [List.flatMap_map]
  rfl

/-- Mapping the items leaves the separators well formed. -/
theorem WellSeparated.map {l : SeparatedList α} (separated : l.WellSeparated) (f : α → β) :
    (l.map f).WellSeparated := by
  intro next present
  obtain ⟨own, there, rfl⟩ := List.mem_map.mp present
  exact separated own there

end SeparatedList

/-- A line of coefficients as it is written. -/
abbrev WrittenLine := SeparatedList SignedNumeral

/-- The text that a written line stands for. -/
structure WrittenLine.Writes (line : WrittenLine) (text : String) : Prop where
  numbers : ∀ n ∈ line.items, n.WellFormed
  separators : line.WellSeparated
  covers : line.chars SignedNumeral.chars = text.toList

namespace CoefficientLine

open Numeral (scanSigned?)

variable {cs rest more : List Char} {d : Decimal}

/-- A line that is a single numeral stands for one decimal. -/
theorem decimals?_of_last (scanned : scanSigned? cs = some (d, [])) : decimals? cs = some [d] := by
  rw [decimals?]
  split
  · next none =>
    rw [scanned] at none
    cases none
  · next last =>
    rw [scanned] at last
    cases last
    rfl
  · next inside =>
    rw [scanned] at inside
    cases inside

/-- A numeral before a comma stands before the decimals of what follows the comma. -/
theorem decimals?_of_separated (scanned : scanSigned? cs = some (d, rest))
    (separated : rest.dropWhile Text.isBlank = ',' :: more) :
    decimals? cs = (decimals? (more.dropWhile Text.isBlank)).map (d :: ·) := by
  rw [decimals?]
  split
  · next none =>
    rw [scanned] at none
    cases none
  · next last =>
    rw [scanned] at last
    cases last
    cases separated
  · next inside =>
    rw [scanned] at inside
    cases inside
    split
    · next comma =>
      rw [separated] at comma
      cases comma
      rfl
    · next other => exact absurd separated (other more)

/-- **Written lines are read number by number.** -/
theorem decimals?_chars {line : WrittenLine} (numbers : ∀ n ∈ line.items, n.WellFormed)
    (separators : line.WellSeparated) :
    decimals? (line.chars SignedNumeral.chars) = some (line.items.map SignedNumeral.toDecimal) := by
  obtain ⟨first, later⟩ := line
  induction later generalizing first with
  | nil =>
    have own := numbers first List.mem_cons_self
    exact decimals?_of_last (SignedNumeral.scanSigned?_chars own Numeral.ends_nil)
  | cons next later ih =>
    obtain ⟨separator, second⟩ := next
    obtain ⟨own, others⟩ := List.forall_mem_cons.mp numbers
    obtain ⟨between, apart⟩ := List.forall_mem_cons.mp separators
    have scanned := SignedNumeral.scanSigned?_chars own
      (between.ends (SeparatedList.chars SignedNumeral.chars ⟨second, later⟩))
    have comma : (separator.chars ++
        SeparatedList.chars SignedNumeral.chars ⟨second, later⟩).dropWhile Text.isBlank =
        ',' :: (separator.after ++ SeparatedList.chars SignedNumeral.chars ⟨second, later⟩) := by
      unfold Separator.chars
      rw [List.append_assoc]
      exact Text.dropWhile_blanks between.before (by decide)
    have second_number : (separator.after ++
        SeparatedList.chars SignedNumeral.chars ⟨second, later⟩).dropWhile Text.isBlank =
        SeparatedList.chars SignedNumeral.chars ⟨second, later⟩ :=
      (others second List.mem_cons_self).dropWhile_blanks between.after _
    rw [SeparatedList.chars_cons, decimals?_of_separated scanned comma, second_number,
      ih second others apart]
    rfl

/-- **Only written lines are read.** -/
theorem exists_of_decimals? {ds : List Decimal} (found : decimals? cs = some ds) :
    ∃ line : WrittenLine, (∀ n ∈ line.items, n.WellFormed) ∧ line.WellSeparated ∧
      line.chars SignedNumeral.chars = cs ∧ line.items.map SignedNumeral.toDecimal = ds := by
  fun_induction decimals? cs generalizing ds with
  | case1 cs none => cases found
  | case2 cs d scanned =>
    cases found
    obtain ⟨n, formed, rfl, covers⟩ := SignedNumeral.exists_of_scanSigned? scanned
    exact ⟨⟨n, []⟩, List.forall_mem_singleton.mpr formed, List.forall_mem_nil _, covers, rfl⟩
  | case3 cs d next rest scanned more separator ih =>
    obtain ⟨others, later, rfl⟩ := Option.map_eq_some_iff.mp found
    obtain ⟨line, numbers, separators, covers, same⟩ := ih later
    obtain ⟨n, formed, rfl, whole⟩ := SignedNumeral.exists_of_scanSigned? scanned
    -- The blanks around the comma are those that were dropped.
    let between : Separator :=
      ⟨(next :: rest).takeWhile Text.isBlank, more.takeWhile Text.isBlank⟩
    have blank : between.WellFormed :=
      ⟨fun _ => List.mem_takeWhile_imp, fun _ => List.mem_takeWhile_imp⟩
    refine ⟨⟨n, (between, line.first) :: line.rest⟩, ?_, ?_, ?_, ?_⟩
    · exact List.forall_mem_cons.mpr ⟨formed, numbers⟩
    · exact List.forall_mem_cons.mpr ⟨blank, separators⟩
    · have blanks : between.chars ++ more.dropWhile Text.isBlank = next :: rest := by
        unfold Separator.chars
        rw [List.append_assoc, List.cons_append, List.takeWhile_append_dropWhile, ← separator,
          List.takeWhile_append_dropWhile]
      rw [SeparatedList.chars_cons, covers, blanks, whole]
    · exact congrArg (n.toDecimal :: ·) same
  | case4 cs d next rest scanned unseparated => cases found

end CoefficientLine

namespace WrittenLine

open CoefficientLine

variable {line : WrittenLine} {text : String}

/-- The polynomial of a written line has one coefficient for every number. -/
theorem Writes.exists_read (writes : line.Writes text) :
    ∃ p, CoefficientLine.read text = .ok p ∧
      p.coefficients = line.items.map fun n => .finite n.toDecimal := by
  have found := decimals?_chars writes.numbers writes.separators
  rw [writes.covers] at found
  refine ⟨⟨line.items.map fun n => .finite n.toDecimal, List.cons_ne_nil _ _⟩, ?_, rfl⟩
  unfold CoefficientLine.read
  rw [found]
  dsimp only
  rw [List.map_map]
  rfl

/-- Every line that is read was written: it is a list of numerals with separators. -/
theorem exists_writes {p : Polynomial} (read : CoefficientLine.read text = .ok p) :
    ∃ line : WrittenLine, line.Writes text := by
  obtain ⟨ds, found, _⟩ := read_eq_ok read
  obtain ⟨line, numbers, separators, covers, _⟩ := exists_of_decimals? found
  exact ⟨line, numbers, separators, covers⟩

/-- A text that no line writes is refused. -/
theorem read_of_no_writes (none : ∀ line : WrittenLine, ¬ line.Writes text) :
    CoefficientLine.read text = .error (.refused (.notCoefficients text)) := by
  unfold CoefficientLine.read
  cases found : decimals? text.toList with
  | none => rfl
  | some ds =>
    obtain ⟨line, numbers, separators, covers, _⟩ := exists_of_decimals? found
    exact absurd ⟨numbers, separators, covers⟩ (none line)

/-- Plain forms of decimals with separators between them are a written line. -/
theorem writes_plain {shown : SeparatedList Decimal} (separated : shown.WellSeparated)
    (covers : shown.chars Decimal.plainChars = text.toList) :
    Writes (shown.map Decimal.signedNumeral) text := by
  refine ⟨fun n present => ?_, separated.map _, ?_⟩
  · rw [SeparatedList.items_map] at present
    obtain ⟨d, _, rfl⟩ := List.mem_map.mp present
    exact d.wellFormed_signedNumeral
  · rw [SeparatedList.chars_map, ← covers]
    congr 1
    exact funext Decimal.chars_signedNumeral

end WrittenLine

/-- **Lines of coefficients are read number by number.** A text is read exactly if a line writes it,
and refused otherwise. The polynomial has one coefficient for every number, in order, with its sign,
also that of a zero, its digits and its places after the point. Finite coefficients in units not
above one of which none is a zero with a sign are therefore read back from their plain forms,
whatever the blanks around the commas. -/
theorem read_coefficients (text : String) (journal : Journal) :
    ((∃ p, (PolynomialFormat.coefficients.read text).outcome journal = .ok p) ↔
      ∃ line : WrittenLine, line.Writes text) ∧
    ((∀ line : WrittenLine, ¬ line.Writes text) →
      (PolynomialFormat.coefficients.read text).outcome journal =
        .error (.refused (.notCoefficients text))) ∧
    (∀ (line : WrittenLine) (p : Polynomial), line.Writes text →
      (PolynomialFormat.coefficients.read text).outcome journal = .ok p →
      p.coefficients = line.items.map (fun n => .finite n.toDecimal) ∧
        ∀ n ∈ line.items, n.toDecimal.plainNumeral = n.numeral) ∧
    ∀ (p : Polynomial) (shown : SeparatedList Decimal),
      p.coefficients = shown.items.map .finite →
      (∀ d ∈ shown.items, d.exponent ≤ 0 ∧ d.UnsignedZero) → shown.WellSeparated →
      shown.chars (fun d => (Number.finite d).plain.toList) = text.toList →
      (PolynomialFormat.coefficients.read text).outcome journal = .ok p ∧
          p.agrees p = .ok true := by
  rw [(PolynomialFormat.coefficients.yields_read text).outcome journal]
  change ((∃ p, CoefficientLine.read text = .ok p) ↔ _) ∧ _
  refine ⟨⟨fun ⟨p, read⟩ => WrittenLine.exists_writes read, fun ⟨line, writes⟩ => ?_⟩,
    fun none => ?_, fun line p writes read => ?_, fun p shown finite fine separated covers => ?_⟩
  · obtain ⟨p, read, _⟩ := writes.exists_read
    exact ⟨p, read⟩
  · exact WrittenLine.read_of_no_writes none
  · obtain ⟨q, also, coefficients⟩ := writes.exists_read
    cases also.symm.trans read
    exact ⟨coefficients, fun n present =>
      Decimal.plainNumeral_toDecimal (writes.numbers n present) _⟩
  · have plain : shown.chars Decimal.plainChars = text.toList := by
      rw [← covers]
      congr 1
      exact funext fun d => String.toList_ofList.symm
    obtain ⟨q, read, coefficients⟩ := (WrittenLine.writes_plain separated plain).exists_read
    have same : q.coefficients = p.coefficients := by
      rw [coefficients, finite, SeparatedList.items_map, List.map_map]
      refine List.map_congr_left fun d present => ?_
      obtain ⟨unit, unsigned⟩ := fine d present
      exact congrArg Number.finite (Decimal.toDecimal_signedNumeral_of_fine unit unsigned)
    obtain ⟨_, _⟩ := p
    obtain ⟨_, _⟩ := q
    cases same
    have decimals := Polynomial.isFinite_of_decimals finite
    exact ⟨read, (Polynomial.agrees_eq_true_iff decimals decimals).mpr (.refl _)⟩

/-- A zero with a sign, a plus, a zero behind the last place, and blanks that end a line. -/
theorem read_coefficients_scales :
    ∃ p, (PolynomialFormat.coefficients.read "-0.0 ,\n+7,12.50").outcome (Journal.new false []) =
        .ok p ∧
      p.coefficients = [.finite ⟨true, 0, -1⟩, .finite ⟨false, 7, 0⟩, .finite ⟨false, 1250, -2⟩] ∧
      (PolynomialFormat.coefficients.read "7\t,12.50").outcome (Journal.new false []) =
        .ok ⟨[.finite ⟨false, 7, 0⟩, .finite ⟨false, 1250, -2⟩], by decide⟩ := by
  have leading : LeadingDigits ['1', '2'] :=
    .inr ⟨'1', ['2'], rfl, by decide, List.all_eq_true.mp rfl⟩
  have seven : LeadingDigits ['7'] := .inr ⟨'7', [], rfl, by decide, List.all_eq_true.mp rfl⟩
  have writes : WrittenLine.Writes ⟨⟨some true, ⟨['0'], ['0']⟩⟩,
      [(⟨[' '], ['\n']⟩, ⟨some false, ⟨['7'], []⟩⟩), (⟨[], []⟩, ⟨none, ⟨['1', '2'], ['5', '0']⟩⟩)]⟩
      "-0.0 ,\n+7,12.50" := by
    refine ⟨?_, ?_, by decide⟩
    · intro n present
      simp only [SeparatedList.items, List.map_cons, List.map_nil, List.mem_cons, List.not_mem_nil,
        or_false] at present
      rcases present with rfl | rfl | rfl
      · exact ⟨.inl rfl, List.all_eq_true.mp rfl⟩
      · exact ⟨seven, List.all_eq_true.mp rfl⟩
      · exact ⟨leading, List.all_eq_true.mp rfl⟩
    · intro next present
      simp only [List.mem_cons, List.not_mem_nil, or_false] at present
      rcases present with rfl | rfl <;> exact ⟨List.all_eq_true.mp rfl, List.all_eq_true.mp rfl⟩
  obtain ⟨succeeds, _, meaning, _⟩ := read_coefficients "-0.0 ,\n+7,12.50" (Journal.new false [])
  obtain ⟨p, read⟩ := succeeds.mpr ⟨_, writes⟩
  obtain ⟨coefficients, _⟩ := meaning _ p writes read
  obtain ⟨_, _, _, again⟩ := read_coefficients "7\t,12.50" (Journal.new false [])
  refine ⟨p, read, coefficients, (again _ ⟨⟨false, 7, 0⟩, [(⟨['\t'], []⟩, ⟨false, 1250, -2⟩)]⟩ rfl
    (by decide) ?_ (by decide)).1⟩
  exact List.forall_mem_singleton.mpr ⟨List.all_eq_true.mp rfl, List.all_eq_true.mp rfl⟩

end ExactQuadrature

import ExactQuadrature.Decimal.Literal
import ExactQuadrature.Proofs.SignedNumeral

/-! # Reading written forms

The written forms of decimals consist of western digits and a few marks (`Literal.Bare`), so that
reading them as literals leaves their characters as they are. A signed numeral is read as the
decimal that it writes (`Number.ofText?_chars`), and a scientific form as the decimal that it comes
from (`Number.ofText?_scientific`), in both of its regimes: with the coefficient's own digits around
the point, and with an exponent mark behind a mantissa.
-/

namespace ExactQuadrature

namespace Literal

/-- A character of the written form of a decimal. -/
def Bare (c : Char) : Prop := c.isDigit = true ∨ c ∈ ['.', '+', '-', 'E']

variable {c : Char} {cs rest : List Char} {n : Numeral}

theorem Bare.not_blank (bare : Bare c) : Text.isBlank c = false := by
  rcases bare with digit | mark
  · exact Text.isBlank_of_isDigit digit
  · simp only [List.mem_cons, List.not_mem_nil, or_false] at mark
    rcases mark with rfl | rfl | rfl | rfl <;> rfl

theorem Bare.ne_comma (bare : Bare c) : c ≠ ',' := by
  rcases bare with digit | mark
  · rintro rfl
    cases digit
  · rintro rfl
    simp at mark

theorem Bare.ne_underscore (bare : Bare c) : c ≠ '_' := by
  rcases bare with digit | mark
  · rintro rfl
    cases digit
  · rintro rfl
    simp at mark

theorem Bare.westernize? (bare : Bare c) : Literal.westernize? c = some c := by
  rcases bare with digit | mark
  · obtain ⟨low, high⟩ := isDigit_toNat digit
    exact if_pos ⟨by omega, by omega⟩
  · simp only [List.mem_cons, List.not_mem_nil, or_false] at mark
    rcases mark with rfl | rfl | rfl | rfl <;> rfl

/-- There are no blanks to drop before a literal. -/
theorem dropWhile_of_bare (bare : ∀ c ∈ cs, Bare c) : cs.dropWhile Text.isBlank = cs := by
  cases cs with
  | nil => rfl
  | cons c rest =>
    refine List.dropWhile_cons_of_neg ?_
    rw [(bare c List.mem_cons_self).not_blank]
    exact Bool.false_ne_true

/-- **Bare characters are left as they are.** -/
theorem normalize?_of_bare (bare : ∀ c ∈ cs, Bare c) : normalize? cs = some cs := by
  have trimmed : Text.trimBlanks cs = cs := by
    unfold Text.trimBlanks
    rw [dropWhile_of_bare bare,
      dropWhile_of_bare fun c present => bare c (List.mem_reverse.mp present), List.reverse_reverse]
  have kept : cs.filter (· ≠ '_') = cs :=
    List.filter_eq_self.mpr fun c present => decide_eq_true (bare c present).ne_underscore
  unfold normalize?
  rw [trimmed, kept]
  clear trimmed kept
  induction cs with
  | nil => rfl
  | cons c rest ih =>
    obtain ⟨own, others⟩ := List.forall_mem_cons.mp bare
    rw [List.mapM_cons, own.westernize?, ih others]
    rfl

/-- A written numeral consists of such characters. -/
theorem bare_chars (formed : n.WellFormed) : ∀ c ∈ n.chars, Bare c := by
  intro c present
  unfold Numeral.chars at present
  rcases List.mem_append.mp present with whole | fraction
  · exact .inl (formed.whole.isDigit c whole)
  · split at fraction
    · cases fraction
    · rcases List.mem_cons.mp fraction with rfl | digit
      · exact .inr List.mem_cons_self
      · exact .inl (formed.fraction c digit)

theorem bare_signText (negative : Bool) : ∀ c ∈ Decimal.signText negative, Bare c := by
  cases negative with
  | true => exact List.forall_mem_singleton.mpr (.inr (by decide))
  | false => nofun

/-- The fraction is split off as it was written. -/
theorem splitFraction_chars {fraction : List Char} (digits : ∀ c ∈ fraction, c.isDigit = true)
    (ends : Numeral.Ends rest) :
    splitFraction ((if fraction = [] then [] else '.' :: fraction) ++ rest) = (fraction, rest) := by
  by_cases none : fraction = []
  · rw [if_pos none, List.nil_append, none]
    unfold splitFraction
    split
    · exact absurd rfl (ends '.' _ rfl).2
    · rfl
  · rw [if_neg none, List.cons_append]
    simp only [splitFraction, takeWhile_digits digits ends.endsDigits,
      dropWhile_digits digits ends.endsDigits]

/-- A numeral is split into its digits and what follows it. -/
theorem split_chars (formed : n.WellFormed) (ends : Numeral.Ends rest) :
    (n.chars ++ rest).takeWhile Char.isDigit = n.whole ∧
      splitFraction ((n.chars ++ rest).dropWhile Char.isDigit) = (n.fraction, rest) := by
  have after := ends.endsDigits_fraction n.fraction
  unfold Numeral.chars
  rw [List.append_assoc, takeWhile_digits formed.whole.isDigit after,
    dropWhile_digits formed.whole.isDigit after]
  exact ⟨rfl, splitFraction_chars formed.fraction ends⟩

/-- A written numeral is read back, with the exponent of its last digit. -/
theorem numeral?_chars (formed : n.WellFormed) :
    numeral? n.chars = some (n.digits, -(n.fraction.length : Int)) := by
  obtain ⟨whole, fraction⟩ := split_chars formed Numeral.ends_nil
  rw [List.append_nil] at whole fraction
  unfold numeral?
  dsimp only
  rw [whole, fraction]
  dsimp only
  rw [if_neg fun both => formed.whole.ne_nil both.1]
  rfl

/-- A whole number is read back from its digits. -/
theorem wholeNumber?_toDigits (k : Nat) : wholeNumber? (Nat.toDigits 10 k) = some k := by
  have leading := leadingDigits_toDigits k
  unfold wholeNumber?
  rw [if_pos ⟨leading.ne_nil, List.all_eq_true.mpr leading.isDigit⟩, Nat.ofDigitChars_ten_toDigits]

/-- An exponent that is shown with its sign is read back. -/
theorem exponent?_shown (exponent : Int) :
    exponent? ((if exponent < 0 then '-' else '+') :: Nat.toDigits 10 exponent.natAbs) =
      some exponent := by
  by_cases below : exponent < 0
  · rw [if_pos below]
    change ((wholeNumber? (Nat.toDigits 10 exponent.natAbs)).bind fun k => some (k : Int)).map
      (fun k => -k) = _
    rw [wholeNumber?_toDigits]
    change some (-(exponent.natAbs : Int)) = _
    congr 1
    omega
  · rw [if_neg below]
    change ((wholeNumber? (Nat.toDigits 10 exponent.natAbs)).bind fun k => some (k : Int)).map
      (fun k => k) = _
    rw [wholeNumber?_toDigits]
    change some (exponent.natAbs : Int) = _
    congr 1
    omega

/-- An exponent mark behind a numeral moves its point. -/
theorem numeral?_exponent (formed : n.WellFormed) (exponent : Int) :
    numeral? (n.chars ++ 'E' :: (if exponent < 0 then '-' else '+') ::
        Nat.toDigits 10 exponent.natAbs) =
      some (n.digits, exponent - n.fraction.length) := by
  have ends : ∀ more, Numeral.Ends ('E' :: more) := by
    intro more c rest shape
    cases shape
    decide
  obtain ⟨whole, fraction⟩ := split_chars formed
    (ends ((if exponent < 0 then '-' else '+') :: Nat.toDigits 10 exponent.natAbs))
  unfold numeral?
  dsimp only
  rw [whole, fraction]
  dsimp only
  rw [if_neg fun both => formed.whole.ne_nil both.1, if_pos (.inr rfl), exponent?_shown]
  rfl

end Literal

namespace Number

open Literal

/-- A sign that is not a plus and a digit after it are told apart. -/
theorem splitSign_signText (negative : Bool) {first : Char} (rest : List Char)
    (digit : first.isDigit = true) :
    splitSign (Decimal.signText negative ++ first :: rest) = (negative, first :: rest) := by
  cases negative with
  | true => rfl
  | false =>
    change splitSign (first :: rest) = _
    unfold splitSign
    split
    · next minus =>
      cases minus
      cases digit
    · next plus =>
      cases plus
      cases digit
    · rfl

/-- **A sign and a numeral are read as the decimal that they write**, if that lies in the widest
range. -/
theorem ofText?_of_numeral? {negative : Bool} {cs : List Char} {coefficient : Nat} {exponent : Int}
    (bare : ∀ c ∈ cs, Bare c) (begins : ∃ first more, cs = first :: more ∧ first.isDigit = true)
    (found : numeral? cs = some (coefficient, exponent)) :
    ofText? (String.ofList (Decimal.signText negative ++ cs)) =
      if Range.exact.Contains ⟨negative, coefficient, exponent⟩ then
        some (.finite ⟨negative, coefficient, exponent⟩) else none := by
  have signed : ∀ c ∈ Decimal.signText negative ++ cs, Bare c :=
    List.forall_mem_append.mpr ⟨bare_signText negative, bare⟩
  obtain ⟨first, more, rfl, digit⟩ := begins
  unfold ofText?
  rw [String.toList_ofList, normalize?_of_bare signed]
  simp only [Option.bind_eq_bind, Option.bind_some, splitSign_signText negative more digit, found]

end Number

namespace Decimal

open Literal

/-- The first digit of a coefficient before a point, and the others behind it. -/
def mantissa (d : Decimal) : Numeral :=
  ⟨(Nat.toDigits 10 d.coefficient).take 1, (Nat.toDigits 10 d.coefficient).drop 1⟩

theorem wellFormed_mantissa (d : Decimal) : d.mantissa.WellFormed := by
  have leading := leadingDigits_toDigits d.coefficient
  exact ⟨leading.take 0, fun c present => leading.isDigit c (List.mem_of_mem_drop present)⟩

/-- The mantissa has the digits of the coefficient. -/
theorem digits_mantissa (d : Decimal) : d.mantissa.digits = d.coefficient := by
  unfold Numeral.digits mantissa
  rw [List.take_append_drop, Nat.ofDigitChars_ten_toDigits]

/-- The leading digit stands as many places before the last one as there are digits behind the
point. -/
theorem exponent_mantissa (d : Decimal) :
    d.adjusted - (d.mantissa.fraction.length : Int) = d.exponent := by
  have counted := digitCount_pos d.coefficient
  unfold mantissa adjusted
  dsimp only
  rw [List.length_drop, length_toDigits]
  omega

/-- The exponential form is the mantissa, an E and the signed exponent. -/
theorem exponential_eq (d : Decimal) (exponent : Int) :
    exponential (Nat.toDigits 10 d.coefficient) exponent =
      d.mantissa.chars ++ 'E' :: (if exponent < 0 then '-' else '+') ::
        Nat.toDigits 10 exponent.natAbs := by
  have present := (leadingDigits_toDigits d.coefficient).ne_nil
  unfold exponential mantissa Numeral.chars
  generalize Nat.toDigits 10 d.coefficient = digits at present
  match digits with
  | [] => exact absurd rfl present
  | [_] => rfl
  | _ :: _ :: _ => rfl

/-- What follows the sign in the scientific form. -/
def unsignedChars (d : Decimal) : List Char :=
  if d.exponent ≤ 0 ∧ -6 ≤ d.adjusted then
    (Numeral.ofDigits (Nat.toDigits 10 d.coefficient) (-d.exponent).toNat).chars
  else d.mantissa.chars ++ 'E' :: (if d.adjusted < 0 then '-' else '+') ::
    Nat.toDigits 10 d.adjusted.natAbs

/-- The scientific form is the sign before the unsigned form. -/
theorem scientificChars_eq (d : Decimal) :
    d.scientificChars = signText d.negative ++ d.unsignedChars := by
  unfold scientificChars unsignedChars
  rw [Numeral.chars_ofDigits, ← exponential_eq]

/-- **Both regimes keep coefficient and exponent.** -/
theorem numeral?_unsignedChars (d : Decimal) :
    numeral? d.unsignedChars = some (d.coefficient, d.exponent) := by
  unfold unsignedChars
  split
  · next positional =>
    rw [numeral?_chars (Numeral.wellFormed_ofDigits (leadingDigits_toDigits _) _),
      Numeral.digits_ofDigits, Nat.ofDigitChars_ten_toDigits, Numeral.length_fraction_ofDigits]
    congr 2
    omega
  · rw [numeral?_exponent d.wellFormed_mantissa, digits_mantissa, exponent_mantissa]

/-- The unsigned form consists of characters of a literal. -/
theorem bare_unsignedChars (d : Decimal) : ∀ c ∈ d.unsignedChars, Bare c := by
  unfold unsignedChars
  split
  · exact bare_chars (Numeral.wellFormed_ofDigits (leadingDigits_toDigits _) _)
  · intro c present
    rcases List.mem_append.mp present with mantissa | shown
    · exact bare_chars d.wellFormed_mantissa c mantissa
    · rcases List.mem_cons.mp shown with rfl | shown
      · exact .inr (by decide)
      · rcases List.mem_cons.mp shown with rfl | digit
        · split <;> exact .inr (by decide)
        · exact .inl ((leadingDigits_toDigits _).isDigit c digit)

theorem bare_scientificChars (d : Decimal) : ∀ c ∈ d.scientificChars, Bare c := by
  rw [scientificChars_eq]
  exact List.forall_mem_append.mpr ⟨bare_signText _, bare_unsignedChars d⟩

/-- The unsigned form begins with a digit. -/
theorem exists_digit_unsignedChars (d : Decimal) :
    ∃ first more, d.unsignedChars = first :: more ∧ first.isDigit = true := by
  unfold unsignedChars
  split
  · exact (Numeral.wellFormed_ofDigits (leadingDigits_toDigits _) _).exists_digit
  · obtain ⟨first, more, shape, digit⟩ := d.wellFormed_mantissa.exists_digit
    exact ⟨first, _, by rw [shape, List.cons_append], digit⟩

end Decimal

namespace Number

/-- **Scientific forms are read back.** A decimal of the widest range is read from its scientific
form, with its sign, its coefficient and its exponent. -/
theorem ofText?_scientific {d : Decimal} (inside : Range.exact.Contains d) :
    ofText? (Number.finite d).scientific = some (.finite d) := by
  change ofText? (String.ofList d.scientificChars) = _
  rw [Decimal.scientificChars_eq, ofText?_of_numeral? d.bare_unsignedChars
    d.exists_digit_unsignedChars d.numeral?_unsignedChars]
  exact if_pos inside

/-- **Signed numerals without a plus are read as what they write**, if that lies in the widest
range. -/
theorem ofText?_chars {n : SignedNumeral} (formed : n.WellFormed) (noPlus : n.sign ≠ some false)
    (inside : Range.exact.Contains n.toDecimal) :
    ofText? (String.ofList n.chars) = some (.finite n.toDecimal) := by
  obtain ⟨sign, numeral⟩ := n
  have shape : (SignedNumeral.mk sign numeral).chars =
      Decimal.signText (sign.getD false) ++ numeral.chars := by
    match sign with
    | none => rfl
    | some false => exact absurd rfl noPlus
    | some true => rfl
  rw [shape, ofText?_of_numeral? (Literal.bare_chars formed)
    (Numeral.WellFormed.exists_digit formed) (Literal.numeral?_chars formed)]
  exact if_pos inside

end Number

end ExactQuadrature

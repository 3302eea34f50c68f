import ExactQuadrature.Proofs.Decimal.Plain

/-! # Signed numerals

A signed numeral is a numeral with a plus or a minus directly before it, or with neither. Scanning
takes it as a whole where nothing continues its numeral (`SignedNumeral.scanSigned?_chars`), and
takes nothing else (`SignedNumeral.exists_of_scanSigned?`). The plain form of a decimal is a signed
numeral (`Decimal.chars_signedNumeral`); of all those that write the decimal it is the one without a
plus, unless the decimal is a zero with a sign (`SignedNumeral.eq_signedNumeral`).
-/

namespace ExactQuadrature

/-- Digits are no blanks. -/
theorem Text.isBlank_of_isDigit {c : Char} (digit : c.isDigit = true) : isBlank c = false := by
  obtain ⟨low, high⟩ := isDigit_toNat digit
  have none : ∀ code < 58, 48 ≤ code → blankCodes.contains code = false := by decide
  exact none c.toNat (by omega) low

/-- Blanks are dropped up to the first character that is none. -/
theorem Text.dropWhile_blanks {blanks more : List Char} {c : Char}
    (blank : ∀ b ∈ blanks, isBlank b = true) (stops : isBlank c = false) :
    (blanks ++ c :: more).dropWhile isBlank = c :: more := by
  rw [List.dropWhile_append_of_pos blank]
  exact List.dropWhile_cons_of_neg (by rw [stops]; exact Bool.false_ne_true)

/-- A numeral begins with a digit. -/
theorem Numeral.WellFormed.exists_digit {n : Numeral} (formed : n.WellFormed) :
    ∃ first more, n.chars = first :: more ∧ first.isDigit = true := by
  obtain ⟨first, rest, shape⟩ := List.exists_cons_of_ne_nil formed.whole.ne_nil
  refine ⟨first, _, by rw [Numeral.chars, shape, List.cons_append], formed.whole.isDigit first ?_⟩
  rw [shape]
  exact List.mem_cons_self

/-- A numeral as it is written, with a sign or without one. -/
structure SignedNumeral where
  sign : Option Bool
  numeral : Numeral
deriving DecidableEq

namespace SignedNumeral

/-- The characters of a sign that may be missing. -/
def signChars : Option Bool → List Char
  | none => []
  | some false => ['+']
  | some true => ['-']

def chars (n : SignedNumeral) : List Char := signChars n.sign ++ n.numeral.chars

def WellFormed (n : SignedNumeral) : Prop := n.numeral.WellFormed

/-- The decimal that is written. A missing sign is a plus. -/
def toDecimal (n : SignedNumeral) : Decimal := n.numeral.toDecimal (n.sign.getD false)

/-- No blank begins a signed numeral. -/
theorem WellFormed.exists_nonblank {n : SignedNumeral} (formed : n.WellFormed) :
    ∃ first more, n.chars = first :: more ∧ Text.isBlank first = false := by
  obtain ⟨sign, numeral⟩ := n
  match sign with
  | some false => exact ⟨'+', _, rfl, by decide⟩
  | some true => exact ⟨'-', _, rfl, by decide⟩
  | none =>
    obtain ⟨first, more, shape, digit⟩ := Numeral.WellFormed.exists_digit formed
    exact ⟨first, more, shape, Text.isBlank_of_isDigit digit⟩

/-- Blanks before a signed numeral are dropped, and nothing of the numeral. -/
theorem WellFormed.dropWhile_blanks {n : SignedNumeral} (formed : n.WellFormed) {blanks : List Char}
    (blank : ∀ b ∈ blanks, Text.isBlank b = true) (rest : List Char) :
    (blanks ++ (n.chars ++ rest)).dropWhile Text.isBlank = n.chars ++ rest := by
  obtain ⟨first, more, shape, nonblank⟩ := formed.exists_nonblank
  rw [shape]
  exact Text.dropWhile_blanks blank nonblank

/-- **Longest match.** A signed numeral is scanned as a whole where nothing continues it. -/
theorem scanSigned?_chars {n : SignedNumeral} {rest : List Char} (formed : n.WellFormed)
    (ends : Numeral.Ends rest) :
    Numeral.scanSigned? (n.chars ++ rest) = some (n.toDecimal, rest) := by
  obtain ⟨sign, numeral⟩ := n
  have scanned : Numeral.scan? (numeral.chars ++ rest) = some (numeral, rest) :=
    Numeral.scan?_chars formed ends
  match sign with
  | some false | some true =>
    unfold Numeral.scanSigned? chars
    simp only [signChars, List.cons_append, List.nil_append, scanned]
    rfl
  | none =>
    obtain ⟨first, more, shape, digit⟩ := Numeral.WellFormed.exists_digit formed
    change Numeral.scanSigned? (numeral.chars ++ rest) = _
    unfold Numeral.scanSigned?
    split
    · next minus =>
      rw [shape] at minus
      cases minus
      cases digit
    · next plus =>
      rw [shape] at plus
      cases plus
      cases digit
    · rw [scanned]
      rfl

/-- **Only signed numerals are scanned**, and what is scanned begins the text. -/
theorem exists_of_scanSigned? {cs rest : List Char} {d : Decimal}
    (scanned : Numeral.scanSigned? cs = some (d, rest)) :
    ∃ n : SignedNumeral, n.WellFormed ∧ n.toDecimal = d ∧ n.chars ++ rest = cs := by
  have signed : ∀ (sign : Option Bool) (cs : List Char),
      (Numeral.scan? cs).map (fun found => (found.1.toDecimal (sign.getD false), found.2)) =
        some (d, rest) →
      ∃ n : SignedNumeral, n.WellFormed ∧ n.toDecimal = d ∧
          n.chars ++ rest = signChars sign ++ cs := by
    intro sign cs found
    obtain ⟨⟨n, after⟩, own, shape⟩ := Option.map_eq_some_iff.mp found
    cases shape
    refine ⟨⟨sign, n⟩, Numeral.wellFormed_of_scan? own, rfl, ?_⟩
    rw [chars, List.append_assoc, Numeral.scan?_append own]
  unfold Numeral.scanSigned? at scanned
  split at scanned
  · exact signed (some true) _ scanned
  · exact signed (some false) _ scanned
  · exact signed none _ scanned

/-- A scanned decimal is that of a well-formed numeral with no more digits than the text has
characters. -/
theorem exists_numeral_of_scanSigned? {cs rest : List Char} {d : Decimal}
    (scanned : Numeral.scanSigned? cs = some (d, rest)) :
    ∃ (n : Numeral) (negative : Bool), d = n.toDecimal negative ∧ n.WellFormed ∧
      n.whole.length + n.fraction.length ≤ cs.length := by
  obtain ⟨⟨sign, n⟩, formed, rfl, rfl⟩ := exists_of_scanSigned? scanned
  refine ⟨n, sign.getD false, rfl, formed, ?_⟩
  rw [chars, List.length_append, List.length_append]
  have counted := n.digits_le_chars
  dsimp only
  omega

/-- A signed numeral that makes up the whole text is scanned as what it writes. -/
theorem scanSigned?_whole {n : SignedNumeral} (formed : n.WellFormed) :
    Numeral.scanSigned? n.chars = some (n.toDecimal, []) := by
  have scanned : Numeral.scanSigned? (n.chars ++ []) = some (n.toDecimal, []) :=
    scanSigned?_chars formed Numeral.ends_nil
  rwa [List.append_nil] at scanned

end SignedNumeral

namespace Decimal

/-- The signed numeral of the plain form. -/
def signedNumeral (d : Decimal) : SignedNumeral :=
  ⟨if d.negative && !d.isZero then some true else none, d.plainNumeral⟩

/-- A plain form is a numeral without needless zeros. -/
theorem wellFormed_signedNumeral (d : Decimal) : d.signedNumeral.WellFormed :=
  d.wellFormed_plainNumeral

/-- **Plain forms are signed numerals.** -/
theorem chars_signedNumeral (d : Decimal) : d.signedNumeral.chars = d.plainChars := by
  rw [plainChars_eq]
  unfold SignedNumeral.chars signedNumeral signText
  split <;> rfl

/-- What a plain form writes is the decimal in a unit that is not above one, without the sign of a
zero. -/
theorem toDecimal_signedNumeral (d : Decimal) :
    d.signedNumeral.toDecimal =
      ⟨d.negative && !d.isZero, d.magnitudeAt (min d.exponent 0), min d.exponent 0⟩ := by
  unfold SignedNumeral.toDecimal signedNumeral
  rw [toDecimal_plainNumeral]
  cases d.negative && !d.isZero <;> rfl

/-- **A plain form loses no digit**, whatever the exponent. -/
theorem value_signedNumeral (d : Decimal) : d.signedNumeral.toDecimal.value = d.value := by
  rw [toDecimal_signedNumeral]
  cases zero : d.isZero with
  | true =>
    have none : d.coefficient = 0 := beq_iff_eq.mp zero
    rw [(value_eq_zero_iff d).mpr zero, value_eq_zero_iff]
    unfold magnitudeAt
    rw [none, Nat.zero_mul]
    rfl
  | false =>
    rw [Bool.not_false, Bool.and_true]
    exact value_plainForm d

/-- A plain form never shows a zero with a sign. -/
theorem unsigned_signedNumeral (d : Decimal) : d.signedNumeral.toDecimal.UnsignedZero := by
  intro zero
  rw [← value_eq_zero_iff, value_signedNumeral, value_eq_zero_iff] at zero
  rw [toDecimal_signedNumeral, zero, Bool.not_true, Bool.and_false]

/-- **A decimal in a unit that is not above one is what its plain form writes**, but for the sign of
a zero. -/
theorem toDecimal_signedNumeral_of_fine {d : Decimal} (fine : d.exponent ≤ 0)
    (unsigned : d.UnsignedZero) : d.signedNumeral.toDecimal = d := by
  have sign : (d.negative && !d.isZero) = d.negative := by
    cases zero : d.isZero with
    | true => rw [unsigned zero, Bool.false_and]
    | false => rw [Bool.not_false, Bool.and_true]
  rw [toDecimal_signedNumeral, sign, min_eq_left fine]
  unfold magnitudeAt
  rw [Int.sub_self, Int.toNat_zero, show tenPow 0 = 1 from rfl, Nat.mul_one]

end Decimal

/-- **Only one signed numeral without a plus writes a decimal**, if that is no zero with a sign. -/
theorem SignedNumeral.eq_signedNumeral {n : SignedNumeral} (formed : n.WellFormed)
    (noPlus : n.sign ≠ some false) (unsigned : n.toDecimal.UnsignedZero) :
    n.toDecimal.signedNumeral = n := by
  obtain ⟨sign, numeral⟩ := n
  have shown : (SignedNumeral.mk sign numeral).toDecimal.plainNumeral = numeral :=
    Decimal.plainNumeral_toDecimal formed _
  unfold Decimal.signedNumeral
  rw [shown]
  congr 1
  match sign with
  | none => rfl
  | some false => exact absurd rfl noPlus
  | some true =>
    have nonzero : (SignedNumeral.mk (some true) numeral).toDecimal.isZero = false :=
      Bool.eq_false_iff.mpr fun zero => absurd (unsigned zero) (Bool.noConfusion)
    rw [nonzero]
    rfl

end ExactQuadrature

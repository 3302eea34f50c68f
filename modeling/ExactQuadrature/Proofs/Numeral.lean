import ExactQuadrature.Numeral
import ExactQuadrature.Proofs.Decimal.Value
import Mathlib.Data.List.TakeWhile

/-! # Numerals and the numbers they write

A well-formed numeral has no needless leading zero and nothing but digits around its point. Such a
numeral is scanned as a whole wherever no digit and no point follows it (`Numeral.scan?_chars`), and
scanning finds no other ones (`Numeral.wellFormed_of_scan?`). The decimal that it writes has
its value (`Numeral.value_toDecimal`). The decimal digits of a natural number are the only
digits without a leading zero that write it (`toDigits_ofDigitChars`).
-/

namespace ExactQuadrature

/-- Digits without a leading zero, or a zero alone. -/
def LeadingDigits (cs : List Char) : Prop :=
  cs = ['0'] ∨ ∃ first rest, cs = first :: rest ∧ first ≠ '0' ∧ ∀ c ∈ cs, c.isDigit = true

/-- Digits without needless zeros before them are digits. -/
theorem LeadingDigits.isDigit {cs : List Char} (leading : LeadingDigits cs) :
    ∀ c ∈ cs, c.isDigit = true := by
  rcases leading with rfl | ⟨_, _, _, _, digits⟩
  · exact List.forall_mem_singleton.mpr rfl
  · exact digits

/-- The codes of western digits. -/
theorem isDigit_toNat {c : Char} (digit : c.isDigit = true) :
    48 ≤ c.toNat ∧ c.toNat ≤ 57 := by
  simp only [Char.isDigit, Bool.and_eq_true, decide_eq_true_eq] at digit
  exact ⟨digit.1, digit.2⟩

/-- A digit is the one with its own value. -/
theorem digitChar_toNat_sub {c : Char} (digit : c.isDigit = true) :
    (c.toNat - 48).digitChar = c := by
  obtain ⟨low, high⟩ := isDigit_toNat digit
  have cases : ∀ n < 10, (n.digitChar).toNat = 48 + n := by decide
  apply Char.ext
  apply UInt32.toNat_inj.mp
  change ((c.toNat - 48).digitChar).toNat = c.toNat
  rw [cases _ (by omega)]
  omega

/-- One more digit makes a number ten times as large and adds the value of the digit. -/
theorem ofDigitChars_snoc (cs : List Char) (c : Char) :
    Nat.ofDigitChars 10 (cs ++ [c]) 0 = 10 * Nat.ofDigitChars 10 cs 0 + (c.toNat - 48) := by
  rw [Nat.ofDigitChars_append, Nat.ofDigitChars_cons, Nat.ofDigitChars_nil]
  rfl

/-- Digits write less than the power of ten that has their number as its exponent. -/
theorem ofDigitChars_lt {cs : List Char} (digits : ∀ c ∈ cs, c.isDigit = true) :
    Nat.ofDigitChars 10 cs 0 < tenPow cs.length := by
  induction cs using List.reverseRecOn with
  | nil => decide
  | append_singleton cs c ih =>
    have before := ih fun d member => digits d (List.mem_append_left _ member)
    obtain ⟨_, high⟩ :=
      isDigit_toNat (digits c (List.mem_append_right _ (List.mem_singleton.mpr rfl)))
    have ten : tenPow 1 = 10 := rfl
    rw [ofDigitChars_snoc, List.length_append, List.length_singleton, tenPow_add, ten]
    omega

/-- Digits that do not start with a zero stand for a positive number. -/
theorem one_le_ofDigitChars {first : Char} (rest : List Char) (nonzero : first ≠ '0')
    (digit : first.isDigit = true) : 1 ≤ Nat.ofDigitChars 10 (first :: rest) 0 := by
  have some_units : 1 ≤ first.toNat - 48 := by
    obtain ⟨low, _⟩ := isDigit_toNat digit
    by_contra none
    refine nonzero (Char.ext (UInt32.toNat_inj.mp ?_))
    change first.toNat = 48
    omega
  rw [Nat.ofDigitChars_cons, Nat.ofDigitChars_eq_ofDigitChars_zero]
  have positive : 0 < 10 ^ rest.length := Nat.pow_pos (by decide)
  have scaled : 1 ≤ 10 ^ rest.length * (10 * 0 + (first.toNat - '0'.toNat)) :=
    Nat.mul_pos positive (by
      change 0 < 10 * 0 + (first.toNat - 48)
      omega)
  omega

/-- **Digits are unique.** Digits without a needless leading zero are those of the number that they
write. -/
theorem toDigits_ofDigitChars {cs : List Char} (leading : LeadingDigits cs) :
    Nat.toDigits 10 (Nat.ofDigitChars 10 cs 0) = cs := by
  rcases leading with rfl | ⟨first, rest, rfl, nonzero, digits⟩
  · decide
  · induction rest using List.reverseRecOn with
    | nil =>
      have digit := digits first (List.mem_singleton.mpr rfl)
      obtain ⟨_, high⟩ := isDigit_toNat digit
      rw [Nat.ofDigitChars_cons, Nat.ofDigitChars_nil, Nat.toDigits_of_lt_base]
      · change [(10 * 0 + (first.toNat - 48)).digitChar] = [first]
        rw [Nat.mul_zero, Nat.zero_add, digitChar_toNat_sub digit]
      · change 10 * 0 + (first.toNat - 48) < 10
        omega
    | append_singleton rest c ih =>
      have before := ih fun d member => digits d (by
        rw [← List.cons_append]
        exact List.mem_append_left _ member)
      have digit := digits c (by simp)
      obtain ⟨_, high⟩ := isDigit_toNat digit
      have positive := one_le_ofDigitChars rest nonzero (digits first (by simp))
      rw [← List.cons_append, ofDigitChars_snoc,
        ← Nat.toDigits_append_toDigits (by decide) (by omega) (by omega), before,
        Nat.toDigits_of_lt_base (by omega), digitChar_toNat_sub digit]

/-- Digits of one number and of one length are the same. -/
theorem eq_of_ofDigitChars_eq {cs ds : List Char} (length : cs.length = ds.length)
    (first : ∀ c ∈ cs, c.isDigit = true) (second : ∀ d ∈ ds, d.isDigit = true)
    (same : Nat.ofDigitChars 10 cs 0 = Nat.ofDigitChars 10 ds 0) : cs = ds := by
  induction cs using List.reverseRecOn generalizing ds with
  | nil => exact (List.length_eq_zero_iff.mp length.symm).symm
  | append_singleton cs c ih =>
    obtain rfl | ⟨ds, d, rfl⟩ := List.eq_nil_or_concat' ds
    · rw [List.length_append] at length
      cases length
    · have digitC := first c (List.mem_append_right _ List.mem_cons_self)
      have digitD := second d (List.mem_append_right _ List.mem_cons_self)
      have valueC := isDigit_toNat digitC
      have valueD := isDigit_toNat digitD
      rw [ofDigitChars_snoc, ofDigitChars_snoc] at same
      rw [List.length_append, List.length_append] at length
      have earlier := ih (Nat.add_right_cancel length)
        (fun x member => first x (List.mem_append_left _ member))
        (fun x member => second x (List.mem_append_left _ member)) (by omega)
      have last : c = d := by
        rw [← digitChar_toNat_sub digitC, ← digitChar_toNat_sub digitD]
        congr 1
        omega
      rw [earlier, last]

/-- The digits of a natural number have no needless leading zero. -/
theorem leadingDigits_toDigits (n : Nat) : LeadingDigits (Nat.toDigits 10 n) := by
  induction n using Nat.strongRecOn with
  | ind n ih =>
    rcases Nat.lt_or_ge n 10 with small | large
    · rw [Nat.toDigits_of_lt_base small]
      rcases Nat.eq_zero_or_pos n with rfl | positive
      · exact .inl rfl
      · have shown : ∀ n < 10, 0 < n → n.digitChar ≠ '0' ∧ n.digitChar.isDigit = true := by decide
        refine .inr ⟨_, [], rfl, (shown n small positive).1, ?_⟩
        intro c member
        rw [List.mem_singleton.mp member]
        exact (shown n small positive).2
    · rw [Nat.toDigits_of_base_le (by decide) large]
      rcases ih (n / 10) (by omega) with alone | ⟨first, rest, shape, nonzero, digits⟩
      · have value := congrArg (Nat.ofDigitChars 10 · 0) alone
        simp only [Nat.ofDigitChars_ten_toDigits] at value
        have zero : Nat.ofDigitChars 10 ['0'] 0 = 0 := rfl
        omega
      · refine .inr ⟨first, rest ++ [Nat.digitChar (n % 10)], ?_, nonzero, ?_⟩
        · rw [shape]
          rfl
        · intro c member
          rcases List.mem_append.mp member with earlier | last
          · exact digits c earlier
          · exact Nat.isDigit_of_mem_toDigits (b := 10) (n := n) (by decide) (by decide) (by
              rw [Nat.toDigits_of_base_le (by decide) large]
              exact List.mem_append_right _ last)

/-- A number is written with as many digits as it has. -/
theorem length_toDigits (n : Nat) : (Nat.toDigits 10 n).length = digitCount n := by
  apply le_antisymm
  · rw [Nat.length_toDigits_le_iff (by decide) (digitCount_pos n)]
    exact lt_tenPow_digitCount n
  · rw [digitCount_le_iff Nat.length_toDigits_pos]
    exact (Nat.length_toDigits_le_iff (by decide) Nat.length_toDigits_pos).mp le_rfl

/-- What follows digits so that they end there: nothing, or a character that is none. -/
def EndsDigits (cs : List Char) : Prop := ∀ c rest, cs = c :: rest → c.isDigit = false

/-- Digits before a text that starts with none are all digits that come first. -/
theorem takeWhile_digits {cs rest : List Char} (digits : ∀ c ∈ cs, c.isDigit = true)
    (ends : EndsDigits rest) : (cs ++ rest).takeWhile Char.isDigit = cs := by
  rw [List.takeWhile_append_of_pos digits]
  cases rest with
  | nil => exact List.append_nil cs
  | cons c more =>
    rw [List.takeWhile_cons_of_neg (by rw [ends c more rfl]; exact Bool.false_ne_true),
      List.append_nil]

/-- What is left behind those digits is that text. -/
theorem dropWhile_digits {cs rest : List Char} (digits : ∀ c ∈ cs, c.isDigit = true)
    (ends : EndsDigits rest) : (cs ++ rest).dropWhile Char.isDigit = rest := by
  rw [List.dropWhile_append_of_pos digits]
  cases rest with
  | nil => rfl
  | cons c more =>
    exact List.dropWhile_cons_of_neg (by rw [ends c more rfl]; exact Bool.false_ne_true)

namespace Numeral

/-- No needless leading zero before the point, and only digits after it. -/
structure WellFormed (n : Numeral) : Prop where
  whole : LeadingDigits n.whole
  fraction : ∀ c ∈ n.fraction, c.isDigit = true

/-- What follows a numeral so that it ends there: neither a digit nor a point. -/
def Ends (cs : List Char) : Prop := ∀ c rest, cs = c :: rest → c.isDigit = false ∧ c ≠ '.'

/-- A numeral ends where the text ends. -/
theorem ends_nil : Ends [] := by
  intro c rest shape
  cases shape

/-- What cannot go on a numeral starts with no digit. -/
theorem Ends.endsDigits {cs : List Char} (ends : Ends cs) : EndsDigits cs :=
  fun c rest shape => (ends c rest shape).1

/-- Leading digits are scanned as a whole, up to the first character that is no digit. -/
theorem scanWhole?_append_of_leading {whole rest : List Char} (leading : LeadingDigits whole)
    (ends : EndsDigits rest) : scanWhole? (whole ++ rest) = some (whole, rest) := by
  rcases leading with rfl | ⟨first, more, rfl, nonzero, digits⟩
  · rfl
  · have later : ∀ c ∈ more, c.isDigit = true :=
      fun c member => digits c (List.mem_cons_of_mem _ member)
    rw [List.cons_append]
    simp only [scanWhole?, nonzero, digits first List.mem_cons_self, ↓reduceIte,
      takeWhile_digits later ends, dropWhile_digits later ends]

/-- A point with digits behind it is scanned as these digits, and nothing as none. -/
theorem scanFraction_chars {fraction rest : List Char}
    (digits : ∀ c ∈ fraction, c.isDigit = true) (ends : Ends rest) :
    scanFraction ((if fraction = [] then [] else '.' :: fraction) ++ rest) = (fraction, rest) := by
  by_cases none : fraction = []
  · rw [if_pos none, List.nil_append, none]
    unfold scanFraction
    split
    · exact absurd rfl (ends '.' _ rfl).2
    · rfl
  · rw [if_neg none, List.cons_append]
    simp only [scanFraction, takeWhile_digits digits ends.endsDigits,
      dropWhile_digits digits ends.endsDigits, none, ↓reduceIte]

/-- The digits before the point end there, or with the numeral. -/
theorem Ends.endsDigits_fraction {rest : List Char} (ends : Ends rest) (fraction : List Char) :
    EndsDigits ((if fraction = [] then [] else '.' :: fraction) ++ rest) := by
  intro c more shape
  by_cases none : fraction = []
  · rw [if_pos none] at shape
    exact (ends c more shape).1
  · rw [if_neg none, List.cons_append] at shape
    cases shape
    rfl

/-- **Longest match.** A well-formed numeral is scanned as a whole where nothing continues it. -/
theorem scan?_chars {n : Numeral} {rest : List Char} (formed : n.WellFormed) (ends : Ends rest) :
    scan? (n.chars ++ rest) = some (n, rest) := by
  unfold scan? chars
  rw [List.append_assoc, scanWhole?_append_of_leading formed.whole (ends.endsDigits_fraction _),
    Option.map_some]
  dsimp only
  rw [scanFraction_chars formed.fraction ends]

/-- The digits that are scanned before a point have no needless zeros before them. -/
theorem leading_of_scanWhole? {cs whole rest : List Char}
    (scanned : scanWhole? cs = some (whole, rest)) : LeadingDigits whole := by
  cases cs with
  | nil => cases scanned
  | cons c more =>
    simp only [scanWhole?] at scanned
    split at scanned
    · next zero =>
      cases scanned
      exact .inl (by rw [zero])
    · next nonzero =>
      split at scanned
      · next digit =>
        cases scanned
        refine .inr ⟨c, _, rfl, nonzero, ?_⟩
        intro d member
        rcases List.mem_cons.mp member with rfl | later
        · exact digit
        · exact List.mem_takeWhile_imp later
      · cases scanned

/-- What is scanned behind a point are digits. -/
theorem isDigit_of_scanFraction (cs : List Char) :
    ∀ c ∈ (scanFraction cs).1, c.isDigit = true := by
  intro c member
  unfold scanFraction at member
  split at member
  · split at member
    · cases member
    · exact List.mem_takeWhile_imp member
  · cases member

/-- Only well-formed numerals are scanned. -/
theorem wellFormed_of_scan? {cs rest : List Char} {n : Numeral}
    (scanned : scan? cs = some (n, rest)) : n.WellFormed := by
  unfold scan? at scanned
  obtain ⟨⟨whole, after⟩, first, shape⟩ := Option.map_eq_some_iff.mp scanned
  cases shape
  exact ⟨leading_of_scanWhole? first, isDigit_of_scanFraction after⟩

/-- A numeral has no more digits than characters. -/
theorem digits_le_chars (n : Numeral) :
    n.whole.length + n.fraction.length ≤ n.chars.length := by
  unfold chars
  split
  · next none => simp [none]
  · simp

/-- The rational number that a numeral writes. -/
def value (n : Numeral) : ℚ :=
  Nat.ofDigitChars 10 n.whole 0 + Nat.ofDigitChars 10 n.fraction 0 / (10 : ℚ) ^ n.fraction.length

/-- The decimal of a numeral has the value of the numeral, or the opposite one with a minus sign. -/
theorem value_toDecimal (n : Numeral) (negative : Bool) :
    (n.toDecimal negative).value = if negative then -n.value else n.value := by
  have positive : (10 : ℚ) ^ n.fraction.length ≠ 0 := (pow_pos (by norm_num) _).ne'
  have units : (n.digits : ℚ) * (10 : ℚ) ^ (-(n.fraction.length : Int)) = n.value := by
    unfold digits value
    rw [Nat.ofDigitChars_append, Nat.ofDigitChars_eq_ofDigitChars_zero, zpow_neg, zpow_natCast]
    push_cast
    field_simp
  rw [Decimal.value_eq]
  cases negative
  · exact units
  · change ((-(n.digits : Int) : Int) : ℚ) * _ = -n.value
    rw [← units]
    push_cast
    exact neg_mul _ _

/-- A numeral without a sign stands for no negative number. -/
theorem value_nonneg (n : Numeral) : 0 ≤ n.value := by
  unfold value
  positivity

/-- A numeral is less than the power of ten with as many zeros as it has digits before the point. -/
theorem value_lt {n : Numeral} (formed : n.WellFormed) :
    n.value < (10 : ℚ) ^ n.whole.length := by
  have before :
      ((Nat.ofDigitChars 10 n.whole 0 + 1 : Nat) : ℚ) ≤ (tenPow n.whole.length : Nat) := by
    exact_mod_cast ofDigitChars_lt formed.whole.isDigit
  have after :
      ((Nat.ofDigitChars 10 n.fraction 0 : Nat) : ℚ) < (tenPow n.fraction.length : Nat) := by
    exact_mod_cast ofDigitChars_lt formed.fraction
  rw [cast_tenPow] at before after
  have part : (Nat.ofDigitChars 10 n.fraction 0 : ℚ) / (10 : ℚ) ^ n.fraction.length < 1 := by
    rwa [div_lt_one (by positivity)]
  unfold value
  push_cast at before
  linarith

end Numeral

end ExactQuadrature

import ExactQuadrature.Proofs.Decimal.DigitsWithin
import ExactQuadrature.Proofs.Expression.Derivation
import ExactQuadrature.Proofs.Expression.Sum
import ExactQuadrature.Proofs.Journal.Outcome
import ExactQuadrature.Proofs.Polynomial.Rendering
import ExactQuadrature.Reading
import Mathlib.Algebra.Order.BigOperators.Group.List

/-! # Reading expressions

A text is read as a polynomial exactly when it is a written expression, and the polynomial is what
the expression means (`read_expression`). The running sums of the terms of a text are whole numbers
of a unit, and the text has a digit for every digit that such a number may have
(`WrittenExpression.represents_running`); so only a text with more characters than the widest
range has digits could ask for a sum that exact arithmetic refuses.
-/

namespace ExactQuadrature

/-- A numeral is a whole number of the unit of its last digit. -/
theorem Numeral.wholeUnits_value (n : Numeral) : WholeUnits n.fraction.length n.value :=
  ⟨n.digits, (n.value_toDecimal false).symm⟩

namespace WrittenTerm

/-- The numeral of the coefficient; a missing one stands for `1`. -/
def numeral : WrittenTerm → Numeral
  | constant numeral => numeral
  | product numeral _ _ => numeral
  | monic _ => ⟨['1'], []⟩

/-- The numeral of a term is its coefficient, a one if none is written. -/
theorem value_numeral (term : WrittenTerm) : term.numeral.value = term.coefficient := by
  cases term with
  | constant numeral => rfl
  | product numeral starred power => rfl
  | monic power =>
    change ((Nat.ofDigitChars 10 ['1'] 0 : Nat) : ℚ) + (Nat.ofDigitChars 10 [] 0 : Nat) / 10 ^ 0 = 1
    norm_num [show Nat.ofDigitChars 10 ['1'] 0 = 1 from rfl,
      show Nat.ofDigitChars 10 [] 0 = 0 from rfl]

/-- The numeral of a well-formed term is well formed. -/
theorem wellFormed_numeral {term : WrittenTerm} (formed : term.WellFormed) :
    term.numeral.WellFormed := by
  cases term with
  | constant numeral => exact formed
  | product numeral starred power => exact formed.1
  | monic power =>
    have digit : ∀ c ∈ ['1'], c.isDigit = true := List.forall_mem_singleton.mpr rfl
    exact ⟨.inr ⟨'1', [], rfl, by decide, digit⟩, fun _ absent => nomatch absent⟩

/-- The numeral of a term is no longer than the term. -/
theorem digits_le_chars (term : WrittenTerm) :
    term.numeral.whole.length + term.numeral.fraction.length ≤ term.chars.length := by
  cases term with
  | constant numeral => exact numeral.digits_le_chars
  | product numeral starred power =>
    have own := numeral.digits_le_chars
    unfold chars
    rw [List.length_append, List.length_append]
    change numeral.whole.length + numeral.fraction.length ≤ _
    omega
  | monic power => cases power <;> exact Nat.le_add_left _ _

/-- The sign does not change the size of a coefficient. -/
theorem abs_value_toTerm (negative : Bool) (term : WrittenTerm) :
    |(term.toTerm negative).coefficient.value| = term.coefficient := by
  have nonneg : 0 ≤ term.coefficient := by
    rw [← value_numeral]
    exact Numeral.value_nonneg _
  rw [value_toTerm]
  cases negative
  · exact abs_of_nonneg nonneg
  · rw [if_pos rfl, abs_neg, abs_of_nonneg nonneg]

/-- A coefficient is below the power of ten that its whole digits reach to. -/
theorem coefficient_lt {term : WrittenTerm} (formed : term.WellFormed) :
    term.coefficient < (10 : ℚ) ^ term.numeral.whole.length := by
  rw [← value_numeral]
  exact Numeral.value_lt (wellFormed_numeral formed)

/-- The sign does not change its fractional digits. -/
theorem wholeUnits_toTerm (negative : Bool) (term : WrittenTerm) :
    WholeUnits term.numeral.fraction.length (term.toTerm negative).coefficient.value := by
  have own := term.numeral.wholeUnits_value
  rw [value_numeral] at own
  rw [value_toTerm]
  cases negative
  · exact own
  · exact own.neg

end WrittenTerm

namespace Expression

/-- The sum of the magnitudes of all coefficients. -/
def magnitudeSum (terms : List Term) : ℚ := (terms.map fun term => |term.coefficient.value|).sum

theorem magnitudeSum_nonneg (terms : List Term) : 0 ≤ magnitudeSum terms := by
  refine List.sum_nonneg ?_
  intro magnitude present
  obtain ⟨term, _, rfl⟩ := List.mem_map.mp present
  exact abs_nonneg _

theorem magnitudeSum_append (before after : List Term) :
    magnitudeSum (before ++ after) = magnitudeSum before + magnitudeSum after := by
  unfold magnitudeSum
  rw [List.map_append, List.sum_append]

/-- A coefficient is no larger than all terms together. -/
theorem abs_valueAt_le (terms : List Term) (power : Nat) :
    |valueAt terms power| ≤ magnitudeSum terms := by
  induction terms using List.reverseRecOn with
  | nil => exact abs_zero.le
  | append_singleton terms term ih =>
    rw [valueAt_snoc, magnitudeSum_append]
    refine (abs_add_le _ _).trans (add_le_add ih ?_)
    change _ ≤ |term.coefficient.value| + 0
    rw [add_zero]
    split
    · exact le_rfl
    · rw [abs_zero]
      exact abs_nonneg _

/-- A coefficient has no more fractional digits than the terms have. -/
theorem wholeUnits_valueAt {terms : List Term} {places : Nat}
    (each : ∀ term ∈ terms, WholeUnits places term.coefficient.value) (power : Nat) :
    WholeUnits places (valueAt terms power) := by
  induction terms using List.reverseRecOn with
  | nil => exact .zero places
  | append_singleton terms term ih =>
    have earlier := ih fun other present => each other (List.mem_append_left _ present)
    have last := each term (List.mem_append_right _ (List.mem_singleton.mpr rfl))
    rw [valueAt_snoc]
    refine earlier.add ?_
    split
    · exact last
    · exact .zero places

end Expression

namespace WrittenExpression

open Expression

/-- The terms that are kept have the coefficients that were written. -/
theorem valueAt_terms (e : WrittenExpression) (power : Nat) :
    valueAt e.terms power = e.coefficientAt power := by
  unfold valueAt terms coefficientAt
  rw [List.filter_map, List.map_map]
  congr 1
  refine List.map_congr_left fun term _ => ?_
  exact term.2.value_toTerm term.1

theorem largestPower_terms (e : WrittenExpression) :
    Expression.largestPower e.terms = e.largestPower := by
  unfold Expression.largestPower terms WrittenExpression.largestPower
  rw [List.map_map]
  rfl

/-- The digits before the points of all coefficients. -/
def wholeDigits (terms : List (Bool × WrittenTerm)) : Nat :=
  (terms.map fun term => term.2.numeral.whole.length).sum

/-- The digits after the points of all coefficients. -/
def fractionDigits (terms : List (Bool × WrittenTerm)) : Nat :=
  (terms.map fun term => term.2.numeral.fraction.length).sum

/-- An expression has no more digits than characters. -/
theorem digits_le_chars (e : WrittenExpression) :
    wholeDigits e.signedTerms + fractionDigits e.signedTerms ≤ e.chars.length := by
  have later : ∀ rest : List (Bool × WrittenTerm), wholeDigits rest + fractionDigits rest ≤
      (rest.flatMap fun term => signChar term.1 :: term.2.chars).length := by
    intro rest
    induction rest with
    | nil => exact le_rfl
    | cons term rest ih =>
      have own := term.2.digits_le_chars
      unfold wholeDigits fractionDigits at ih ⊢
      rw [List.map_cons, List.sum_cons, List.map_cons, List.sum_cons, List.flatMap_cons,
        List.length_append, List.length_cons]
      omega
  have first := e.first.digits_le_chars
  have rest := later e.rest
  unfold wholeDigits fractionDigits at rest ⊢
  unfold signedTerms chars
  rw [List.map_cons, List.sum_cons, List.map_cons, List.sum_cons, List.length_append,
    List.length_append]
  dsimp only
  omega

/-- All coefficients together are below the power of ten with all their digits before the points. -/
theorem magnitudeSum_lt {first : Bool × WrittenTerm} {rest : List (Bool × WrittenTerm)}
    (formed : ∀ term ∈ first :: rest, term.2.WellFormed) :
    magnitudeSum ((first :: rest).map fun term => term.2.toTerm term.1) <
      (10 : ℚ) ^ wholeDigits (first :: rest) := by
  induction rest generalizing first with
  | nil =>
    have own := WrittenTerm.coefficient_lt (formed first (List.mem_singleton.mpr rfl))
    change |(first.2.toTerm first.1).coefficient.value| + 0 < (10 : ℚ) ^ (_ + 0)
    rwa [add_zero, add_zero, WrittenTerm.abs_value_toTerm]
  | cons second rest ih =>
    obtain ⟨firstFormed, restFormed⟩ := List.forall_mem_cons.mp formed
    have own := WrittenTerm.coefficient_lt firstFormed
    have others := ih restFormed
    have some_digit : 1 ≤ first.2.numeral.whole.length :=
      List.length_pos_iff.mpr (WrittenTerm.wellFormed_numeral firstFormed).whole.ne_nil
    have some_other : 1 ≤ wholeDigits (second :: rest) := by
      have secondFormed := restFormed second List.mem_cons_self
      have counted :=
        List.length_pos_iff.mpr (WrittenTerm.wellFormed_numeral secondFormed).whole.ne_nil
      unfold wholeDigits
      rw [List.map_cons, List.sum_cons]
      omega
    change |(first.2.toTerm first.1).coefficient.value| +
      magnitudeSum ((second :: rest).map fun term => term.2.toTerm term.1) <
        (10 : ℚ) ^ (first.2.numeral.whole.length + wholeDigits (second :: rest))
    rw [WrittenTerm.abs_value_toTerm, pow_add]
    have ten_first : (10 : ℚ) ≤ 10 ^ first.2.numeral.whole.length :=
      le_self_pow₀ (by norm_num) (by omega)
    have ten_other : (10 : ℚ) ≤ 10 ^ wholeDigits (second :: rest) :=
      le_self_pow₀ (by norm_num) (by omega)
    nlinarith

/-- The coefficients of every running sum need no more digits than the text has. -/
theorem digitsWithin_running {e : WrittenExpression} (formed : e.WellFormed) {before : List Term}
    (within : before <+: e.terms) (power : Nat) :
    DigitsWithin (wholeDigits e.signedTerms) (fractionDigits e.signedTerms)
      (valueAt before power) where
  below := by
    obtain ⟨after, whole⟩ := within
    have total := magnitudeSum_lt formed
    rw [show (((e.sign.getD false, e.first) :: e.rest).map fun term => term.2.toTerm term.1) =
      before ++ after from whole.symm, magnitudeSum_append] at total
    have rest := magnitudeSum_nonneg after
    have own := abs_valueAt_le before power
    exact lt_of_le_of_lt (own.trans (le_add_of_nonneg_right rest)) total
  units := by
    refine wholeUnits_valueAt (fun term present => ?_) power
    obtain ⟨written, listed, rfl⟩ := List.mem_map.mp (within.subset present)
    refine (written.2.wholeUnits_toTerm written.1).mono ?_
    exact List.single_le_sum (fun _ _ => Nat.zero_le _) _ (List.mem_map.mpr ⟨written, listed, rfl⟩)

/-- **Running sums fit.** The coefficients of every running sum are represented if the text has no
more characters than the widest range has digits. -/
theorem represents_running {e : WrittenExpression} (formed : e.WellFormed)
    (short : e.chars.length ≤ Range.exact.precision) {before : List Term}
    (within : before <+: e.terms) (power : Nat) :
    Range.exact.Represents (valueAt before power) :=
  (digitsWithin_running formed within power).represents (e.digits_le_chars.trans short)

/-- An expression writes a text if its characters are those of the text. -/
def Writes (e : WrittenExpression) (text : String) : Prop := e.WellFormed ∧ e.chars = text.toList

/-- Every text that has terms is written by an expression that has them. -/
theorem exists_writes {text : String} {ts : List Term} (found : Expression.terms text = .ok ts) :
    ∃ e : WrittenExpression, e.Writes text ∧ e.terms = ts := by
  obtain ⟨e, formed, same, meant⟩ := (Expression.terms_eq_ok_iff text ts).mp found
  exact ⟨e, ⟨formed, same⟩, meant⟩

/-- A text that an expression writes stands for the sum of its terms. -/
theorem Writes.read_eq_sum {e : WrittenExpression} {text : String} (writes : e.Writes text) :
    Expression.read text = Expression.sum e.terms := by
  have found : Expression.terms text = .ok e.terms :=
    (Expression.terms_eq_ok_iff text e.terms).mpr ⟨e, writes.1, writes.2, rfl⟩
  unfold Expression.read
  rw [found]

/-- A written text that is not too long is read. -/
theorem Writes.exists_read {e : WrittenExpression} {text : String} (writes : e.Writes text)
    (short : text.length ≤ Range.exact.precision) : ∃ p, Expression.read text = .ok p := by
  rw [writes.read_eq_sum]
  have few : e.chars.length ≤ Range.exact.precision := by
    rwa [writes.2, String.length_toList]
  exact Expression.exists_sum fun before within power =>
    represents_running writes.1 few within power

/-- A text that is read is written. -/
theorem writes_of_read {text : String} {p : Polynomial} (read : Expression.read text = .ok p) :
    ∃ e : WrittenExpression, e.Writes text := by
  unfold Expression.read at read
  cases found : Expression.terms text with
  | error misreading =>
    rw [found] at read
    cases read
  | ok ts =>
    obtain ⟨e, writes, _⟩ := exists_writes found
    exact ⟨e, writes⟩

end WrittenExpression

namespace Polynomial.IsSum

/-- All coefficients of a sum are decimals. -/
theorem exists_finite {p : Polynomial} {terms : List Term} (sum : p.IsSum terms) :
    ∃ ds : List Decimal, p.coefficients = ds.map .finite := by
  have each : ∀ c ∈ p.coefficients, ∃ d : Decimal, c = .finite d := by
    intro c present
    obtain ⟨place, found⟩ := List.mem_iff_getElem?.mp present
    have held := sum.values place
    rw [found] at held
    generalize Expression.valueAt terms place = v at held
    cases held with
    | present d => exact ⟨d, rfl⟩
  exact exists_map_eq each

end Polynomial.IsSum

namespace PolynomialFormat

/-- What is read and noted is what the text stands for. -/
theorem outcome_read (format : PolynomialFormat) (text : String) (journal : Journal) :
    (format.read text).outcome journal =
      format.parse text >>= fun p => p.text >>= fun _ => .ok p := by
  unfold read
  rw [Work.outcome_ofExcept_bind]
  congr 1
  funext p
  rw [Work.outcome_ofExcept_bind]
  rfl

/-- What an expression stands for can be written, so noting it never fails. -/
theorem outcome_read_expression (text : String) (journal : Journal) :
    (expression.read text).outcome journal = Expression.read text := by
  rw [outcome_read]
  change (Expression.read text >>= fun p => p.text >>= fun _ => Except.ok p) = _
  cases read : Expression.read text with
  | error fault => rfl
  | ok p =>
    obtain ⟨e, writes⟩ := WrittenExpression.writes_of_read read
    rw [writes.read_eq_sum] at read
    obtain ⟨ds, finite⟩ := (Expression.isSum_of_sum read).exists_finite
    rw [bind_ok, Polynomial.text_eq finite, bind_ok]

end PolynomialFormat

/-- **Expressions are read as what they mean.** A text is refused exactly if no expression writes
it. One that an expression writes is read as a polynomial, unless it has more characters than the
widest range has digits and a sum leaves that range. The polynomial reaches up to the largest power
mentioned, each coefficient is the exact sum of the coefficients written for its power, and none
is a zero with a sign. -/
theorem read_expression (text : String) (journal : Journal) :
    ((∃ misreading, (PolynomialFormat.expression.read text).outcome journal =
        .error (.refused (.notAnExpression text misreading))) ↔
      ∀ e : WrittenExpression, ¬ e.Writes text) ∧
    (∀ e : WrittenExpression, e.Writes text →
      (∃ p, (PolynomialFormat.expression.read text).outcome journal = .ok p) ∨
      (Range.exact.precision < text.length ∧ ∃ raised,
        (PolynomialFormat.expression.read text).outcome journal = .error (.signal raised))) ∧
    ∀ p, (PolynomialFormat.expression.read text).outcome journal = .ok p →
      (∃ e : WrittenExpression, e.Writes text) ∧
      ∀ e : WrittenExpression, e.Writes text →
        p.coefficients.length = 1 + e.largestPower ∧
        ∀ (power : Nat) (c : Number), p.coefficients[power]? = some c →
          ∃ d : Decimal, c = .finite d ∧ d.value = e.coefficientAt power ∧ d.UnsignedZero := by
  rw [PolynomialFormat.outcome_read_expression]
  refine ⟨⟨?_, fun none => ?_⟩, fun e writes => ?_, fun p read => ?_⟩
  · rintro ⟨misreading, refused⟩ e writes
    rw [writes.read_eq_sum] at refused
    obtain ⟨raised, impossible⟩ := Expression.sum_eq_error refused
    cases impossible
  · cases found : Expression.terms text with
    | ok ts =>
      obtain ⟨e, writes, _⟩ := WrittenExpression.exists_writes found
      exact absurd writes (none e)
    | error misreading =>
      refine ⟨misreading, ?_⟩
      unfold Expression.read
      rw [found]
      rfl
  · by_cases short : text.length ≤ Range.exact.precision
    · exact .inl (writes.exists_read short)
    · cases read : Expression.read text with
      | ok p => exact .inl ⟨p, rfl⟩
      | error fault =>
        rw [writes.read_eq_sum] at read
        obtain ⟨raised, rfl⟩ := Expression.sum_eq_error read
        exact .inr ⟨Nat.lt_of_not_le short, raised, rfl⟩
  · refine ⟨WrittenExpression.writes_of_read read, fun e writes => ?_⟩
    rw [writes.read_eq_sum] at read
    have sum := Expression.isSum_of_sum read
    refine ⟨?_, fun power c place => ?_⟩
    · rw [sum.length, e.largestPower_terms]
    · have held := sum.values power
      rw [place, e.valueAt_terms] at held
      generalize value : e.coefficientAt power = v at held
      cases held with
      | present d => exact ⟨d, rfl, rfl, (sum.collected d (List.mem_of_getElem? place)).unsigned⟩

/-- Terms that cancel are mentioned all the same. -/
theorem read_expression_cancelling :
    ∃ p, (PolynomialFormat.expression.read "x^2-x^2+0.5").outcome (Journal.new false []) = .ok p ∧
      p.coefficients.length = 3 ∧
      ∃ d : Decimal, p.coefficients[0]? = some (.finite d) ∧ d.value = 1 / 2 := by
  have writes : WrittenExpression.Writes ⟨none, .monic (.raised 2),
      [(true, .monic (.raised 2)), (false, .constant ⟨['0'], ['5']⟩)]⟩ "x^2-x^2+0.5" := by
    refine ⟨?_, by decide⟩
    intro term present
    rcases List.mem_cons.mp present with rfl | present
    · exact (by decide : 2 ≤ largestExponent)
    · rcases List.mem_cons.mp present with rfl | present
      · exact (by decide : 2 ≤ largestExponent)
      · rw [List.mem_singleton.mp present]
        exact ⟨.inl rfl, List.forall_mem_singleton.mpr rfl⟩
  obtain ⟨_, succeeds, meaning⟩ := read_expression "x^2-x^2+0.5" (Journal.new false [])
  obtain ⟨p, read⟩ := (succeeds _ writes).resolve_right fun long =>
    absurd long.1 (by decide)
  obtain ⟨length, values⟩ := (meaning p read).2 _ writes
  have three : p.coefficients.length = 3 := length
  have first : p.coefficients[0]? = some p.coefficients[0] := List.getElem?_eq_getElem (by omega)
  obtain ⟨d, shape, value, _⟩ := values 0 _ first
  refine ⟨p, read, three, d, first.trans (congrArg some shape), ?_⟩
  have five : Nat.ofDigitChars 10 ['5'] 0 = 5 := rfl
  have none : Nat.ofDigitChars 10 ['0'] 0 = 0 := rfl
  rw [value]
  change (if false then -(Numeral.value ⟨['0'], ['5']⟩) else Numeral.value ⟨['0'], ['5']⟩) + 0 = _
  norm_num [Numeral.value, five, none]

end ExactQuadrature

import ExactQuadrature.Proofs.Expression.Meaning
import ExactQuadrature.Proofs.SignedNumeral
import Mathlib.Data.List.MinMax

/-! # The digits of what is read

A decimal that is read from a text has no more digits than the text has characters, and is written
in a unit that is not above ten (`Decimal.Sized`). This holds of the bounds that a line gives and of
the coefficients of every polynomial, in both formats (`PolynomialFormat.exists_sized`).
-/

namespace ExactQuadrature

namespace Numeral

/-- A literal has no more digits than characters. -/
theorem sized_of_scanSigned? {cs rest : List Char} {d : Decimal}
    (scanned : scanSigned? cs = some (d, rest)) : d.Sized cs.length cs.length 0 := by
  obtain ⟨n, negative, rfl, formed, counted⟩ := SignedNumeral.exists_numeral_of_scanSigned? scanned
  have within : DigitsWithin n.whole.length n.fraction.length (n.toDecimal negative).value := by
    refine ⟨?_, WholeUnits.of_exponent le_rfl⟩
    have nonneg := n.value_nonneg
    have below := value_lt formed
    rw [value_toDecimal]
    split
    · rwa [abs_neg, abs_of_nonneg nonneg]
    · rwa [abs_of_nonneg nonneg]
  refine ⟨within.mono (by omega) (by omega), ?_⟩
  change -(n.fraction.length : Int) ≤ 0
  omega

/-- What is scanned from a text with no more characters than there are digits lies in the widest
range. -/
theorem contains_of_scanSigned? {cs rest : List Char} {d : Decimal}
    (scanned : scanSigned? cs = some (d, rest)) (short : cs.length ≤ Range.exact.precision) :
    Range.exact.Contains d := by
  obtain ⟨n, negative, rfl, formed, counted⟩ := SignedNumeral.exists_numeral_of_scanSigned? scanned
  have some_digit := List.length_pos_iff.mpr formed.whole.ne_nil
  have digits : digitCount (n.toDecimal negative).coefficient ≤
      n.whole.length + n.fraction.length := by
    rw [digitCount_le_iff (by omega), ← List.length_append]
    apply ofDigitChars_lt
    intro c present
    exact (List.mem_append.mp present).elim (formed.whole.isDigit c) (formed.fraction c)
  have exponent : (n.toDecimal negative).exponent = -(n.fraction.length : Int) := rfl
  have precision : Range.exact.precision = 999999999999999999 := rfl
  have highest : Range.exact.maxExponent = 999999999999999999 := rfl
  have finest : Range.exact.tiny = -1999999999999999997 := rfl
  refine ⟨by omega, ?_⟩
  simp only [Decimal.adjusted]
  split <;> omega

end Numeral

namespace Bounds

theorem sized_of_decimals? {cs : List Char} {lower upper : Decimal}
    (found : decimals? cs = some (lower, upper)) :
    lower.Sized cs.length cs.length 0 ∧ upper.Sized cs.length cs.length 0 := by
  simp only [decimals?, Option.bind_eq_bind, Option.bind_eq_some_iff] at found
  obtain ⟨⟨first, rest⟩, scanned, found⟩ := found
  have start := (List.dropWhile_suffix Text.isBlank (l := cs)).length_le
  have shorter := Numeral.scanSigned?_length scanned
  dsimp only at found
  split at found
  · next more separated =>
    obtain ⟨⟨second, last⟩, alsoScanned, ended⟩ := Option.bind_eq_some_iff.mp found
    dsimp only at ended
    split at ended
    · cases ended
      have after := (List.dropWhile_suffix Text.isBlank (l := rest)).length_le
      have final := (List.dropWhile_suffix Text.isBlank (l := more)).length_le
      rw [separated, List.length_cons] at after
      exact ⟨(Numeral.sized_of_scanSigned? scanned).mono start start le_rfl,
        (Numeral.sized_of_scanSigned? alsoScanned).mono (by omega) (by omega) le_rfl⟩
    · cases ended
  · cases found

/-- Bounds that are read have no more digits than their line has characters. -/
theorem sized_of_read {text : String} {bounds : Bounds} (read : Bounds.read text = .ok bounds) :
    bounds.lower.Sized text.length text.length 0 ∧
      bounds.upper.Sized text.length text.length 0 := by
  simp only [Bounds.read] at read
  split at read
  · cases read
  · next lower upper found =>
    split at read
    · cases read
      rw [← String.length_toList]
      exact sized_of_decimals? found
    · cases read

/-- Whatever is wrong with a bounds line, it is refused. -/
theorem refused_of_read {text : String} {fault : Fault} (read : Bounds.read text = .error fault) :
    ∃ reason, fault = .refused reason := by
  simp only [Bounds.read, Fault.refuse] at read
  split at read
  · exact ⟨_, (Except.error.inj read).symm⟩
  · split at read
    · cases read
    · exact ⟨_, (Except.error.inj read).symm⟩

end Bounds

namespace CoefficientLine

/-- Every decimal of a line is scanned from an end of the line. -/
theorem scanned_of_decimals? (cs : List Char) {ds : List Decimal} (found : decimals? cs = some ds) :
    ds.length ≤ cs.length ∧ ∀ d ∈ ds, ∃ part rest, part.length ≤ cs.length ∧
      Numeral.scanSigned? part = some (d, rest) := by
  fun_induction decimals? cs generalizing ds with
  | case1 cs none => cases found
  | case2 cs d scanned =>
    cases found
    have shorter := Numeral.scanSigned?_length scanned
    refine ⟨?_, List.forall_mem_singleton.mpr ⟨cs, [], le_rfl, scanned⟩⟩
    rw [List.length_singleton]
    omega
  | case3 cs d next rest scanned more separator ih =>
    obtain ⟨others, later, rfl⟩ := Option.map_eq_some_iff.mp found
    obtain ⟨fewer, each⟩ := ih later
    have shorter := Numeral.scanSigned?_length scanned
    have first := (List.dropWhile_suffix Text.isBlank (l := next :: rest)).length_le
    have second := (List.dropWhile_suffix Text.isBlank (l := more)).length_le
    rw [separator, List.length_cons] at first
    refine ⟨?_, List.forall_mem_cons.mpr ⟨⟨cs, _, le_rfl, scanned⟩, fun other present => ?_⟩⟩
    · rw [List.length_cons]
      omega
    · obtain ⟨part, after, within, own⟩ := each other present
      exact ⟨part, after, by omega, own⟩
  | case4 cs d next rest scanned unseparated => cases found

/-- A line that is read holds the decimals of the polynomial. -/
theorem read_eq_ok {text : String} {p : Polynomial} (read : CoefficientLine.read text = .ok p) :
    ∃ ds, decimals? text.toList = some ds ∧ p.coefficients = ds.map .finite := by
  simp only [CoefficientLine.read] at read
  split at read
  · next ds found =>
    cases ds with
    | nil => cases read
    | cons d rest =>
      cases read
      exact ⟨d :: rest, found, rfl⟩
  · cases read

/-- Whatever is wrong with a line of coefficients, it is refused. -/
theorem refused_of_read {text : String} {fault : Fault}
    (read : CoefficientLine.read text = .error fault) : ∃ reason, fault = .refused reason := by
  simp only [CoefficientLine.read, Fault.refuse] at read
  split at read
  · next ds found =>
    cases ds with
    | nil => exact ⟨_, (Except.error.inj read).symm⟩
    | cons d rest => cases read
  · exact ⟨_, (Except.error.inj read).symm⟩

end CoefficientLine

namespace WrittenExpression

/-- No power exceeds the largest exponent. -/
theorem largestPower_le {e : WrittenExpression} (formed : e.WellFormed) :
    Expression.largestPower e.terms ≤ largestExponent := by
  apply List.max_le_of_forall_le
  intro power listed
  obtain ⟨_, present, rfl⟩ := List.mem_map.mp listed
  obtain ⟨⟨negative, term⟩, written, rfl⟩ := List.mem_map.mp present
  have formed := formed _ written
  cases term with
  | constant numeral => exact Nat.zero_le _
  | product numeral starred power => exact formed.2
  | monic power => exact formed

/-- The sum of the terms of a text has coefficients with few digits, and few enough of them. -/
theorem Writes.exists_sized {e : WrittenExpression} {text : String} {p : Polynomial}
    (writes : e.Writes text) (sum : p.IsSum e.terms) :
    p.coefficients.length ≤ largestExponent + 1 ∧
      ∃ ds : List Decimal, p.coefficients = ds.map .finite ∧
          ∀ d ∈ ds, d.Sized text.length text.length 1 := by
  obtain ⟨ds, finite⟩ := sum.exists_finite
  have characters := e.digits_le_chars
  rw [writes.2, String.length_toList] at characters
  refine ⟨?_, ds, finite, fun d present => ?_⟩
  · rw [sum.length, Nat.add_comm]
    exact Nat.succ_le_succ (largestPower_le writes.1)
  · have listed : Number.finite d ∈ p.coefficients := finite ▸ List.mem_map_of_mem present
    obtain ⟨place, there⟩ := List.mem_iff_getElem?.mp listed
    have held := sum.values place
    have digits := digitsWithin_running writes.1 List.prefix_rfl place
    rw [there] at held
    generalize Expression.valueAt e.terms place = v at held digits
    cases held with
    | present d => exact ⟨digits.mono (by omega) (by omega), (sum.collected d listed).unit⟩

end WrittenExpression

namespace PolynomialFormat

/-- **What is read has few digits.** A polynomial that is read from a text has finite coefficients
with no more digits than the text has characters. -/
theorem exists_sized {format : PolynomialFormat} {text : String} {p : Polynomial}
    (parsed : format.parse text = .ok p) :
    p.coefficients.length ≤ max text.length (largestExponent + 1) ∧
      ∃ ds : List Decimal, p.coefficients = ds.map .finite ∧
          ∀ d ∈ ds, d.Sized text.length text.length 1 := by
  cases format with
  | expression =>
    obtain ⟨e, writes⟩ := WrittenExpression.writes_of_read parsed
    have summed := writes.read_eq_sum.symm.trans parsed
    obtain ⟨few, ds, finite, sized⟩ := writes.exists_sized (Expression.isSum_of_sum summed)
    exact ⟨few.trans (le_max_right _ _), ds, finite, sized⟩
  | coefficients =>
    obtain ⟨ds, found, finite⟩ := CoefficientLine.read_eq_ok parsed
    obtain ⟨few, each⟩ := CoefficientLine.scanned_of_decimals? _ found
    rw [String.length_toList] at few each
    refine ⟨?_, ds, finite, fun d present => ?_⟩
    · rw [finite, List.length_map]
      exact few.trans (le_max_left _ _)
    · obtain ⟨part, _, within, scanned⟩ := each d present
      exact (Numeral.sized_of_scanSigned? scanned).mono within within zero_le_one

/-- A text that cannot be read is refused, unless it has more characters than the widest range has
digits. -/
theorem refused_of_parse {format : PolynomialFormat} {text : String} {fault : Fault}
    (failed : format.parse text = .error fault)
    (short : text.length ≤ Range.exact.precision) : ∃ reason, fault = .refused reason := by
  cases format with
  | coefficients => exact CoefficientLine.refused_of_read failed
  | expression =>
    change Expression.read text = .error fault at failed
    cases found : Expression.terms text with
    | error misreading =>
      simp only [Expression.read, found, Fault.refuse] at failed
      exact ⟨_, (Except.error.inj failed).symm⟩
    | ok ts =>
      obtain ⟨e, writes, _⟩ := WrittenExpression.exists_writes found
      obtain ⟨p, read⟩ := writes.exists_read short
      rw [read] at failed
      cases failed

end PolynomialFormat

end ExactQuadrature

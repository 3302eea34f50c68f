import ExactQuadrature.Proofs.Expression.Positions
import ExactQuadrature.Proofs.SignedNumeral
import Mathlib.Data.List.DropRight

/-! # Scans as partitions

The tokens of a text are a partition of it, up to its first character that belongs to no token.
Every numeral among them is the longest that its place allows (`Numeral.length_le_of_scan?`), so a
numeral directly behind another one can only stand behind a zero (`Scan.eq_zero_of_adjacent`), and a
point is taken exactly where it stands behind digits that are not those of a fraction and before
another digit (`Scan.usable_of_lt`, `Scan.not_pointInNumeral_extent`). So the text alone decides
where a scan ends (`Scan.partitions_ofText`).
-/

namespace ExactQuadrature

namespace Numeral

variable {m n : Numeral} {cs rest : List Char}

/-- A numeral with a fraction is written with a point. -/
theorem chars_of_fraction (present : n.fraction ≠ []) : n.chars = n.whole ++ '.' :: n.fraction := by
  unfold chars
  rw [if_neg present]

theorem chars_of_whole (absent : n.fraction = []) : n.chars = n.whole := by
  unfold chars
  rw [if_pos absent, List.append_nil]

/-- No digits without a needless zero that a text starts with are more than those scanned. -/
theorem length_le_of_scanWhole? {whole found : List Char} (leading : LeadingDigits whole)
    (more : List Char) (scanned : scanWhole? (whole ++ more) = some (found, rest)) :
    whole.length ≤ found.length := by
  rcases leading with rfl | ⟨first, others, rfl, nonzero, digits⟩
  · exact List.length_pos_iff.mpr (scanWhole?_append scanned).1
  · obtain ⟨digit, otherDigits⟩ := List.forall_mem_cons.mp digits
    simp only [List.cons_append, scanWhole?, nonzero, digit, ↓reduceIte, Option.some.injEq,
      Prod.mk.injEq] at scanned
    rw [← scanned.1, List.takeWhile_append_of_pos otherDigits]
    simp

/-- **Longest match.** No numeral that a text starts with is longer than the one scanned. -/
theorem length_le_of_scan? (formed : m.WellFormed) (starts : m.chars <+: cs)
    (scanned : scan? cs = some (n, rest)) : m.chars.length ≤ n.chars.length := by
  obtain ⟨more, rfl⟩ := starts
  obtain ⟨⟨whole, after⟩, first, shape⟩ := Option.map_eq_some_iff.mp scanned
  by_cases absent : m.fraction = []
  · cases shape
    rw [chars_of_whole absent] at first ⊢
    have longer := length_le_of_scanWhole? formed.whole more first
    have inside := digits_le_chars ⟨whole, (scanFraction after).1⟩
    dsimp only at inside
    omega
  · -- The point ends the digits before it, so the scan takes just these, and then all digits
    -- behind it.
    rw [chars_of_fraction absent, List.append_assoc, List.cons_append,
      scanWhole?_append_of_leading formed.whole (by rintro c _ ⟨⟩; rfl)] at first
    cases first
    have taken : (m.fraction ++ more).takeWhile Char.isDigit =
        m.fraction ++ more.takeWhile Char.isDigit := List.takeWhile_append_of_pos formed.fraction
    have fraction : n.fraction = m.fraction ++ more.takeWhile Char.isDigit := by
      cases shape
      simp [scanFraction, taken, absent]
    have wholes : n.whole = m.whole := by
      cases shape
      rfl
    rw [chars_of_fraction absent, chars_of_fraction (by simp [fraction, absent]), wholes, fraction]
    simp

variable (formed : n.WellFormed) (scanned : scan? (n.chars ++ rest) = some (n, rest))

include scanned in
/-- What follows a scanned numeral does not go on with what would make it a longer one. -/
theorem not_prefix_of_scan? (longer : m.WellFormed) {more : List Char}
    (chars : m.chars = n.chars ++ more) (present : more ≠ []) : ¬more <+: rest := by
  intro starts
  have within : m.chars <+: n.chars ++ rest := by
    rw [chars, List.prefix_append_right_inj]
    exact starts
  have bound := length_le_of_scan? longer within scanned
  have some_char := List.length_pos_iff.mpr present
  rw [chars, List.length_append] at bound
  omega

include formed scanned in
/-- Behind a numeral that could go on with a digit stands none. -/
theorem endsDigits_of_scan? (open_ended : n.fraction ≠ [] ∨ n.whole ≠ ['0']) : EndsDigits rest := by
  intro c more shape
  by_contra digit
  rw [Bool.not_eq_false] at digit
  have starts : [c] <+: rest := ⟨more, shape.symm⟩
  by_cases absent : n.fraction = []
  · obtain zero | ⟨first, others, whole, nonzero, digits⟩ := formed.whole
    · exact (open_ended.resolve_left (not_not_intro absent)) zero
    · have longer : (⟨n.whole ++ [c], []⟩ : Numeral).WellFormed := by
        refine ⟨.inr ⟨first, others ++ [c], by rw [whole]; rfl, nonzero, ?_⟩, nofun⟩
        exact List.forall_mem_append.mpr ⟨digits, List.forall_mem_singleton.mpr digit⟩
      exact not_prefix_of_scan? scanned longer
        (by rw [chars_of_whole absent, chars_of_whole rfl]) (List.cons_ne_nil c []) starts
  · have longer : (⟨n.whole, n.fraction ++ [c]⟩ : Numeral).WellFormed :=
      ⟨formed.whole,
        List.forall_mem_append.mpr ⟨formed.fraction, List.forall_mem_singleton.mpr digit⟩⟩
    refine not_prefix_of_scan? scanned longer ?_ (List.cons_ne_nil c []) starts
    rw [chars_of_fraction absent, chars_of_fraction (by simp), List.append_assoc, List.cons_append]

include formed scanned in
/-- Behind a numeral without a fraction stands no point with a digit. -/
theorem ne_point_of_scan? (absent : n.fraction = []) {d : Char} (digit : d.isDigit = true)
    (more : List Char) : rest ≠ '.' :: d :: more := by
  intro shape
  have longer : (⟨n.whole, [d]⟩ : Numeral).WellFormed :=
    ⟨formed.whole, List.forall_mem_singleton.mpr digit⟩
  refine not_prefix_of_scan? scanned longer ?_ (List.cons_ne_nil '.' [d]) ⟨more, shape.symm⟩
  rw [chars_of_whole absent, chars_of_fraction (List.cons_ne_nil d [])]

end Numeral

namespace Symbol

/-- The class names of symbols and the characters that fit them. -/
inductive Titled : String → List Char → Prop where
  | number {n : Numeral} (formed : n.WellFormed) : Titled "NUM" n.chars
  | unknown : Titled "VAR" ['x']
  | plus : Titled "OP_PLUS" ['+']
  | minus : Titled "OP_MINUS" ['-']
  | times : Titled "OP_TIMES" ['*']
  | caret : Titled "OP_CARET" ['^']

variable {symbol : Symbol} {cs rest : List Char}

/-- A well-formed symbol fits its class. -/
theorem titled (formed : symbol.WellFormed) : Titled symbol.title symbol.chars := by
  cases symbol with
  | number n => exact .number formed
  | unknown => exact .unknown
  | plus => exact .plus
  | minus => exact .minus
  | times => exact .times
  | caret => exact .caret

/-- Only numbers are of the class of numbers. -/
theorem eq_number_of_title (title : symbol.title = "NUM") : ∃ n, symbol = .number n := by
  cases symbol with
  | number n => exact ⟨n, rfl⟩
  | _ => exact absurd title (by decide)

/-- A number that is scanned is the numeral in front. -/
theorem scan?_number {n : Numeral} (scanned : scan? cs = some (.number n, rest)) :
    Numeral.scan? cs = some (n, rest) := by
  unfold scan? at scanned
  split at scanned
  · next found =>
    cases scanned
    exact found
  · split at scanned
    · cases scanned
    · obtain ⟨_, found, shape⟩ := Option.map_eq_some_iff.mp scanned
      cases shape
      unfold ofChar? at found
      repeat' split at found
      all_goals cases found

/-- The characters of symbols other than numerals. -/
def single : List Char := ['x', '+', '-', '*', '^']

/-- A symbol that is no numeral is a single character. -/
theorem chars_of_not_number (other : ∀ n, symbol ≠ .number n) :
    ∃ c ∈ single, symbol.chars = [c] := by
  cases symbol with
  | number n => exact absurd rfl (other n)
  | unknown => exact ⟨'x', by decide, rfl⟩
  | plus => exact ⟨'+', by decide, rfl⟩
  | minus => exact ⟨'-', by decide, rfl⟩
  | times => exact ⟨'*', by decide, rfl⟩
  | caret => exact ⟨'^', by decide, rfl⟩

/-- A symbol of one character is neither a digit nor a point. -/
theorem not_digit_of_single {c : Char} (member : c ∈ single) : c.isDigit = false ∧ c ≠ '.' := by
  simp only [single, List.mem_cons, List.not_mem_nil, or_false] at member
  rcases member with rfl | rfl | rfl | rfl | rfl <;> decide

/-- A digit begins a symbol, and so does every character that is a symbol of its own. -/
theorem scan?_ne_none {c : Char} (begins : c.isDigit = true ∨ c ∈ single) (more : List Char) :
    scan? (c :: more) ≠ none := by
  intro none
  unfold scan? at none
  split at none
  · cases none
  · next unscanned =>
    rw [Option.map_eq_none_iff] at none
    rcases begins with digit | member
    · rw [Numeral.scan?, Option.map_eq_none_iff, Numeral.scanWhole?] at unscanned
      split at unscanned
      · cases unscanned
      · cases unscanned
    · simp only [single, List.mem_cons, List.not_mem_nil, or_false] at member
      rcases member with rfl | rfl | rfl | rfl | rfl <;> cases none

/-- A character of a symbol is a digit, or a symbol of its own, or the point of a numeral with
a digit behind it. -/
theorem char_cases (formed : symbol.WellFormed) {i : Nat} {c : Char}
    (there : symbol.chars[i]? = some c) :
    c.isDigit = true ∨ c ∈ single ∨ ∃ n d, symbol = .number n ∧ i = n.whole.length ∧ c = '.' ∧
      symbol.chars[i + 1]? = some d ∧ d.isDigit = true := by
  by_cases number : ∃ n, symbol = .number n
  · obtain ⟨n, rfl⟩ := number
    change n.chars[i]? = some c at there
    by_cases absent : n.fraction = []
    · rw [Numeral.chars_of_whole absent] at there
      exact .inl (formed.whole.isDigit c (List.mem_of_getElem? there))
    · obtain ⟨d, others, fraction⟩ := List.exists_cons_of_ne_nil absent
      have digits := formed.fraction
      rw [Numeral.chars_of_fraction absent] at there
      rcases Nat.lt_trichotomy i n.whole.length with before | at_point | behind
      · rw [List.getElem?_append_left before] at there
        exact .inl (formed.whole.isDigit c (List.mem_of_getElem? there))
      · subst at_point
        rw [List.getElem?_append_right le_rfl, Nat.sub_self] at there
        cases there
        refine .inr (.inr ⟨n, d, rfl, rfl, rfl, ?_, digits d (by simp [fraction])⟩)
        change n.chars[n.whole.length + 1]? = some d
        rw [Numeral.chars_of_fraction absent, List.getElem?_append_right (by omega), fraction]
        simp
      · rw [List.getElem?_append_right behind.le, List.getElem?_cons, if_neg (by omega)] at there
        exact .inl (digits c (List.mem_of_getElem? there))
  · obtain ⟨other, member, chars⟩ := chars_of_not_number (not_exists.mp number)
    rw [chars] at there
    obtain rfl := List.mem_singleton.mp (List.mem_of_getElem? there)
    exact .inr (.inl member)

end Symbol

/-- The characters of tokens. -/
def Token.spelled (tokens : List Token) : List Char :=
  (tokens.map Token.symbol).flatMap Symbol.chars

/-- Tokens extend over the characters they spell. -/
theorem Token.extent_eq_length (tokens : List Token) :
    extent tokens = (spelled tokens).length := rfl

theorem Token.spelled_append (before after : List Token) :
    spelled (before ++ after) = spelled before ++ spelled after := by
  unfold spelled
  rw [List.map_append, List.flatMap_append]

theorem Token.spelled_cons (token : Token) (rest : List Token) :
    spelled (token :: rest) = token.symbol.chars ++ spelled rest := rfl

/-- The texts of tokens make up what they spell. -/
theorem Token.toList_join (tokens : List Token) :
    (String.join (tokens.map Token.text)).toList = spelled tokens := by
  unfold spelled text
  rw [String.toList_join, List.flatMap_map, List.flatMap_map]
  simp

/-- The extent is the sum of the lengths of the texts. -/
theorem Token.extent_eq_sum (tokens : List Token) :
    extent tokens = (tokens.map fun token => token.text.length).sum := by
  induction tokens with
  | nil => rfl
  | cons token rest ih =>
    rw [extent_cons, List.map_cons, List.sum_cons, ih]
    simp [text]

/-- A place among the characters of tokens is one among those of one of them. -/
theorem Token.exists_split_of_lt {tokens : List Token} {k : Nat} (inside : k < extent tokens) :
    ∃ before token after i, tokens = before ++ token :: after ∧ k = extent before + i ∧
      i < token.symbol.chars.length := by
  induction tokens generalizing k with
  | nil => cases inside
  | cons token rest ih =>
    by_cases own : k < token.symbol.chars.length
    · exact ⟨[], token, rest, k, rfl, (Nat.zero_add k).symm, own⟩
    · rw [extent_cons] at inside
      obtain ⟨before, found, after, i, rfl, place, there⟩ :=
        ih (k := k - token.symbol.chars.length) (by omega)
      refine ⟨token :: before, found, after, i, rfl, ?_, there⟩
      rw [extent_cons]
      omega

/-- A position with a digit, with a symbol of its own, or with a point that is accepted. -/
def Usable (point : Nat → Prop) (cs : List Char) (k : Nat) : Prop :=
  ∃ c, cs[k]? = some c ∧ (c.isDigit = true ∨ c ∈ Symbol.single ∨ c = '.' ∧ point k)

/-- The first position that is not usable, and the character there. -/
structure FirstUnusable (point : Nat → Prop) (cs : List Char) (c : Char) (k : Nat) : Prop where
  there : cs[k]? = some c
  unusable : ¬Usable point cs k
  earlier : ∀ j < k, Usable point cs j

/-- There is one first character that no token can use. -/
theorem FirstUnusable.unique {point : Nat → Prop} {cs : List Char} {c d : Char} {j k : Nat}
    (first : FirstUnusable point cs c j) (also : FirstUnusable point cs d k) : c = d ∧ j = k := by
  obtain before | rfl | behind := Nat.lt_trichotomy j k
  · exact absurd (also.earlier j before) first.unusable
  · exact ⟨Option.some.inj (first.there.symm.trans also.there), rfl⟩
  · exact absurd (first.earlier k behind) also.unusable

/-- A position directly behind digits, which do not themselves stand directly behind a point, and
directly before a digit. -/
structure PointInNumeral (cs : List Char) (k : Nat) : Prop where
  behind : ∃ d, (cs.take k).getLast? = some d ∧ d.isDigit = true
  noFraction : ((cs.take k).rdropWhile Char.isDigit).getLast? ≠ some '.'
  before : ∃ d, cs[k + 1]? = some d ∧ d.isDigit = true

namespace Scan

variable {position place : Nat} {cs rest : List Char} {before after : List Token} {token : Token}
  {n : Numeral}

/-- **What follows a token.** Behind the tokens before one, that one is scanned, and then those
after it. -/
theorem exists_rest_of_split
    (split : (fromPosition position cs).tokens = before ++ token :: after) :
    ∃ rest next, cs = Token.spelled before ++ (token.symbol.chars ++ rest) ∧
      Symbol.scan? (token.symbol.chars ++ rest) = some (token.symbol, rest) ∧
      (fromPosition next rest).tokens = after := by
  induction before generalizing position cs with
  | nil =>
    obtain ⟨rest, scanned, _, later⟩ := scan?_of_tokens split
    have whole := Symbol.scan?_append scanned
    exact ⟨rest, _, whole.symm, whole ▸ scanned, later⟩
  | cons earlier before ih =>
    obtain ⟨more, scanned, _, later⟩ := scan?_of_tokens split
    obtain ⟨rest, next, rfl, behind⟩ := ih later
    refine ⟨rest, next, ?_, behind⟩
    rw [Token.spelled_cons, List.append_assoc]
    exact (Symbol.scan?_append scanned).symm

/-- The numeral of a token is scanned behind the tokens before it. -/
theorem exists_rest_of_number
    (split : (fromPosition position cs).tokens = before ++ ⟨.number n, place⟩ :: after) :
    ∃ rest, cs = Token.spelled before ++ (n.chars ++ rest) ∧
      Numeral.scan? (n.chars ++ rest) = some (n, rest) := by
  obtain ⟨rest, _, whole, scanned, _⟩ := exists_rest_of_split split
  exact ⟨rest, whole, Symbol.scan?_number scanned⟩

/-- **Only a zero stands directly before a numeral.** -/
theorem eq_zero_of_adjacent {m : Numeral} {next : Nat}
    (split : (fromPosition position cs).tokens =
      before ++ ⟨.number n, place⟩ :: ⟨.number m, next⟩ :: after) : n.chars = ['0'] := by
  obtain ⟨rest, _, _, scanned, later⟩ := exists_rest_of_split split
  obtain ⟨more, shape, alsoScanned⟩ := exists_rest_of_number (later.trans (List.nil_append _).symm)
  have scanned : Numeral.scan? (n.chars ++ rest) = some (n, rest) := Symbol.scan?_number scanned
  have formed := Numeral.wellFormed_of_scan? scanned
  obtain ⟨first, others, begins, digit⟩ := (Numeral.wellFormed_of_scan? alsoScanned).exists_digit
  have follows : rest = first :: (others ++ more) := by
    rw [shape, begins]
    rfl
  by_contra different
  have open_ended : n.fraction ≠ [] ∨ n.whole ≠ ['0'] := by
    by_contra closed
    obtain ⟨absent, zero⟩ := not_or.mp closed
    exact different ((Numeral.chars_of_whole (not_not.mp absent)).trans (not_not.mp zero))
  rw [Numeral.endsDigits_of_scan? formed scanned open_ended _ _ follows] at digit
  cases digit

/-- **No point stands before the digits before a numeral.** -/
theorem not_point_before_number
    (split : (fromPosition position cs).tokens = before ++ ⟨.number n, place⟩ :: after) :
    ((Token.spelled before).rdropWhile Char.isDigit).getLast? ≠ some '.' := by
  induction before using List.reverseRecOn generalizing n place after with
  | nil => exact nofun
  | append_singleton before token ih =>
    rw [List.append_assoc] at split
    obtain ⟨symbol, stands⟩ := token
    by_cases number : ∃ m, symbol = .number m
    · obtain ⟨m, rfl⟩ := number
      have zero : Token.spelled [⟨.number m, stands⟩] = ['0'] :=
        (List.append_nil _).trans (eq_zero_of_adjacent split)
      rw [Token.spelled_append, zero, List.rdropWhile_concat_pos _ _ _ rfl]
      exact ih split
    · obtain ⟨c, member, chars⟩ := Symbol.chars_of_not_number (not_exists.mp number)
      have alone : Token.spelled [⟨symbol, stands⟩] = [c] := (List.append_nil _).trans chars
      obtain ⟨noDigit, noPoint⟩ := Symbol.not_digit_of_single member
      rw [Token.spelled_append, alone, List.rdropWhile_concat_neg _ _ _ (by simp [noDigit]),
        List.getLast?_concat]
      exact fun same => noPoint (Option.some.inj same)

/-- Digits at the end are dropped together with those before them. -/
theorem rdropWhile_digits {digits : List Char} (all : ∀ c ∈ digits, c.isDigit = true)
    (cs : List Char) :
    (cs ++ digits).rdropWhile Char.isDigit = cs.rdropWhile Char.isDigit := by
  rw [List.rdropWhile, List.reverse_append, List.dropWhile_append_of_pos]
  · rfl
  · exact fun c member => all c (List.mem_reverse.mp member)

/-- The point of a scanned numeral stands in a numeral. -/
theorem pointInNumeral_of_number
    (split : (fromPosition position cs).tokens = before ++ ⟨.number n, place⟩ :: after) {d : Char}
    (next : cs[Token.extent before + n.whole.length + 1]? = some d) (digit : d.isDigit = true) :
    PointInNumeral cs (Token.extent before + n.whole.length) := by
  obtain ⟨rest, rfl, scanned⟩ := exists_rest_of_number split
  have leading := (Numeral.wellFormed_of_scan? scanned).whole
  obtain ⟨digits, last, whole⟩ := (List.eq_nil_or_concat' n.whole).resolve_left leading.ne_nil
  have upTo : (Token.spelled before ++ (n.chars ++ rest)).take
      (Token.extent before + n.whole.length) = Token.spelled before ++ n.whole := by
    rw [Numeral.chars, List.append_assoc, ← List.append_assoc]
    exact List.take_left' List.length_append
  refine ⟨⟨last, ?_, leading.isDigit last (by simp [whole])⟩, ?_, d, next, digit⟩
  · rw [upTo, whole, ← List.append_assoc, List.getLast?_concat]
  · rw [upTo, rdropWhile_digits leading.isDigit]
    exact not_point_before_number split

/-- **What is scanned is usable**, if the points of scanned numerals are accepted. -/
theorem usable_of_lt {point : Nat → Prop}
    (accepted : ∀ before n place after,
      (fromPosition position cs).tokens = before ++ ⟨.number n, place⟩ :: after →
      ∀ d, cs[Token.extent before + n.whole.length + 1]? = some d → d.isDigit = true →
        point (Token.extent before + n.whole.length))
    {k : Nat} (scanned : k < Token.extent (fromPosition position cs).tokens) :
    Usable point cs k := by
  obtain ⟨before, ⟨symbol, place⟩, after, i, split, rfl, inside⟩ := Token.exists_split_of_lt scanned
  have member : ⟨symbol, place⟩ ∈ (fromPosition position cs).tokens := by
    rw [split]
    exact List.mem_append_right _ List.mem_cons_self
  have formed : symbol.WellFormed := wellFormed_of_mem member
  obtain ⟨rest, _, whole, _⟩ := exists_rest_of_split split
  have within : ∀ j c, symbol.chars[j]? = some c → cs[Token.extent before + j]? = some c := by
    intro j c there
    obtain ⟨short, _⟩ := List.getElem?_eq_some_iff.mp there
    rw [whole, Token.extent_eq_length, List.getElem?_append_right (Nat.le_add_right _ _),
      Nat.add_sub_cancel_left, List.getElem?_append_left short]
    exact there
  have there : symbol.chars[i]? = some symbol.chars[i] := List.getElem?_eq_getElem inside
  refine ⟨symbol.chars[i], within i _ there, ?_⟩
  obtain digit | member | ⟨n, d, rfl, rfl, is_point, next, digit⟩ := Symbol.char_cases formed there
  · exact .inl digit
  · exact .inr (.inl member)
  · exact .inr (.inr ⟨is_point, accepted before n place after split d (within _ d next) digit⟩)

variable {left : List Char} {tokens : List Token} (covers : Token.spelled tokens ++ left = cs)

include covers in
/-- The characters that the tokens extend over are those they spell. -/
theorem take_extent : cs.take (Token.extent tokens) = Token.spelled tokens := by
  rw [← covers]
  exact List.take_left

include covers in
/-- Behind them stands what is left. -/
theorem getElem?_extent_add (i : Nat) : cs[Token.extent tokens + i]? = left[i]? := by
  rw [← covers, Token.extent_eq_length, List.getElem?_append_right (Nat.le_add_right _ _),
    Nat.add_sub_cancel_left]

include covers in
/-- What is left begins with a point and the character behind it. -/
theorem exists_left_of_point (point : left.head? = some '.') {d : Char}
    (next : cs[Token.extent tokens + 1]? = some d) : ∃ more, left = '.' :: d :: more := by
  obtain ⟨behind, rfl⟩ := List.head?_eq_some_iff.mp point
  rw [getElem?_extent_add covers, List.getElem?_cons_succ, ← List.head?_eq_getElem?] at next
  obtain ⟨more, rfl⟩ := List.head?_eq_some_iff.mp next
  exact ⟨more, rfl⟩

variable (scanned : (fromPosition position cs).tokens = tokens)

include covers scanned in
/-- **A scan does not end inside a numeral.** If the last token is a numeral without a fraction,
what is left does not begin with a point and a digit. -/
theorem left_ne_point (last : tokens = before ++ [⟨.number n, place⟩]) (absent : n.fraction = [])
    {d : Char} (digit : d.isDigit = true) (more : List Char) : left ≠ '.' :: d :: more := by
  obtain ⟨rest, whole, scan⟩ := exists_rest_of_number (scanned.trans last)
  have follows : rest = left := by
    rw [last, Token.spelled_append, List.append_assoc] at covers
    have same := List.append_cancel_left (covers.trans whole)
    exact (List.append_cancel_left ((List.append_assoc n.chars [] left).symm.trans same)).symm
  rw [← follows]
  exact Numeral.ne_point_of_scan? (Numeral.wellFormed_of_scan? scan) scan absent digit more

include covers scanned in
/-- A point that is left stands in no numeral. -/
theorem not_pointInNumeral_extent (point : left.head? = some '.') :
    ¬PointInNumeral cs (Token.extent tokens) := by
  rintro ⟨⟨d, last, digit⟩, noFraction, e, next, nextDigit⟩
  rw [take_extent covers] at last noFraction
  obtain rfl | ⟨before, ⟨symbol, place⟩, split⟩ := List.eq_nil_or_concat' tokens
  · cases last
  have spelled : Token.spelled tokens = Token.spelled before ++ symbol.chars := by
    rw [split, Token.spelled_append]
    exact congrArg (Token.spelled before ++ ·) (List.append_nil symbol.chars)
  by_cases number : ∃ n, symbol = .number n
  · obtain ⟨n, rfl⟩ := number
    by_cases absent : n.fraction = []
    · obtain ⟨more, shape⟩ := exists_left_of_point covers point next
      exact left_ne_point covers scanned split absent nextDigit more shape
    · -- The digits behind which the point stands are a fraction.
      obtain ⟨_, _, scan⟩ := exists_rest_of_number (scanned.trans split)
      have digits := (Numeral.wellFormed_of_scan? scan).fraction
      refine noFraction ?_
      change Token.spelled tokens = Token.spelled before ++ n.chars at spelled
      rw [spelled, Numeral.chars_of_fraction absent, List.append_cons, ← List.append_assoc,
        ← List.append_assoc, rdropWhile_digits digits, List.rdropWhile_concat_neg _ _ _ (by decide),
        List.getLast?_concat]
  · obtain ⟨c, member, chars⟩ := Symbol.chars_of_not_number (not_exists.mp number)
    rw [spelled, chars, List.getLast?_concat] at last
    rw [← Option.some.inj last, (Symbol.not_digit_of_single member).1] at digit
    cases digit

include scanned in
/-- Tokens that end with the digits before the point of a numeral end with this numeral, and it has
no fraction. -/
theorem last_of_extent (split : tokens = before ++ ⟨.number n, place⟩ :: after)
    (ends : Token.extent tokens = Token.extent before + n.whole.length) :
    after = [] ∧ n.fraction = [] := by
  have total :
      Token.extent tokens = Token.extent before + (n.chars.length + Token.extent after) := by
    rw [split, Token.extent_append, Token.extent_cons]
    rfl
  have inside := n.digits_le_chars
  refine ⟨?_, List.length_eq_zero_iff.mp (by omega)⟩
  cases after with
  | nil => rfl
  | cons other more =>
    have member : other ∈ (fromPosition position cs).tokens := by
      rw [scanned, split]
      exact List.mem_append_right _ (List.mem_cons_of_mem _ List.mem_cons_self)
    have positive := Symbol.chars_pos (wellFormed_of_mem member)
    rw [Token.extent_cons] at total
    omega

include covers scanned in
/-- A point that is left does not stand behind the digits before the point of a scanned numeral. -/
theorem no_digit_behind_extent (point : left.head? = some '.')
    (split : tokens = before ++ ⟨.number n, place⟩ :: after)
    (ends : Token.extent tokens = Token.extent before + n.whole.length) {d : Char}
    (next : cs[Token.extent tokens + 1]? = some d) : d.isDigit = false := by
  obtain ⟨rfl, absent⟩ := last_of_extent scanned split ends
  by_contra digit
  rw [Bool.not_eq_false] at digit
  obtain ⟨more, shape⟩ := exists_left_of_point covers point next
  exact left_ne_point covers scanned split absent digit more shape

/-- **Where a scan ends.** If the points accepted are those of the scanned numerals, the fault of a
scan is its first character that is not usable. -/
theorem fault_eq_some_iff {point : Nat → Prop}
    (usable : ∀ k < Token.extent (fromPosition 0 cs).tokens, Usable point cs k)
    (refused : ∀ left, Token.spelled (fromPosition 0 cs).tokens ++ left = cs →
        left.head? = some '.' →
      ¬point (Token.extent (fromPosition 0 cs).tokens)) (misreading : Misreading) :
    (fromPosition 0 cs).fault = some misreading ↔
      ∃ c k, misreading = .illegalCharacter c k ∧ FirstUnusable point cs c k := by
  obtain ⟨left, covers, _, stops, fault⟩ := fromPosition_covers 0 cs
  rw [fault, Nat.zero_add]
  cases left with
  | nil =>
    refine ⟨nofun, ?_⟩
    rintro ⟨c, k, _, first⟩
    obtain ⟨inside, _⟩ := List.getElem?_eq_some_iff.mp first.there
    have all := congrArg List.length covers
    rw [List.append_nil] at all
    exact absurd (usable k (inside.trans_eq all.symm)) first.unusable
  | cons c more =>
    have first : FirstUnusable point cs c (Token.extent (fromPosition 0 cs).tokens) := by
      have there := getElem?_extent_add covers 0
      refine ⟨there, ?_, usable⟩
      rintro ⟨d, alsoThere, kinds⟩
      obtain rfl := Option.some.inj (there.symm.trans alsoThere)
      rcases kinds with digit | member | ⟨rfl, accepted⟩
      · exact Symbol.scan?_ne_none (.inl digit) more stops
      · exact Symbol.scan?_ne_none (.inr member) more stops
      · exact refused _ covers rfl accepted
    constructor
    · intro same
      cases same
      exact ⟨c, _, rfl, first⟩
    · rintro ⟨d, k, rfl, also⟩
      obtain ⟨rfl, rfl⟩ := first.unique also
      rfl

/-- A position behind the digits before the point of a scanned numeral, and before a digit. -/
structure PointInNumber (scan : Scan) (cs : List Char) (k : Nat) : Prop where
  behind : ∃ n place, ⟨.number n, place⟩ ∈ scan.tokens ∧ k = place + n.whole.length
  before : ∃ d, cs[k + 1]? = some d ∧ d.isDigit = true

/-- A scan that is a partition of a text into tokens, with numerals as long as they can be, up to
the first character that belongs to no token. -/
structure Partitions (scan : Scan) (text : String) : Prop where
  /-- Without a fault the tokens make up the text. -/
  whole : scan.fault = none → String.join (scan.tokens.map Token.text) = text
  /-- With a fault they make up what precedes it. -/
  part : ∀ c k, scan.fault = some (.illegalCharacter c k) →
    String.join (scan.tokens.map Token.text) = String.ofList (text.toList.take k)
  /-- Every token stands where those before it end. -/
  stands : ∀ before token after, scan.tokens = before ++ token :: after →
    token.position = (before.map fun earlier => earlier.text.length).sum
  /-- The class of every token fits its text. -/
  titled : ∀ token ∈ scan.tokens, Symbol.Titled token.symbol.title token.text.toList
  /-- No numeral at the position of a numeral is longer. -/
  longest : ∀ token ∈ scan.tokens, token.symbol.title = "NUM" → ∀ n : Numeral, n.WellFormed →
    n.chars <+: text.toList.drop token.position → n.chars.length ≤ token.text.length
  /-- Only a zero stands directly before a numeral. -/
  adjacent : ∀ before first second after, scan.tokens = before ++ first :: second :: after →
    first.symbol.title = "NUM" → second.symbol.title = "NUM" → first.text = "0"
  /-- The fault is the first character that is not usable, with points in numerals. -/
  fault_iff : ∀ misreading, scan.fault = some misreading ↔ ∃ c k,
    misreading = .illegalCharacter c k ∧ FirstUnusable (PointInNumeral text.toList) text.toList c k
  /-- The same holds with the points of the numerals that are scanned. -/
  fault_iff_scanned : ∀ misreading, scan.fault = some misreading ↔ ∃ c k,
    misreading = .illegalCharacter c k ∧
      FirstUnusable (scan.PointInNumber text.toList) text.toList c k

/-- The tokens make up the text, or what precedes the fault. -/
theorem join_ofText (text : String) :
    ((ofText text).fault = none → String.join ((ofText text).tokens.map Token.text) = text) ∧
      ∀ c k, (ofText text).fault = some (.illegalCharacter c k) →
        String.join ((ofText text).tokens.map Token.text) = String.ofList (text.toList.take k) := by
  obtain ⟨left, covers, _, _, fault⟩ := fromPosition_covers 0 text.toList
  change Token.spelled (ofText text).tokens ++ left = text.toList at covers
  change (ofText text).fault = left.head?.map fun c =>
    .illegalCharacter c (0 + Token.extent (ofText text).tokens) at fault
  rw [fault]
  constructor
  · intro faultless
    rw [Option.map_eq_none_iff, List.head?_eq_none_iff] at faultless
    rw [faultless, List.append_nil] at covers
    rw [← String.toList_inj, Token.toList_join, covers]
  · intro c k found
    obtain ⟨_, _, same⟩ := Option.map_eq_some_iff.mp found
    cases same
    rw [← String.toList_inj, Token.toList_join, String.toList_ofList, Nat.zero_add,
      take_extent covers]

/-- **Scans are partitions.** The tokens of a text make it up, or the part of it before the fault.
They stand one behind the other and have the classes of their texts. Numerals are as long as the
text allows, so of two adjacent ones the first is a zero. The fault is the first character that is
neither a digit, nor a symbol of its own, nor a point between the digits before the point of a
numeral and another digit. -/
theorem partitions_ofText (text : String) : (ofText text).Partitions text := by
  obtain ⟨whole, part⟩ := join_ofText text
  have stands : ∀ {before token after}, (ofText text).tokens = before ++ token :: after →
      token.position = Token.extent before :=
    fun split => (position_of_split split).trans (Nat.zero_add _)
  refine ⟨whole, part, fun before token after split => ?_, fun token member => ?_,
    fun token member title n formed starts => ?_,
    fun before first second after split firstTitle secondTitle => ?_, fun misreading => ?_,
    fun misreading => ?_⟩
  · rw [stands split, Token.extent_eq_sum]
  · rw [Token.text, String.toList_ofList]
    exact Symbol.titled (wellFormed_of_mem member)
  · obtain ⟨before, after, split⟩ := List.append_of_mem member
    obtain ⟨symbol, place⟩ := token
    obtain ⟨m, rfl⟩ := Symbol.eq_number_of_title title
    obtain ⟨rest, shape, scanned⟩ := exists_rest_of_number split
    have behind : text.toList.drop place = m.chars ++ rest := by
      rw [shape, show place = (Token.spelled before).length from stands split, List.drop_left]
    rw [behind] at starts
    rw [Token.text, String.length_ofList]
    exact Numeral.length_le_of_scan? formed starts scanned
  · obtain ⟨firstSymbol, _⟩ := first
    obtain ⟨secondSymbol, _⟩ := second
    obtain ⟨n, rfl⟩ := Symbol.eq_number_of_title firstTitle
    obtain ⟨m, rfl⟩ := Symbol.eq_number_of_title secondTitle
    exact congrArg String.ofList (eq_zero_of_adjacent split)
  · refine fault_eq_some_iff (fun k scanned => ?_) (fun left covers point => ?_) misreading
    · exact usable_of_lt
        (fun _ _ _ _ split _ next digit => pointInNumeral_of_number split next digit)
        scanned
    · exact not_pointInNumeral_extent covers rfl point
  · refine fault_eq_some_iff (fun k scanned => ?_) (fun left covers point => ?_) misreading
    · refine usable_of_lt
        (fun before n place after split d next digit => ⟨⟨n, place, ?_, ?_⟩, d, next, digit⟩)
        scanned
      · exact split ▸ List.mem_append_right _ List.mem_cons_self
      · rw [← stands split]
    · rintro ⟨⟨n, place, member, ends⟩, d, next, digit⟩
      obtain ⟨before, after, split⟩ := List.append_of_mem member
      rw [show place = Token.extent before from stands split] at ends
      rw [no_digit_behind_extent covers rfl point split ends next] at digit
      cases digit

/-- A zero stands before a numeral, and the text behind that begins with a point that goes on
none. -/
theorem partitions_ofText_zero :
    ∃ zero numeral, (ofText "01.5.2").tokens = [zero, numeral] ∧ zero.symbol.title = "NUM" ∧
      numeral.symbol.title = "NUM" ∧ zero.text = "0" ∧ numeral.position = 1 ∧
      (∀ n : Numeral, n.WellFormed → n.chars <+: ['1', '.', '5', '.', '2'] → n.chars.length ≤ 3) ∧
      (ofText "01.5.2").fault = some (.illegalCharacter '.' 4) ∧
      FirstUnusable (PointInNumeral "01.5.2".toList) "01.5.2".toList '.' 4 := by
  have tokens : (ofText "01.5.2").tokens =
      [⟨.number ⟨['0'], []⟩, 0⟩, ⟨.number ⟨['1'], ['5']⟩, 1⟩] := by decide +kernel
  have fault : (ofText "01.5.2").fault = some (.illegalCharacter '.' 4) := by
    decide +kernel
  have partition := partitions_ofText "01.5.2"
  have longest := partition.longest ⟨.number ⟨['1'], ['5']⟩, 1⟩ (by simp [tokens]) rfl
  obtain ⟨_, _, same, first⟩ := (partition.fault_iff _).mp fault
  cases same
  exact ⟨_, _, tokens, rfl, rfl, partition.adjacent [] _ _ [] tokens rfl rfl,
    partition.stands [_] _ [] tokens, longest, fault, first⟩

end Scan

end ExactQuadrature

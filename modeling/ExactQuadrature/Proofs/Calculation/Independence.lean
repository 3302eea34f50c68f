import ExactQuadrature.Proofs.Quadrature.Sizes

/-! # Lines are read first and answered one by one

A calculation that cannot read one of its lines yields nothing but the fault of the first such
line. Otherwise the step width alone decides: without one, the bounds line is all that is yielded
before the fault; with one, every polynomial line is answered, by a function of the bounds and of
that line (`Calculation.run_independent`). This holds as long as the widest range has the digits
that an input demands, which it has for all lines of up to two hundred million characters
(`Calculation.demand_le`).
-/

namespace ExactQuadrature

namespace Calculation

/-- The fault of the first line of an input that cannot be read. -/
def firstFault? (format : PolynomialFormat) : List String → Option Fault
  | [] => some (.refused .emptyInput)
  | first :: rest => (fault? (Bounds.read first)).or (rest.findSome? (fault? ∘ format.parse))

/-- An input cannot be read because of the first of its lines that cannot. -/
theorem inputOf_eq_error {format : PolynomialFormat} {lines : List String} {fault : Fault} :
    inputOf format lines = .error fault ↔ firstFault? format lines = some fault := by
  cases lines with
  | nil => exact ⟨fun same => congrArg some (Except.error.inj same),
      fun same => congrArg Except.error (Option.some.inj same)⟩
  | cons first rest =>
    simp only [inputOf, firstFault?]
    cases Bounds.read first with
    | error raised => exact ⟨fun same => congrArg some (Except.error.inj same),
        fun same => congrArg Except.error (Option.some.inj same)⟩
    | ok bounds =>
      change (rest.mapM format.parse >>= fun polynomials => .ok (bounds, polynomials)) =
        .error fault ↔ rest.findSome? (fault? ∘ format.parse) = some fault
      rw [bind_eq_error, ← mapM_eq_error]
      refine or_iff_left ?_
      rintro ⟨_, _, impossible⟩
      cases impossible

/-- A line that cannot be read is refused, unless it has more characters than there are digits. -/
theorem refused_of_firstFault {format : PolynomialFormat} {lines : List String} {fault : Fault}
    (unreadable : firstFault? format lines = some fault) :
    (∃ reason, fault = .refused reason) ∨ ∃ line ∈ lines, Range.exact.precision < line.length := by
  cases lines with
  | nil => exact .inl ⟨_, (Option.some.inj unreadable).symm⟩
  | cons first rest =>
    rcases Option.or_eq_some_iff.mp unreadable with start | ⟨_, later⟩
    · cases read : Bounds.read first with
      | ok bounds =>
        rw [read] at start
        cases start
      | error raised =>
        rw [read] at start
        cases start
        exact .inl (Bounds.refused_of_read read)
    · obtain ⟨line, present, failed⟩ := List.exists_of_findSome?_eq_some later
      by_cases short : line.length ≤ Range.exact.precision
      · cases parsed : format.parse line with
        | ok p =>
          rw [Function.comp_apply, parsed] at failed
          cases failed
        | error raised =>
          rw [Function.comp_apply, parsed] at failed
          cases failed
          exact .inl (PolynomialFormat.refused_of_parse parsed short)
      · exact .inr ⟨line, List.mem_cons_of_mem _ present, by omega⟩

/-- The degree of the polynomial that a line gives, if it gives one. -/
def degreeOf (format : PolynomialFormat) (line : String) : Nat :=
  match format.parse line with
  | .ok p => p.degree
  | .error _ => 0

/-- Digits that suffice for all integrations of an input. -/
def demand (format : PolynomialFormat) (lines : List String) : Nat :=
  Polynomial.demand ((lines.map String.length).foldr max 0)
    (((lines.drop 1).map (degreeOf format)).foldr max 0)

/-- No line is longer than the longest one. -/
theorem length_le_longest {lines : List String} {line : String} (present : line ∈ lines) :
    line.length ≤ (lines.map String.length).foldr max 0 :=
  List.le_max_of_le (List.mem_map_of_mem present) le_rfl

/-- What one polynomial demands is no more than what the whole input does. -/
theorem demand_of_mem {format : PolynomialFormat} {first line : String} {rest : List String}
    {p : Polynomial} (present : line ∈ rest) (parsed : format.parse line = .ok p) :
    Polynomial.demand (((first :: rest).map String.length).foldr max 0) p.degree ≤
      demand format (first :: rest) := by
  have own : degreeOf format line = p.degree := by simp only [degreeOf, parsed]
  have bounded : p.degree ≤ ((rest.map (degreeOf format)).foldr max 0) :=
    List.le_max_of_le (List.mem_map_of_mem present) own.ge
  simp only [demand, Polynomial.demand, List.drop_one, List.tail_cons]
  gcongr

/-- Lines of up to two hundred million characters demand no more digits than there are. -/
theorem demand_le (format : PolynomialFormat) {lines : List String}
    (short : ∀ line ∈ lines, line.length ≤ 200000000) :
    demand format lines ≤ Range.exact.precision := by
  have longest : (lines.map String.length).foldr max 0 ≤ 200000000 := by
    apply List.max_le_of_forall_le
    intro length listed
    obtain ⟨line, present, rfl⟩ := List.mem_map.mp listed
    exact short line present
  have steepest : ((lines.drop 1).map (degreeOf format)).foldr max 0 ≤ 2147483647 := by
    apply List.max_le_of_forall_le
    intro degree listed
    obtain ⟨line, present, rfl⟩ := List.mem_map.mp listed
    have characters := short line (List.mem_of_mem_drop present)
    simp only [degreeOf]
    split
    · next p parsed =>
      have count := (PolynomialFormat.exists_sized parsed).1
      have largest : largestExponent = 2147483647 := rfl
      simp only [Polynomial.degree]
      omega
    · exact Nat.zero_le _
  have product := Nat.mul_le_mul (Nat.mul_le_mul_left 2 (Nat.add_le_add_right steepest 2))
    (Nat.add_le_add_right longest 2000000)
  exact product.trans (by decide)

/-- Without a step width nothing is answered. -/
theorem answer_of_stepWidth {stepping : Stepping} {bounds : Bounds} {fault : Fault}
    (failed : Grid.stepWidth stepping (.finite bounds.lower) (.finite bounds.upper) = .error fault)
    (p : Polynomial) : answer stepping bounds p = .error fault := by
  simp only [answer, Polynomial.total, Grid.make, failed, bind_error]

/-- With a step width every polynomial is answered, unless the scale is too coarse. -/
theorem answer_found {stepping : Stepping} {bounds : Bounds} {width : Number} {length : Nat}
    {p : Polynomial}
    (found : Grid.stepWidth stepping (.finite bounds.lower) (.finite bounds.upper) = .ok width)
    (lower : bounds.lower.Sized length length 0) (upper : bounds.upper.Sized length length 0)
    (sized : p.Sized length) (few : Polynomial.demand length p.degree ≤ Range.exact.precision) :
    ∃ scale, stepping.places = .ok scale ∧ ((∃ text, answer stepping bounds p = .ok text) ∨
      scale < -2 ∧ answer stepping bounds p = .error .precisionOutOfRange) := by
  obtain ⟨scale, places, first⟩ := Polynomial.total_found .rectangles found lower upper sized few
  obtain ⟨_, alsoPlaces, second⟩ := Polynomial.total_found .trapezoids found lower upper sized few
  cases places.symm.trans alsoPlaces
  refine ⟨scale, places, ?_⟩
  simp only [answer]
  obtain ⟨rectangles, shape, _⟩ | ⟨coarse, refused⟩ := first
  · obtain ⟨trapezoids, alsoShape, _⟩ | ⟨coarse, refused⟩ := second
    · simp only [shape, alsoShape, bind_ok]
      exact .inl ⟨_, rfl⟩
    · simp only [shape, refused, bind_ok, bind_error]
      exact .inr ⟨coarse, trivial⟩
  · simp only [refused, bind_error]
    exact .inr ⟨coarse, trivial⟩

/-- What is replied to a line with a polynomial. -/
def reply (format : PolynomialFormat) (stepping : Stepping) (bounds : Bounds) (line : String) :
    Except Fault String := do
  let p ← format.parse line
  answer stepping bounds p

/-- The text of a reply. -/
def replyText (format : PolynomialFormat) (stepping : Stepping) (bounds : Bounds) (line : String) :
    String :=
  match reply format stepping bounds line with
  | .ok text => text
  | .error _ => ""

/-- An input without a fault consists of a bounds line and lines with polynomials. -/
theorem exists_input {format : PolynomialFormat} {first : String} {rest : List String}
    (readable : firstFault? format (first :: rest) = none) :
    ∃ (bounds : Bounds) (ps : List Polynomial), Bounds.read first = .ok bounds ∧
      rest.map format.parse = ps.map .ok ∧ inputOf format (first :: rest) = .ok (bounds, ps) := by
  cases given : inputOf format (first :: rest) with
  | error fault =>
    rw [inputOf_eq_error, readable] at given
    cases given
  | ok input =>
    obtain ⟨_, _, shape, start, polynomials⟩ := inputOf_eq_ok given
    cases shape
    exact ⟨input.1, input.2, start, mapM_eq_ok.mp polynomials, rfl⟩

/-- An input that is read yields its bounds and the replies to its lines, up to the first fault. -/
theorem yieldOf_eq {stepping : Stepping} {format : PolynomialFormat} {first : String}
    {rest : List String} {bounds : Bounds} {ps : List Polynomial}
    (given : inputOf format (first :: rest) = .ok (bounds, ps))
    (polynomials : rest.map format.parse = ps.map .ok) :
    yieldOf stepping format (first :: rest) =
      ⟨boundsLine bounds :: (Yield.ofAnswers (rest.map (reply format stepping bounds))).lines,
        (Yield.ofAnswers (rest.map (reply format stepping bounds))).fault⟩ := by
  have replies : rest.map (reply format stepping bounds) = ps.map (answer stepping bounds) := by
    have composed : reply format stepping bounds =
        (fun parsed => parsed >>= answer stepping bounds) ∘ format.parse := rfl
    rw [composed, ← List.map_map, polynomials, List.map_map]
    rfl
  simp only [yieldOf, given, replies]

/-- The polynomials of an input are those of its lines. -/
theorem exists_parse {format : PolynomialFormat} {rest : List String} {ps : List Polynomial}
    (polynomials : rest.map format.parse = ps.map .ok) {line : String} (present : line ∈ rest) :
    ∃ p, format.parse line = .ok p := by
  have listed : format.parse line ∈ ps.map .ok := polynomials ▸ List.mem_map_of_mem present
  obtain ⟨p, _, same⟩ := List.mem_map.mp listed
  exact ⟨p, same.symm⟩

/-- With a step width every line is replied to, unless the scale is too coarse. -/
theorem reply_found {stepping : Stepping} {format : PolynomialFormat} {first line : String}
    {rest : List String} {bounds : Bounds} {width : Number} {p : Polynomial}
    (start : Bounds.read first = .ok bounds) (present : line ∈ rest)
    (parsed : format.parse line = .ok p)
    (few : demand format (first :: rest) ≤ Range.exact.precision)
    (found : Grid.stepWidth stepping (.finite bounds.lower) (.finite bounds.upper) = .ok width) :
    ∃ scale, stepping.places = .ok scale ∧
      (reply format stepping bounds line = .ok (replyText format stepping bounds line) ∨
        scale < -2 ∧ reply format stepping bounds line = .error .precisionOutOfRange) := by
  have firstLength : first.length ≤ ((first :: rest).map String.length).foldr max 0 :=
    length_le_longest List.mem_cons_self
  have lineLength := length_le_longest (List.mem_cons_of_mem first present)
  obtain ⟨lower, upper⟩ := Bounds.sized_of_read start
  obtain ⟨_, ds, finite, each⟩ := PolynomialFormat.exists_sized parsed
  obtain ⟨scale, places, outcome⟩ := answer_found found (lower.mono firstLength firstLength le_rfl)
    (upper.mono firstLength firstLength le_rfl)
    ⟨ds, finite, fun d known => (each d known).mono lineLength lineLength le_rfl⟩
    ((demand_of_mem present parsed).trans few)
  refine ⟨scale, places, ?_⟩
  simp only [replyText, reply, parsed, bind_ok]
  rcases outcome with ⟨text, found⟩ | ⟨coarse, refused⟩
  · exact .inl (by rw [found])
  · exact .inr ⟨coarse, refused⟩

/-- Without a step width no line is replied to. -/
theorem ofAnswers_of_stepWidth {stepping : Stepping} {format : PolynomialFormat} {bounds : Bounds}
    {rest : List String} {fault : Fault}
    (readable : ∀ line ∈ rest, ∃ p, format.parse line = .ok p)
    (failed : Grid.stepWidth stepping (.finite bounds.lower) (.finite bounds.upper) =
        .error fault) :
    Yield.ofAnswers (rest.map (reply format stepping bounds)) =
      ⟨[], if rest = [] then none else some fault⟩ := by
  cases rest with
  | nil => rfl
  | cons line rest =>
    obtain ⟨p, parsed⟩ := readable line List.mem_cons_self
    have unanswered : reply format stepping bounds line = .error fault := by
      simp only [reply, parsed, bind_ok, answer_of_stepWidth failed]
    simp only [List.map_cons, unanswered, Yield.ofAnswers, List.cons_ne_nil, ↓reduceIte]

/-- The bounds of an input have a step width if their scale has an ordinary unit, or they are
refused one. -/
theorem stepWidth_of_read {format : PolynomialFormat} {first : String} {rest : List String}
    {bounds : Bounds} {scale : Int} (count : Int) (start : Bounds.read first = .ok bounds)
    (few : demand format (first :: rest) ≤ Range.exact.precision)
    (handled : Grid.HandledScale first.length scale) :
    (∃ width, Grid.stepWidth (.ofWhole count scale) (.finite bounds.lower) (.finite bounds.upper) =
        .ok width) ∨
      (∃ reason, Grid.stepWidth (.ofWhole count scale) (.finite bounds.lower)
        (.finite bounds.upper) = .error (.refused reason)) ∨
      scale < -2 ∧ Grid.stepWidth (.ofWhole count scale) (.finite bounds.lower)
        (.finite bounds.upper) = .error .precisionOutOfRange := by
  have firstLength : first.length ≤ ((first :: rest).map String.length).foldr max 0 :=
    length_le_longest List.mem_cons_self
  obtain ⟨lower, upper⟩ := Bounds.sized_of_read start
  apply Grid.stepWidth_cases ((Decimal.lessThan_iff_value _ _).mp bounds.increasing) lower upper
    handled
  have least : 2 * 2 * (2000000 + first.length) ≤ demand format (first :: rest) := by
    rw [Nat.add_comm]
    simp only [demand, Polynomial.demand]
    gcongr
    omega
  omega

/-- **Lines are independent.** The fault of the first line that cannot be read is all that an input
with such a line yields. From any other input, if its bounds have a step width, the lines after the
first are answered one by one, by a function of the bounds and the line alone; and if they are
refused one, that ends the calculation after the bounds line. -/
theorem run_independent (format : PolynomialFormat) (count scale : Int) (low : -2 ≤ scale)
    (high : scale ≤ 2000054) :
    (∀ (lines : List String) (fault : Fault) (journal : Journal),
      firstFault? format lines = some fault →
        ((run (.ofWhole count scale) format lines).run journal).1 = ⟨[], some fault⟩ ∧
          ((∃ reason, fault = .refused reason) ∨
            ∃ line ∈ lines, Range.exact.precision < line.length)) ∧
    ∃ answer : Bounds → String → String,
      ∀ (first : String) (rest : List String) (bounds : Bounds) (journal : Journal),
        firstFault? format (first :: rest) = none → Bounds.read first = .ok bounds →
        demand format (first :: rest) ≤ Range.exact.precision →
          (∃ width, Grid.stepWidth (.ofWhole count scale) (.finite bounds.lower)
              (.finite bounds.upper) = .ok width ∧
            ((run (.ofWhole count scale) format (first :: rest)).run journal).1 =
              ⟨boundsLine bounds :: rest.map (answer bounds), none⟩) ∨
          ∃ reason, Grid.stepWidth (.ofWhole count scale) (.finite bounds.lower)
              (.finite bounds.upper) = .error (.refused reason) ∧
            ((run (.ofWhole count scale) format (first :: rest)).run journal).1 =
              ⟨[boundsLine bounds], if rest = [] then none else some (.refused reason)⟩ := by
  constructor
  · intro lines fault journal unreadable
    refine ⟨?_, refused_of_firstFault unreadable⟩
    rw [(run_yields _ format lines journal).1]
    simp only [yieldOf, inputOf_eq_error.mpr unreadable]
  · refine ⟨replyText format (.ofWhole count scale), ?_⟩
    intro first rest bounds journal readable start few
    obtain ⟨_, ps, alsoStart, polynomials, given⟩ := exists_input readable
    cases start.symm.trans alsoStart
    rw [(run_yields _ format (first :: rest) journal).1, yieldOf_eq given polynomials]
    rcases stepWidth_of_read count start few (.inl ⟨by omega, high⟩) with
      ⟨width, found⟩ | ⟨reason, refused⟩ | ⟨coarse, _⟩
    · have each : rest.map (reply format (.ofWhole count scale) bounds) =
          (rest.map (replyText format (.ofWhole count scale) bounds)).map .ok := by
        rw [List.map_map]
        refine List.map_congr_left fun line present => ?_
        obtain ⟨p, parsed⟩ := exists_parse polynomials present
        obtain ⟨_, same, replied | ⟨coarse, _⟩⟩ := reply_found start present parsed few found
        · exact replied
        · cases same
          omega
      rw [each, Yield.ofAnswers_ok]
      exact .inl ⟨width, found, rfl⟩
    · rw [ofAnswers_of_stepWidth (fun line present => exists_parse polynomials present) refused]
      exact .inr ⟨reason, refused, rfl⟩
    · omega

/-- The line that gives the unit interval. -/
theorem read_unit : Bounds.read "0,1" = .ok ⟨.zero, .one, rfl⟩ := by decide +kernel

/-- The line that repeats it. -/
theorem boundsLine_unit : boundsLine ⟨.zero, .one, rfl⟩ = "bounds: 0, 1" := by decide +kernel

/-- Two polynomials the other way round, and one of them twice. -/
theorem run_independent_reordered :
    ∃ one two : String,
      ((run (.ofWhole 4 3) .coefficients ["0,1", "1", "0,2"]).run (Journal.new false [])).1 =
        ⟨["bounds: 0, 1", one, two], none⟩ ∧
      ((run (.ofWhole 4 3) .coefficients ["0,1", "0,2", "1", "1"]).run (Journal.new false [])).1 =
        ⟨["bounds: 0, 1", two, one, one], none⟩ := by
  obtain ⟨_, answer, answered⟩ := run_independent .coefficients 4 3 (by decide) (by decide)
  have found : Grid.stepWidth (.ofWhole 4 3) (.finite .zero) (.finite .one) =
      .ok (.finite ⟨false, 250, -3⟩) := by decide +kernel
  have each : ∀ rest : List String, firstFault? .coefficients ("0,1" :: rest) = none →
      demand .coefficients ("0,1" :: rest) ≤ Range.exact.precision →
        ((run (.ofWhole 4 3) .coefficients ("0,1" :: rest)).run (Journal.new false [])).1 =
          ⟨"bounds: 0, 1" :: rest.map (answer ⟨.zero, .one, rfl⟩), none⟩ := by
    intro rest readable few
    rw [← boundsLine_unit]
    obtain ⟨_, _, all⟩ | ⟨_, refused, _⟩ :=
      answered "0,1" rest _ (Journal.new false []) readable read_unit few
    · exact all
    · rw [found] at refused
      cases refused
  exact ⟨_, _, each _ (by decide +kernel) (demand_le .coefficients (by decide)),
    each _ (by decide +kernel) (demand_le .coefficients (by decide))⟩

end Calculation

end ExactQuadrature

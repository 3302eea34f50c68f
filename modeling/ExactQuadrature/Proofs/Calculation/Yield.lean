import ExactQuadrature.Calculation
import ExactQuadrature.Proofs.Journal.Outcome
import ExactQuadrature.Proofs.Polynomial.ReadDigits
import ExactQuadrature.Proofs.Polynomial.Rendering
import ExactQuadrature.Proofs.Quadrature.ExactSums

/-! # What a calculation yields

The journal of a calculation has no influence on what it yields. The integral of a polynomial is a
sum over the points of a grid (`Polynomial.total`), the answer to a polynomial consists of two
integrals (`Calculation.answer`), and a calculation yields the bounds line and then the answers up
to the first fault (`Calculation.run_yields`), in every journal and with its open tasks left as they
are.
-/

namespace ExactQuadrature

namespace Polynomial

/-- The area that a rule finds for a polynomial over the step from a point. -/
def area (p : Polynomial) (rule : Rule) (scale : Int) (grid : Grid) (x : Decimal) :
    Except Fault Number :=
  match rule with
  | .rectangles => do
    let height ← p.evaluate (.finite x)
    Rule.rectangleArea (.finite grid.width) height
  | .trapezoids => do
    let left ← p.evaluate (.finite x)
    let right ← p.evaluate (.finite (x.add grid.width))
    Rule.trapezoidArea scale (.finite grid.width) left right

/-- The sum of the areas that a rule finds for a polynomial over some steps, added to a total. -/
def totalFrom (p : Polynomial) (rule : Rule) (scale : Int) (grid : Grid) (total : Number)
    (points : List Decimal) : Except Fault Number :=
  points.foldlM (fun total x => do
    let area ← p.area rule scale grid x
    Fault.ofSignal (total.add area)) total

/-- The integral of a polynomial by a rule over an interval. -/
def total (p : Polynomial) (rule : Rule) (stepping : Stepping) (bounds : Bounds) :
    Except Fault Number := do
  let grid ← Grid.make stepping (.finite bounds.lower) (.finite bounds.upper)
  let scale ← stepping.places
  p.totalFrom rule scale grid .zero grid.points

/-- The area over a step of a polynomial is found without any state. -/
theorem run_areaAt (p : Polynomial) (rule : Rule) (scale : Int) (grid : Grid) (x : Decimal) :
    (rule.areaAt scale p.integrand grid x).run () = (p.area rule scale grid x).map (·, ()) := by
  have valued : ∀ y, (p.integrand y).run () = (p.evaluate (.finite y)).map (·, ()) := by
    intro y
    change (p.evaluate (.finite y) >>= fun value => pure (value, ())) = _
    cases p.evaluate (.finite y) <;> rfl
  cases rule with
  | rectangles =>
    simp only [Rule.areaAt, area, StateT.run_bind, valued]
    cases p.evaluate (.finite x) with
    | error fault => rfl
    | ok height =>
      change (Rule.rectangleArea (.finite grid.width) height >>= fun value => pure (value, ())) =
        (Rule.rectangleArea (.finite grid.width) height).map (·, ())
      cases Rule.rectangleArea (.finite grid.width) height <;> rfl
  | trapezoids =>
    simp only [Rule.areaAt, area, StateT.run_bind, valued]
    cases p.evaluate (.finite x) with
    | error fault => rfl
    | ok left =>
      cases p.evaluate (.finite (x.add grid.width)) with
      | error fault => rfl
      | ok right =>
        change (Rule.trapezoidArea scale (.finite grid.width) left right >>=
            fun value => pure (value, ())) =
          (Rule.trapezoidArea scale (.finite grid.width) left right).map (·, ())
        cases Rule.trapezoidArea scale (.finite grid.width) left right <;> rfl

/-- The sum over the steps of a grid is the total from zero, found without any state. -/
theorem run_sum (p : Polynomial) (rule : Rule) (scale : Int) (grid : Grid) :
    (rule.sum scale p.integrand grid).run () =
      (p.totalFrom rule scale grid .zero grid.points).map (·, ()) := by
  simp only [Rule.sum, totalFrom]
  generalize Number.zero = total
  induction grid.points generalizing total with
  | nil => rfl
  | cons x rest ih =>
    simp only [List.foldlM_cons, StateT.run_bind, run_areaAt]
    cases p.area rule scale grid x with
    | error fault => rfl
    | ok area =>
      rw [bind_ok]
      change (Fault.ofSignal (total.add area) >>= fun value => pure (value, ())) >>= _ = _
      cases Fault.ofSignal (total.add area) with
      | error fault => rfl
      | ok next => exact ih next

/-- The integral of a polynomial by a rule between two offered bounds. -/
def integral (p : Polynomial) (rule : Rule) (stepping : Stepping) (lower upper : Operand) :
    Except Fault Number := do
  let lower ← lower.toNumber "lower bound"
  let upper ← upper.toNumber "upper bound"
  let grid ← Grid.make stepping lower upper
  let scale ← stepping.places
  p.totalFrom rule scale grid .zero grid.points

/-- The integral of a polynomial is the total of the sum that its integration comes to. -/
theorem yields_integral (p : Polynomial) (rule : Rule) (stepping : Stepping)
    (lower upper : Operand) :
    (p.integrate rule stepping lower upper).Yields (p.integral rule stepping lower upper) := by
  have both := (yields_integration rule stepping p.integrand () lower upper).bind fun result =>
    Work.yields_pure result.1
  refine ⟨fun journal => (both.outcome journal).trans ?_, both.balanced⟩
  unfold integral integration
  cases lower.toNumber "lower bound" with
  | error fault => rfl
  | ok l =>
    cases upper.toNumber "upper bound" with
    | error fault => rfl
    | ok u =>
      simp only [bind_ok]
      cases Grid.make stepping l u with
      | error fault => rfl
      | ok grid =>
        cases stepping.places with
        | error fault => rfl
        | ok scale =>
          rw [bind_ok, bind_ok, bind_ok, bind_ok, run_sum]
          cases p.totalFrom rule scale grid .zero grid.points <;> rfl

/-- Integrating between two bounds yields the total, whatever the journal holds. -/
theorem yields_integrate (p : Polynomial) (rule : Rule) (stepping : Stepping) (bounds : Bounds) :
    (p.integrate rule stepping (.number (.finite bounds.lower))
      (.number (.finite bounds.upper))).Yields (p.total rule stepping bounds) :=
  p.yields_integral rule stepping _ _

end Polynomial

namespace PolynomialFormat

/-- Noting what was read from a line never fails. -/
theorem yields_read (format : PolynomialFormat) (text : String) :
    (format.read text).Yields (format.parse text) := by
  refine ⟨fun journal => ?_, ?_⟩
  · rw [outcome_read]
    cases parsed : format.parse text with
    | error fault => rfl
    | ok p =>
      obtain ⟨_, ds, finite, _⟩ := exists_sized parsed
      rw [bind_ok, Polynomial.text_eq finite, bind_ok]
  · exact (Work.balanced_ofExcept _).bind fun p => (Work.balanced_ofExcept _).bind fun written =>
      (Work.balanced_event _).bind fun _ => (Work.yields_pure p).balanced

end PolynomialFormat

namespace Calculation

/-- The line with the integrals of a polynomial by both rules. -/
def resultText (rectangles trapezoids : Number) : String :=
  "integrated using rectangles: " ++ rectangles.scientific ++
    ", integrated using trapezoids: " ++ trapezoids.scientific

/-- The answer to a polynomial. -/
def answer (stepping : Stepping) (bounds : Bounds) (p : Polynomial) : Except Fault String := do
  let rectangles ← p.total .rectangles stepping bounds
  let trapezoids ← p.total .trapezoids stepping bounds
  return resultText rectangles trapezoids

/-- Writing a result line yields the answer, whatever the journal holds. -/
theorem yields_resultLine (stepping : Stepping) (bounds : Bounds) {p : Polynomial}
    {ds : List Decimal} (finite : p.coefficients = ds.map .finite) :
    (resultLine stepping bounds p).Yields (answer stepping bounds p) := by
  have both := (p.yields_integrate .rectangles stepping bounds).bind fun rectangles =>
    (p.yields_integrate .trapezoids stepping bounds).bind fun trapezoids =>
      Work.yields_pure (resultText rectangles trapezoids)
  simp only [resultLine, Polynomial.text_eq finite]
  exact (Work.yields_ofExcept (.ok _)).bind fun written => both.within "integrating" rfl

/-- The bounds and the polynomials that an input stands for. -/
def inputOf (format : PolynomialFormat) : List String → Except Fault (Bounds × List Polynomial)
  | [] => Fault.refuse .emptyInput
  | first :: rest => do
    let bounds ← Bounds.read first
    let polynomials ← rest.mapM format.parse
    return (bounds, polynomials)

/-- Reading an input yields its bounds and polynomials, whatever the journal holds. -/
theorem yields_readInput (format : PolynomialFormat) (lines : List String) :
    (readInput format lines).Yields (inputOf format lines) := by
  cases lines with
  | nil => exact Work.yields_throw _
  | cons first rest =>
    exact (Work.yields_ofExcept _).bind fun bounds =>
      ((Work.yields_mapM format.yields_read rest).within "parsing" rfl).bind fun polynomials =>
        Work.yields_pure (bounds, polynomials)

/-- The answers before the first fault, and that fault. -/
def Yield.ofAnswers : List (Except Fault String) → Yield
  | [] => ⟨[], none⟩
  | .error fault :: _ => ⟨[], some fault⟩
  | .ok line :: rest => ⟨line :: (ofAnswers rest).lines, (ofAnswers rest).fault⟩

/-- Without a fault there is an answer for everything. -/
theorem Yield.ofAnswers_ok (lines : List String) :
    Yield.ofAnswers (lines.map .ok) = ⟨lines, none⟩ := by
  induction lines with
  | nil => rfl
  | cons line rest ih => simp only [List.map_cons, ofAnswers, ih]

/-- The lines after the first are found in the journal that this one leaves. -/
theorem run_resultLines_cons (stepping : Stepping) (bounds : Bounds) (p : Polynomial)
    (rest : List Polynomial) (journal : Journal) :
    (resultLines stepping bounds (p :: rest)).run journal =
      match (resultLine stepping bounds p).doneIn journal with
      | (.error fault, after) => (⟨[], some fault⟩, after)
      | (.ok text, after) =>
        (⟨text :: ((resultLines stepping bounds rest).run after).1.lines,
          ((resultLines stepping bounds rest).run after).1.fault⟩,
          ((resultLines stepping bounds rest).run after).2) := by
  simp only [resultLines, StateT.run_bind, Work.doneIn]
  rcases (resultLine stepping bounds p).run.run journal with ⟨fault | text, after⟩ <;> rfl

/-- The results are found in the journal that reading the input leaves. -/
theorem run_eq (stepping : Stepping) (format : PolynomialFormat) (lines : List String)
    (journal : Journal) :
    (run stepping format lines).run journal =
      match (readInput format lines).doneIn journal with
      | (.error fault, after) => (⟨[], some fault⟩, after)
      | (.ok (bounds, ps), after) =>
        (⟨boundsLine bounds :: ((resultLines stepping bounds ps).run after).1.lines,
          ((resultLines stepping bounds ps).run after).1.fault⟩,
          ((resultLines stepping bounds ps).run after).2) := by
  simp only [run, StateT.run_bind, Work.doneIn]
  rcases (readInput format lines).run.run journal with ⟨fault | ⟨bounds, ps⟩, after⟩ <;> rfl

/-- Result lines are the answers to the polynomials up to the first fault, and they leave no task
open. -/
theorem resultLines_yields (stepping : Stepping) (bounds : Bounds) {ps : List Polynomial}
    (finite : ∀ p ∈ ps, ∃ ds : List Decimal, p.coefficients = ds.map .finite) (journal : Journal) :
    ((resultLines stepping bounds ps).run journal).1 =
        .ofAnswers (ps.map (answer stepping bounds)) ∧
      ((resultLines stepping bounds ps).run journal).2.openTasks = journal.openTasks := by
  induction ps generalizing journal with
  | nil => exact ⟨rfl, rfl⟩
  | cons p rest ih =>
    obtain ⟨⟨ds, shape⟩, others⟩ := List.forall_mem_cons.mp finite
    have line := yields_resultLine stepping bounds shape
    have outcome := line.outcome journal
    have balance := line.balanced journal
    rw [run_resultLines_cons, List.map_cons]
    simp only [Work.outcome] at outcome
    rcases shape : (resultLine stepping bounds p).doneIn journal with ⟨fault | text, after⟩
    · simp only [shape] at outcome balance
      rw [← outcome]
      exact ⟨rfl, balance⟩
    · simp only [shape] at outcome balance
      obtain ⟨later, stays⟩ := ih others after
      rw [← outcome]
      simp only [Yield.ofAnswers, later]
      exact ⟨trivial, stays.trans balance⟩

/-- What an input yields. -/
def yieldOf (stepping : Stepping) (format : PolynomialFormat) (lines : List String) : Yield :=
  match inputOf format lines with
  | .error fault => ⟨[], some fault⟩
  | .ok (bounds, ps) =>
    let results := Yield.ofAnswers (ps.map (answer stepping bounds))
    ⟨boundsLine bounds :: results.lines, results.fault⟩

/-- Polynomials of an input are read line by line. -/
theorem inputOf_eq_ok {format : PolynomialFormat} {lines : List String} {bounds : Bounds}
    {ps : List Polynomial} (given : inputOf format lines = .ok (bounds, ps)) :
    ∃ first rest, lines = first :: rest ∧ Bounds.read first = .ok bounds ∧
      rest.mapM format.parse = .ok ps := by
  cases lines with
  | nil => cases given
  | cons first rest =>
    obtain ⟨_, start, given⟩ := bind_eq_ok.mp given
    obtain ⟨_, polynomials, given⟩ := bind_eq_ok.mp given
    cases given
    exact ⟨first, rest, rfl, start, polynomials⟩

/-- **The journal has no influence.** A calculation yields the same in every journal, and leaves
the open tasks as they are. -/
theorem run_yields (stepping : Stepping) (format : PolynomialFormat) (lines : List String)
    (journal : Journal) :
    ((run stepping format lines).run journal).1 = yieldOf stepping format lines ∧
      ((run stepping format lines).run journal).2.openTasks = journal.openTasks := by
  have input := yields_readInput format lines
  have outcome := input.outcome journal
  have balance := input.balanced journal
  rw [run_eq]
  simp only [Work.outcome] at outcome
  rcases shape : (readInput format lines).doneIn journal with ⟨fault | ⟨bounds, ps⟩, after⟩
  · simp only [shape] at outcome balance
    simp only [yieldOf, ← outcome]
    exact ⟨trivial, balance⟩
  · simp only [shape] at outcome balance
    obtain ⟨first, rest, _, _, polynomials⟩ := inputOf_eq_ok outcome.symm
    obtain ⟨later, stays⟩ := resultLines_yields stepping bounds
      (fun p present => by
        obtain ⟨line, _, parsed⟩ := exists_of_mapM polynomials present
        obtain ⟨_, ds, finite, _⟩ := PolynomialFormat.exists_sized parsed
        exact ⟨ds, finite⟩) after
    simp only [yieldOf, ← outcome]
    rw [later]
    exact ⟨rfl, stays.trans balance⟩

end Calculation

end ExactQuadrature

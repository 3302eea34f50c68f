import ExactQuadrature.Journal.Profile
import ExactQuadrature.Journal.Script
import ExactQuadrature.Proofs.Calculation.Yield
import ExactQuadrature.Proofs.Journal.Tasks

/-! # Verbosity has no influence on work

Two journals are alike when their clocks, open tasks and timings are the same; they may be verbose
or not and show different lines. A relation between journals that events, beginnings and ends of
tasks keep (`Journal.Kept`) is kept by all work that is made of them, and the work has the same
outcome in journals that are related (`Work.Related`). That journals are alike is such a relation,
and that one of them shows no more than certain lines is another (`Journal.kept_silent`). Scripts
may switch verbosity on and off anywhere, and do the same without these steps
(`JournalStep.related_silenced`).
-/

namespace ExactQuadrature

namespace Journal

/-- The same clock, open tasks and timings. -/
structure Alike (a b : Journal) : Prop where
  clock : a.clock = b.clock
  openTasks : a.openTasks = b.openTasks
  timings : a.timings = b.timings

variable {a b : Journal}

theorem Alike.refl (journal : Journal) : journal.Alike journal := ⟨rfl, rfl, rfl⟩

theorem Alike.symm (alike : a.Alike b) : b.Alike a :=
  ⟨alike.clock.symm, alike.openTasks.symm, alike.timings.symm⟩

theorem Alike.trans {c : Journal} (first : a.Alike b) (second : b.Alike c) : a.Alike c :=
  ⟨first.clock.trans second.clock, first.openTasks.trans second.openTasks,
    first.timings.trans second.timings⟩

/-- Noting lines changes nothing but what is shown. -/
theorem Alike.log (alike : a.Alike b) (line other : String) : (a.log line).Alike (b.log other) where
  clock := by rw [clock_log, clock_log, alike.clock]
  openTasks := by rw [Work.openTasks_log, Work.openTasks_log, alike.openTasks]
  timings := by rw [timings_log, timings_log, alike.timings]

/-- A task begins alike in both journals. -/
theorem Alike.begun (alike : a.Alike b) (name : String) : (a.begun name).Alike (b.begun name) where
  clock := congrArg Clock.advance alike.clock
  openTasks := by rw [Journal.begun, Journal.begun, alike.clock, alike.openTasks]
  timings := alike.timings

/-- A task ends alike in both journals, with the same duration. -/
theorem Alike.ended (alike : a.Alike b) (task : OpenTask) (outer : List OpenTask) :
    (a.ended task outer).Alike (b.ended task outer) where
  clock := congrArg Clock.advance alike.clock
  openTasks := rfl
  timings := by
    rw [Journal.ended, Journal.ended, Journal.elapsed, Journal.elapsed, Journal.path, Journal.path,
      alike.clock, alike.openTasks, alike.timings]

theorem Alike.slowestFirst (alike : a.Alike b) : a.slowestFirst = b.slowestFirst := by
  rw [Journal.slowestFirst, Journal.slowestFirst, alike.timings]

theorem Alike.profileText (alike : a.Alike b) : a.profileText = b.profileText := by
  unfold Journal.profileText
  rw [alike.clock, alike.slowestFirst]

/-- What has to hold of a relation between journals for all work to keep it. -/
structure Kept (related : Journal → Journal → Prop) : Prop where
  alike : ∀ {a b}, related a b → a.Alike b
  event : ∀ {a b} description, related a b → related (a.event description) (b.event description)
  beginTask : ∀ {a b} name details, related a b →
    related (a.beginTask name details) (b.beginTask name details)
  endTask : ∀ {a b}, related a b → Option.Rel related a.endTask b.endTask
  profile : ∀ {a b}, related a b → related a.profile.2 b.profile.2

/-- All work keeps journals alike. -/
theorem kept_alike : Kept Alike where
  alike := id
  event description alike := alike.log _ _
  beginTask name details alike := (alike.begun name).log _ _
  endTask {a b} alike := by
    cases opened : a.openTasks with
    | nil =>
      rw [endTask_nil opened, endTask_nil (alike.openTasks ▸ opened)]
      exact .none
    | cons task outer =>
      rw [endTask_cons opened, endTask_cons (alike.openTasks ▸ opened)]
      exact .some ((alike.ended task outer).log _ _)
  profile alike := ⟨congrArg Clock.advance alike.clock, alike.openTasks, alike.timings⟩

/-- Alike, and the second journal is not verbose and shows certain lines. -/
structure Silent (shown : Array String) (a b : Journal) : Prop where
  alike : a.Alike b
  quiet : b.verbose = false
  lines : b.lines = shown

/-- Nothing is noted in a journal that is not verbose. -/
theorem Silent.log {shown : Array String} (silent : Silent shown a b) (line other : String) :
    Silent shown (a.log line) (b.log other) where
  alike := silent.alike.log line other
  quiet := (verbose_log b other).trans silent.quiet
  lines := by rw [log_of_quiet silent.quiet, silent.lines]

/-- All work keeps the second journal silent and its lines as they are. -/
theorem kept_silent (shown : Array String) : Kept (Silent shown) where
  alike := Silent.alike
  event description silent := silent.log _ _
  beginTask name details silent :=
    Silent.log ⟨silent.alike.begun name, silent.quiet, silent.lines⟩ _ _
  endTask {a b} silent := by
    cases opened : a.openTasks with
    | nil =>
      rw [endTask_nil opened, endTask_nil (silent.alike.openTasks ▸ opened)]
      exact .none
    | cons task outer =>
      rw [endTask_cons opened, endTask_cons (silent.alike.openTasks ▸ opened)]
      exact .some (Silent.log ⟨silent.alike.ended task outer, silent.quiet, silent.lines⟩ _ _)
  profile silent := ⟨kept_alike.profile silent.alike, silent.quiet, silent.lines⟩

end Journal

namespace Work

open Journal (Kept)

variable {α β : Type} {related : Journal → Journal → Prop}

/-- In journals that are related, the same outcome and related journals afterwards. -/
def Related (related : Journal → Journal → Prop) (first second : Work α) : Prop :=
  ∀ a b, related a b →
    first.outcome a = second.outcome b ∧ related (first.doneIn a).2 (second.doneIn b).2

theorem related_ofExcept (result : Except Fault α) :
    Related related (ofExcept result) (ofExcept result) := fun _ _ start => ⟨rfl, start⟩

theorem related_pure (a : α) : Related related (pure a) (pure a) := fun _ _ start => ⟨rfl, start⟩

theorem related_throw (fault : Fault) : Related related (throw fault : Work α) (throw fault) :=
  fun _ _ start => ⟨rfl, start⟩

/-- Related work after related work is related. -/
theorem Related.bind {first second : Work α} {next next' : α → Work β}
    (start : Related related first second) (later : ∀ a, Related related (next a) (next' a)) :
    Related related (first >>= next) (second >>= next') := by
  intro a b begun
  obtain ⟨outcome, after⟩ := start a b begun
  simp only [Work.outcome, doneIn_bind] at outcome ⊢
  rcases shapeA : first.doneIn a with ⟨result, afterA⟩
  rcases shapeB : second.doneIn b with ⟨result', afterB⟩
  simp only [shapeA, shapeB] at outcome after
  subst outcome
  cases result with
  | error fault => exact ⟨rfl, after⟩
  | ok value => exact later value afterA afterB after

/-- Related work stays related when its fault is caught. -/
theorem Related.attempt {first second : Work α} (same : Related related first second) :
    Related related (attempt first) (attempt second) := by
  intro a b start
  obtain ⟨outcome, after⟩ := same a b start
  exact ⟨congrArg Except.ok outcome, after⟩

/-- A change that keeps journals related is related to itself. -/
theorem related_record {change other : Journal → Journal}
    (keeps : ∀ {a b}, related a b → related (change a) (other b)) :
    Related related (record change) (record other) := fun _ _ start => ⟨rfl, keeps start⟩

theorem related_event (kept : Kept related) (description : String) :
    Related related (event description) (event description) :=
  related_record (kept.event description)

/-- To begin a task keeps journals related. -/
theorem related_beginTask (kept : Kept related) (name : String) (details : List (String × String)) :
    Related related (beginTask name details) (beginTask name details) := by
  unfold beginTask
  split
  · exact (related_throw _).bind fun _ => related_record (kept.beginTask name details)
  · exact related_record (kept.beginTask name details)

theorem related_endTask (kept : Kept related) : Related related endTask endTask := by
  intro a b start
  have ends := kept.endTask start
  have fails : ∀ {journal : Journal}, journal.endTask = none →
      endTask.doneIn journal = (.error .noOpenTask, journal) := by
    intro journal none
    cases opened : journal.openTasks with
    | nil => exact doneIn_endTask_nil opened
    | cons task outer =>
      rw [Journal.endTask_cons opened] at none
      cases none
  generalize endedA : a.endTask = first, endedB : b.endTask = second at ends
  cases ends with
  | none =>
    rw [outcome, outcome, fails endedA, fails endedB]
    exact ⟨rfl, start⟩
  | some after =>
    rw [outcome, outcome, doneIn_endTask endedA, doneIn_endTask endedB]
    exact ⟨rfl, after⟩

/-- A task around related work is related. -/
theorem Related.within (kept : Kept related) {first second : Work α}
    (same : Related related first second) (name : String) (details : List (String × String)) :
    Related related (within name details first) (within name details second) :=
  (related_beginTask kept name details).bind fun _ => same.attempt.bind fun outcome =>
    (related_endTask kept).bind fun _ => related_ofExcept outcome

/-- Work on every item of a list is related if that on each item is. -/
theorem related_mapM {work : α → Work β} (each : ∀ a, Related related (work a) (work a))
    (as : List α) : Related related (as.mapM work) (as.mapM work) := by
  induction as with
  | nil =>
    simp only [List.mapM_nil]
    exact related_pure []
  | cons a rest ih =>
    simp only [List.mapM_cons]
    exact (each a).bind fun first => ih.bind fun others => related_pure (first :: others)

/-- Related work stays related when its result is discarded. -/
theorem Related.discard {first second : Work α} (same : Related related first second) :
    Related related (discard first) (discard second) := by
  rw [discard_eq, discard_eq]
  exact same.bind fun _ => related_pure ()

end Work

open Work (Related related_ofExcept related_pure related_throw related_event related_mapM)

variable {related : Journal → Journal → Prop}

namespace PolynomialFormat

theorem related_read (kept : Journal.Kept related) (format : PolynomialFormat) (text : String) :
    Related related (format.read text) (format.read text) :=
  (related_ofExcept _).bind fun p => (related_ofExcept _).bind fun _ =>
    (related_event kept _).bind fun _ => related_pure p

theorem related_readLine (kept : Journal.Kept related) (format : PolynomialFormat)
    (line : Option String) : Related related (format.readLine line) (format.readLine line) := by
  cases line with
  | none => exact related_throw _
  | some text => exact related_read kept format text

end PolynomialFormat

namespace Polynomial

/-- Integrating is the same work in related journals. -/
theorem related_integrate (kept : Journal.Kept related) (p : Polynomial) (rule : Rule)
    (stepping : Stepping) (lower upper : Operand) :
    Related related (p.integrate rule stepping lower upper)
      (p.integrate rule stepping lower upper) := by
  have lowered : Related related (Work.ofExcept (lower.toNumber "lower bound"))
      (Work.ofExcept (lower.toNumber "lower bound")) := related_ofExcept _
  have whole := lowered.bind fun l =>
    (related_ofExcept (upper.toNumber "upper bound")).bind fun u =>
      (related_ofExcept (Grid.make stepping l u)).bind fun grid =>
        (related_ofExcept stepping.places).bind fun scale =>
          (related_ofExcept ((rule.sum scale p.integrand grid).run ())).within kept rule.title
            [("lower", l.scientific), ("upper", u.scientific),
              ("dx", (Number.finite grid.width).scientific)]
  exact whole.bind fun result => related_pure result.1

end Polynomial

namespace Calculation

/-- Reading the input is the same work in related journals. -/
theorem related_readInput (kept : Journal.Kept related) (format : PolynomialFormat)
    (lines : List String) : Related related (readInput format lines) (readInput format lines) := by
  cases lines with
  | nil => exact related_throw _
  | cons first rest =>
    exact (related_ofExcept _).bind fun bounds =>
      ((related_mapM (format.related_read kept) rest).within kept _ _).bind fun ps =>
        related_pure (bounds, ps)

theorem related_resultLine (kept : Journal.Kept related) (stepping : Stepping) (bounds : Bounds)
    (p : Polynomial) :
    Related related (resultLine stepping bounds p) (resultLine stepping bounds p) :=
  (related_ofExcept _).bind fun _ => Related.within kept
    ((p.related_integrate kept _ _ _ _).bind fun _ =>
        (p.related_integrate kept _ _ _ _).bind fun _ =>
      related_pure _) _ _

/-- Writing all result lines gives the same lines in related journals, up to the same fault. -/
theorem related_resultLines (kept : Journal.Kept related) (stepping : Stepping) (bounds : Bounds)
    (ps : List Polynomial) {a b : Journal} (start : related a b) :
    ((resultLines stepping bounds ps).run a).1 = ((resultLines stepping bounds ps).run b).1 ∧
      related ((resultLines stepping bounds ps).run a).2
        ((resultLines stepping bounds ps).run b).2 := by
  induction ps generalizing a b with
  | nil => exact ⟨rfl, start⟩
  | cons p rest ih =>
    obtain ⟨outcome, after⟩ := related_resultLine kept stepping bounds p a b start
    rw [run_resultLines_cons, run_resultLines_cons]
    simp only [Work.outcome] at outcome
    rcases shapeA : (resultLine stepping bounds p).doneIn a with ⟨result, afterA⟩
    rcases shapeB : (resultLine stepping bounds p).doneIn b with ⟨result', afterB⟩
    simp only [shapeA, shapeB] at outcome after
    subst outcome
    cases result with
    | error fault => exact ⟨rfl, after⟩
    | ok text =>
      obtain ⟨later, left⟩ := ih after
      simp only [later]
      exact ⟨trivial, left⟩

/-- A calculation yields the same in related journals. -/
theorem related_run (kept : Journal.Kept related) (stepping : Stepping) (format : PolynomialFormat)
    (lines : List String) {a b : Journal} (start : related a b) :
    ((run stepping format lines).run a).1 = ((run stepping format lines).run b).1 ∧
      related ((run stepping format lines).run a).2 ((run stepping format lines).run b).2 := by
  obtain ⟨outcome, after⟩ := related_readInput kept format lines a b start
  rw [run_eq, run_eq]
  simp only [Work.outcome] at outcome
  rcases shapeA : (readInput format lines).doneIn a with ⟨result, afterA⟩
  rcases shapeB : (readInput format lines).doneIn b with ⟨result', afterB⟩
  simp only [shapeA, shapeB] at outcome after
  subst outcome
  cases result with
  | error fault => exact ⟨rfl, after⟩
  | ok read =>
    obtain ⟨later, left⟩ := related_resultLines kept stepping read.1 read.2 after
    simp only [later]
    exact ⟨trivial, left⟩

end Calculation

/-! ### Scripts -/

namespace JournalStep

/-- A step that switches verbosity on or off. -/
def isSwitch : JournalStep → Bool
  | verbose _ => true
  | _ => false

mutual

/-- A step without switching verbosity inside. -/
def silenced : JournalStep → JournalStep
  | within name details steps => within name details (silencedAll steps)
  | attempt steps => attempt (silencedAll steps)
  | other => other

/-- Steps without those that switch verbosity, at any depth. -/
def silencedAll : List JournalStep → List JournalStep
  | [] => []
  | step :: rest => if step.isSwitch then silencedAll rest else silenced step :: silencedAll rest

end

mutual

/-- A step that does not switch verbosity itself does the same in silence. -/
theorem related_silenced (step : JournalStep) (unswitched : step.isSwitch = false) :
    Related Journal.Alike step.run step.silenced.run := by
  match step with
  | beginTask name details => exact Work.related_beginTask Journal.kept_alike name details
  | endTask => exact Work.related_endTask Journal.kept_alike
  | event description => exact related_event Journal.kept_alike description
  | log line => exact Work.related_record fun alike => alike.log line line
  | verbose value => cases unswitched
  | read text =>
    exact (PolynomialFormat.expression.related_readLine Journal.kept_alike text).discard
  | interrupt => exact related_throw _
  | within name details steps =>
    exact (related_silencedAll steps).within Journal.kept_alike name details
  | attempt steps =>
    exact (related_silencedAll steps).attempt.bind fun _ => related_ofExcept _

/-- Any steps do the same in silence. -/
theorem related_silencedAll (steps : List JournalStep) :
    Related Journal.Alike (runAll steps) (runAll (silencedAll steps)) := by
  match steps with
  | [] => exact related_pure ()
  | step :: rest =>
    have later := related_silencedAll rest
    cases switch : step.isSwitch with
    | true =>
      simp only [silencedAll, switch, ↓reduceIte]
      cases step with
      | verbose value =>
        exact fun a b alike => later _ b ⟨alike.clock, alike.openTasks, alike.timings⟩
      | _ => cases switch
    | false =>
      simp only [silencedAll, switch, Bool.false_eq_true, ↓reduceIte]
      exact (related_silenced step switch).bind fun _ => later

end

end JournalStep

end ExactQuadrature

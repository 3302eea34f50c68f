import ExactQuadrature.Fault
import Mathlib.Data.List.Forall2

/-! # Outcomes of computations that may fail

A computation in steps has a result exactly when every step has one, and so has a list of
computations (`mapM_id_eq_ok`). One that fails, fails as the first of its parts that does
(`mapM_eq_error`). Folds whose steps keep a relation keep it as a whole (`foldlM_related`).
-/

namespace ExactQuadrature

variable {ε α β : Type}

@[simp] theorem bind_ok (a : α) (next : α → Except ε β) : (Except.ok a >>= next) = next a := rfl

@[simp] theorem bind_error (fault : ε) (next : α → Except ε β) :
    (Except.error fault >>= next) = Except.error fault := rfl

/-- Two steps have a result when the first has one and the second has one for it. -/
theorem bind_eq_ok {first : Except ε α} {next : α → Except ε β} {result : β} :
    first >>= next = .ok result ↔ ∃ a, first = .ok a ∧ next a = .ok result := by
  constructor
  · intro both
    cases first with
    | error fault => cases both
    | ok a => exact ⟨a, rfl, both⟩
  · rintro ⟨a, rfl, rest⟩
    exact rest

/-- Two steps fail when the first does, or the second does on what the first has given. -/
theorem bind_eq_error {first : Except ε α} {next : α → Except ε β} {fault : ε} :
    first >>= next = .error fault ↔
      first = .error fault ∨ ∃ a, first = .ok a ∧ next a = .error fault := by
  cases first with
  | error raised =>
    constructor
    · intro failed
      exact .inl (congrArg Except.error (Except.error.inj failed))
    · rintro (failed | ⟨a, impossible, _⟩)
      · exact congrArg Except.error (Except.error.inj failed)
      · cases impossible
  | ok a =>
    constructor
    · intro failed
      exact .inr ⟨a, rfl, failed⟩
    · rintro (impossible | ⟨_, same, failed⟩)
      · cases impossible
      · cases same
        exact failed

/-- A list of computations has a result when each of them has one. -/
theorem mapM_id_eq_ok {outcomes : List (Except ε α)} {results : List α} :
    outcomes.mapM id = .ok results ↔ outcomes = results.map .ok := by
  induction outcomes generalizing results with
  | nil =>
    rw [List.mapM_nil]
    constructor
    · intro same
      rw [← Except.ok.inj same]
      rfl
    · intro shape
      rw [List.map_eq_nil_iff.mp shape.symm]
      rfl
  | cons outcome rest ih =>
    rw [List.mapM_cons, bind_eq_ok]
    constructor
    · rintro ⟨first, shape, more⟩
      obtain ⟨others, restShape, whole⟩ := bind_eq_ok.mp more
      cases whole
      rw [ih.mp restShape, List.map_cons, ← shape]
      rfl
    · intro shape
      obtain ⟨first, others, rfl, rfl, restShape⟩ := List.map_eq_cons_iff.mp shape.symm
      exact ⟨first, rfl, bind_eq_ok.mpr ⟨others, ih.mpr restShape.symm, rfl⟩⟩

/-- A function has results for a list when it has one for each of its members, in order. -/
theorem mapM_eq_ok {f : α → Except ε β} {as : List α} {results : List β} :
    as.mapM f = .ok results ↔ as.map f = results.map .ok := by
  rw [← mapM_id_eq_ok, List.mapM_map]
  rfl

/-- Every result of a function for a list is its result for a member. -/
theorem exists_of_mapM {f : α → Except ε β} {as : List α} {results : List β}
    (all : as.mapM f = .ok results) {b : β} (present : b ∈ results) : ∃ a ∈ as, f a = .ok b := by
  have listed : Except.ok b ∈ as.map f := by
    rw [mapM_eq_ok.mp all]
    exact List.mem_map_of_mem present
  obtain ⟨a, member, result⟩ := List.mem_map.mp listed
  exact ⟨a, member, result⟩

/-- The fault of a computation that has no result. -/
def fault? : Except ε α → Option ε
  | .ok _ => none
  | .error fault => some fault

/-- A function fails for a list as it does for the first member that it has no result for. -/
theorem mapM_eq_error {f : α → Except ε β} {as : List α} {fault : ε} :
    as.mapM f = .error fault ↔ as.findSome? (fault? ∘ f) = some fault := by
  induction as with
  | nil => exact ⟨nofun, nofun⟩
  | cons a rest ih =>
    rw [List.mapM_cons, List.findSome?_cons, Function.comp_apply]
    cases f a with
    | error raised => exact ⟨fun same => congrArg some (Except.error.inj same),
        fun same => congrArg Except.error (Option.some.inj same)⟩
    | ok b =>
      rw [bind_ok, fault?, ← ih]
      cases rest.mapM f with
      | error raised => exact ⟨fun same => same, fun same => same⟩
      | ok others => exact ⟨nofun, nofun⟩

/-- A test that is decided for every member of a list is decided for some of them. -/
theorem anyM_of_decided {f : α → Except ε Bool} {holds : α → Prop} {as : List α}
    (each : ∀ a ∈ as, ∃ met, f a = .ok met ∧ (met = true ↔ holds a)) :
    ∃ met, as.anyM f = .ok met ∧ (met = true ↔ ∃ a ∈ as, holds a) := by
  induction as with
  | nil => exact ⟨false, rfl, nofun, nofun⟩
  | cons a rest ih =>
    obtain ⟨⟨own, tested, ownIff⟩, others⟩ := List.forall_mem_cons.mp each
    obtain ⟨later, laterTested, laterIff⟩ := ih others
    rw [List.anyM, tested, bind_ok, List.exists_mem_cons_iff, ← ownIff, ← laterIff]
    cases own with
    | true => exact ⟨true, rfl, fun _ => .inl rfl, fun _ => rfl⟩
    | false => exact ⟨later, laterTested, .inr, fun either => either.resolve_left nofun⟩

/-- Two folds over one list whose steps keep a relation keep it as a whole. -/
theorem foldlM_related {σ τ : Type} {related : σ → τ → Prop} {f : σ → α → Except ε σ}
    {g : τ → α → Except ε τ} {as : List α}
    (step : ∀ a ∈ as, ∀ (s next : σ) (t : τ), related s t → f s a = .ok next →
      ∃ other, g t a = .ok other ∧ related next other)
    {s result : σ} {t : τ} (start : related s t) (folded : as.foldlM f s = .ok result) :
    ∃ other, as.foldlM g t = .ok other ∧ related result other := by
  induction as generalizing s t with
  | nil =>
    cases folded
    exact ⟨t, rfl, start⟩
  | cons a rest ih =>
    obtain ⟨own, others⟩ := List.forall_mem_cons.mp step
    simp only [List.foldlM_cons] at folded ⊢
    obtain ⟨next, first, later⟩ := bind_eq_ok.mp folded
    obtain ⟨other, also, kept⟩ := own s next t start first
    simp only [also, bind_ok]
    exact ih others kept later

/-- Two outcomes that are the same fault, or results in a relation. -/
inductive Matching {β : Type} (related : α → β → Prop) : Except ε α → Except ε β → Prop where
  | ok {a : α} {b : β} (results : related a b) : Matching related (.ok a) (.ok b)
  | error (fault : ε) : Matching related (.error fault) (.error fault)

/-- An outcome matches itself if every result is related to itself. -/
theorem Matching.refl {related : α → α → Prop} (reflexive : ∀ a, related a a)
    (outcome : Except ε α) :
    Matching related outcome outcome := by
  cases outcome with
  | error fault => exact .error fault
  | ok a => exact .ok (reflexive a)

/-- What matches a result is a result. -/
theorem Matching.exists_ok {related : α → β → Prop} {a : α} {outcome : Except ε β}
    (matched : Matching related (.ok a) outcome) : ∃ b, outcome = .ok b ∧ related a b := by
  cases matched with
  | ok results => exact ⟨_, rfl, results⟩

/-- Matching outcomes go on to matching outcomes if related results do. -/
theorem Matching.bind {α' β' : Type} {related : α → α' → Prop} {later : β → β' → Prop}
    {first : Except ε α} {first' : Except ε α'} {next : α → Except ε β} {next' : α' → Except ε β'}
    (start : Matching related first first')
    (goesOn : ∀ a a', related a a' → Matching later (next a) (next' a')) :
    Matching later (first >>= next) (first' >>= next') := by
  cases start with
  | ok results => exact goesOn _ _ results
  | error fault => exact .error fault

/-- One and the same first step keeps what follows it matching. -/
theorem Matching.bind_same {α' β' : Type} {later : α' → β' → Prop} {first : Except ε α}
    {next : α → Except ε α'} {next' : α → Except ε β'}
    (goesOn : ∀ a, Matching later (next a) (next' a)) :
    Matching later (first >>= next) (first >>= next') := by
  cases first with
  | ok a => exact goesOn a
  | error fault => exact .error fault

/-- Outcomes that both match a third one match each other through it. -/
theorem Matching.join {γ : Type} {first : α → γ → Prop} {second : β → γ → Prop} {a : Except ε α}
    {b : Except ε β} {c : Except ε γ} (left : Matching first a c) (right : Matching second b c) :
    Matching (fun x y => ∃ z, first x z ∧ second y z) a b := by
  cases left with
  | ok results =>
    cases right with
    | ok others => exact .ok ⟨_, results, others⟩
  | error fault =>
    cases right with
    | error _ => exact .error fault

/-- Two folds over one list whose steps match, match as a whole. -/
theorem Matching.foldlM {σ τ : Type} {related : σ → τ → Prop} {f : σ → α → Except ε σ}
    {g : τ → α → Except ε τ} {as : List α}
    (step : ∀ a ∈ as, ∀ s t, related s t → Matching related (f s a) (g t a)) {s : σ} {t : τ}
    (start : related s t) : Matching related (as.foldlM f s) (as.foldlM g t) := by
  induction as generalizing s t with
  | nil => exact .ok start
  | cons a rest ih =>
    obtain ⟨own, others⟩ := List.forall_mem_cons.mp step
    simp only [List.foldlM_cons]
    exact (own s t start).bind fun _ _ later => ih others later

/-- Lists of computations that match one by one match as a whole. -/
theorem Matching.mapM_id {related : α → β → Prop} {as : List (Except ε α)} {bs : List (Except ε β)}
    (each : List.Forall₂ (Matching related) as bs) :
    Matching (List.Forall₂ related) (as.mapM id) (bs.mapM id) := by
  induction each with
  | nil => exact .ok .nil
  | cons first _ ih =>
    simp only [List.mapM_cons]
    exact first.bind fun a b own => ih.bind fun as bs others => .ok (.cons own others)

/-- A list of values of a function is the function applied to a list. -/
theorem exists_map_eq {f : α → β} {values : List β} (each : ∀ value ∈ values, ∃ a, value = f a) :
    ∃ as : List α, values = as.map f := by
  induction values with
  | nil => exact ⟨[], rfl⟩
  | cons value rest ih =>
    obtain ⟨⟨a, rfl⟩, restEach⟩ := List.forall_mem_cons.mp each
    obtain ⟨as, rfl⟩ := ih restEach
    exact ⟨a :: as, rfl⟩

namespace Fault

@[simp] theorem ofSignal_ok (a : α) : ofSignal (.ok a) = .ok a := rfl

/-- A result survives the change of a signal to a fault, and no other one comes of it. -/
theorem ofSignal_eq_ok {outcome : Except Signal α} {result : α} :
    ofSignal outcome = .ok result ↔ outcome = .ok result := by
  cases outcome with
  | error signal =>
    constructor <;> intro impossible <;> cases impossible
  | ok a =>
    constructor <;> intro same <;> cases same <;> rfl

/-- Outcomes that match still match when their signals become faults. -/
theorem matching_ofSignal {related : α → β → Prop} {first : Except Signal α}
    {second : Except Signal β} (matched : Matching related first second) :
    Matching related (ofSignal first) (ofSignal second) := by
  cases matched with
  | ok results => exact .ok results
  | error raised => exact .error (Fault.signal raised)

/-- The only faults that signals become are signals. -/
theorem ofSignal_eq_error {outcome : Except Signal α} {fault : Fault} :
    ofSignal outcome = .error fault ↔
      ∃ raised, outcome = .error raised ∧ fault = .signal raised := by
  cases outcome with
  | error raised =>
    constructor
    · intro failed
      exact ⟨raised, rfl, (Except.error.inj failed).symm⟩
    · rintro ⟨_, same, rfl⟩
      cases same
      rfl
  | ok a =>
    constructor
    · intro impossible
      cases impossible
    · rintro ⟨_, impossible, _⟩
      cases impossible

end Fault

end ExactQuadrature

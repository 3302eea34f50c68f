import ExactQuadrature.Journal.Profile
import Mathlib.Algebra.GroupWithZero.Nat
import Mathlib.Data.List.Nodup

/-! # Counting the tasks of each path

Every duration that is added counts once more on its own path and on no other
(`Journal.countOn_addTiming`). Timings keep one entry for each path, counted at least once
(`Journal.Tallied`), so the entries tell how often each path has been counted and which paths have.
-/

namespace ExactQuadrature

namespace Journal

/-- How many durations were added on a path. -/
def countOn (path : List String) : List Timing → Nat
  | [] => 0
  | timing :: rest => if timing.path = path then timing.count else countOn path rest

/-- How many durations were added on all paths. -/
def totalCount (timings : List Timing) : Nat := (timings.map Timing.count).sum

/-- Different paths, each counted at least once. -/
structure Tallied (timings : List Timing) : Prop where
  distinct : (timings.map Timing.path).Nodup
  counted : ∀ timing ∈ timings, 0 < timing.count

theorem tallied_nil : Tallied [] := ⟨.nil, nofun⟩

theorem Tallied.tail {timing : Timing} {rest : List Timing} (tallied : Tallied (timing :: rest)) :
    Tallied rest :=
  ⟨(List.nodup_cons.mp tallied.distinct).2, (List.forall_mem_cons.mp tallied.counted).2⟩

/-- A timing that is added counts one more task in all. -/
theorem totalCount_addTiming (path : List String) (duration : Float) (timings : List Timing) :
    totalCount (addTiming path duration timings) = totalCount timings + 1 := by
  induction timings with
  | nil => rfl
  | cons timing rest ih =>
    unfold totalCount at ih ⊢
    rw [addTiming]
    split
    · simp only [List.map_cons, List.sum_cons]
      omega
    · simp only [List.map_cons, List.sum_cons, ih]
      omega

/-- A timing that is added counts one more on its own path and none on any other. -/
theorem countOn_addTiming (path earlier : List String) (duration : Float)
    (timings : List Timing) :
    countOn earlier (addTiming path duration timings) =
      countOn earlier timings + if path = earlier then 1 else 0 := by
  induction timings with
  | nil =>
    rw [addTiming, countOn, countOn, countOn, Nat.zero_add]
  | cons timing rest ih =>
    rw [addTiming]
    by_cases own : timing.path = path
    · by_cases asked : path = earlier
      · simp only [countOn, own, asked, ↓reduceIte]
      · simp only [countOn, own, asked, ↓reduceIte, Nat.add_zero]
    · rw [if_neg own, countOn, countOn, ih]
      split
      · rename_i listed
        rw [if_neg fun same => own (listed.trans same.symm)]
        rfl
      · rfl

/-- The paths of a tally are those it had and the one that is added. -/
theorem mem_path_addTiming {path earlier : List String} {duration : Float}
    {timings : List Timing} :
    earlier ∈ (addTiming path duration timings).map Timing.path ↔
      earlier = path ∨ earlier ∈ timings.map Timing.path := by
  induction timings with
  | nil => rw [addTiming, List.map_cons, List.mem_cons]
  | cons timing rest ih =>
    rw [addTiming]
    split
    · rename_i own
      rw [List.map_cons, List.map_cons, List.mem_cons, List.mem_cons, own, or_self_left]
    · rw [List.map_cons, List.map_cons, List.mem_cons, List.mem_cons, ih, or_left_comm]

/-- Adding a timing keeps the paths distinct and every count positive. -/
theorem Tallied.addTiming {timings : List Timing} (tallied : Tallied timings) (path : List String)
    (duration : Float) : Tallied (addTiming path duration timings) := by
  induction timings with
  | nil => exact ⟨List.nodup_singleton path, fun timing listed => by
      rw [List.mem_singleton.mp listed]
      exact Nat.one_pos⟩
  | cons timing rest ih =>
    have apart := (List.nodup_cons.mp tallied.distinct).1
    rw [Journal.addTiming]
    split
    · rename_i same
      exact ⟨List.nodup_cons.mpr ⟨same ▸ apart, tallied.tail.distinct⟩,
        List.forall_mem_cons.mpr ⟨Nat.succ_pos _, tallied.tail.counted⟩⟩
    · rename_i other
      obtain ⟨distinct, counted⟩ := ih tallied.tail
      refine ⟨List.nodup_cons.mpr ⟨?_, distinct⟩,
        List.forall_mem_cons.mpr ⟨(List.forall_mem_cons.mp tallied.counted).1, counted⟩⟩
      rw [mem_path_addTiming]
      rintro (same | listed)
      · exact other same
      · exact apart listed

/-- Each entry counts the durations of its path. -/
theorem Tallied.countOn_of_mem {timings : List Timing} (tallied : Tallied timings) {timing : Timing}
    (listed : timing ∈ timings) : countOn timing.path timings = timing.count := by
  induction timings with
  | nil => cases listed
  | cons first rest ih =>
    rw [countOn]
    rcases List.mem_cons.mp listed with rfl | later
    · exact if_pos rfl
    · have other : first.path ≠ timing.path := fun same =>
        (List.nodup_cons.mp tallied.distinct).1 (same ▸ List.mem_map_of_mem later)
      rw [if_neg other]
      exact ih tallied.tail later

/-- The paths listed are those on which durations were added. -/
theorem Tallied.mem_path_iff {timings : List Timing} (tallied : Tallied timings)
    {path : List String} : path ∈ timings.map Timing.path ↔ 0 < countOn path timings := by
  constructor
  · intro listed
    obtain ⟨timing, member, rfl⟩ := List.mem_map.mp listed
    rw [tallied.countOn_of_mem member]
    exact tallied.counted timing member
  · intro counted
    induction timings with
    | nil => exact absurd counted (Nat.lt_irrefl 0)
    | cons timing rest ih =>
      rw [countOn] at counted
      rw [List.map_cons, List.mem_cons]
      split at counted
      · rename_i own
        exact .inl own.symm
      · exact .inr (ih tallied.tail counted)

/-- Putting the slowest first only reorders the timings. -/
theorem slowestFirst_perm (journal : Journal) : journal.slowestFirst.Perm journal.timings :=
  List.mergeSort_perm _ _

theorem totalCount_slowestFirst (journal : Journal) :
    totalCount journal.slowestFirst = totalCount journal.timings :=
  ((slowestFirst_perm journal).map Timing.count).sum_nat

end Journal

end ExactQuadrature

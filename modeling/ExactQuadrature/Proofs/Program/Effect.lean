import ExactQuadrature.Proofs.Calculation.Yield
import ExactQuadrature.Proofs.Program.Output

/-! # What a request does

Besides what it notes in the journal, a request depends on the settings, the files and the input
alone: whether its calculation ends in a fault, what it writes to standard output and to the output
file (`Program.effect`), and whether the profile can be written (`Program.profileFault?`). All that
the journal adds is the report, the contents of the profile and the state of the clock
(`Program.perform_effect`).
-/

namespace ExactQuadrature

namespace KeepsFiles

variable {first second : Workplace} {changed more : List String}

theorem symm (same : KeepsFiles first second changed) : KeepsFiles second first changed :=
  ⟨fun other apart => (same.files other apart).symm, same.directories.symm, same.leftovers.symm⟩

theorem mono (same : KeepsFiles first second changed) (among : changed ⊆ more) :
    KeepsFiles first second more :=
  ⟨fun other apart => same.files other fun listed => apart (among listed), same.directories,
    same.leftovers⟩

end KeepsFiles

namespace Program

/-- What a calculation leads to: the fault that prevents its output, if there is one, what it writes
to standard output, and the files afterwards. -/
structure Effect where
  fault : Option Fault
  output : String
  place : Workplace

/-- The effect of a calculation, whatever is noted meanwhile. -/
def effect (place : Workplace) (stepping : Stepping) (input : ByteArray) (request : Request) :
    Effect :=
  match readInput place.files input request with
  | .error fault => ⟨some fault, "", place⟩
  | .ok lines =>
    let yield := Calculation.yieldOf stepping request.format lines
    let texts := joinLines yield.lines
    if request.output = some standardStream then ⟨yield.fault, String.join texts, place⟩
    else
      let replaced := place.replace? request.output texts yield.fault
      ⟨fault? replaced.1, "", replaced.2⟩

/-- A calculation has the effect of the request and closes all tasks it opens. -/
theorem calculate_effect (session : Session) (input : ByteArray) (request : Request) :
    ∃ journal : Journal, journal.openTasks = session.journal.openTasks ∧
      calculate session input request =
        ((effect session.place session.registry.stepping input request).fault,
          (effect session.place session.registry.stepping input request).output,
          { session with
            place := (effect session.place session.registry.stepping input request).place
            journal := journal }) := by
  unfold calculate effect
  cases readInput session.place.files input request with
  | error fault => exact ⟨session.journal, rfl, rfl⟩
  | ok lines =>
    dsimp only
    obtain ⟨yields, stays⟩ := Calculation.run_yields session.registry.stepping request.format lines
      session.journal
    generalize (Calculation.run session.registry.stepping request.format lines).run
      session.journal = yielded at yields stays ⊢
    obtain ⟨yield, journal⟩ := yielded
    dsimp only at yields stays ⊢
    refine ⟨journal, stays, ?_⟩
    rw [← yields]
    split
    · rfl
    · rcases session.place.replace? request.output (joinLines yield.lines) yield.fault with
        ⟨_ | _, place⟩ <;> rfl

/-- Why the profile cannot be written, if that is so. -/
def profileFault? (place : Workplace) (path : String) : Option Fault :=
  if path = "" then none else fault? (place.files.write path .empty)

/-- Nothing is wrong with a profile that can be written. -/
theorem profileFault?_eq_none (session : Session) :
    profileFault? session.place session.registry.profile = none ↔ ProfileWritable session := by
  unfold profileFault? ProfileWritable
  by_cases unwanted : session.registry.profile = ""
  · rw [if_pos unwanted]
    exact ⟨fun _ => .inl unwanted, fun _ => rfl⟩
  · rw [if_neg unwanted, or_iff_right unwanted]
    obtain ⟨name, leads, written⟩ | ⟨astray, fault, failed⟩ :=
      session.place.files.write_cases session.registry.profile
    · rw [written]
      exact ⟨fun _ => ⟨name, leads⟩, fun _ => rfl⟩
    · rw [failed]
      exact ⟨nofun, fun ⟨name, leads⟩ => absurd leads (astray name)⟩

/-- What is written to a profile depends on the journal, and nothing else does. -/
theorem writeProfile_effect (session : Session) :
    ∃ left : Session, left.registry = session.registry ∧
      left.journal.openTasks = session.journal.openTasks ∧
      KeepsFiles session.place left.place (profileFiles session) ∧
      match profileFault? session.place session.registry.profile with
      | none => ∃ read, writeProfile session = (.ok left, read)
      | some fault => writeProfile session = (.error fault, left) := by
  unfold writeProfile profileFault? profileFiles
  dsimp only
  by_cases unwanted : session.registry.profile = ""
  · rw [if_pos unwanted, if_pos unwanted, if_pos unwanted]
    exact ⟨session, rfl, rfl, .refl _ _, session, rfl⟩
  · rw [if_neg unwanted, if_neg unwanted, if_neg unwanted]
    obtain ⟨name, leads, written⟩ | ⟨astray, fault, failed⟩ :=
      session.place.files.write_cases session.registry.profile
    · rw [written, written, leads]
      exact ⟨{ session with
        place := { session.place with
          files := session.place.files.put name session.journal.profile.1.toUTF8 }
        journal := session.journal.profile.2 }, rfl, rfl, .put _ _ _, _, rfl⟩
    · rw [failed, failed]
      exact ⟨{ session with journal := session.journal.profile.2 }, rfl, rfl, .refl _ _, rfl⟩

/-- A calculation does not change where paths lead. -/
theorem resolve_effect (place : Workplace) (stepping : Stepping) (input : ByteArray)
    (request : Request) {path name : String} :
    (effect place stepping input request).place.files.resolve path = .ok name ↔
      place.files.resolve path = .ok name := by
  unfold effect
  cases readInput place.files input request with
  | error fault => exact Iff.rfl
  | ok lines =>
    dsimp only
    split
    · exact Iff.rfl
    · exact place.resolve_replace? _ _ _

/-- How a request ends, given what was noted. -/
def ending (noted : String) (effect : Effect) (path : String) : RunResult :=
  match profileFault? effect.place path with
  | none => conclude noted effect.output effect.fault
  | some fault => .broken fault effect.output

/-- **What a request does.** It ends as its effect and the profile have it, whatever was noted, and
changes no file besides but the profile. -/
theorem perform_effect (session : Session) (input : ByteArray) (request : Request) :
    ∃ (noted : Journal) (left : Session), perform session input request =
        (ending noted.text (effect session.place session.registry.stepping input request)
          session.registry.profile, left) ∧
      left.registry = session.registry ∧
      left.journal.openTasks = session.journal.openTasks ∧
      KeepsFiles (effect session.place session.registry.stepping input request).place left.place
        (profileFiles session) := by
  obtain ⟨journal, stays, calculated⟩ := calculate_effect session input request
  let calculatedSession : Session := { session with
    place := (effect session.place session.registry.stepping input request).place
    journal := journal }
  have sameRegistry : calculatedSession.registry = session.registry := rfl
  obtain ⟨-, sameFiles⟩ := profile_congr sameRegistry fun _ _ => resolve_effect _ _ _ _
  obtain ⟨left, registry, openTasks, keeps, wrote⟩ := writeProfile_effect calculatedSession
  refine ⟨journal, left, ?_, registry, openTasks.trans stays, sameFiles ▸ keeps⟩
  unfold perform ending
  rw [calculated]
  dsimp only at wrote ⊢
  cases fault : profileFault?
      (effect session.place session.registry.stepping input request).place
      session.registry.profile with
  | none =>
    rw [fault] at wrote
    obtain ⟨read, wrote⟩ := wrote
    rw [wrote]
  | some fault =>
    rw [fault] at wrote
    rw [wrote]

end Program

end ExactQuadrature

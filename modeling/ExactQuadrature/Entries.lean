/-! # Values by name

Entries hold values by name, in the order in which the names were first put. Putting a value under
a name that is there already replaces the value and keeps its place. -/

namespace ExactQuadrature

/-- Values by name, in order. -/
abbrev Entries (α : Type) := List (String × α)

namespace Entries

variable {α : Type}

/-- The value under a name. -/
def get? (entries : Entries α) (name : String) : Option α := entries.lookup name

/-- Put a value under a name, in place of an earlier one. -/
def put (entries : Entries α) (name : String) (value : α) : Entries α :=
  match entries with
  | [] => [(name, value)]
  | entry :: rest => if entry.1 = name then (name, value) :: rest else entry :: put rest name value

/-- Put a value under a name that has none. -/
def putNew (entries : Entries α) (name : String) (value : α) : Entries α :=
  match entries.get? name with
  | some _ => entries
  | none => entries.put name value

/-- No value is found without entries. -/
@[simp] theorem get?_nil (name : String) : get? ([] : Entries α) name = none := rfl

/-- The first entry with a name holds its value. -/
theorem get?_cons (first name : String) (value : α) (rest : Entries α) :
    get? ((first, value) :: rest) name = if name = first then some value else rest.get? name := by
  unfold get?
  by_cases same : name = first
  · simp [same]
  · simp [List.lookup_cons, same, beq_false_of_ne same]

/-- Putting a value under a name changes what is found under that name and under no other one. -/
theorem get?_put (entries : Entries α) (name other : String) (value : α) :
    (entries.put name value).get? other =
      if other = name then some value else entries.get? other := by
  induction entries with
  | nil =>
    unfold put
    rw [get?_cons]
  | cons entry rest hypothesis =>
    obtain ⟨first, held⟩ := entry
    unfold put
    by_cases same : first = name
    · rw [if_pos same, get?_cons, get?_cons, same]
      by_cases asked : other = name <;> simp [asked]
    · rw [if_neg same, get?_cons, get?_cons, hypothesis]
      by_cases asked : other = first
      · simp [asked, same]
      · simp [asked]

/-- Putting a value under a name that has none changes nothing else. -/
theorem get?_putNew (entries : Entries α) (name other : String) (value : α) :
    (entries.putNew name value).get? other =
      (entries.get? other).or (if other = name then some value else none) := by
  unfold putNew
  by_cases same : other = name
  · cases held : entries.get? name with
    | some found => simp [same, held]
    | none => simp [same, held, get?_put]
  · cases entries.get? name with
    | some found => simp [same]
    | none => simp [same, get?_put]

variable {entries first : Entries α} {name : String} {value : α}

/-- An entry whose name no other has is found by its name. -/
theorem get?_of_mem (distinct : (entries.map (·.1)).Nodup) (present : (name, value) ∈ entries) :
    entries.get? name = some value := by
  induction entries with
  | nil => cases present
  | cons entry rest ih =>
    obtain ⟨apart, others⟩ := List.nodup_cons.mp distinct
    rw [get?_cons]
    rcases List.mem_cons.mp present with rfl | present
    · exact if_pos rfl
    · rw [if_neg, ih others present]
      rintro rfl
      exact apart (List.mem_map.mpr ⟨_, present, rfl⟩)

/-- Putting a value under a new name adds an entry at the end. -/
theorem put_of_notMem (absent : name ∉ entries.map (·.1)) (value : α) :
    entries.put name value = entries ++ [(name, value)] := by
  induction entries with
  | nil => rfl
  | cons entry rest ih =>
    obtain ⟨different, apart⟩ := not_or.mp (mt List.mem_cons.mpr absent)
    rw [put, if_neg (Ne.symm different), ih apart]
    rfl

/-- The names of entries stay in their order, and a new one follows them. -/
theorem map_fst_put (entries : Entries α) (name : String) (value : α) :
    (entries.put name value).map (·.1) =
      entries.map (·.1) ++ if name ∈ entries.map (·.1) then [] else [name] := by
  induction entries with
  | nil => rfl
  | cons entry rest ih =>
    rw [put]
    by_cases same : entry.1 = name
    · simp [same]
    · rw [if_neg same, List.map_cons, ih, List.map_cons, List.cons_append]
      simp only [List.mem_cons, Ne.symm same, false_or]

/-- Entries stay in front where what is put under their names is what they hold. -/
theorem prefix_put (front : first <+: entries)
    (same : ∀ held, first.get? name = some held → held = value) :
    first <+: entries.put name value := by
  induction first generalizing entries with
  | nil => exact List.nil_prefix
  | cons entry rest ih =>
    obtain ⟨others, rfl⟩ := front
    rw [List.cons_append, put]
    by_cases own : entry.1 = name
    · obtain rfl := same entry.2
        ((get?_cons entry.1 name entry.2 rest).trans (if_pos own.symm))
      rw [if_pos own, ← own]
      exact List.prefix_append (entry :: rest) others
    · rw [if_neg own]
      refine List.cons_prefix_cons.mpr
        ⟨rfl, ih (List.prefix_append rest others) fun held found => ?_⟩
      exact same held
        ((get?_cons entry.1 name entry.2 rest).trans ((if_neg (Ne.symm own)).trans found))

end Entries

end ExactQuadrature

import ExactQuadrature.NameSupply
import ExactQuadrature.Proofs.Decimal.Representation
import ExactQuadrature.Proofs.Numeral

/-! # Names from one supply

A name that is given is not taken (`NameSupply.name_firstFree`), and the numbers of names given one
after the other only grow (`NameSupply.grants_increase`). Names are not kept apart by their numbers
alone, since a hint and a number are written without anything between them: a later name repeats an
earlier one exactly if the earlier hint goes on with the digits that the later number begins with
(`NameSupply.name_eq_iff`). Names for one hint, and names for hints that do not end with a digit,
are therefore all different (`NameSupply.freshAll_nodup`).
-/

namespace ExactQuadrature

namespace NameSupply

/-- A request for a name: its hint, and the names that are taken already. -/
structure Request where
  hint : String
  taken : List String
deriving DecidableEq

/-- The names for requests one after the other. -/
def freshAll (supply : NameSupply) : List Request → List String
  | [] => []
  | request :: rest =>
    let (given, later) := supply.fresh request.hint request.taken
    given :: later.freshAll rest

/-- A request with the number that it is granted. -/
structure Grant where
  request : Request
  number : Nat

/-- The name of a grant. -/
def Grant.name (grant : Grant) : String := NameSupply.name grant.request.hint grant.number

/-- The grants for requests one after the other. -/
def grants (supply : NameSupply) : List Request → List Grant
  | [] => []
  | request :: rest =>
    let number := firstFree request.hint request.taken supply.next
    ⟨request, number⟩ :: grants ⟨number + 1⟩ rest

variable {hint other : String} {number later : Nat}

/-- A name is an underscore, the hint and the digits of its number. -/
theorem toList_name (hint : String) (number : Nat) :
    (name hint number).toList = '_' :: (hint.toList ++ Nat.toDigits 10 number) := by
  simp [name, Nat.toList_repr]

/-- Names with one hint are told apart by their numbers. -/
theorem name_injective (hint : String) : Function.Injective (name hint) := by
  intro number other same
  have listed : '_' :: (hint.toList ++ Nat.toDigits 10 number) =
      '_' :: (hint.toList ++ Nat.toDigits 10 other) := by
    rw [← toList_name, ← toList_name, same]
  have digits : Nat.toDigits 10 number = Nat.toDigits 10 other :=
    List.append_cancel_left (List.cons.inj listed).2
  calc number = Nat.ofDigitChars 10 (Nat.toDigits 10 number) 0 :=
        Nat.ofDigitChars_ten_toDigits.symm
    _ = Nat.ofDigitChars 10 (Nat.toDigits 10 other) 0 := by rw [digits]
    _ = other := Nat.ofDigitChars_ten_toDigits

/-- The digits of a smaller number do not end with those of a larger one. -/
theorem toDigits_ne_append (smaller : number < later) (digits : List Char) :
    Nat.toDigits 10 number ≠ digits ++ Nat.toDigits 10 later := by
  intro same
  have length := congrArg List.length same
  rw [List.length_append, length_toDigits, length_toDigits] at length
  have ordered := digitCount_mono (Nat.le_of_lt smaller)
  have none : digits = [] := List.length_eq_zero_iff.mp (by omega)
  rw [none, List.nil_append] at same
  have values := congrArg (Nat.ofDigitChars 10 · 0) same
  simp only [Nat.ofDigitChars_ten_toDigits] at values
  omega

/-- **When names repeat.** A later name repeats an earlier one if the earlier hint goes on with
digits that the later number begins with, before the digits of the earlier number. -/
theorem name_eq_iff (smaller : number < later) :
    name other later = name hint number ↔
      ∃ digits, digits ≠ [] ∧ hint.toList = other.toList ++ digits ∧
        Nat.toDigits 10 later = digits ++ Nat.toDigits 10 number := by
  rw [← String.toList_inj, toList_name, toList_name, List.cons_inj_right]
  constructor
  · intro same
    obtain ⟨digits, longer, shorter⟩ | ⟨digits, longer, shorter⟩ :=
      List.append_eq_append_iff.mp same
    · refine ⟨digits, ?_, longer, shorter⟩
      rintro rfl
      exact toDigits_ne_append smaller [] shorter.symm
    · exact absurd shorter (toDigits_ne_append smaller digits)
  · rintro ⟨digits, _, longer, shorter⟩
    rw [longer, shorter, List.append_assoc]

/-- The number that is granted is not gone back behind, and its name is not taken. -/
theorem name_firstFree (hint : String) (taken : List String) (number : Nat) :
    number ≤ firstFree hint taken number ∧ name hint (firstFree hint taken number) ∉ taken := by
  induction taken, number using firstFree.induct hint with
  | case1 taken number met ih =>
    rw [firstFree, dif_pos met]
    obtain ⟨onward, free⟩ := ih
    refine ⟨Nat.le_of_succ_le onward, fun present => free ?_⟩
    -- What was struck from the list has a smaller number, so it is another name.
    refine (List.mem_erase_of_ne fun same => ?_).mpr present
    have numbers := name_injective hint same
    omega
  | case2 taken number free =>
    rw [firstFree, dif_neg free]
    exact ⟨Nat.le_refl _, free⟩

/-- The names that are granted are those of the supply, in order. -/
theorem map_name_grants (supply : NameSupply) (requests : List Request) :
    (supply.grants requests).map Grant.name = supply.freshAll requests := by
  induction requests generalizing supply with
  | nil => rfl
  | cons request rest ih =>
    simp only [grants, freshAll, fresh, List.map_cons, ih]
    rfl

/-- There is one grant for every request, in order. -/
theorem map_request_grants (supply : NameSupply) (requests : List Request) :
    (supply.grants requests).map Grant.request = requests := by
  induction requests generalizing supply with
  | nil => rfl
  | cons request rest ih => simp only [grants, List.map_cons, ih]

/-- Every grant has a name that was not taken, and a number from the supply onwards. -/
theorem free_of_mem_grants {supply : NameSupply} {requests : List Request} {grant : Grant}
    (granted : grant ∈ supply.grants requests) :
    supply.next ≤ grant.number ∧ grant.name ∉ grant.request.taken := by
  induction requests generalizing supply with
  | nil => cases granted
  | cons request rest ih =>
    obtain ⟨onward, free⟩ := name_firstFree request.hint request.taken supply.next
    rcases List.mem_cons.mp granted with rfl | granted
    · exact ⟨onward, free⟩
    · obtain ⟨after, alsoFree⟩ := ih granted
      exact ⟨onward.trans (Nat.le_of_succ_le after), alsoFree⟩

/-- The numbers that are granted increase. -/
theorem grants_increase (supply : NameSupply) (requests : List Request) :
    (supply.grants requests).Pairwise fun earlier later => earlier.number < later.number := by
  induction requests generalizing supply with
  | nil => exact .nil
  | cons request rest ih =>
    exact .cons (fun _ granted => (free_of_mem_grants granted).1) (ih _)

/-- Names are different if their hints are one and the same, or the earlier hint does not end with a
digit. -/
theorem Grant.name_ne {earlier after : Grant} (smaller : earlier.number < after.number)
    (hints : earlier.request.hint = after.request.hint ∨
      ∀ c ∈ earlier.request.hint.toList.getLast?, c.isDigit = false) :
    earlier.name ≠ after.name := by
  intro same
  obtain ⟨digits, some_digits, longer, shorter⟩ := (name_eq_iff smaller).mp same.symm
  rcases hints with one | ends
  · rw [one] at longer
    exact some_digits (List.self_eq_append_right.mp longer)
  · obtain ⟨before, last, rfl⟩ := List.eq_nil_or_concat' digits |>.resolve_left some_digits
    have digit : last.isDigit = true := by
      apply (leadingDigits_toDigits after.number).isDigit
      simp [shorter]
    have none := ends last (by simp [longer])
    rw [digit] at none
    cases none

/-- **Names that never repeat.** The names for one hint are all different, and so are those for
hints that do not end with a digit. -/
theorem freshAll_nodup (supply : NameSupply) {requests : List Request}
    (hints : (∃ hint, ∀ request ∈ requests, request.hint = hint) ∨
      ∀ request ∈ requests, ∀ c ∈ request.hint.toList.getLast?, c.isDigit = false) :
    (supply.freshAll requests).Nodup := by
  rw [← map_name_grants, List.Nodup, List.pairwise_map]
  have listed {grant : Grant} (granted : grant ∈ supply.grants requests) :
      grant.request ∈ requests := by
    rw [← map_request_grants supply requests]
    exact List.mem_map_of_mem granted
  apply (grants_increase supply requests).imp_of_mem
  intro earlier after first second smaller
  apply Grant.name_ne smaller
  rcases hints with ⟨hint, one⟩ | ends
  · exact .inl ((one _ (listed first)).trans (one _ (listed second)).symm)
  · exact .inr (ends _ (listed first))

/-- **Names of one supply.** Every request is granted a name that is not taken, with a number above
all earlier ones. A name repeats an earlier one exactly if the earlier hint is the later hint with
digits behind it, and the later number is written with these digits before those of the earlier
number. So all names are different if they have one hint, or hints that do not end with a digit. -/
theorem names_repeat_iff (supply : NameSupply) (requests : List Request) :
    (supply.grants requests).map Grant.request = requests ∧
      (supply.grants requests).map Grant.name = supply.freshAll requests ∧
      (∀ grant ∈ supply.grants requests, grant.name ∉ grant.request.taken) ∧
      ((supply.grants requests).Pairwise fun earlier later =>
        earlier.number < later.number ∧
          (later.name = earlier.name ↔ ∃ digits, digits ≠ [] ∧
            earlier.request.hint.toList = later.request.hint.toList ++ digits ∧
            Nat.toDigits 10 later.number = digits ++ Nat.toDigits 10 earlier.number)) ∧
      ((∃ hint, ∀ request ∈ requests, request.hint = hint) ∨
          (∀ request ∈ requests, ∀ c ∈ request.hint.toList.getLast?, c.isDigit = false) →
        (supply.freshAll requests).Nodup) := by
  refine ⟨map_request_grants _ _, map_name_grants _ _,
    fun _ granted => (free_of_mem_grants granted).2, ?_, freshAll_nodup supply⟩
  apply (grants_increase supply requests).imp
  intro earlier later smaller
  exact ⟨smaller, name_eq_iff smaller⟩

/-- Two names for one hint, the first number of which is passed over. -/
theorem names_repeat_iff_one_hint :
    (∃ hint, ∀ request ∈ [Request.mk "a" ["_a0"], Request.mk "a" []], request.hint = hint) ∧
      (new.freshAll [Request.mk "a" ["_a0"], Request.mk "a" []]).Nodup := by
  have one :
      ∃ hint, ∀ request ∈ [Request.mk "a" ["_a0"], Request.mk "a" []], request.hint = hint := by
    refine ⟨"a", fun request listed => ?_⟩
    rcases List.mem_pair.mp listed with rfl | rfl <;> rfl
  obtain ⟨_, _, _, _, different⟩ := names_repeat_iff new [Request.mk "a" ["_a0"], Request.mk "a" []]
  exact ⟨one, different (.inl one)⟩

/-- A name is given twice where a later number begins with a digit that an earlier hint ends
with. -/
theorem name_given_twice : ¬ ∀ requests : List Request, (new.freshAll requests).Nodup := by
  intro distinct
  have names : new.freshAll [⟨"a1", []⟩,
      ⟨"a", ["_a1", "_a2", "_a3", "_a4", "_a5", "_a6", "_a7", "_a8", "_a9"]⟩] =
      ["_a10", "_a10"] := by decide +kernel
  have twice := distinct [⟨"a1", []⟩,
    ⟨"a", ["_a1", "_a2", "_a3", "_a4", "_a5", "_a6", "_a7", "_a8", "_a9"]⟩]
  rw [names] at twice
  exact absurd twice (by decide)

end NameSupply

end ExactQuadrature

import Mathlib.Data.List.TakeWhile
import RemoteModels.Specification.Name
import RemoteModels.Text.Parts

/-!
# Local names and the segments of a full name

`localName` looks for the first dot and takes what is between it and the next one.  Cut at all of
its dots, a full name falls into segments, and the local name is the second of them, or the only
one.

* `segments`, `chosenSegment` — the segments, and the one that is to be the local name.
* `localName_eq`, `localName_eq_ok_iff` — it is the local name, if it is not empty.
* `localName_spec` — local names are not empty and have no dots.
* `NameFault`, `localName_eq_error_iff` — what is wrong with a name that has none.
-/

set_option autoImplicit false

namespace RemoteModels

/-! ## Cutting a text

Cutting at characters is what the library has for lists; the lemmas about the parts are taken from
there. -/

namespace Text

variable {cuts : Char → Bool}

/-- The parts are those of the list. -/
theorem parts_eq_splitOnP (cs : List Char) : parts cuts cs = cs.splitOnP cuts := by
  induction cs with
  | nil => rfl
  | cons c rest ih =>
    rw [parts, List.splitOnP_cons_eq_if_modifyHead, ← ih]
    cases hrest : parts cuts rest with
    | nil => exact absurd hrest (parts_ne_nil cuts rest)
    | cons part more => rfl

theorem parts_of_not_cut {cs : List Char} (h : ∀ c ∈ cs, cuts c = false) :
    parts cuts cs = [cs] := by
  rw [parts_eq_splitOnP, List.splitOnP_eq_singleton h]

/-- A cut separates what is in front of it from the rest. -/
theorem parts_append {front : List Char} (h : ∀ c ∈ front, cuts c = false) {cut : Char}
    (hcut : cuts cut = true) (rest : List Char) :
    parts cuts (front ++ cut :: rest) = front :: parts cuts rest := by
  rw [parts_eq_splitOnP, parts_eq_splitOnP, List.splitOnP_append_cons_of_forall_mem h cut hcut]

/-- No part has a character that cuts. -/
theorem not_cut_of_mem_parts {cs : List Char} :
    ∀ part ∈ parts cuts cs, ∀ c ∈ part, cuts c = false := by
  induction cs with
  | nil => simp [parts]
  | cons c rest ih =>
    rw [parts]
    cases hrest : parts cuts rest with
    | nil => exact absurd hrest (parts_ne_nil cuts rest)
    | cons first more =>
      rw [hrest, List.forall_mem_cons] at ih
      cases hc : cuts c with
      | true => exact List.forall_mem_cons.2 ⟨by simp, List.forall_mem_cons.2 ih⟩
      | false =>
        exact List.forall_mem_cons.2 ⟨List.forall_mem_cons.2 ⟨hc, ih.1⟩, ih.2⟩

end Text

/-! ## Segments

The program looks for one dot and then for another.  A name is taken apart in the same way: either
it has no dot, or it is a text without dots, a dot and the rest. -/

/-- What stands between the dots of a name. -/
def segments (fullName : String) : List (List Char) := Text.parts (· = '.') fullName.toList

/-- The second segment, or the only one. -/
def chosenSegment : List (List Char) → List Char
  | [] => []
  | [only] => only
  | _ :: second :: _ => second

theorem eq_dot_of_not_mem {cs : List Char} (h : '.' ∉ cs) : ∀ c ∈ cs, decide (c = '.') = false :=
  fun _ hc => decide_eq_false fun heq => h (heq ▸ hc)

theorem ne_dot_of_not_mem {cs : List Char} (h : '.' ∉ cs) : ∀ c ∈ cs, decide (c ≠ '.') = true :=
  fun _ hc => decide_eq_true fun heq => h (heq ▸ hc)

theorem firstSegment_of_not_mem {cs : List Char} (h : '.' ∉ cs) : firstSegment cs = cs :=
  List.takeWhile_eq_self_iff.2 (ne_dot_of_not_mem h)

/-- The first segment ends at the first dot. -/
theorem firstSegment_append {front : List Char} (h : '.' ∉ front) (rest : List Char) :
    firstSegment (front ++ '.' :: rest) = front := by
  rw [firstSegment, List.takeWhile_append_of_pos (ne_dot_of_not_mem h)]
  simp

theorem afterFirstDot?_of_not_mem {cs : List Char} (h : '.' ∉ cs) : afterFirstDot? cs = none := by
  rw [afterFirstDot?, List.dropWhile_eq_nil_iff.2 (ne_dot_of_not_mem h)]

theorem dropWhile_append_dot {front : List Char} (h : '.' ∉ front) (rest : List Char) :
    (front ++ '.' :: rest).dropWhile (· ≠ '.') = '.' :: rest := by
  rw [List.dropWhile_append_of_pos (ne_dot_of_not_mem h)]
  simp

/-- The rest comes behind the first dot. -/
theorem afterFirstDot?_append {front : List Char} (h : '.' ∉ front) (rest : List Char) :
    afterFirstDot? (front ++ '.' :: rest) = some rest := by
  rw [afterFirstDot?, dropWhile_append_dot h]

/-- The segments start with what is in front of the first dot. -/
theorem exists_parts_eq_cons (cs : List Char) :
    ∃ more, Text.parts (· = '.') cs = firstSegment cs :: more := by
  by_cases hdot : '.' ∈ cs
  · obtain ⟨front, rest, rfl, hfront⟩ := List.eq_append_cons_of_mem hdot
    rw [Text.parts_append (eq_dot_of_not_mem hfront) rfl, firstSegment_append hfront]
    exact ⟨_, rfl⟩
  · rw [Text.parts_of_not_cut (eq_dot_of_not_mem hdot), firstSegment_of_not_mem hdot]
    exact ⟨[], rfl⟩

/-- **The local name is the second segment, or the only one, if it is not empty.** -/
theorem localName_eq (fullName : String) :
    localName fullName =
      if fullName = "" then .error .emptyName
      else if chosenSegment (segments fullName) = [] then .error (.emptySegment fullName)
      else .ok (String.ofList (chosenSegment (segments fullName))) := by
  have hempty : fullName.toList.isEmpty = true ↔ fullName = "" := by
    rw [List.isEmpty_iff, ← String.toList_inj]
    rfl
  by_cases hdot : '.' ∈ fullName.toList
  · obtain ⟨front, rest, hsplit, hfront⟩ := List.eq_append_cons_of_mem hdot
    obtain ⟨more, hmore⟩ := exists_parts_eq_cons rest
    have hafter : afterFirstDot? fullName.toList = some rest := by
      rw [hsplit, afterFirstDot?_append hfront]
    have hsegment : chosenSegment (segments fullName) = firstSegment rest := by
      rw [segments, hsplit, Text.parts_append (eq_dot_of_not_mem hfront) rfl, hmore, chosenSegment]
    simp only [localName, hempty, hafter, hsegment, List.isEmpty_iff]
  · have hafter := afterFirstDot?_of_not_mem hdot
    have hsegment : chosenSegment (segments fullName) = firstSegment fullName.toList := by
      rw [segments, Text.parts_of_not_cut (eq_dot_of_not_mem hdot), firstSegment_of_not_mem hdot,
        chosenSegment]
    simp only [localName, hempty, hafter, hsegment, List.isEmpty_iff]

/-- What is chosen is one of the segments. -/
theorem chosenSegment_mem {l : List (List Char)} (h : l ≠ []) : chosenSegment l ∈ l := by
  cases l with
  | nil => exact absurd rfl h
  | cons first more =>
    cases more with
    | nil => exact List.mem_cons_self
    | cons second more => exact List.mem_cons_of_mem _ List.mem_cons_self

/-- When a name has this local name. -/
theorem localName_eq_ok_iff {fullName name : String} :
    localName fullName = .ok name
      ↔ name ≠ "" ∧ name.toList = chosenSegment (segments fullName) := by
  rw [localName_eq]
  by_cases hsegment : chosenSegment (segments fullName) = []
  · have hnone : ¬ (name ≠ "" ∧ name.toList = chosenSegment (segments fullName)) := by
      rintro ⟨hne, hname⟩
      exact hne (String.toList_inj.1 (hname.trans hsegment))
    rw [if_pos hsegment]
    refine iff_of_false (fun h => ?_) hnone
    split at h <;> cases h
  · have hempty : fullName ≠ "" := fun h => hsegment (h ▸ rfl)
    rw [if_neg hempty, if_neg hsegment]
    constructor
    · intro h
      cases h
      refine ⟨fun hnil => hsegment ?_, String.toList_ofList⟩
      simpa using congrArg String.toList hnil
    · rintro ⟨-, hname⟩
      rw [← hname, String.ofList_toList]

/-- **A local name is not empty and has no dots.** -/
theorem localName_spec {fullName name : String} (h : localName fullName = .ok name) :
    name ≠ "" ∧ '.' ∉ name.toList := by
  obtain ⟨hne, hname⟩ := localName_eq_ok_iff.1 h
  refine ⟨hne, fun hdot => ?_⟩
  have hmem := chosenSegment_mem (Text.parts_ne_nil (· = '.') fullName.toList)
  rw [hname] at hdot
  simpa using Text.not_cut_of_mem_parts _ hmem _ hdot

/-! ## Names without a local name

There are two faults, and a name has one of them at most. -/

/-- What is wrong with a full name: it is empty, or the segment that is to be the local name is. -/
inductive NameFault : String → SpecificationError → Prop
  | emptyName : NameFault "" .emptyName
  | emptySegment {fullName : String} (hne : fullName ≠ "")
      (h : chosenSegment (segments fullName) = []) : NameFault fullName (.emptySegment fullName)

/-- **A name without a local name has one of two faults.** -/
theorem localName_eq_error_iff {fullName : String} {e : SpecificationError} :
    localName fullName = .error e ↔ NameFault fullName e := by
  rw [localName_eq]
  constructor
  · intro h
    split at h
    · next hempty =>
      cases h
      exact hempty ▸ .emptyName
    · next hne =>
      split at h
      · next hsegment =>
        cases h
        exact .emptySegment hne hsegment
      · cases h
  · rintro (_ | ⟨hne, h⟩)
    · rfl
    · rw [if_neg hne, if_pos h]

/-- When there is a fault. -/
theorem exists_nameFault_iff {fullName : String} :
    (∃ e, NameFault fullName e) ↔ fullName = "" ∨ chosenSegment (segments fullName) = [] := by
  constructor
  · rintro ⟨e, _ | ⟨-, h⟩⟩
    · exact .inl rfl
    · exact .inr h
  · intro h
    by_cases hempty : fullName = ""
    · exact ⟨.emptyName, hempty ▸ .emptyName⟩
    · exact ⟨_, .emptySegment hempty (h.resolve_left hempty)⟩

end RemoteModels

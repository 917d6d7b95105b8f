import RemoteModels.Proofs.Specification.Names

/-!
# What the segments of a name are

`segments` computes the segments of a name.  They can also be told without a computation: they are
texts without dots that make up the name when they are joined with dots, and there is only one way
to cut a name into such texts.

* `Segmented` — texts are the segments of a name; `segmented_iff` — those that `segments` computes
  are, and no others.
* `localSegment` — the segment that is to be the local name.
* `localName_by_segments` — the local name is this segment, a name of its own, and the same for
  every longer name.
-/

set_option autoImplicit false

namespace RemoteModels

variable {s text : String} {segs more : List String}

/-! ## Segments

Cutting undoes joining for texts without dots, and joining undoes cutting, so that there is only one
way to cut a name. -/

/-- The texts between the dots of a name. -/
structure Segmented (s : String) (segs : List String) : Prop where
  ne_nil : segs ≠ []
  no_dot : ∀ seg ∈ segs, '.' ∉ seg.toList
  joined : ".".intercalate segs = s

theorem segments_eq_splitOn (s : String) : segments s = s.toList.splitOn '.' :=
  Text.parts_eq_splitOnP s.toList

/-- Texts that make up a name are the ones computed. -/
theorem Segmented.segments_eq (h : Segmented s segs) : segments s = segs.map String.toList := by
  have hno : ∀ cs ∈ segs.map String.toList, '.' ∉ cs := by
    rw [List.forall_mem_map]
    exact h.no_dot
  rw [segments_eq_splitOn, ← h.joined, String.toList_intercalate]
  exact List.splitOn_intercalate '.' hno (by simpa using h.ne_nil)

/-- The ones computed make up the name. -/
theorem segmented_segments (s : String) : Segmented s ((segments s).map String.ofList) where
  ne_nil := fun hnil => Text.parts_ne_nil (· = '.') s.toList (List.map_eq_nil_iff.1 hnil)
  no_dot := by
    rw [List.forall_mem_map]
    intro cs hcs hdot
    rw [String.toList_ofList] at hdot
    simpa using Text.not_cut_of_mem_parts cs hcs _ hdot
  joined := by
    apply String.toList_inj.1
    have hmap : ((segments s).map String.ofList).map String.toList = segments s := by
      simp [Function.comp_def]
    rw [String.toList_intercalate, hmap, segments_eq_splitOn]
    exact List.intercalate_splitOn '.'

/-- **There is one way to cut a name into its segments.** -/
theorem segmented_iff : Segmented s segs ↔ segs = (segments s).map String.ofList := by
  constructor
  · intro h
    rw [h.segments_eq, List.map_map]
    simp [Function.comp_def]
  · rintro rfl
    exact segmented_segments s

/-- A name without dots is its only segment. -/
theorem segmented_self (h : '.' ∉ s.toList) : Segmented s [s] :=
  ⟨by simp, by simpa using h, String.intercalate_singleton⟩

/-- Joining two names with a dot joins their segments. -/
theorem Segmented.append (h : Segmented s segs) (htext : Segmented text more) :
    Segmented (s ++ "." ++ text) (segs ++ more) where
  ne_nil := by simp [h.ne_nil]
  no_dot := List.forall_mem_append.2 ⟨h.no_dot, htext.no_dot⟩
  joined := by
    rw [String.intercalate_append_of_ne_nil h.ne_nil htext.ne_nil, h.joined, htext.joined]

/-! ## The local name

The second segment and the whole name are told apart by whether there is a dot. -/

/-- The second segment of a name, or the whole name where there is no second one. -/
def localSegment (s : String) (segs : List String) : String := segs[1]?.getD s

/-- It is the segment that the local name is made of. -/
theorem Segmented.toList_localSegment (h : Segmented s segs) :
    (localSegment s segs).toList = chosenSegment (segments s) := by
  rw [h.segments_eq]
  obtain ⟨hne, -, hjoined⟩ := h
  cases segs with
  | nil => exact absurd rfl hne
  | cons first rest =>
    cases rest with
    | nil =>
      rw [← hjoined, String.intercalate_singleton]
      rfl
    | cons second rest => rfl

/-- There is a second segment exactly if there is a dot. -/
theorem Segmented.getElem?_one_eq_none_iff (h : Segmented s segs) :
    segs[1]? = none ↔ '.' ∉ s.toList := by
  constructor
  · intro hnone
    obtain ⟨hne, hno, hjoined⟩ := h
    cases segs with
    | nil => exact absurd rfl hne
    | cons first rest =>
      cases rest with
      | nil =>
        rw [← hjoined, String.intercalate_singleton]
        exact hno first List.mem_cons_self
      | cons second rest => cases hnone
  · intro hdot
    rw [segmented_iff.1 h, ← segmented_iff.1 (segmented_self hdot)]
    rfl

theorem Segmented.localName_eq (h : Segmented s segs) :
    localName s =
      if s = "" then .error .emptyName
      else if localSegment s segs = "" then .error (.emptySegment s)
      else .ok (localSegment s segs) := by
  have hnil : (localSegment s segs).toList = [] ↔ localSegment s segs = "" := by
    rw [← String.toList_inj]
    rfl
  rw [RemoteModels.localName_eq, ← h.toList_localSegment, String.ofList_toList]
  simp only [hnil]

theorem Segmented.localName_eq_ok_iff (h : Segmented s segs) {c : String} :
    localName s = .ok c ↔ c ≠ "" ∧ c = localSegment s segs := by
  rw [RemoteModels.localName_eq_ok_iff, ← h.toList_localSegment, String.toList_inj]

/-- What follows the second segment does not matter. -/
theorem localSegment_append (h : 2 ≤ segs.length) (longer : String) (more : List String) :
    localSegment longer (segs ++ more) = localSegment s segs := by
  rw [localSegment, localSegment, List.getElem?_append_left h, List.getElem?_eq_getElem h]
  rfl

/-- **The local name, by segments.**  A name has its segments in one way only, and a second one if
it has a dot.  Without any text there is an error; else the second segment, or the whole name, is
the local name, and it is an error if that is empty.  A local name is not empty, has no dots and is
its own local name, and a name with two segments keeps its local name when more are added. -/
theorem localName_by_segments (s : String) :
    ∃ segs, (∀ other, Segmented s other ↔ other = segs) ∧
      (segs[1]? = none ↔ '.' ∉ s.toList) ∧
      (localName s = .error .emptyName ↔ s = "") ∧
      (s ≠ "" → (localName s = .error (.emptySegment s) ↔ localSegment s segs = "") ∧
        (localName s = .ok (localSegment s segs) ↔ localSegment s segs ≠ "")) ∧
      ∀ c, localName s = .ok c →
        c ≠ "" ∧ '.' ∉ c.toList ∧ localName c = .ok c ∧
        (2 ≤ segs.length → ∀ text, localName (s ++ "." ++ text) = .ok c) := by
  have h := segmented_segments s
  generalize hsegs : (segments s).map String.ofList = segs at h
  have heq := h.localName_eq
  refine ⟨segs, fun other => hsegs ▸ segmented_iff, h.getElem?_one_eq_none_iff, ?_, ?_, ?_⟩
  · rw [heq]
    by_cases hs : s = "" <;> by_cases hc : localSegment s segs = "" <;> simp [hs, hc]
  · intro hs
    rw [heq, if_neg hs]
    by_cases hc : localSegment s segs = "" <;> simp [hc]
  · intro c hc
    obtain ⟨hne, hdot⟩ := localName_spec hc
    obtain ⟨-, rfl⟩ := h.localName_eq_ok_iff.1 hc
    refine ⟨hne, hdot, (segmented_self hdot).localName_eq_ok_iff.2 ⟨hne, rfl⟩, ?_⟩
    intro htwo text
    have hlonger := h.append (segmented_segments text)
    exact hlonger.localName_eq_ok_iff.2 ⟨hne, (localSegment_append htwo _ _).symm⟩

/-- A name with empty segments behind the second one. -/
theorem localName_by_segments_dots :
    Segmented "shop.Widget.." ["shop", "Widget", "", ""] ∧
      localName "shop.Widget.." = .ok "Widget" ∧ localName "Widget" = .ok "Widget" ∧
      localName "shop.Widget...old" = .ok "Widget" := by
  have hsegmented : Segmented "shop.Widget.." ["shop", "Widget", "", ""] :=
    ⟨by simp, by simp, rfl⟩
  have hname : localName "shop.Widget.." = .ok "Widget" := rfl
  obtain ⟨segs, hsegs, -, -, -, hok⟩ := localName_by_segments "shop.Widget.."
  obtain ⟨-, -, hfixed, hmore⟩ := hok "Widget" hname
  have htwo : 2 ≤ segs.length := by
    rw [← (hsegs _).1 hsegmented]
    decide
  exact ⟨hsegmented, hname, hfixed, hmore htwo "old"⟩

end RemoteModels

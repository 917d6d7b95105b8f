import RemoteModels.Proofs.Specification.Monoid

/-!
# Specifications in layers

Several specifications are written over each other.  What a name stands for comes from the last of
them that has it, and its place from the first.

Merging is associative, so the layers may be taken together in any way: those in front of a layer
and those behind it are one specification each, and the statements come down to merging three.

* `Specification.mem_names_mergeAll` — no name is lost, and none is added.
* `Specification.get?_mergeAll` — the last layer with a name declares it.
* `Specification.sublist_names_of_layers`, `Specification.sublist_names_of_layer` — a name is in
  front of one that only later layers have, and names that are new in a layer keep its order.
-/

set_option autoImplicit false

namespace RemoteModels
namespace Specification

/-- **No name is lost, and none is added.** -/
theorem mem_names_mergeAll {parts : List Specification} {name : String} :
    name ∈ (mergeAll parts).entries.names ↔ ∃ part ∈ parts, name ∈ part.entries.names := by
  induction parts with
  | nil => exact iff_of_false List.not_mem_nil (by simp)
  | cons part parts ih =>
    rw [mergeAll_cons, mem_names_merge, ih]
    simp

theorem not_mem_names_mergeAll {parts : List Specification} {name : String}
    (h : ∀ part ∈ parts, name ∉ part.entries.names) : name ∉ (mergeAll parts).entries.names := by
  rw [mem_names_mergeAll]
  rintro ⟨part, hpart, hname⟩
  exact h part hpart hname

/-- **The last layer with a name declares it.** -/
theorem get?_mergeAll {before after : List Specification} {part : Specification} {name : String}
    (hpart : name ∈ part.entries.names) (hafter : ∀ later ∈ after, name ∉ later.entries.names) :
    (mergeAll (before ++ part :: after)).entries.get? name = part.entries.get? name := by
  obtain ⟨body, hbody⟩ := Option.isSome_iff_exists.1 (Members.isSome_get?_iff.2 hpart)
  have hnone := Members.get?_of_not_mem (not_mem_names_mergeAll hafter)
  rw [mergeAll_append, mergeAll_cons, get?_merge, get?_merge, hnone, hbody]
  rfl

/-- The names of the first keep their order. -/
theorem sublist_names_merge_left (a b : Specification) :
    a.entries.names.Sublist (a.merge b).entries.names := by
  rw [names_merge]
  exact List.sublist_append_left ..

/-- What an earlier layer has is in front of what only later layers have. -/
theorem sublist_names_of_layers {before after : List Specification} {n m : String}
    (hn : ∃ part ∈ before, n ∈ part.entries.names) (hm : ∃ part ∈ after, m ∈ part.entries.names)
    (hnew : ∀ part ∈ before, m ∉ part.entries.names) :
    [n, m].Sublist (mergeAll (before ++ after)).entries.names := by
  have hfront : [n].Sublist (mergeAll before).entries.names :=
    List.singleton_sublist.2 (mem_names_mergeAll.2 hn)
  have hbehind : [m].Sublist
      ((mergeAll after).entries.names.filter (· ∉ (mergeAll before).entries.names)) :=
    List.singleton_sublist.2 (List.mem_filter.2
      ⟨mem_names_mergeAll.2 hm, decide_eq_true (not_mem_names_mergeAll hnew)⟩)
  rw [mergeAll_append, names_merge]
  exact hfront.append hbehind

/-- What is new in a layer keeps the order that it has there. -/
theorem sublist_names_of_layer {before after : List Specification} {part : Specification}
    {n m : String} (h : [n, m].Sublist part.entries.names)
    (hn : ∀ earlier ∈ before, n ∉ earlier.entries.names)
    (hm : ∀ earlier ∈ before, m ∉ earlier.entries.names) :
    [n, m].Sublist (mergeAll (before ++ part :: after)).entries.names := by
  have hnew : [n, m].Sublist
      (part.entries.names.filter (· ∉ (mergeAll before).entries.names)) := by
    have hkept := h.filter (· ∉ (mergeAll before).entries.names)
    simpa [not_mem_names_mergeAll hn, not_mem_names_mergeAll hm] using hkept
  have hfront : [n, m].Sublist ((mergeAll before).merge part).entries.names := by
    rw [names_merge]
    exact hnew.trans (List.sublist_append_right ..)
  rw [mergeAll_append, mergeAll_cons, ← merge_assoc]
  exact hfront.trans (sublist_names_merge_left ..)

end Specification
end RemoteModels

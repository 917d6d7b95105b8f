import Mathlib.Data.List.Basic
import RemoteModels.Proofs.Specification.Merge
import RemoteModels.Specification.Basic

/-!
# The algebra of merging

A sequence of members without repetition is known once its names, in their order, and the values
found under them are known.  Merging acts on the two separately: the names of the later sequence
that are new go behind those of the earlier one, and under each name the later value is taken, if
there is one.  Both of these are associative and change nothing when a sequence meets itself, so
merging is and does so too, with every entry in its place.

* `Members.names_merge`, `Members.get?_merge` — names and values of a merged sequence.
* `Specification.eq_of_get?` — specifications with the same names and declarations are the same.
* `Specification.merge_assoc`, `Specification.merge_self` — the laws that need an argument.
* `Specification.mergeAll` — several specifications, each written over those before it.
* `Specification.merge_monoid` — specifications are an idempotent monoid, and what a product is.
-/

set_option autoImplicit false

namespace RemoteModels

/-! ## Names and values

Both can be read off the closed form of a merged sequence, and together they determine it. -/

namespace Members

variable {α : Type}

/-- New names go behind the others. -/
theorem names_merge {m later : Members α} (hm : m.names.Nodup) (hl : later.names.Nodup) :
    (m.merge later).names = m.names ++ later.names.filter (· ∉ m.names) := by
  rw [merge_eq hm hl, names, names, names, List.map_append, List.map_map, List.filter_map]
  rfl

/-- The later value is taken, if there is one. -/
theorem get?_merge (m : Members α) {later : Members α} (hl : later.names.Nodup) (name : String) :
    (m.merge later).get? name = (later.get? name).or (m.get? name) := by
  induction later generalizing m with
  | nil => rfl
  | cons e rest ih =>
    obtain ⟨hfirst, hrest⟩ := List.nodup_cons.1 hl
    show ((m.put e.1 e.2).merge rest).get? name = _
    rw [ih _ hrest, get?_put, get?]
    by_cases hname : e.1 = name
    · -- The name is not repeated, so no later value hides this one.
      have hnone : Members.get? rest name = none := get?_of_not_mem (hname ▸ hfirst)
      simp [hname, hnone]
    · simp [hname]

/-- The members are made up of the names and of what is found under them. -/
theorem filterMap_names {m : Members α} (h : m.names.Nodup) :
    m.names.filterMap (fun name => (m.get? name).map (Prod.mk name)) = m := by
  have hfound : ∀ e ∈ m, (m.get? e.1).map (Prod.mk e.1) = some e := fun e he => by
    rw [get?_of_mem h he]
    rfl
  rw [names, List.filterMap_map]
  calc m.filterMap ((fun name => (m.get? name).map (Prod.mk name)) ∘ Prod.fst)
      = m.filterMap some := List.filterMap_congr hfound
    _ = m := List.filterMap_some

/-- Two sequences with the same names and values are the same. -/
theorem eq_of_get? {m m' : Members α} (hm : m.names.Nodup) (hnames : m.names = m'.names)
    (hget : ∀ name, m.get? name = m'.get? name) : m = m' := by
  have hm' : m'.names.Nodup := hnames ▸ hm
  rw [← filterMap_names hm, ← filterMap_names hm', hnames, funext hget]

end Members

/-! ## Laws

Each law is shown for names and for values.  For values it is one of options, and for names one of
lists without what another list has. -/

namespace Specification

/-- A specification is its entries. -/
theorem eq_of_entries_eq {s t : Specification} (h : s.entries = t.entries) : s = t := by
  cases s
  cases t
  cases h
  rfl

/-- **Specifications with the same names, in the same order, and the same declarations are the
same.** -/
theorem eq_of_get? {s t : Specification} (hnames : s.entries.names = t.entries.names)
    (hget : ∀ name, s.entries.get? name = t.entries.get? name) : s = t :=
  eq_of_entries_eq (Members.eq_of_get? s.distinct hnames hget)

theorem names_merge (a b : Specification) :
    (a.merge b).entries.names
      = a.entries.names ++ b.entries.names.filter (· ∉ a.entries.names) :=
  Members.names_merge a.distinct b.distinct

theorem get?_merge (a b : Specification) (name : String) :
    (a.merge b).entries.get? name = (b.entries.get? name).or (a.entries.get? name) :=
  Members.get?_merge a.entries b.distinct name

theorem mem_names_merge {a b : Specification} {name : String} :
    name ∈ (a.merge b).entries.names ↔ name ∈ a.entries.names ∨ name ∈ b.entries.names := by
  rw [names_merge, List.mem_append, List.mem_filter, decide_eq_true_iff]
  by_cases hname : name ∈ a.entries.names <;> simp [hname]

theorem merge_empty (a : Specification) : a.merge empty = a := rfl

theorem empty_merge (a : Specification) : empty.merge a = a := by
  refine eq_of_get? ?_ fun name => ?_
  · rw [names_merge, show empty.entries.names = [] from rfl, List.nil_append]
    exact List.filter_eq_self.2 (by simp)
  · rw [get?_merge, show empty.entries.get? name = none from rfl, Option.or_none]

/-- **Merging is associative.** -/
theorem merge_assoc (a b c : Specification) : (a.merge b).merge c = a.merge (b.merge c) := by
  refine eq_of_get? ?_ fun name => ?_
  · -- A name of `c` is new to the other two together exactly if it is new to both of them.
    have hnew : c.entries.names.filter (· ∉ (a.merge b).entries.names)
        = (c.entries.names.filter (· ∉ b.entries.names)).filter (· ∉ a.entries.names) := by
      rw [List.filter_filter]
      refine List.filter_congr fun name _ => ?_
      simp [mem_names_merge]
    rw [names_merge, hnew, names_merge a b, names_merge a, names_merge b, List.filter_append,
      List.append_assoc]
  · simp only [get?_merge, Option.or_assoc]

/-- **Merging a specification with itself changes nothing.** -/
theorem merge_self (a : Specification) : a.merge a = a := by
  refine eq_of_get? ?_ fun name => ?_
  · have hnone : a.entries.names.filter (· ∉ a.entries.names) = [] :=
      List.filter_eq_nil_iff.2 fun name hname => by simpa using hname
    rw [names_merge, hnone, List.append_nil]
  · rw [get?_merge, Option.or_self]

/-- **Specifications are an idempotent monoid under merging, the order of entries included.**  The
entries of a merged specification are those of the earlier one in their places, each with the
declaration of the later one if it has the name, and behind them the entries of the later one that
are new, in their order. -/
theorem merge_monoid (a b c : Specification) :
    a.merge empty = a ∧ empty.merge a = a ∧
      (a.merge b).merge c = a.merge (b.merge c) ∧ a.merge a = a ∧
      (a.merge b).entries
        = (a.entries.map fun e => (e.1, (b.entries.get? e.1).getD e.2)) ++
          b.entries.filter (·.1 ∉ a.entries.names) :=
  ⟨merge_empty a, empty_merge a, merge_assoc a b c, merge_self a,
    Members.merge_eq a.distinct b.distinct⟩

/-! ## Several specifications

By associativity it does not matter where a list of specifications is cut. -/

/-- Each specification written over those before it. -/
def mergeAll (parts : List Specification) : Specification := parts.foldl merge empty

theorem foldl_merge (a : Specification) (parts : List Specification) :
    parts.foldl merge a = a.merge (mergeAll parts) := by
  induction parts generalizing a with
  | nil => exact (merge_empty a).symm
  | cons b parts ih =>
    rw [mergeAll, List.foldl_cons, List.foldl_cons, empty_merge, ih, ih b, merge_assoc]

/-- A list may be merged in two halves. -/
theorem mergeAll_append (before after : List Specification) :
    mergeAll (before ++ after) = (mergeAll before).merge (mergeAll after) := by
  rw [mergeAll, List.foldl_append, foldl_merge]
  rfl

theorem mergeAll_cons (a : Specification) (parts : List Specification) :
    mergeAll (a :: parts) = a.merge (mergeAll parts) := by
  rw [mergeAll, List.foldl_cons, empty_merge, foldl_merge]

end Specification
end RemoteModels

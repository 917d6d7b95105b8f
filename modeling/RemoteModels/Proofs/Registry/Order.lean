import RemoteModels.Proofs.Places
import RemoteModels.Proofs.Registry.Lookup
import RemoteModels.Proofs.Text.Sorting
import RemoteModels.Tree

/-!
# The order of entries does not matter

A registry is filled in the order of the document, yet hardly anything of that order is left in it:
under each local name it has the last entry of that name, and its views are in the order of names,
which no two models share.  So entries may be moved past each other as long as those with one local
name keep their order among themselves, and models may be listed in any order before they are
sorted.

* `Specification.Rearranged` — the same entries in another order, which keeps that of entries with
  one local name.
* `Registry.eq_of_get?` — a registry is known by what it has under each name.
* `Registry.mergeSort_gateways`, `Registry.mergeSort_names` — sorting by name gives the views back,
  in whatever order the models are listed.
* `Registry.Alike`, `Registry.rearranged_alike` — nothing tells the registries of a specification
  and of a rearranged one from each other.
-/

set_option autoImplicit false

namespace RemoteModels

open Json (Object)

/-! ## Rearranged specifications

Entries are told apart by their full names, so an order among them can be stated as a sublist of
two. -/

namespace Specification

/-- `t` has the entries of `s`, and of two entries with one local name the one that is in front in
`s` is in front in `t` too. -/
structure Rearranged (s t : Specification) : Prop where
  perm : s.entries.Perm t.entries
  order : ∀ {name e f}, localName e.1 = .ok name → localName f.1 = .ok name →
    [e, f].Sublist s.entries → [e, f].Sublist t.entries

variable {s t : Specification}

theorem nodup_entries (s : Specification) : s.entries.Nodup := s.distinct.of_map

/-- The entries with one local name are the same, in the same order. -/
theorem Rearranged.filter_eq (h : s.Rearranged t) (name : String) :
    s.entries.filter (hasLocalName name) = t.entries.filter (hasLocalName name) := by
  refine eq_of_perm_of_order (t.nodup_entries.filter _) (h.perm.filter _) fun {e f} hef => ?_
  have he : hasLocalName name e := (List.mem_filter.1 (hef.subset (by simp))).2
  have hf : hasLocalName name f := (List.mem_filter.1 (hef.subset (by simp))).2
  have hsub := (h.order (hasLocalName_iff.1 he) (hasLocalName_iff.1 hf)
    (hef.trans List.filter_sublist)).filter (hasLocalName name)
  rwa [List.filter_cons_of_pos he, List.filter_cons_of_pos hf] at hsub

/-- So the entry that counts is the same. -/
theorem Rearranged.lastNamed?_eq (h : s.Rearranged t) (name : String) :
    s.lastNamed? name = t.lastNamed? name := by
  rw [lastNamed?, lastNamed?, h.filter_eq]

theorem Rearranged.acceptable_iff (h : s.Rearranged t) : s.Acceptable ↔ t.Acceptable :=
  forall_congr' fun _ => imp_congr_left h.perm.mem_iff

/-- Two neighbours with different local names may change places. -/
theorem rearranged_of_swap {e f : String × Object} {rest : List (String × Object)}
    (hs : s.entries = e :: f :: rest) (ht : t.entries = f :: e :: rest)
    (hne : ∀ name, localName e.1 = .ok name → localName f.1 ≠ .ok name) : s.Rearranged t where
  perm := by
    rw [hs, ht]
    exact List.Perm.swap f e rest
  order := by
    intro name a b ha hb hab
    rw [hs] at hab
    rw [ht]
    rcases List.cons_sublist_cons'.1 hab with hab | ⟨rfl, hb'⟩
    · rcases List.cons_sublist_cons'.1 hab with hab | ⟨rfl, hb'⟩
      · exact (hab.cons e).cons f
      · exact (hb'.cons e).cons_cons a
    · rcases List.cons_sublist_cons'.1 hb' with hb' | ⟨rfl, -⟩
      · exact (hb'.cons_cons a).cons f
      · exact absurd hb (hne name ha)

end Specification

/-! ## Registries and their views

Two lists in increasing order with the same gateways are equal, and this is all that is needed: a
registry has no other state, and its views are functions of it. -/

namespace Registry

variable {r q : Registry}

/-- **A registry is known by what it has under each name.** -/
theorem eq_of_get? (h : ∀ name, r.get? name = q.get? name) : r = q := by
  have hperm : r.gateways.Perm q.gateways :=
    (List.perm_ext_iff_of_nodup r.nodup_gateways q.nodup_gateways).2 fun g => by
      rw [mem_iff_get?, mem_iff_get?, h]
  have hgateways : r.gateways = q.gateways :=
    hperm.eq_of_pairwise (fun _ _ _ _ hab hba => absurd hba (String.lt_asymm hab))
      r.increasing q.increasing
  cases r
  cases q
  cases hgateways
  rfl

/-- **Models that are listed in any order are sorted by their names into the order of the
registry.** -/
theorem mergeSort_gateways {l : List Gateway} (h : l.Perm r.gateways) :
    (l.mergeSort fun g k => decide (g.modelName ≤ k.modelName)) = r.gateways :=
  Text.mergeSort_eq_of_perm h r.increasing

/-- And so are their names. -/
theorem mergeSort_names {l : List String} (h : l.Perm r.names) :
    (l.mergeSort fun a b => decide (a ≤ b)) = r.names :=
  Text.mergeSort_eq_of_perm h (List.pairwise_map.2 r.increasing)

/-- Whatever can be asked of a registry has the same answer for both. -/
structure Alike (r q : Registry) : Prop where
  size : r.size = q.size
  names : r.names = q.names
  gateways : r.gateways = q.gateways
  get? : ∀ name, r.get? name = q.get? name
  contains : ∀ name, r.contains name = q.contains name
  children : ∀ p, r.childrenOf p = q.childrenOf p
  roots : r.roots = q.roots
  /-- The paths of collections and records, of every model there is. -/
  collectionUrl : ∀ name parentId,
    (r.get? name).map (·.collectionUrl parentId) = (q.get? name).map (·.collectionUrl parentId)
  itemUrl : ∀ name id, (r.get? name).map (·.itemUrl id) = (q.get? name).map (·.itemUrl id)
  /-- The lines of the tree, as they are and as they are shown. -/
  tree : r.tree = q.tree
  lines : r.tree.map TreeLine.text = q.tree.map TreeLine.text
  /-- The models and the names of the one, listed in any order, are sorted into those of the
  other. -/
  sorted : ∀ l : List Gateway, l.Perm r.gateways →
    (l.mergeSort fun g k => decide (g.modelName ≤ k.modelName)) = q.gateways
  sortedNames : ∀ l : List String, l.Perm r.names →
    (l.mergeSort fun a b => decide (a ≤ b)) = q.names

/-- A registry is like itself; that sorting gives its own views back is the only part that takes a
proof. -/
theorem alike_refl (r : Registry) : Alike r r where
  size := rfl
  names := rfl
  gateways := rfl
  get? _ := rfl
  contains _ := rfl
  children _ := rfl
  roots := rfl
  collectionUrl _ _ := rfl
  itemUrl _ _ := rfl
  tree := rfl
  lines := rfl
  sorted _ := mergeSort_gateways
  sortedNames _ := mergeSort_names

/-- A specification with a bad name is refused. -/
theorem exists_error_of_not_acceptable {s : Specification} (h : ¬ s.Acceptable) :
    ∃ e, ofSpecification s = .error e := by
  cases hs : ofSpecification s with
  | error e => exact ⟨e, rfl⟩
  | ok built => exact absurd (exists_ofSpecification_iff.1 ⟨_, _, hs⟩) h

/-- **The order of entries with different local names does not matter.**  A specification and a
rearranged one are both refused, or both have registries, which nothing tells from each other. -/
theorem rearranged_alike {s t : Specification} (h : s.Rearranged t) :
    (∃ e e', ofSpecification s = .error e ∧ ofSpecification t = .error e') ∨
      ∃ r q logs logs', ofSpecification s = .ok (r, logs) ∧ ofSpecification t = .ok (q, logs') ∧
        Alike r q := by
  by_cases hs : s.Acceptable
  · right
    obtain ⟨r, logs, hr⟩ := exists_ofSpecification_iff.2 hs
    obtain ⟨q, logs', hq⟩ := exists_ofSpecification_iff.2 (h.acceptable_iff.1 hs)
    have hrq : r = q := eq_of_get? fun name => by
      rw [get?_ofSpecification hr, get?_ofSpecification hq, h.lastNamed?_eq]
    exact ⟨r, q, logs, logs', hr, hq, hrq ▸ alike_refl r⟩
  · left
    obtain ⟨e, he⟩ := exists_error_of_not_acceptable hs
    obtain ⟨e', he'⟩ := exists_error_of_not_acceptable (mt h.acceptable_iff.2 hs)
    exact ⟨e, e', he, he'⟩

end Registry

/-! ## A gadget among widgets

The gadget may be anywhere, but the two widgets must stay in their order. -/

namespace SwappedEntries

/-- Two widgets of one local name, and a gadget between them. -/
def inOrder : Specification :=
  .ofEntries [("shop.Widget", [("label", .string "string")]), ("Gadget", []),
    ("store.Widget", [("shelf", .string "int")])]

/-- The gadget in front. -/
def gadgetFirst : Specification :=
  .ofEntries [("Gadget", []), ("shop.Widget", [("label", .string "string")]),
    ("store.Widget", [("shelf", .string "int")])]

theorem inOrder_rearranged : inOrder.Rearranged gadgetFirst := by
  have hshop : localName "shop.Widget" = .ok "Widget" := eq_ok_of_toOption (by decide +kernel)
  have hgadget : localName "Gadget" = .ok "Gadget" := eq_ok_of_toOption (by decide +kernel)
  refine Specification.rearranged_of_swap rfl rfl fun name hname => ?_
  rw [hshop, Except.ok.injEq] at hname
  rw [hgadget, ← hname]
  simp

/-- The store's widget counts, wherever the gadget is. -/
theorem rearranged_alike_widget : inOrder.Rearranged gadgetFirst ∧
    ∃ r q logs logs', Registry.ofSpecification inOrder = .ok (r, logs) ∧
      Registry.ofSpecification gadgetFirst = .ok (q, logs') ∧ Registry.Alike r q ∧
      (q.get? "Widget").map (·.descriptor.fullName) = some "store.Widget" := by
  obtain ⟨r, logs, hr, hwidget⟩ := Registry.exists_ofSpecification_of_any inOrder
    (fun r => (r.get? "Widget").map (·.descriptor.fullName) == some "store.Widget")
    (by decide +kernel)
  rcases Registry.rearranged_alike inOrder_rearranged with
    ⟨e, -, he, -⟩ | ⟨r', q, l, l', hr', hq, h⟩
  · rw [hr] at he
    cases he
  · rw [hr] at hr'
    cases hr'
    exact ⟨inOrder_rearranged, r, q, _, _, hr, hq, h, h.get? "Widget" ▸ beq_iff_eq.1 hwidget⟩

end SwappedEntries
end RemoteModels

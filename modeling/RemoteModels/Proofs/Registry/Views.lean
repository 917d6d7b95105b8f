import Mathlib.Data.List.Nodup
import RemoteModels.Proofs.Registry.Lookup
import RemoteModels.Proofs.Specification.Names
import RemoteModels.Proofs.Text.Bytewise

/-!
# The registry of a specification

A registry is built by one pass over the entries, in which a later entry takes the place of an
earlier one with the same local name, and leaves a warning.  What comes of it can be said without
the pass.  Under each local name there is the gateway of the last entry that has it; the gateways
are in the order of their names; the warnings are in the order of the entries, one for each that
finds its name taken, and name the entry that took it last.  So an entry is either the first of its
local name, and then the registry has one model more for it, or there is a warning about it.

* `Specification.warnings` — the warnings, read off the entries.
* `Registry.snd_addAll` — these are the warnings of the pass.
* `Registry.size_addAll` — models and warnings make up the entries.
* `Registry.perm_flatMap_childrenOf` — the children of all parents make up the models.
* `Registry.Reflects`, `Registry.ofSpecification_reflects` — the registry and its views.
-/

set_option autoImplicit false

namespace RemoteModels

open Json (Object)
open Text (Bytewise)

/-! ## Warnings

A warning depends on what was put in before.  Read off the entries, it depends on those in front of
its own, and the lookups say that these are the same. -/

namespace Specification

/-- The warning about an entry behind the entries `before`, if one of them has its local name: it
takes the place of the last one that does. -/
def warningAfter (before : List (String × Object)) (e : String × Object) : Option LogEntry :=
  (localName e.1).toOption.bind fun name =>
    (before.filter (hasLocalName name)).getLast?.map fun old =>
      { level := .warn
        reporter := .factory
        message := "model '" ++ name ++ "' from '" ++ e.1 ++ "' replaces '" ++ old.1 ++ "'" }

/-- The warnings about the entries of a specification, in their order. -/
def warnings (s : Specification) : List LogEntry :=
  (List.range s.size).filterMap fun i => s.entries[i]?.bind (warningAfter (s.entries.take i))

/-- The warnings about the entries `rest` behind the entries `before`. -/
def warningsAfter : List (String × Object) → List (String × Object) → List LogEntry
  | _, [] => []
  | before, e :: rest => (warningAfter before e).toList ++ warningsAfter (before ++ [e]) rest

/-- By recursion or by position. -/
theorem warningsAfter_eq (before rest : List (String × Object)) :
    warningsAfter before rest = (List.range rest.length).filterMap fun i =>
      rest[i]?.bind (warningAfter (before ++ rest.take i)) := by
  induction rest generalizing before with
  | nil => rfl
  | cons e rest ih =>
    rw [warningsAfter, ih, List.length_cons, List.range_succ_eq_map, List.filterMap_cons,
      List.filterMap_map]
    cases hfirst : warningAfter before e <;> simp [hfirst, Function.comp_def]

theorem warnings_eq (s : Specification) : s.warnings = warningsAfter [] s.entries := by
  rw [warningsAfter_eq]
  rfl

end Specification

namespace Registry

open Specification (warningAfter warningsAfter)

variable {s : Specification} {r : Registry} {g : Gateway}

theorem fst_addAll_cons (r : Registry) (d : Descriptor) (ds : List Descriptor) :
    (r.addAll (d :: ds)).1 = ((r.put ⟨d⟩).addAll ds).1 := rfl

theorem snd_addAll_cons (r : Registry) (d : Descriptor) (ds : List Descriptor) :
    (r.addAll (d :: ds)).2
      = ((r.get? d.localName).map fun old => replacement d old.descriptor).toList ++
        ((r.put ⟨d⟩).addAll ds).2 := by
  rw [addAll]
  cases r.get? d.localName <;> rfl

/-- **The warnings of the pass are those that can be read off the entries.** -/
theorem snd_addAll {before rest : List (String × Object)} {ds : List Descriptor}
    (h : Descriptor.ofEntries rest = .ok ds)
    (hr : ∀ name, r.get? name
      = (before.filter (hasLocalName name)).getLast?.map (Gateway.ofEntry name)) :
    (r.addAll ds).2 = warningsAfter before rest := by
  induction rest generalizing before ds r with
  | nil =>
    cases h
    rfl
  | cons e rest ih =>
    obtain ⟨d, hd, h⟩ := of_bind_eq_ok h
    obtain ⟨more, hmore, h⟩ := of_bind_eq_ok h
    cases h
    obtain ⟨first, hfirst, rfl⟩ := Descriptor.ofDeclaration_eq_ok_iff.1 hd
    -- After the entry has been put in, its name is taken by it.
    have hnext : ∀ name, (r.put (Gateway.ofEntry first e)).get? name
        = ((before ++ [e]).filter (hasLocalName name)).getLast?.map (Gateway.ofEntry name) := by
      intro name
      rw [get?_put, hr, List.filter_append, List.getLast?_append]
      by_cases hname : first = name
      · subst hname
        have he : hasLocalName first e = true := hasLocalName_iff.2 hfirst
        simp [Gateway.modelName, Gateway.ofEntry, he]
      · have he : hasLocalName name e = false := by
          rw [← Bool.not_eq_true, hasLocalName_iff, hfirst]
          simpa using hname
        simp [Gateway.modelName, Gateway.ofEntry, he, hname]
    have hwarning : ((r.get? first).map fun old =>
        replacement (Gateway.ofEntry first e).descriptor old.descriptor)
          = warningAfter before e := by
      rw [hr, Option.map_map, warningAfter, hfirst]
      rfl
    rw [snd_addAll_cons, warningsAfter, ← ih hmore hnext, ← hwarning]
    rfl

/-! ## Models and warnings make up the entries

Each entry adds a model or a warning, and never both. -/

/-- Putting a gateway in adds its name, unless it is there. -/
theorem perm_names_put (r : Registry) (g : Gateway) :
    (r.put g).names.Perm (r.names.insert g.modelName) := by
  refine (List.perm_ext_iff_of_nodup (nodup_names _) (r.nodup_names.insert)).2 fun name => ?_
  rw [List.mem_insert_iff, mem_names_iff, mem_names_iff, get?_put]
  by_cases hname : g.modelName = name
  · simp [hname]
  · have hne : name ≠ g.modelName := fun heq => hname heq.symm
    simp [hname, hne]

theorem size_eq_length_names (r : Registry) : r.size = r.names.length := by
  rw [names, List.length_map, size]

/-- A gateway takes the place of the one with its name, or is one more. -/
theorem size_put (r : Registry) (g : Gateway) :
    (r.put g).size = r.size + if (r.get? g.modelName).isSome then 0 else 1 := by
  rw [size_eq_length_names, (r.perm_names_put g).length_eq, size_eq_length_names]
  by_cases hname : g.modelName ∈ r.names
  · have hsome : (r.get? g.modelName).isSome := Option.isSome_iff_exists.2 (mem_names_iff.1 hname)
    rw [List.length_insert_of_mem hname, if_pos hsome]
    rfl
  · have hnone : ¬ (r.get? g.modelName).isSome := fun hsome =>
      hname (mem_names_iff.2 (Option.isSome_iff_exists.1 hsome))
    rw [List.length_insert_of_not_mem hname, if_neg hnone]

/-- **Models and warnings make up the entries.** -/
theorem size_addAll (r : Registry) (ds : List Descriptor) :
    (r.addAll ds).1.size + (r.addAll ds).2.length = r.size + ds.length := by
  induction ds generalizing r with
  | nil => rfl
  | cons d ds ih =>
    have hsize := size_put r ⟨d⟩
    have hrest := ih (r.put ⟨d⟩)
    rw [fst_addAll_cons, snd_addAll_cons, List.length_append, List.length_cons]
    cases hget : r.get? d.localName with
    | none =>
      simp only [Gateway.modelName, hget] at hsize
      simp at hsize ⊢
      omega
    | some old =>
      simp only [Gateway.modelName, hget] at hsize
      simp at hsize ⊢
      omega

/-! ## Views

The children of a name are a part of the models, and every model is the child of one name.  Nothing
is said here about whether the name is that of a model. -/

/-- **The children of all parents make up the models.** -/
theorem perm_flatMap_childrenOf {parents : List String} (hnodup : parents.Nodup)
    (hparents : ∀ p, p ∈ parents ↔ ∃ g ∈ r.gateways, g.parentName = p) :
    (parents.flatMap r.childrenOf).Perm r.gateways := by
  have hflat : (parents.flatMap r.childrenOf).Nodup := by
    refine List.nodup_flatMap.2 ⟨fun p _ => r.nodup_gateways.filter _, hnodup.imp ?_⟩
    intro p q hne g hp hq
    exact hne ((mem_childrenOf.1 hp).2.symm.trans (mem_childrenOf.1 hq).2)
  refine (List.perm_ext_iff_of_nodup hflat r.nodup_gateways).2 fun g => ?_
  rw [List.mem_flatMap]
  constructor
  · rintro ⟨p, -, hg⟩
    exact mem_of_mem_childrenOf g hg
  · intro hg
    exact ⟨g.parentName, (hparents _).2 ⟨g, hg, rfl⟩, mem_childrenOf.2 ⟨hg, rfl⟩⟩

/-- The models are those under the names. -/
theorem map_get?_names (r : Registry) : r.names.map r.get? = r.gateways.map some := by
  rw [names, List.map_map]
  exact List.map_congr_left fun g hg => mem_iff_get?.1 hg

/-- The names of a registry are the local names of the entries. -/
theorem isSome_get?_ofSpecification {logs : List LogEntry} {name : String}
    (h : ofSpecification s = .ok (r, logs)) :
    (r.get? name).isSome = true ↔ ∃ e ∈ s.entries, localName e.1 = .ok name := by
  rw [get?_ofSpecification h, Option.isSome_map, Specification.lastNamed?, List.getLast?_isSome,
    ne_eq, List.filter_eq_nil_iff]
  simp only [hasLocalName_iff, not_forall, not_not, exists_prop]

/-- The last entry of a local name counts, as it is declared. -/
theorem get?_of_last {logs : List LogEntry} {name : String} (h : ofSpecification s = .ok (r, logs))
    {before after : List (String × Object)} {e : String × Object}
    (hsplit : s.entries = before ++ e :: after) (he : localName e.1 = .ok name)
    (hlast : ∀ f ∈ after, localName f.1 ≠ .ok name) :
    r.get? name = some (Gateway.ofEntry name e) := by
  have hafter : after.filter (hasLocalName name) = [] :=
    List.filter_eq_nil_iff.2 fun f hf hname => hlast f hf (hasLocalName_iff.1 hname)
  have hfilter : s.entries.filter (hasLocalName name)
      = before.filter (hasLocalName name) ++ [e] := by
    rw [hsplit, List.filter_append, List.filter_cons_of_pos (hasLocalName_iff.2 he), hafter]
  rw [get?_ofSpecification h, Specification.lastNamed?, hfilter, List.getLast?_concat]
  rfl

/-- A registry, and the warnings about its entries, as a specification gives them. -/
structure Reflects (s : Specification) (r : Registry) (warnings : List LogEntry) : Prop where
  /-- The registry has a name exactly if some entry has it for its local name. -/
  isSome_get? : ∀ name, (r.get? name).isSome = true ↔ ∃ e ∈ s.entries, localName e.1 = .ok name
  /-- The last of the entries with a local name counts, as it is declared. -/
  get?_last : ∀ before e after name, s.entries = before ++ e :: after →
    localName e.1 = .ok name → (∀ f ∈ after, localName f.1 ≠ .ok name) →
    ∃ g, r.get? name = some g ∧ Descriptor.ofDeclaration e.1 e.2 = .ok g.descriptor
  /-- A model has the name under which it is found; it is not empty and has no dots. -/
  key : ∀ name g, r.get? name = some g → g.modelName = name ∧ name ≠ "" ∧ '.' ∉ name.toList
  /-- The names are in the order of their bytes, each of them once, -/
  names : r.names.Pairwise Bytewise
  /-- they are the local names, -/
  mem_names : ∀ name, name ∈ r.names ↔ ∃ e ∈ s.entries, localName e.1 = .ok name
  /-- and the models are in the order of their names. -/
  gateways : r.names.map r.get? = r.gateways.map some
  /-- The children of a parent are the models that name it, in the same order. -/
  children : ∀ p, (r.childrenOf p).Sublist r.gateways ∧
    ∀ g, g ∈ r.childrenOf p ↔ g ∈ r.gateways ∧ g.parentName = p
  /-- The children of the parents that are named, each taken once, make up the models. -/
  partition : ∀ parents : List String, parents.Nodup →
    (∀ p, p ∈ parents ↔ ∃ g ∈ r.gateways, g.parentName = p) →
    (parents.flatMap r.childrenOf).Perm r.gateways
  /-- The models without a parent are the children of `none`. -/
  roots : r.roots = r.childrenOf "none"
  /-- There is one warning for each entry whose local name an earlier entry has, in the order of the
  entries; it names the last one of these. -/
  warnings_eq : warnings = s.warnings
  /-- Models and warnings make up the entries. -/
  size : s.size = r.size + warnings.length

/-- **The registry of a specification and its views.**  If all its names are acceptable, a
specification has a registry, and this is what it has and what is reported about it. -/
theorem ofSpecification_reflects (h : s.Acceptable) :
    ∃ r warnings, ofSpecification s = .ok (r, warnings ++ [r.readyReport]) ∧
      Reflects s r warnings := by
  obtain ⟨ds, hds⟩ := Descriptor.exists_ofEntries_iff.2 h
  have hbuilt := ofSpecification_of_descriptors hds
  have hnames : ∀ name, ((ofDescriptors ds).1.get? name).isSome = true
      ↔ ∃ e ∈ s.entries, localName e.1 = .ok name := fun _ => isSome_get?_ofSpecification hbuilt
  refine ⟨_, _, hbuilt, hnames, ?_, ?_, ?_, ?_, map_get?_names _, ?_, ?_, rfl, ?_, ?_⟩
  · intro before e after name hsplit he hlast
    have hdeclared := Descriptor.ofDeclaration_eq_ok_iff.2 ⟨name, he, rfl⟩
    exact ⟨_, get?_of_last hbuilt hsplit he hlast, hdeclared⟩
  · intro name g hg
    obtain ⟨e, -, he⟩ := (hnames name).1 (Option.isSome_iff_exists.2 ⟨g, hg⟩)
    exact ⟨modelName_of_get? hg, localName_spec he⟩
  · exact List.pairwise_map.2 ((ofDescriptors ds).1.increasing.imp Text.bytewise_iff_lt.2)
  · intro name
    rw [mem_names_iff, ← Option.isSome_iff_exists, hnames]
  · exact fun p => ⟨List.filter_sublist, fun g => mem_childrenOf⟩
  · exact fun parents hnodup hparents => perm_flatMap_childrenOf hnodup hparents
  · rw [Specification.warnings_eq]
    exact snd_addAll hds fun _ => rfl
  · have hsize := size_addAll empty ds
    rw [Descriptor.length_ofEntries hds, show empty.size = 0 from rfl, Nat.zero_add] at hsize
    exact hsize.symm

end Registry

/-! ## A name that is taken twice

The second warning is about the widget that took the place of the first one. -/

namespace TakenTwice

/-- Three widgets, of which the last one counts. -/
def specification : Specification :=
  .ofEntries [("shop.Widget", [("label", .string "string")]), ("Gadget", []),
    ("store.Widget", [("shelf", .string "int")]), ("spare.Widget.old", [("age", .string "int")])]

/-- Each warning names the widget before, and not the first one. -/
theorem specification_reflected : specification.Acceptable ∧
    ∃ r warnings, Registry.ofSpecification specification = .ok (r, warnings ++ [r.readyReport]) ∧
      r.size = 2 ∧
      (∃ g, r.get? "Widget" = some g ∧ g.descriptor.fullName = "spare.Widget.old") ∧
      warnings.map (·.message) = ["model 'Widget' from 'store.Widget' replaces 'shop.Widget'",
        "model 'Widget' from 'spare.Widget.old' replaces 'store.Widget'"] := by
  have hacceptable : specification.Acceptable := by
    obtain ⟨r, logs, hr, -⟩ := Registry.exists_ofSpecification_of_any specification (fun _ => true)
      (by decide +kernel)
    exact Registry.exists_ofSpecification_iff.1 ⟨r, logs, hr⟩
  obtain ⟨r, warnings, hr, hviews⟩ := Registry.ofSpecification_reflects hacceptable
  have hmessages : specification.warnings.map (·.message)
      = ["model 'Widget' from 'store.Widget' replaces 'shop.Widget'",
        "model 'Widget' from 'spare.Widget.old' replaces 'store.Widget'"] := by decide +kernel
  have hsize := hviews.size
  rw [hviews.warnings_eq] at hr hsize
  have hlength : specification.warnings.length = 2 := by
    rw [← List.length_map (·.message), hmessages]
    rfl
  have hentries : specification.size = 4 := rfl
  obtain ⟨g, hg, hdeclared⟩ := hviews.get?_last (specification.entries.take 3)
    ("spare.Widget.old", [("age", .string "int")]) [] "Widget" rfl
    (eq_ok_of_toOption (by decide +kernel)) (by simp)
  obtain ⟨name, -, hdescriptor⟩ := Descriptor.ofDeclaration_eq_ok_iff.1 hdeclared
  exact ⟨hacceptable, r, _, hr, by omega, ⟨g, hg, hdescriptor ▸ rfl⟩, hmessages⟩

end TakenTwice
end RemoteModels

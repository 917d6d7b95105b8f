import Mathlib.Data.List.Nodup
import RemoteModels.Proofs.Faults
import RemoteModels.Proofs.Specification.Attainable
import RemoteModels.Registry

/-!
# What a registry has under a name

A registry is built by putting in one gateway after the other, where a later one takes the place of
an earlier one with the same model name.  So what it has under a name in the end is the last one
that was put in under it, whatever its place in the order of names.

Everything else about registries is derived from these lookups.  A view lists the gateways in the
order of their names, and the lookups say which gateways there are.

* `Registry.get?_put`, `Registry.get?_addAll` — the last gateway of a name counts.
* `Registry.mem_iff_get?`, `Registry.eq_of_modelName_eq` — there is one gateway for each name.
* `Descriptor.fullNames_ofEntries`, `Descriptor.filter_ofEntries` — there is a descriptor for each
  entry, and those of one local name are the entries of that name.
* `Specification.Acceptable` — every full name has a local name;
  `Registry.exists_ofSpecification_iff` — exactly then the specification has a registry.
* `Specification.lastNamed?`, `Registry.get?_ofSpecification` — under a name, the registry of a
  specification has the gateway of the last entry with that local name.
-/

set_option autoImplicit false

namespace RemoteModels

open Json (Object)

/-! ## Putting gateways in

The gateways of a registry are kept in increasing order, which is part of what a registry is.  So a
gateway has one place in it, and a lookup by name finds no other gateway than the one that is
there. -/

/-- A gateway that is put in is found under its name, and other names are left as they were. -/
theorem Gateway.find?_place (g : Gateway) (l : List Gateway) (name : String) :
    (g.place l).find? (·.modelName = name)
      = if g.modelName = name then some g else l.find? (·.modelName = name) := by
  induction l with
  | nil => by_cases hg : g.modelName = name <;> simp [place, hg]
  | cons h rest ih =>
    rw [place]
    split
    · by_cases hg : g.modelName = name <;> simp [hg]
    · split
      · next heq =>
        by_cases hg : g.modelName = name
        · simp [hg]
        · have hh : ¬ h.modelName = name := heq ▸ hg
          simp [hg, hh]
      · next heq =>
        by_cases hh : h.modelName = name
        · have hg : ¬ g.modelName = name := fun e => heq (e.trans hh.symm)
          simp [hg, hh]
        · simp [hh, ih]

/-- Each gateway in the list is the first one with its name. -/
theorem Gateway.Increasing.find?_of_mem {l : List Gateway} (h : Increasing l) {g : Gateway}
    (hg : g ∈ l) : l.find? (·.modelName = g.modelName) = some g := by
  induction l with
  | nil => cases hg
  | cons first rest ih =>
    obtain ⟨hfirst, hrest⟩ := List.pairwise_cons.1 h
    rcases List.mem_cons.1 hg with rfl | hg
    · simp
    · have hne : ¬ first.modelName = g.modelName := fun e =>
        String.lt_irrefl _ (e ▸ hfirst g hg)
      simpa [hne] using ih hrest hg

namespace Registry

/-- What is put in last counts. -/
theorem get?_put (r : Registry) (g : Gateway) (name : String) :
    (r.put g).get? name = if g.modelName = name then some g else r.get? name :=
  g.find?_place r.gateways name

/-- **A gateway is in the registry exactly if the registry has it under its name.** -/
theorem mem_iff_get? {r : Registry} {g : Gateway} :
    g ∈ r.gateways ↔ r.get? g.modelName = some g :=
  ⟨r.increasing.find?_of_mem, List.mem_of_find?_eq_some⟩

theorem modelName_of_get? {r : Registry} {g : Gateway} {name : String} (h : r.get? name = some g) :
    g.modelName = name := by
  simpa using List.find?_some h

/-- The names are those under which there is a gateway. -/
theorem mem_names_iff {r : Registry} {name : String} :
    name ∈ r.names ↔ ∃ g, r.get? name = some g := by
  constructor
  · intro h
    obtain ⟨g, hg, rfl⟩ := List.mem_map.1 h
    exact ⟨g, mem_iff_get?.1 hg⟩
  · rintro ⟨g, hg⟩
    exact modelName_of_get? hg ▸ List.mem_map_of_mem (List.mem_of_find?_eq_some hg)

theorem nodup_names (r : Registry) : r.names.Nodup :=
  List.pairwise_map.2 (r.increasing.imp String.ne_of_lt)

theorem nodup_gateways (r : Registry) : r.gateways.Nodup := r.nodup_names.of_map

theorem mem_childrenOf {r : Registry} {p : String} {g : Gateway} :
    g ∈ r.childrenOf p ↔ g ∈ r.gateways ∧ g.parentName = p := by
  simp [childrenOf]

theorem mem_of_mem_childrenOf {r : Registry} {p : String} :
    ∀ g ∈ r.childrenOf p, g ∈ r.gateways := fun _ hg => (mem_childrenOf.1 hg).1

/-- The parent of a model's child is the model. -/
theorem get?_parentName_of_mem {r : Registry} {g c : Gateway} (hg : g ∈ r.gateways)
    (hc : c ∈ r.childrenOf g.modelName) : r.get? c.parentName = some g := by
  rw [(mem_childrenOf.1 hc).2]
  exact mem_iff_get?.1 hg

/-- **A registry has one gateway for each model name.** -/
theorem eq_of_modelName_eq {r : Registry} {g h : Gateway} (hg : g ∈ r.gateways)
    (hh : h ∈ r.gateways) (hname : g.modelName = h.modelName) : g = h := by
  rw [mem_iff_get?] at hg hh
  rw [hname, hh] at hg
  exact (Option.some.inj hg).symm

/-- **Of the models with one name the last one counts.** -/
theorem get?_addAll (r : Registry) (ds : List Descriptor) (name : String) :
    (r.addAll ds).1.get? name
      = ((ds.filter (·.localName = name)).getLast?.map Gateway.mk).or (r.get? name) := by
  induction ds generalizing r with
  | nil => rfl
  | cons d rest ih =>
    show ((r.put ⟨d⟩).addAll rest).1.get? name = _
    rw [ih, get?_put]
    by_cases hd : d.localName = name
    · cases hlast : (rest.filter (·.localName = name)).getLast? <;>
        simp [Gateway.modelName, hd, List.getLast?_cons, hlast]
    · simp [Gateway.modelName, hd]

end Registry

/-! ## The models of a specification

The pass over the entries is opened up once, as a filter: the descriptors of a local name are those
of the entries with that local name, in their order.  What a registry has under a name is then the
last of them. -/

/-- Whether an entry has a local name. -/
def hasLocalName (name : String) (e : String × Object) : Bool :=
  (localName e.1).toOption == some name

theorem hasLocalName_iff {name : String} {e : String × Object} :
    hasLocalName name e ↔ localName e.1 = .ok name := by
  rw [hasLocalName, beq_iff_eq]
  cases localName e.1 <;> simp [Except.toOption]

/-- The gateway of an entry with a local name. -/
def Gateway.ofEntry (name : String) (e : String × Object) : Gateway :=
  ⟨⟨e.1, name, resolveParent e.2, Descriptor.fieldsOf e.2⟩⟩

namespace Specification

/-- Every full name has a local name. -/
def Acceptable (s : Specification) : Prop := ∀ e ∈ s.entries, ∃ name, localName e.1 = .ok name

/-- The last entry with a local name. -/
def lastNamed? (s : Specification) (name : String) : Option (String × Object) :=
  (s.entries.filter (hasLocalName name)).getLast?

end Specification

namespace Descriptor

/-! ## Descriptors of entries

The descriptors are made entry by entry, and the first entry without a local name stops it. -/

/-- An entry has a descriptor exactly if it has a local name. -/
theorem ofDeclaration_eq_ok_iff {e : String × Object} {d : Descriptor} :
    ofDeclaration e.1 e.2 = .ok d
      ↔ ∃ name, RemoteModels.localName e.1 = .ok name
        ∧ (Gateway.ofEntry name e).descriptor = d := by
  constructor
  · intro h
    obtain ⟨name, hname, h⟩ := of_bind_eq_ok h
    exact ⟨name, hname, Except.ok.inj h⟩
  · rintro ⟨name, hname, rfl⟩
    rw [ofDeclaration, hname]
    rfl

theorem ofEntries_eq_mapM (l : List (String × Object)) :
    ofEntries l = l.mapM fun entry => ofDeclaration entry.1 entry.2 := by
  induction l with
  | nil => rfl
  | cons entry rest ih =>
    rw [ofEntries, List.mapM_cons, ih]

/-- **There is a descriptor for each entry.** -/
theorem fullNames_ofEntries {l : Members Object} {ds : List Descriptor}
    (h : ofEntries l = .ok ds) : ds.map (·.fullName) = l.names := by
  rw [ofEntries_eq_mapM, mapM_eq_ok_iff] at h
  induction h with
  | nil => rfl
  | cons hfirst _ ih =>
    obtain ⟨name, -, rfl⟩ := ofDeclaration_eq_ok_iff.1 hfirst
    rw [List.map_cons, ih]
    rfl

theorem length_ofEntries {l : Members Object} {ds : List Descriptor}
    (h : ofEntries l = .ok ds) : ds.length = l.length := by
  rw [← List.length_map (f := (·.fullName)), fullNames_ofEntries h, Members.names,
    List.length_map]

/-- The descriptors of one local name are those of the entries with that local name. -/
theorem filter_ofEntries {l : List (String × Object)} {ds : List Descriptor}
    (h : ofEntries l = .ok ds) (name : String) :
    (ds.filter (·.localName = name)).map Gateway.mk
      = (l.filter (hasLocalName name)).map (Gateway.ofEntry name) := by
  induction l generalizing ds with
  | nil =>
    cases h
    rfl
  | cons e rest ih =>
    obtain ⟨d, hd, h⟩ := of_bind_eq_ok h
    obtain ⟨more, hmore, h⟩ := of_bind_eq_ok h
    cases h
    obtain ⟨first, hfirst, rfl⟩ := ofDeclaration_eq_ok_iff.1 hd
    by_cases hname : first = name
    · subst hname
      have he : hasLocalName first e = true := hasLocalName_iff.2 hfirst
      simp [he, ih hmore, Gateway.ofEntry]
    · have he : hasLocalName name e = false := by
        rw [← Bool.not_eq_true, hasLocalName_iff, hfirst]
        simpa using hname
      simp [he, ih hmore, Gateway.ofEntry, hname]

/-- All entries have descriptors, or none is made. -/
theorem exists_ofEntries_iff {l : List (String × Object)} :
    (∃ ds, ofEntries l = .ok ds) ↔ ∀ e ∈ l, ∃ name, RemoteModels.localName e.1 = .ok name := by
  induction l with
  | nil => exact iff_of_true ⟨[], rfl⟩ (by simp)
  | cons e rest ih =>
    rw [List.forall_mem_cons, ← ih]
    constructor
    · rintro ⟨ds, h⟩
      obtain ⟨d, hd, h⟩ := of_bind_eq_ok h
      obtain ⟨more, hmore, -⟩ := of_bind_eq_ok h
      obtain ⟨name, hname, -⟩ := ofDeclaration_eq_ok_iff.1 hd
      exact ⟨⟨name, hname⟩, more, hmore⟩
    · rintro ⟨⟨name, hname⟩, more, hmore⟩
      have hd := ofDeclaration_eq_ok_iff.2 ⟨name, hname, rfl⟩
      refine ⟨(Gateway.ofEntry name e).descriptor :: more, ?_⟩
      rw [ofEntries, hd, hmore]
      rfl

end Descriptor

namespace Registry

variable {s : Specification} {r : Registry} {logs : List LogEntry} {name : String}

/-! ## Registries

A registry can be built if there are descriptors.  Later models replace earlier ones of the same
local name, so the last entry is the one that is found. -/

/-- A registry is made of the descriptors of its specification. -/
theorem ofSpecification_eq_ok (h : ofSpecification s = .ok (r, logs)) :
    ∃ ds, s.descriptors = .ok ds ∧ r = (ofDescriptors ds).1 := by
  obtain ⟨ds, hds, h⟩ := of_bind_eq_ok h
  refine ⟨ds, hds, ?_⟩
  cases h
  rfl

/-- Once there are descriptors, nothing fails. -/
theorem ofSpecification_of_descriptors {ds : List Descriptor} (h : s.descriptors = .ok ds) :
    ofSpecification s
      = .ok ((ofDescriptors ds).1, (ofDescriptors ds).2 ++ [(ofDescriptors ds).1.readyReport]) := by
  rw [ofSpecification, h]
  rfl

/-- A specification that can be built, and what holds of its registry. -/
theorem exists_ofSpecification_of_any (s : Specification) (P : Registry → Bool)
    (h : (ofSpecification s).toOption.any fun built => P built.1) :
    ∃ r logs, ofSpecification s = .ok (r, logs) ∧ P r := by
  obtain ⟨⟨r, logs⟩, hs, hP⟩ := (Option.any_eq_true _ _).1 h
  exact ⟨r, logs, eq_ok_of_toOption hs, hP⟩

/-- **A specification has a registry exactly if its names are acceptable.** -/
theorem exists_ofSpecification_iff :
    (∃ r logs, ofSpecification s = .ok (r, logs)) ↔ s.Acceptable := by
  rw [Specification.Acceptable, ← Descriptor.exists_ofEntries_iff]
  constructor
  · rintro ⟨r, logs, h⟩
    obtain ⟨ds, hds, -⟩ := ofSpecification_eq_ok h
    exact ⟨ds, hds⟩
  · rintro ⟨ds, hds⟩
    exact ⟨_, _, ofSpecification_of_descriptors hds⟩

/-- **Under a name, a registry has the gateway of the last entry with that local name.** -/
theorem get?_ofSpecification (h : ofSpecification s = .ok (r, logs)) (name : String) :
    r.get? name = (s.lastNamed? name).map (Gateway.ofEntry name) := by
  obtain ⟨ds, hds, rfl⟩ := ofSpecification_eq_ok h
  rw [ofDescriptors, get?_addAll, show empty.get? name = none from rfl, Option.or_none,
    ← List.getLast?_map, Descriptor.filter_ofEntries hds, List.getLast?_map,
    Specification.lastNamed?]

end Registry
end RemoteModels

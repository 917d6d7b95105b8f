import RemoteModels.Proofs.Faults
import RemoteModels.Proofs.Json.RoundTrip
import RemoteModels.Specification.Basic

/-!
# Documents and the specifications they give

A document is accepted as a specification if it is null or an object of declarations, and then its
members are the entries, in their order.

A specification has declarations for its entries, so none of them can turn out to be something else.
This can be told from a draft, in which nothing rules it out: an object with a value for each name,
from which entries are taken by passing over what is no object.  Reading and merging leave no such
value in a draft, and what is passed over is nothing.

* `Specification.IsDeclaration`, `Specification.Declares`, `Specification.Undeclared` — which values
  declare a model, what they declare, and the fault of those that do not.
* `Specification.Acceptance`, `Specification.acceptance` — which values are accepted, with which
  entries, and why others are refused.
* `Recipe` — reading and merging, as a tree; `Recipe.specification` and `Recipe.draft` its results.
* `Recipe.draft_eq` — the draft holds the entries of the specification, and nothing else.
-/

set_option autoImplicit false

namespace RemoteModels

open Json (Value Object)

namespace Specification

/-! ## Members of a document

A member is looked at on its own, and the document is a list of such looks.  That the list ends at
the first fault is a general fact about lists of steps that may fail. -/

/-- Null declares a model without fields, and an object one with fields. -/
def IsDeclaration (v : Value) : Prop := v = .null ∨ ∃ body, v = .object body

/-- The entry of a member: under the same name the same object, or an empty one for null. -/
def Declares (member : String × Value) (entry : String × Object) : Prop :=
  entry.1 = member.1 ∧ (member.2 = .null ∧ entry.2 = [] ∨ member.2 = .object entry.2)

/-- The fault of a member that is no declaration. -/
def Undeclared (member : String × Value) (e : SpecificationError) : Prop :=
  ¬ IsDeclaration member.2 ∧ e = .entryNotAMapping member.1

/-- The entry of a member, or its fault. -/
def entryOf (member : String × Value) : Except SpecificationError (String × Object) :=
  (declaration member.1 member.2).map (Prod.mk member.1)

/-- A member gives the entry that it declares. -/
theorem entryOf_eq_ok_iff {member : String × Value} {entry : String × Object} :
    entryOf member = .ok entry ↔ Declares member entry := by
  obtain ⟨name, v⟩ := member
  obtain ⟨name', body⟩ := entry
  cases v with
  | null => simp [entryOf, declaration, Except.map, Declares, eq_comm]
  | object m => simp [entryOf, declaration, Except.map, Declares, eq_comm]
  | bool | number | string | array => simp [entryOf, declaration, Except.map, Declares]

/-- A member is refused if it is no declaration. -/
theorem entryOf_eq_error_iff {member : String × Value} {e : SpecificationError} :
    entryOf member = .error e ↔ Undeclared member e := by
  obtain ⟨name, v⟩ := member
  cases v with
  | null | object => simp [entryOf, declaration, Except.map, Undeclared, IsDeclaration]
  | bool | number | string | array =>
    simp [entryOf, declaration, Except.map, Undeclared, IsDeclaration, eq_comm]

theorem exists_entryOf_iff {member : String × Value} :
    (∃ entry, entryOf member = .ok entry) ↔ IsDeclaration member.2 := by
  simp only [entryOf_eq_ok_iff, Declares, IsDeclaration]
  constructor
  · rintro ⟨entry, -, h⟩
    rcases h with ⟨hnull, -⟩ | hobject
    · exact .inl hnull
    · exact .inr ⟨entry.2, hobject⟩
  · rintro (hnull | ⟨body, hobject⟩)
    · exact ⟨(member.1, []), rfl, .inl ⟨hnull, rfl⟩⟩
    · exact ⟨(member.1, body), rfl, .inr hobject⟩

/-- The members are taken one after the other. -/
theorem declarations_eq_mapM (m : List (String × Value)) : declarations m = m.mapM entryOf := by
  induction m with
  | nil => rfl
  | cons member rest ih =>
    obtain ⟨name, v⟩ := member
    rw [declarations, List.mapM_cons, ih, entryOf]
    cases declaration name v <;> rfl

theorem ofValue_object (m : Object) :
    ofValue (.object m) = (m.mapM entryOf).map ofEntries := by
  rw [ofValue, declarations_eq_mapM]

/-! ## Acceptance

A value is looked at by its shape.  Names play no part in it: an entry without a local name is
accepted here, and refused later. -/

theorem names_of_declares {m : Object} {l : List (String × Object)}
    (h : List.Forall₂ Declares m l) : Members.names l = m.names := by
  induction h with
  | nil => rfl
  | cons hfirst _ ih =>
    rw [Members.names, List.map_cons, hfirst.1]
    exact congrArg _ ih

/-- How a value is received as a specification. -/
structure Acceptance (v : Value) : Prop where
  /-- A value is accepted exactly if it is null or an object of declarations. -/
  accepted : (∃ s, ofValue v = .ok s) ↔
    v = .null ∨ ∃ m, v = .object m ∧ ∀ member ∈ m, IsDeclaration member.2
  /-- Null declares nothing. -/
  null : v = .null → ∃ s, ofValue v = .ok s ∧ s.entries = []
  /-- The members of an object, which repeats no name, are the entries in their order. -/
  object : ∀ {m : Object} {s : Specification}, v = .object m → m.names.Nodup →
    ofValue v = .ok s → List.Forall₂ Declares m s.entries
  /-- Any other value is no mapping, and an object is refused for the first of its members that is
  no declaration. -/
  refused : ∀ e, ofValue v = .error e ↔
    ¬ (v = .null ∨ ∃ m, v = .object m) ∧ e = .notAMapping ∨
      ∃ m, v = .object m ∧ FirstFault Undeclared m e

/-- An object is accepted member by member. -/
theorem acceptance_object (m : Object) : Acceptance (.object m) where
  accepted := by
    rw [ofValue_object]
    simp only [reduceCtorEq, false_or, Value.object.injEq, exists_eq_left', ← exists_entryOf_iff]
    rw [← exists_mapM_eq_ok_iff]
    cases m.mapM entryOf <;> simp [Except.map]
  null := nofun
  object := by
    rintro m' s ⟨⟩ hnodup h
    rw [ofValue_object] at h
    cases hl : m.mapM entryOf with
    | error e =>
      rw [hl] at h
      cases h
    | ok l =>
      rw [hl] at h
      cases h
      have hdeclares : List.Forall₂ Declares m l :=
        (mapM_eq_ok_iff.1 hl).imp fun _ _ => entryOf_eq_ok_iff.1
      have hentries : (ofEntries l).entries = l :=
        Members.ofList_of_nodup (names_of_declares hdeclares ▸ hnodup)
      rwa [hentries]
  refused := by
    intro e
    rw [ofValue_object]
    simp only [reduceCtorEq, false_or, Value.object.injEq, exists_eq', not_true_eq_false, false_and,
      exists_eq_left', ← mapM_eq_error_iff fun _ _ => entryOf_eq_error_iff]
    cases m.mapM entryOf <;> simp [Except.map]

/-- **Which values are accepted as specifications.** -/
theorem acceptance (v : Value) : Acceptance v := by
  cases v with
  | null =>
    exact ⟨iff_of_true ⟨empty, rfl⟩ (.inl rfl), fun _ => ⟨empty, rfl, rfl⟩, nofun,
      fun e => by simp [ofValue]⟩
  | object m => exact acceptance_object m
  | bool | number | string | array =>
    exact ⟨by simp [ofValue], nofun, nofun, fun e => by simp [ofValue, eq_comm]⟩

end Specification

/-! ## Drafts

In a draft an entry is a member whose value happens to be an object.  `member` puts an entry into a
draft; on members of this kind, writing and merging do what they do to entries. -/

/-- An object with a value for each name. -/
abbrev Draft := Object

namespace Draft

/-- Writes a member into a draft, null as an empty object. -/
def add (d : Draft) (member : String × Value) : Except SpecificationError Draft :=
  match member.2 with
  | .null => .ok (d.put member.1 (.object []))
  | .object body => .ok (d.put member.1 (.object body))
  | _ => .error (.entryNotAMapping member.1)

/-- The draft of a value, written member by member. -/
def ofValue : Value → Except SpecificationError Draft
  | .null => .ok []
  | .object m => m.foldlM add []
  | _ => .error .notAMapping

/-- The entries of a draft.  A value that is no object is passed over. -/
def entries (d : Draft) : Members Object :=
  d.filterMap fun member => member.2.asObject?.map (Prod.mk member.1)

/-- The member that holds an entry. -/
def member (entry : String × Object) : String × Value := (entry.1, .object entry.2)

/-- A member is written as the entry it declares. -/
theorem add_eq (d : Draft) (x : String × Value) :
    d.add x = (Specification.entryOf x).map fun entry => d.put entry.1 (.object entry.2) := by
  obtain ⟨name, v⟩ := x
  cases v <;> rfl

/-- Members are written as their entries, all of them or none. -/
theorem foldlM_add (d : Draft) (m : Object) :
    m.foldlM add d
      = (m.mapM Specification.entryOf).map fun l => Members.merge d (l.map member) := by
  induction m generalizing d with
  | nil => rfl
  | cons x rest ih =>
    rw [List.foldlM_cons, List.mapM_cons, add_eq]
    cases Specification.entryOf x with
    | error e => rfl
    | ok entry =>
      show List.foldlM add (Members.put d entry.1 (.object entry.2)) rest = _
      rw [ih]
      cases rest.mapM Specification.entryOf <;> rfl

/-- Entries that are put into a draft can be taken out again. -/
theorem entries_map_member (l : Members Object) : entries (l.map member) = l := by
  rw [entries, List.filterMap_map]
  exact List.filterMap_some

theorem put_map_member (m : Members Object) (name : String) (body : Object) :
    Members.put (m.map member) name (.object body) = (m.put name body).map member := by
  induction m with
  | nil => rfl
  | cons entry rest ih =>
    obtain ⟨k, v⟩ := entry
    rw [List.map_cons, member, Members.put, Members.put, ih]
    split <;> rfl

/-- Merging drafts merges their entries. -/
theorem merge_map_member (m later : Members Object) :
    Members.merge (m.map member) (later.map member) = (m.merge later).map member := by
  induction later generalizing m with
  | nil => rfl
  | cons entry rest ih =>
    show Members.merge (Members.put (m.map member) entry.1 (.object entry.2)) (rest.map member) = _
    rw [put_map_member, ih]
    rfl

end Draft

/-! ## Reading and merging

A recipe is carried out twice, once with specifications and once with drafts.  Induction on it shows
that the two keep in step. -/

/-- How a specification comes about: from a value, from a text, or from two others, of which the
second is written over the first. -/
inductive Recipe where
  | value (v : Value)
  | text (format : Format) (content : String)
  | merged (first second : Recipe)

/-- The value in a text; white space alone is null in YAML. -/
def documentOf : Format → String → Except SpecificationError Value
  | .json, text => (Json.parse text).mapError .json
  | .yaml, text =>
    if Text.isAllBlank text then .ok .null else ((Yaml.parse text).map .ok).getD (.error .yaml)

/-- Reading a text is reading its value and taking it as a specification. -/
theorem parse_eq_bind (format : Format) (text : String) :
    Specification.parse format text = (documentOf format text).bind Specification.ofValue := by
  cases format with
  | json =>
    rw [Specification.parse, Specification.parseJson, documentOf]
    cases Json.parse text <;> rfl
  | yaml =>
    rw [Specification.parse, Specification.parseYaml, documentOf]
    split
    · rfl
    · cases Yaml.parse text <;> rfl

namespace Recipe

/-- The specification of a recipe. -/
def specification : Recipe → Except SpecificationError Specification
  | .value v => Specification.ofValue v
  | .text format content => Specification.parse format content
  | .merged first second =>
    first.specification.bind fun s => second.specification.map s.merge

/-- The same with a draft in place of the specification. -/
def draft : Recipe → Except SpecificationError Draft
  | .value v => Draft.ofValue v
  | .text format content => (documentOf format content).bind Draft.ofValue
  | .merged first second => first.draft.bind fun d => second.draft.map (Members.merge d)

/-- What a specification is in a draft. -/
def drafted (s : Specification) : Draft := s.entries.map Draft.member

/-- The draft of a value is that of its specification. -/
theorem draft_ofValue (v : Value) :
    Draft.ofValue v = (Specification.ofValue v).map drafted := by
  cases v with
  | object m =>
    rw [Draft.ofValue, Draft.foldlM_add, Specification.ofValue_object]
    cases m.mapM Specification.entryOf with
    | error e => rfl
    | ok l =>
      show Except.ok (Members.merge ([].map Draft.member) (l.map Draft.member)) = _
      rw [Draft.merge_map_member]
      rfl
  | null | bool | number | string | array => rfl

/-- **A draft holds the entries of the specification, and nothing else.** -/
theorem draft_eq (recipe : Recipe) : recipe.draft = recipe.specification.map drafted := by
  induction recipe with
  | value v => exact draft_ofValue v
  | text format content =>
    rw [draft, specification, parse_eq_bind]
    cases documentOf format content with
    | error e => rfl
    | ok v => exact draft_ofValue v
  | merged first second hfirst hsecond =>
    rw [draft, specification, hfirst, hsecond]
    cases first.specification with
    | error e => rfl
    | ok s =>
      cases second.specification with
      | error e => rfl
      | ok t => exact congrArg Except.ok (Draft.merge_map_member s.entries t.entries)

/-- Nothing of a draft is passed over when entries are taken from it. -/
structure Complete (recipe : Recipe) : Prop where
  /-- There is a draft exactly if there is a specification, and the faults are the same. -/
  refused : ∀ e, recipe.draft = .error e ↔ recipe.specification = .error e
  /-- The entries of the draft are as many as its names, and they are those of the
  specification. -/
  entries : ∀ s, recipe.specification = .ok s → ∃ d, recipe.draft = .ok d ∧
    Draft.entries d = s.entries ∧ (Draft.entries d).length = d.length ∧ s.size = d.length

/-- **Taking entries from a draft passes over nothing.** -/
theorem complete (recipe : Recipe) : Complete recipe where
  refused e := by
    rw [draft_eq]
    cases recipe.specification <;> simp [Except.map]
  entries s hs := by
    refine ⟨drafted s, by rw [draft_eq, hs]; rfl, ?_⟩
    rw [drafted, Draft.entries_map_member, List.length_map]
    exact ⟨rfl, rfl, rfl⟩

end Recipe
end RemoteModels

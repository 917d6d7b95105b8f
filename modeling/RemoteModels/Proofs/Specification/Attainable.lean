import RemoteModels.Proofs.Json.Proper
import RemoteModels.Specification.Descriptor

/-!
# Specifications and descriptors a client can have

A specification is made of a value, read from a text, or merged from two others.  In each of them
the declaration of a model names every field once, because the value it was made of repeats no
name; a descriptor, which takes its fields from one declaration, has distinct field names for that
reason and for no other.

Values that repeat no name are those that can be read from a text at all.  So the one assumption on
a client is about values that it makes itself.

* `Specification.Attainable`, `Descriptor.Attainable` — what can be had.
* `Specification.Attainable.proper` — every declaration is a proper object.
* `Descriptor.Attainable.nodup_fieldNames`, `Descriptor.Attainable.not_metadata` — fields are
  distinct, and none is a member that describes the model itself.
-/

set_option autoImplicit false

namespace RemoteModels

open Json (Value Object)

namespace Specification

/-- The specifications there are: one made of a value that repeats no name, one read from a text,
or one merged from two of them. -/
inductive Attainable : Specification → Prop
  | ofValue {v : Value} {s : Specification} (hv : v.Proper)
      (h : Specification.ofValue v = .ok s) : Attainable s
  | parse {format : Format} {text : String} {s : Specification}
      (h : Specification.parse format text = .ok s) : Attainable s
  | merge {s t : Specification} (hs : Attainable s) (ht : Attainable t) : Attainable (s.merge t)

/-! ## Declarations are proper

There is a lemma for each way in which a specification comes about, and none for the operations that
a client has no access to. -/

/-- Every declaration is an object that repeats no name. -/
def Proper (s : Specification) : Prop := ∀ e ∈ s.entries, (Value.object e.2).Proper

theorem empty_proper : empty.Proper := fun _ he => absurd he (by simp [empty])

/-- A declaration is the value it was made of, or an empty object. -/
theorem declaration_proper {name : String} {v : Value} {body : Object} (hv : v.Proper)
    (h : declaration name v = .ok body) : (Value.object body).Proper := by
  cases v with
  | null =>
    cases h
    exact .object (by simp [Members.names]) (by simp)
  | object m =>
    cases h
    exact hv
  | bool | number | string | array => cases h

theorem declarations_proper {m : List (String × Value)} {l : List (String × Object)}
    (hm : ∀ e ∈ m, e.2.Proper) (h : declarations m = .ok l) :
    ∀ e ∈ l, (Value.object e.2).Proper := by
  induction m generalizing l with
  | nil =>
    cases h
    simp
  | cons e rest ih =>
    obtain ⟨name, v⟩ := e
    rw [declarations] at h
    obtain ⟨body, hbody, h⟩ := of_bind_eq_ok h
    obtain ⟨more, hmore, h⟩ := of_bind_eq_ok h
    cases h
    rw [List.forall_mem_cons] at hm ⊢
    exact ⟨declaration_proper hm.1 hbody, ih hm.2 hmore⟩

/-- A specification takes its declarations over from its value. -/
theorem ofValue_proper {v : Value} {s : Specification} (hv : v.Proper) (h : ofValue v = .ok s) :
    s.Proper := by
  cases v with
  | null =>
    cases h
    exact empty_proper
  | object m =>
    cases hv with
    | object _ hm =>
      rw [ofValue] at h
      cases hl : declarations m with
      | error e =>
        rw [hl] at h
        cases h
      | ok l =>
        rw [hl] at h
        cases h
        exact fun e he => declarations_proper hm hl e (Members.mem_ofList he)
  | bool | number | string | array => cases h

/-- What is read from a text repeats no name, in either format. -/
theorem parse_proper {format : Format} {text : String} {s : Specification}
    (h : parse format text = .ok s) : s.Proper := by
  cases format with
  | yaml =>
    simp only [parse, parseYaml] at h
    split at h
    · cases h
      exact empty_proper
    · split at h
      · next v hv => exact ofValue_proper (Yaml.parse_proper hv) h
      · cases h
  | json =>
    simp only [parse, parseJson] at h
    split at h
    · next v hv => exact ofValue_proper (Json.parse_proper hv) h
    · cases h

/-- Merging takes whole declarations over. -/
theorem merge_proper {s t : Specification} (hs : s.Proper) (ht : t.Proper) :
    (s.merge t).Proper :=
  fun e he => (Members.mem_merge he).elim (hs e) (ht e)

/-- **Every declaration in a specification repeats no name.** -/
theorem Attainable.proper {s : Specification} (h : s.Attainable) : s.Proper := by
  induction h with
  | ofValue hv h => exact ofValue_proper hv h
  | parse h => exact parse_proper h
  | merge _ _ hs ht => exact merge_proper hs ht

end Specification

/-! ## Descriptors

The fields of a model are the members of its declaration without those that describe the model, so
they are distinct because the members are. -/

namespace Descriptor

/-- The descriptors that some entry of an attainable specification gives. -/
def Attainable (d : Descriptor) : Prop :=
  ∃ s : Specification, s.Attainable ∧ ∃ e ∈ s.entries, ofDeclaration e.1 e.2 = .ok d

/-- Every descriptor is that of some entry. -/
theorem mem_ofEntries {l : List (String × Object)} {ds : List Descriptor} {d : Descriptor}
    (h : ofEntries l = .ok ds) (hd : d ∈ ds) : ∃ e ∈ l, ofDeclaration e.1 e.2 = .ok d := by
  induction l generalizing ds with
  | nil =>
    cases h
    simp at hd
  | cons e rest ih =>
    obtain ⟨name, body⟩ := e
    rw [ofEntries] at h
    obtain ⟨first, hfirst, h⟩ := of_bind_eq_ok h
    obtain ⟨more, hmore, h⟩ := of_bind_eq_ok h
    cases h
    rcases List.mem_cons.1 hd with rfl | hd
    · exact ⟨_, List.mem_cons_self, hfirst⟩
    · obtain ⟨e, he, hde⟩ := ih hmore hd
      exact ⟨e, List.mem_cons_of_mem _ he, hde⟩

/-- The descriptors a registry is built from are attainable. -/
theorem attainable_of_mem_descriptors {s : Specification} (hs : s.Attainable)
    {ds : List Descriptor} (h : s.descriptors = .ok ds) {d : Descriptor} (hd : d ∈ ds) :
    d.Attainable :=
  ⟨s, hs, mem_ofEntries h hd⟩

/-- The fields are the members, but for those that describe the model. -/
theorem fieldNames_ofDeclaration {name : String} {body : Object} {d : Descriptor}
    (h : ofDeclaration name body = .ok d) :
    d.fieldNames = body.names.filter fun key => !isMetadata key := by
  rw [ofDeclaration] at h
  obtain ⟨name, -, h⟩ := of_bind_eq_ok h
  cases h
  simp only [fieldNames, fieldsOf, Members.names, List.map_map, List.filter_map]
  rfl

/-- **The fields of a model are distinct.** -/
theorem Attainable.nodup_fieldNames {d : Descriptor} (h : d.Attainable) : d.fieldNames.Nodup := by
  obtain ⟨s, hs, e, he, hd⟩ := h
  rw [fieldNames_ofDeclaration hd]
  exact (hs.proper e he).nodup.filter _

/-- **No field of a model describes the model itself.** -/
theorem Attainable.not_metadata {d : Descriptor} (h : d.Attainable) {name : String}
    (hn : name ∈ d.fieldNames) : name ≠ "parent" ∧ name.toList.head? ≠ some '.' := by
  obtain ⟨s, hs, e, he, hd⟩ := h
  rw [fieldNames_ofDeclaration hd, List.mem_filter] at hn
  simpa [isMetadata] using hn.2

theorem declares_iff {d : Descriptor} {name : String} :
    d.declares name = true ↔ name ∈ d.fieldNames := by
  simp [declares]

end Descriptor

/-! ## A specified model

The statements about instances are tried out on one model, a widget with a label and a weight. -/

/-- The declaration of a widget. -/
def widgetDeclaration : Object :=
  [("parent", .string "group"), ("label", .string "string"), (".doc", .string "hidden"),
    ("weight", .string "int")]

/-- What the declaration says. -/
def widget : Descriptor :=
  ⟨"group.Widget", "Widget", "group", [⟨"label", "string"⟩, ⟨"weight", "int"⟩]⟩

theorem widgetDeclaration_proper : (Value.object widgetDeclaration).Proper := by
  refine .object (by decide) fun e he => ?_
  simp only [widgetDeclaration, List.mem_cons, List.not_mem_nil, or_false] at he
  rcases he with rfl | rfl | rfl | rfl <;> exact .string _

/-- A specification with this declaration has it. -/
theorem widget_attainable : widget.Attainable := by
  have hv : (Value.object [("group.Widget", .object widgetDeclaration)]).Proper := by
    refine .object (by decide) fun e he => ?_
    rw [List.mem_singleton.1 he]
    exact widgetDeclaration_proper
  have hname : localName "group.Widget" = .ok "Widget" := by
    simp [localName, firstSegment, afterFirstDot?, List.takeWhile, List.dropWhile]
  have hd : Descriptor.ofDeclaration "group.Widget" widgetDeclaration = .ok widget := by
    rw [Descriptor.ofDeclaration, hname]
    rfl
  have hds : Descriptor.ofEntries [("group.Widget", widgetDeclaration)] = .ok [widget] := by
    rw [Descriptor.ofEntries, hd]
    rfl
  exact Descriptor.attainable_of_mem_descriptors (.ofValue hv rfl) hds List.mem_cons_self

end RemoteModels

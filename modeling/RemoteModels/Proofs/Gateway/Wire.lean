import RemoteModels.Proofs.Envelope.RoundTrip
import RemoteModels.Proofs.Gateway.Contract
import RemoteModels.Proofs.Json.RoundTrip

/-!
# What arrives at the server

The post that carries a change is an object with an envelope in it, and the fields of the instance
are JSON text inside a JSON string of that envelope.  Whoever reads both texts gets back what was
put in: the envelope, and from its payload the declared fields in declaration order.

Field values come from callers and from the server, and both have them as values of the kind that
texts give (`Json.parse_regular`); the type of values has room for others, an object with a name
twice or a negative number that is not below zero.  Operations hand on only what they were given, so
the fields of every instance stay of this kind, and a regular value reads back.

* `Operation.Regular`, `Instance.RegularReachable` — operations with regular values, and the
  instances they lead to; `Instance.RegularReachable.regular_toDict` — what is sent of those.
* `Gateway.Wire` — what a post says; `Gateway.requests_wire` — every post says it.
-/

set_option autoImplicit false

namespace RemoteModels

open Json (Value Object)

/-! ## Operations with regular values

An instance takes its values over from its owner and from the server, unchanged.  So the fields are
regular if everything that was handed in was; this is an invariant of runs like the others, by cases
of a step. -/

theorem Members.mem_of_get? {α : Type} {m : Members α} {name : String} {v : α}
    (h : m.get? name = some v) : (name, v) ∈ m := by
  induction m with
  | nil => cases h
  | cons e rest ih =>
    obtain ⟨k, w⟩ := e
    rw [get?] at h
    split at h
    · next hk =>
      cases h
      rw [hk]
      exact List.mem_cons_self
    · exact List.mem_cons_of_mem _ (ih h)

/-- A member of a regular object is regular, and so is the null of a missing one. -/
theorem Json.Value.Regular.getD_get? {r : Object} (h : (Value.object r).Regular) (name : String) :
    ((Members.get? r name).getD .null).Regular := by
  cases hv : Members.get? r name with
  | none => exact regular_null
  | some v =>
    have hmem := Members.mem_of_get? hv
    obtain ⟨hp, hn⟩ := h
    cases hp with
    | object _ hp =>
      cases hn with
      | object hn => exact ⟨hp _ hmem, hn _ hmem⟩

/-- The values that an operation brings along for the fields are regular. -/
def Operation.Regular : Operation → Prop
  | .set _ value => value.Regular
  | .update record => (Value.object record).Regular
  | .call _ _ (.answered (.ok v)) => v.Regular
  | _ => True

namespace Instance

variable {d : Descriptor} {i i' : Instance} {op : Operation} {resp : Response}

/-- All fields have regular values. -/
def RegularFields (i : Instance) : Prop := ∀ field v, i.get? field = some v → v.Regular

/-- A new instance has nothing but nulls. -/
theorem regularFields_fresh (d : Descriptor) : (fresh d).RegularFields := by
  intro field v h
  rw [get?, fresh, Members.get?_map] at h
  split at h
  · cases h
    exact Value.regular_null
  · cases h

/-- A regular record leaves the fields regular. -/
theorem RegularFields.update (h : i.RegularFields) {r : Object} (hr : (Value.object r).Regular) :
    (i.update r).RegularFields := by
  intro field v hv
  rw [get?_update] at hv
  split at hv
  · cases hv
    exact hr.getD_get? field
  · exact h field v hv

/-- An instance has regular fields when it is made of a regular record, or of none. -/
theorem Origin.regularFields {record : Option Object} (h : Origin d i record)
    (hr : ∀ r ∈ record, (Value.object r).Regular) : i.RegularFields := by
  cases h with
  | fresh => exact regularFields_fresh d
  | @record r i h =>
    rw [ofRecord_object] at h
    cases h
    exact (regularFields_fresh d).update (hr r rfl)

/-- **Regular operations keep the fields regular.** -/
theorem RegularFields.step (h : i.RegularFields) (hop : op.Regular) (hs : Step i op i' resp) :
    i'.RegularFields := by
  cases hs with
  | @set field value hf =>
    intro name v hv
    rw [get?, Members.get?_put] at hv
    split at hv
    · cases hv
      exact hop
    · exact h name v hv
  | undeclared => exact h
  | setLocal => exact h
  | update r => exact h.update hop
  | call hc =>
    cases hc with
    | refused | dropped | failed | delete => exact h
    | put => exact h.update hop
    | post => exact h.update hop

/-- So do all operations one after the other. -/
theorem RegularFields.run (h : i.RegularFields) {ops : List Operation}
    (hops : ∀ op ∈ ops, op.Regular) : (i.run ops).RegularFields := by
  induction ops generalizing i with
  | nil => exact h
  | cons op ops ih =>
    rw [List.forall_mem_cons] at hops
    exact ih (h.step hops.1 (i.act_step op)) hops.2

/-! ## Instances made of regular values

Values that were read from a text are regular, and a client keeps them so if its own are. -/

/-- The instances of a model that operations with regular values lead to. -/
def RegularReachable (d : Descriptor) (i : Instance) : Prop :=
  ∃ (i₀ : Instance) (record : Option Object) (ops : List Operation),
    Origin d i₀ record ∧ (∀ r ∈ record, (Value.object r).Regular) ∧
      (∀ op ∈ ops, op.Regular) ∧ i = i₀.run ops

/-- These are instances that can be reached. -/
theorem RegularReachable.reachable (h : i.RegularReachable d) : i.Reachable d := by
  obtain ⟨i₀, record, ops, ho, -, -, hi⟩ := h
  exact ⟨i₀, record, ops, ho, hi⟩

/-- What is sent of an instance is regular. -/
theorem RegularReachable.regular_toDict (hd : d.Attainable) (h : i.RegularReachable d) :
    (Value.object i.toDict).Regular := by
  have hdescriptor := h.reachable.sound.descriptor
  obtain ⟨i₀, record, ops, ho, hr, hops, rfl⟩ := h
  have hfields := (ho.regularFields hr).run hops
  refine Json.Value.regular_object ?_ fun e he => ?_
  · rw [names_toDict, hdescriptor]
    exact hd.nodup_fieldNames
  · obtain ⟨name, -, rfl⟩ := List.mem_map.1 he
    cases hv : (i₀.run ops).get? name with
    | none => exact Value.regular_null
    | some v => exact hfields name v hv

/-- What is sent has the value of each field, and of nothing else. -/
theorem Sound.get?_toDict (h : Sound d i) (name : String) : i.toDict.get? name = i.get? name := by
  have hf : name ∈ d.fieldNames ↔ (i.get? name).isSome := by
    rw [get?, Members.isSome_get?_iff, h.names]
  rw [toDict, Members.get?_map, h.descriptor]
  split
  · next hn =>
    obtain ⟨v, hv⟩ := Option.isSome_iff_exists.1 (hf.1 hn)
    rw [hv, Option.getD_some]
  · next hn => exact (Option.not_isSome_iff_eq_none.1 fun hs => hn (hf.2 hs)).symm

end Instance

/-! ## Posts

The body of a post is a value, and what arrives is its text.  The structure says what a reader gets
from the text, member by member; that it gets the envelope is the round trip of envelopes, and that
it gets the fields from the payload is the round trip of values. -/

namespace Gateway

variable {d : Descriptor} {g : Gateway} {i : Instance} {a : Action} {url : String}

/-- What the post of an action says: its body, and the envelope that is read from it. -/
structure Wire (d : Descriptor) (g : Gateway) (a : Action) (i : Instance) (url : String)
    (body : Value) (e : Envelope) : Prop where
  /-- The body has three members in this order. -/
  members : body = .object
    [("instid", Envelope.idValue e.instid), ("method", .string e.verb.wire),
      ("payload", .string e.payload)]
  /-- The envelope is read from the text of the body, and it is the one that was made. -/
  decode_eq : Envelope.decode body.compact = .ok e
  /-- It is the envelope of the instance for this action, -/
  envelope_eq : e = .ofInstance a.verb i
  /-- with the verb of the action -/
  verb_eq : e.verb = a.verb
  /-- and the identity of the instance, if it has one. -/
  instid_eq : e.instid = i.id
  /-- A creation names no record. -/
  instid_of_post : ∀ parentId, a = .post parentId → e.instid = none
  /-- A change or a deletion names the record that its path names. -/
  instid_of_item : (∀ parentId, a ≠ .post parentId) →
    ∃ id, e.instid = some id ∧ url = g.itemUrl id
  /-- The payload reads as the fields. -/
  parse_payload : Json.parse e.payload = .ok (.object i.toDict)
  /-- The fields are those declared, in declaration order. -/
  names_toDict : i.toDict.names = d.fieldNames
  /-- No member that describes the model itself is among them. -/
  not_metadata : ∀ name ∈ i.toDict.names, name ≠ "parent" ∧ name.toList.head? ≠ some '.'
  /-- Each has its value, and nothing else has one. -/
  get?_toDict : ∀ name, i.toDict.get? name = i.get? name
  /-- Local attributes make no difference. -/
  locals : ∀ locals, Gateway.body a { i with locals } = body

/-- **Every post says what was meant.**  Whoever reads its body gets the envelope, and whoever reads
the payload of that gets the declared fields; containers must not be nested more deeply than the
reader goes, and the doubles among the values must be such that their text reads back. -/
theorem requests_wire (hd : d.Attainable) (hi : i.RegularReachable d) (hs : Sends g i a url)
    (hdepth : (Value.object i.toDict).depth ≤ Json.maxDepth)
    (hback : (Value.object i.toDict).EachNumber Json.Number.ReadsBack) :
    ∃ body e, (∀ fate, (g.perform a i fate).2.requests = [.post url body]) ∧
      Wire d g a i url body e := by
  have hsound := hi.reachable.sound
  have hnames : i.toDict.names = d.fieldNames := by
    rw [Instance.names_toDict, hsound.descriptor]
  refine ⟨body a i, .ofInstance a.verb i, requests_of_sends hs, ?_⟩
  exact {
    members := rfl
    decode_eq := Envelope.decode_compact _
    envelope_eq := rfl
    verb_eq := rfl
    instid_eq := rfl
    instid_of_post := by
      rintro parentId rfl
      cases hs with
      | post _ _ hid => exact hid
    instid_of_item := by
      intro hne
      cases hs with
      | put _ hid => exact ⟨_, hid, rfl⟩
      | delete _ hid => exact ⟨_, hid, rfl⟩
      | post parentId => exact absurd rfl (hne parentId)
    parse_payload := Json.parse_compact ((hi.regular_toDict hd).legible hback hdepth)
    names_toDict := hnames
    not_metadata := by
      intro name hn
      rw [hnames] at hn
      exact hd.not_metadata hn
    get?_toDict := hsound.get?_toDict
    locals := fun _ => rfl }

/-! ## A payload with a double in it

The assumption about doubles is one that can be computed for a given value. -/

/-- The double that a value is. -/
def real? : Value → Option Binary64
  | .number (.real x) => some x
  | _ => none

/-- A value is a double if it is one of the numbers that are doubles. -/
theorem real?_eq_some_iff {v : Value} {x : Binary64} :
    real? v = some x ↔ v = .number (.real x) := by
  constructor
  · intro h
    cases v with
    | number n =>
      cases n with
      | real y =>
        cases h
        rfl
      | _ => cases h
    | _ => cases h
  · rintro rfl
    rfl

/-- A half. -/
def half : Binary64 := ⟨false, 4503599627370496, -53, by decide⟩

/-- The text of a half reads back as a half. -/
theorem half_readsBack : (Json.Number.real half).ReadsBack := by
  have h : (Json.parse half.text).toOption.bind real? = some half := by decide +kernel
  obtain ⟨v, hv, hreal⟩ := Option.bind_eq_some_iff.1 h
  rw [Json.Number.ReadsBack, ← real?_eq_some_iff.1 hreal]
  cases hparse : Json.parse half.text with
  | error e =>
    rw [hparse] at hv
    cases hv
  | ok w =>
    rw [hparse] at hv
    cases hv
    rfl

/-- A bolt that has become a nut weighing a half, with a label that needs escapes and a note that
is not sent. -/
def nut : Instance :=
  Instance.newBolt.run
    [.set "label" (.string "5\" nut\n\x01é"), .set "weight" (.number (.real half)),
      .setLocal "label" (.string "mine"), .setLocal "note" (.string "mine")]

/-- All values that went into it are regular. -/
theorem nut_regularReachable : nut.RegularReachable widget := by
  refine ⟨Instance.newBolt, some Instance.boltRecord, _, Instance.newBolt_origin, ?_, ?_, rfl⟩
  · rintro r ⟨⟩
    refine Json.Value.regular_object (by decide) fun e he => ?_
    simp only [Instance.boltRecord, List.mem_cons, List.not_mem_nil, or_false] at he
    rcases he with rfl | rfl
    · exact Json.Value.regular_number trivial
    · exact Json.Value.regular_string _
  · simp only [List.forall_mem_cons]
    exact ⟨Json.Value.regular_string _, Json.Value.regular_number trivial, trivial, trivial,
      fun _ h => absurd h List.not_mem_nil⟩

/-- Everything in its text is escaped and its note is left out; both texts read back. -/
theorem nut_wire :
    nut.toDict = [("label", .string "5\" nut\n\x01é"), ("weight", .number (.real half))] ∧
      ∃ body e, (∀ fate, (perform ⟨widget⟩ .put nut fate).2.requests = [.post "/Widget/7" body]) ∧
        Wire widget ⟨widget⟩ .put nut "/Widget/7" body e := by
  have hdict : nut.toDict
      = [("label", .string "5\" nut\n\x01é"), ("weight", .number (.real half))] := rfl
  have hurl : itemUrl ⟨widget⟩ "7" = "/Widget/7" := by decide
  have hs : Sends ⟨widget⟩ nut .put "/Widget/7" := by
    rw [← hurl]
    exact .put (by decide) rfl
  have hback : (Value.object nut.toDict).EachNumber Json.Number.ReadsBack := by
    rw [hdict]
    refine .object fun e he => ?_
    simp only [List.mem_cons, List.not_mem_nil, or_false] at he
    rcases he with rfl | rfl
    · exact .string _
    · exact .number half_readsBack
  exact ⟨hdict, requests_wire widget_attainable nut_regularReachable hs (by decide) hback⟩

end Gateway
end RemoteModels

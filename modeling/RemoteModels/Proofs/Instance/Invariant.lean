import RemoteModels.Proofs.Instance.History
import RemoteModels.Proofs.Specification.Attainable

/-!
# What holds of every instance

Two links hold an instance together, and nothing in its type does: it lacks an identity exactly
while it is new, and its field members are the fields its descriptor declares.  Every operation
keeps both (`Sound.step`), so every instance that can be reached has them.

The second link is why the two views of the fields agree: `Instance.set` and `Instance.get?` look
at the members, `Instance.toDict` and `Instance.update` go by the descriptor.  The first is why an
instance that is refused a second creation is refused with the identity it really has.

* `Instance.Sound` — the invariant.
* `Instance.Consistent` — what a client sees of it.
* `Instance.Reachable.consistent` — every reachable instance of a specified model is consistent.
-/

set_option autoImplicit false

namespace RemoteModels

open Json (Value Object)

namespace Instance

variable {d : Descriptor} {i i' : Instance} {op : Operation} {resp : Response}

/-! ## The invariant

It is stated for a model, since an instance never changes its model: what a gateway of another model
does to an instance goes by the descriptor of the instance. -/

/-- The links between the parts of an instance of a model. -/
structure Sound (d : Descriptor) (i : Instance) : Prop where
  descriptor : i.descriptor = d
  linked : i.Linked
  id_ne_empty : ∀ id, i.id = some id → id ≠ ""
  names : i.fields.names = d.fieldNames

/-- It holds of a new instance, -/
theorem sound_fresh (d : Descriptor) : Sound d (fresh d) where
  descriptor := rfl
  linked := iff_of_true rfl rfl
  id_ne_empty := fun _ h => by cases h
  names := names_fresh d

/-- A record taken over keeps the fields in place. -/
theorem Sound.names_update (h : Sound d i) (r : Object) :
    (i.update r).fields.names = d.fieldNames := by
  rw [← h.descriptor]
  exact Instance.names_update (h.names.trans (congrArg _ h.descriptor.symm)) r

/-- and of one that is made of a record. -/
theorem sound_ofRecord {r : Object} (h : ofRecord d (.object r) = .ok i) : Sound d i := by
  rw [ofRecord_object] at h
  cases h
  refine ⟨rfl, ?_, fun id => recordId_ne_empty, (sound_fresh d).names_update r⟩
  rw [Linked]
  cases recordId r with
  | none => simp
  | some id => simp

/-- So it holds at the beginning of every run. -/
theorem Origin.sound {record : Option Object} (h : Origin d i record) : Sound d i := by
  cases h with
  | fresh => exact sound_fresh d
  | record h => exact sound_ofRecord h

/-! ## What a call does to it

An accepted creation is the only call that gives an identity, and it does so together with the
state; a call that is not accepted changes neither. -/

/-- Every call keeps the invariant. -/
theorem Sound.call (h : Sound d i) {g : Gateway} {a : Action} {fate : Gateway.Fate}
    {outcome : Gateway.Outcome} (hc : Gateway.Call g i a fate i' outcome) : Sound d i' := by
  cases hc with
  | refused => exact h
  | dropped => exact ⟨h.descriptor, h.linked, h.id_ne_empty, h.names⟩
  | failed => exact ⟨h.descriptor, h.linked, h.id_ne_empty, h.names⟩
  | put hsend =>
    -- A change is sent only with an identity, so the instance was not new before either.
    cases hsend with
    | put hs hid =>
      refine ⟨h.descriptor, ?_, h.id_ne_empty, h.names_update _⟩
      exact iff_of_false (by simp [markSynced, update, hid]) (by simp [markSynced])
  | post hsend hr =>
    refine ⟨h.descriptor, iff_of_false (by simp [markCreated]) (by simp [markCreated]), ?_,
      h.names_update _⟩
    intro id hid
    cases hid
    exact recordId_ne_empty hr
  | delete hsend =>
    cases hsend with
    | delete hs hid =>
      refine ⟨h.descriptor, ?_, h.id_ne_empty, h.names⟩
      exact iff_of_false (by simp [markDestroyed, hid]) (by simp [markDestroyed])

/-- **Every operation keeps the invariant.** -/
theorem Sound.step (h : Sound d i) (hs : Step i op i' resp) : Sound d i' := by
  cases hs with
  | set hf =>
    refine ⟨h.descriptor, h.linked, h.id_ne_empty, ?_⟩
    rw [← h.names]
    exact Members.names_put_of_mem (Members.isSome_get?_iff.1 hf) _
  | undeclared => exact h
  | setLocal key value => exact ⟨h.descriptor, h.linked, h.id_ne_empty, h.names⟩
  | update r => exact ⟨h.descriptor, h.linked, h.id_ne_empty, h.names_update r⟩
  | call hc => exact h.call hc

/-- So do all operations one after the other. -/
theorem Sound.run (h : Sound d i) (ops : List Operation) : Sound d (i.run ops) :=
  run_keeps (fun i op hi => hi.step (i.act_step op)) h ops

/-- **It holds of every instance that can be reached.** -/
theorem Reachable.sound (h : Reachable d i) : Sound d i := by
  obtain ⟨i₀, record, ops, ho, rfl⟩ := h
  exact ho.sound.run ops

/-! ## What a client sees of it

The invariant is about the parts of an instance; a client sees it through the operations.  What can
be read can be set, what is declared can be read, and what is sent is what is declared. -/

/-- What a client can rely on, whatever has been done with an instance of the model. -/
structure Consistent (d : Descriptor) (i : Instance) : Prop where
  /-- It is still an instance of the model. -/
  descriptor_eq : i.descriptor = d
  /-- It lacks an identity exactly while it is new. -/
  id_eq_none_iff : i.id = none ↔ i.state = .new
  /-- An identity is a text that is not empty. -/
  id_ne_empty : ∀ id, i.id = some id → id ≠ ""
  /-- Its field members are the declared fields. -/
  names_fields : i.fields.names = d.fieldNames
  /-- No field is declared twice. -/
  distinct : d.fieldNames.Nodup
  /-- No member that describes the model itself is a field. -/
  not_metadata : ∀ name ∈ d.fieldNames, name ≠ "parent" ∧ name.toList.head? ≠ some '.'
  /-- A field can be set exactly when it can be read. -/
  set_iff : ∀ name value, (∃ i', i.set name value = .ok i') ↔ (i.get? name).isSome
  /-- A field can be read exactly when it is declared. -/
  get?_iff : ∀ name, (i.get? name).isSome ↔ d.declares name
  /-- What is sent are the declared fields in declaration order. -/
  names_toDict : i.toDict.names = d.fieldNames
  /-- A creation that comes too late is refused with the identity of the instance. -/
  alreadyCreated : ∀ (g : Gateway) (a : Action) (fate : Gateway.Fate) (id : String),
    (g.perform a i fate).2.error? = some (.alreadyCreated id) → i.id = some id ∧ id ≠ ""

/-- A field can be read exactly if it is declared. -/
theorem Sound.get?_iff (h : Sound d i) (name : String) :
    (i.get? name).isSome ↔ d.declares name := by
  rw [get?, Members.isSome_get?_iff, h.names, Descriptor.declares_iff]

/-- Only the check in front of a request says that an instance exists already. -/
theorem Sound.alreadyCreated (h : Sound d i) {g : Gateway} {a : Action} {fate : Gateway.Fate}
    {id : String} (he : (g.perform a i fate).2.error? = some (.alreadyCreated id)) :
    i.id = some id := by
  have hc := g.perform_call i a fate
  generalize (g.perform a i fate).1 = i' at hc
  generalize (g.perform a i fate).2 = outcome at hc he
  cases hc with
  | refused ht =>
    cases he
    cases Gateway.refuses_of_target h.linked ht with
    | alreadyCreated hs hid => exact hid
  | failed hsend hn ha =>
    cases he
    cases ha
  | dropped | put | post | delete => cases he

/-- **Every instance that can be reached is consistent**, whatever operations led to it, through
whatever gateways, with whatever answers. -/
theorem Reachable.consistent (hd : d.Attainable) (hi : i.Reachable d) : i.Consistent d := by
  have h : Sound d i := hi.sound
  refine ⟨h.descriptor, h.linked, h.id_ne_empty, h.names, hd.nodup_fieldNames,
    fun _ hn => hd.not_metadata hn, ?_, h.get?_iff, ?_, ?_⟩
  · intro name value
    constructor
    · rintro ⟨i', hi'⟩
      exact (set_eq_ok_iff.1 hi').1
    · intro hf
      exact ⟨_, set_eq_ok_iff.2 ⟨hf, rfl⟩⟩
  · rw [names_toDict, h.descriptor]
  · intro g a fate id he
    have hid : i.id = some id := h.alreadyCreated he
    exact ⟨hid, h.id_ne_empty id hid⟩

/-- A bolt as the server sends it, and the instance made of it. -/
def boltRecord : Object := [("id", .number (.natural 7)), ("label", .string "bolt")]

/-- The instance made of that record. -/
def newBolt : Instance :=
  { descriptor := widget
    id := some "7"
    fields := [("label", .string "bolt"), ("weight", .null)]
    locals := []
    state := .synced
    dirty := false
    pending := false }

theorem newBolt_origin : Origin widget newBolt (some boltRecord) := .record rfl

/-- The bolt after a change that is given up, a creation that comes too late, through a gateway of
another model, and a change that the server answers with a record of another identity. -/
def bolt : Instance :=
  newBolt.run
    [.set "label" (.string "nut"), .call ⟨widget⟩ .put .dropped,
      .call ⟨⟨"crate", "crate", "none", []⟩⟩ (.post "1") (.answered (.ok .null)),
      .call ⟨widget⟩ .put (.answered (.ok (.object [("id", .string "8")])))]

theorem bolt_reachable : bolt.Reachable widget := ⟨newBolt, _, _, newBolt_origin, rfl⟩

/-- It has the identity it was made with, not that of the last answer. -/
theorem bolt_consistent :
    widget.Attainable ∧ bolt.Reachable widget ∧ bolt.id = some "7" ∧ bolt.Consistent widget :=
  ⟨widget_attainable, bolt_reachable, rfl, Reachable.consistent widget_attainable bolt_reachable⟩

end Instance
end RemoteModels

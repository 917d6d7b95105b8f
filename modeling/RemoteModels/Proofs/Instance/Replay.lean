import RemoteModels.Proofs.Instance.Invariant

/-!
# Replaying the writes of a history

The fields of an instance are written in two ways: its owner sets one of them, and a record from
the server replaces all of them.  Records come from four places, the one the instance was made of,
an update, the answer to a change and the answer to a creation, and all four count alike.  Nothing
else in a history writes a field: calls that fail, are refused or are given up do not, and neither
do deletions.

So the value of a field is the last one written to it, and an instance is dirty exactly when some
field was set after the last record.

* `Write`, `Event.write?`, `writes` — the writes of a history, in order.
* `Instance.Step.get?_eq`, `Instance.Step.dirty_eq` — an operation does to a field and to the mark
  of unsaved changes what its write says.
* `Instance.replay` — so does every run.
-/

set_option autoImplicit false

namespace RemoteModels

open Json (Value Object)

/-- A change of field values: one field set, or all of them taken from a record. -/
inductive Write where
  | set (field : String) (value : Value)
  | absorb (record : Object)

namespace Write

/-- The value a write gives to a field; what a record lacks becomes null. -/
def value? (field : String) : Write → Option Value
  | .set name value => if name = field then some value else none
  | .absorb record => some ((record.get? field).getD .null)

/-- Whether a write sets a field, and so leaves something unsaved. -/
def isSet : Write → Bool
  | .set _ _ => true
  | .absorb _ => false

end Write

/-- What an event writes: a field that was set, or the record of an update, of a change or of a
creation that succeeded. -/
def Event.write? (e : Event) : Option Write :=
  match e.response, e.operation with
  | .set (.ok ()), .set field value => some (.set field value)
  | .done, .update record => some (.absorb record)
  | .call (.finished _ (.ok ())), .call _ .put (.answered (.ok (.object record))) =>
    some (.absorb record)
  | .call (.finished _ (.ok ())), .call _ (.post _) (.answered (.ok (.object record))) =>
    some (.absorb record)
  | _, _ => none

/-- The writes of a history, the record the instance was made of in front. -/
def writes (record : Option Object) (events : List Event) : List Write :=
  (record.map Write.absorb).toList ++ events.filterMap Event.write?

/-- The last value written to a field, null if there is none. -/
def lastValue (field : String) (ws : List Write) : Value :=
  (ws.filterMap (Write.value? field)).getLast?.getD .null

/-- Some field was set after the last record. -/
def SetSinceRecord (ws : List Write) : Prop :=
  ∃ before field value after,
    ws = before ++ .set field value :: after ∧ ∀ record, Write.absorb record ∉ after

/-- Some field was set after the last record exactly if the last write sets one. -/
theorem setSinceRecord_iff {ws : List Write} :
    SetSinceRecord ws ↔ ws.getLast?.any Write.isSet := by
  constructor
  · rintro ⟨before, field, value, after, rfl, hafter⟩
    rw [List.getLast?_append, List.getLast?_cons]
    cases hl : after.getLast? with
    | none => rfl
    | some w =>
      cases w with
      | set => rfl
      | absorb record => exact absurd (List.mem_of_getLast? hl) (hafter record)
  · intro h
    obtain ⟨w, hw, hset⟩ := (Option.any_eq_true _ _).1 h
    obtain ⟨before, rfl⟩ := List.getLast?_eq_some_iff.1 hw
    cases w with
    | set field value => exact ⟨before, field, value, [], rfl, by simp⟩
    | absorb => cases hset

namespace Instance

variable {d : Descriptor} {i i' : Instance} {op : Operation} {resp : Response} {field : String}

/-! ## One step

An operation writes at most once, and its event tells what.  That the event is enough is the point:
an outside observer who sees operations and what they result in can follow the fields. -/

/-- The fields after a record has been taken over. -/
theorem Sound.get?_update (h : Sound d i) (hf : field ∈ d.fieldNames) (r : Object) :
    (i.update r).get? field = some ((r.get? field).getD .null) := by
  rw [Instance.get?_update, h.descriptor, if_pos hf]

/-- An operation does to a field what its write says, and nothing where it writes nothing. -/
theorem Step.get?_eq (h : Sound d i) (hf : field ∈ d.fieldNames) (hs : Step i op i' resp) :
    i'.get? field = ((Event.mk op resp).write?.bind (Write.value? field)).or (i.get? field) := by
  cases hs with
  | @set name value =>
    show (i.fields.put name value).get? field = (Write.value? field (.set name value)).or _
    rw [Members.get?_put, Write.value?]
    split <;> rfl
  | undeclared | setLocal => rfl
  | update r => exact h.get?_update hf r
  | call hc =>
    cases hc with
    | refused | dropped | failed | delete => rfl
    | put => exact h.get?_update hf _
    | post => exact h.get?_update hf _

/-- An operation marks the instance as its write says: dirty by setting, clean by a record. -/
theorem Step.dirty_eq (hs : Step i op i' resp) :
    i'.dirty = ((Event.mk op resp).write?.map Write.isSet).getD i.dirty := by
  cases hs with
  | set | undeclared | setLocal | update => rfl
  | call hc =>
    cases hc with
    | refused | dropped | failed | put | post | delete => rfl

/-! ## A run

A quantity that is overwritten or left alone at each step has the value it was last overwritten
with.  The two quantities are the value of a field and the mark of unsaved changes. -/

/-- The value of a field is that of the last write to it, or the one it had before. -/
theorem get?_run (h : Sound d i) (hf : field ∈ d.fieldNames) (ops : List Operation) :
    ((i.run ops).get? field).getD .null
      = (((i.history ops).filterMap Event.write?).filterMap (Write.value? field)).getLast?.getD
          ((i.get? field).getD .null) := by
  rw [List.filterMap_filterMap]
  refine run_last (fun i => (i.get? field).getD .null) (fun i op hi => hi.step (i.act_step op))
    (fun i op hi => ?_) h ops
  rw [(i.act_step op).get?_eq hi hf]
  cases (Event.mk op (i.act op).2).write?.bind (Write.value? field) <;> rfl

/-- The mark is that of the last write, or the one there was before. -/
theorem dirty_run (i : Instance) (ops : List Operation) :
    (i.run ops).dirty
      = (((i.history ops).filterMap Event.write?).getLast?.map Write.isSet).getD i.dirty := by
  rw [← List.getLast?_map, List.map_filterMap]
  exact run_last Instance.dirty (P := fun _ => True) (fun _ _ _ => trivial)
    (fun i op _ => (i.act_step op).dirty_eq) trivial ops

/-! ## From the origin

The record an instance was made of counts as a write, so that what was there before is null and
clean. -/

/-- The record an instance was made of is its first write. -/
theorem Origin.get?_eq {record : Option Object} (h : Origin d i record)
    (hf : field ∈ d.fieldNames) :
    (i.get? field).getD .null
      = ((record.map Write.absorb).toList.filterMap (Write.value? field)).getLast?.getD .null := by
  cases h with
  | fresh => rw [get?_fresh hf]; rfl
  | record h =>
    rw [ofRecord_object] at h
    cases h
    exact congrArg (Option.getD · Value.null) ((sound_fresh d).get?_update hf _)

/-- An instance starts without unsaved changes. -/
theorem Origin.dirty_eq {record : Option Object} (h : Origin d i record) : i.dirty = false :=
  h.untouched.2.1

/-- The value of a field, from the beginning. -/
theorem get?_run_of_origin {record : Option Object} (h : Origin d i record)
    (hf : field ∈ d.fieldNames) (ops : List Operation) :
    ((i.run ops).get? field).getD .null = lastValue field (writes record (i.history ops)) := by
  rw [get?_run h.sound hf, h.get?_eq hf, lastValue, writes, List.filterMap_append,
    List.getLast?_append]
  cases (List.filterMap _ (List.filterMap _ _)).getLast? <;> rfl

/-- The mark of unsaved changes, from the beginning. -/
theorem dirty_run_of_origin {record : Option Object} (h : Origin d i record)
    (ops : List Operation) :
    (i.run ops).dirty = (writes record (i.history ops)).getLast?.any Write.isSet := by
  rw [dirty_run, h.dirty_eq, writes, List.getLast?_append]
  cases (List.filterMap _ _).getLast? with
  | some w => rfl
  | none => cases record <;> rfl

/-- **Replay.**  Whatever has been done with an instance since it was made, the value of a declared
field is the last one written to it, null if there is none, and the instance is dirty exactly when
some field was set after the last record. -/
theorem replay {record : Option Object} (h : Origin d i record) (ops : List Operation) :
    (∀ field, d.declares field →
      (i.run ops).get? field = some (lastValue field (writes record (i.history ops))) ∧
      (i.run ops).toDict.get? field
        = some (lastValue field (writes record (i.history ops)))) ∧
    ((i.run ops).dirty ↔ SetSinceRecord (writes record (i.history ops))) := by
  refine ⟨fun field hf => ?_, ?_⟩
  · have hsound : Sound d (i.run ops) := h.sound.run ops
    obtain ⟨v, hv⟩ := Option.isSome_iff_exists.1 ((hsound.get?_iff field).2 hf)
    rw [Descriptor.declares_iff] at hf
    rw [get?_toDict (by rwa [hsound.descriptor]), ← get?_run_of_origin h hf ops, hv]
    exact ⟨rfl, rfl⟩
  · rw [setSinceRecord_iff, dirty_run_of_origin h]

/-- The weight that is set is lost to the answer that lacks it, and the label is set after that; a
change that fails and the deletion write nothing. -/
theorem replay_newBolt :
    let ops : List Operation :=
      [.set "weight" (.number (.natural 3)),
        .call ⟨widget⟩ .put (.answered (.error (.server 500 "down"))),
        .call ⟨widget⟩ .put (.answered (.ok (.object [("label", .string "nut")]))),
        .set "label" (.string "pin"), .call ⟨widget⟩ .delete (.answered (.ok .null))]
    Origin widget newBolt (some boltRecord) ∧
      writes (some boltRecord) (newBolt.history ops)
        = [.absorb boltRecord, .set "weight" (.number (.natural 3)),
            .absorb [("label", .string "nut")], .set "label" (.string "pin")] ∧
      (newBolt.run ops).get? "label" = some (.string "pin") ∧
      (newBolt.run ops).get? "weight" = some .null ∧ (newBolt.run ops).dirty := by
  intro ops
  obtain ⟨hget, hdirty⟩ := replay newBolt_origin ops
  refine ⟨newBolt_origin, rfl, (hget "label" (by decide)).1, (hget "weight" (by decide)).1, ?_⟩
  exact hdirty.2 ⟨[_, _, _], "label", .string "pin", [], rfl, by simp⟩

end Instance
end RemoteModels

import RemoteModels.Proofs.Gateway.Call

/-!
# Histories of an instance

An instance is made, fresh or from a record, and from then on changed by operations: its owner sets
fields and attributes and updates it from records, and gateways of any model call for it, with
whatever answer comes back or with none.

Nothing is assumed about the operations.  The owner may set any field to any value and take over any
record; a call may go through the gateway of another model; an answer may be anything a server can
send.  So what holds at the end of every run holds whatever a client and a server do.

* `Operation`, `Response`, `Event` — what can be done, what it results in, and the two together.
* `Instance.act`, `Instance.run`, `Instance.history` — one operation, a sequence of them, and the
  events of that sequence.
* `Instance.Step`, `Instance.act_step` — what an operation can do; every invariant of runs below is
  a case analysis of this relation.
* `Instance.Origin`, `Instance.Reachable` — how instances come to be, and what they can become.
-/

set_option autoImplicit false

namespace RemoteModels

open Json (Value Object)

/-- What can be done with an instance. -/
inductive Operation where
  /-- The owner sets a field. -/
  | set (field : String) (value : Value)
  /-- The owner sets an attribute that is not sent. -/
  | setLocal (key : String) (value : Value)
  /-- The owner takes over a record. -/
  | update (record : Object)
  /-- A gateway calls for the instance. -/
  | call (g : Gateway) (a : Action) (fate : Gateway.Fate)

/-- What an operation results in. -/
inductive Response where
  | set (result : Except FieldError Unit)
  | done
  | call (outcome : Gateway.Outcome)

/-- An operation and what it resulted in. -/
structure Event where
  operation : Operation
  response : Response

/-- The requests sent in an event. -/
def Event.requests (e : Event) : List Request :=
  match e.response with
  | .call outcome => outcome.requests
  | _ => []

namespace Instance

/-! ## Operations and sequences of them

An operation gives an instance and a response.  A run forgets the responses and a history keeps
them; both are by recursion on the operations, from the front, so that an induction on a run has an
arbitrary instance to start from. -/

/-- One operation. -/
def act (i : Instance) : Operation → Instance × Response
  | .set field value =>
    match i.set field value with
    | .ok i' => (i', .set (.ok ()))
    | .error e => (i, .set (.error e))
  | .setLocal key value => (i.setLocal key value, .done)
  | .update record => (i.update record, .done)
  | .call g a fate => ((g.perform a i fate).1, .call (g.perform a i fate).2)

/-- The instance after a sequence of operations. -/
def run (i : Instance) : List Operation → Instance
  | [] => i
  | op :: ops => run (i.act op).1 ops

/-- The events of a sequence of operations. -/
def history (i : Instance) : List Operation → List Event
  | [] => []
  | op :: ops => ⟨op, (i.act op).2⟩ :: history (i.act op).1 ops

/-- One sequence after the other. -/
theorem run_append (i : Instance) (before after : List Operation) :
    i.run (before ++ after) = (i.run before).run after := by
  induction before generalizing i with
  | nil => rfl
  | cons op ops ih => exact ih (i.act op).1

/-- The events of one sequence after the other. -/
theorem history_append (i : Instance) (before after : List Operation) :
    i.history (before ++ after) = i.history before ++ (i.run before).history after := by
  induction before generalizing i with
  | nil => rfl
  | cons op ops ih => exact congrArg (List.cons _) (ih (i.act op).1)

/-- What every operation keeps, every sequence of operations keeps. -/
theorem run_keeps {P : Instance → Prop}
    (step : ∀ (i : Instance) (op : Operation), P i → P (i.act op).1)
    {i : Instance} (h : P i) (ops : List Operation) : P (i.run ops) := by
  induction ops generalizing i with
  | nil => exact h
  | cons op ops ih => exact ih (step i op h)

/-- A quantity that every operation overwrites or leaves alone, as its event says, has after a run
the value it was last overwritten with. -/
theorem run_last {α : Type} {P : Instance → Prop} (read : Instance → α)
    {effect : Event → Option α}
    (keep : ∀ (i : Instance) (op : Operation), P i → P (i.act op).1)
    (step : ∀ (i : Instance) (op : Operation), P i →
      read (i.act op).1 = (effect ⟨op, (i.act op).2⟩).getD (read i))
    {i : Instance} (h : P i) (ops : List Operation) :
    read (i.run ops) = ((i.history ops).filterMap effect).getLast?.getD (read i) := by
  induction ops generalizing i with
  | nil => rfl
  | cons op ops ih =>
    rw [run, ih (keep i op h), step i op h, history]
    cases he : effect ⟨op, (i.act op).2⟩ with
    | none => rw [List.filterMap_cons_none he, Option.getD_none]
    | some a =>
      rw [List.filterMap_cons_some he, List.getLast?_cons, Option.getD_some, Option.getD_some]

/-! ## What an operation can do

The relation has one clause for each way an operation can go, with the instance it leaves written
out.  A call brings its own six ways with it. -/

/-- The ways an operation can go: the instance it leaves and what it results in. -/
inductive Step (i : Instance) : Operation → Instance → Response → Prop
  | set {field : String} {value : Value} (h : (i.get? field).isSome) :
      Step i (.set field value) { i with fields := i.fields.put field value, dirty := true }
        (.set (.ok ()))
  | undeclared {field : String} {value : Value} {e : FieldError} (h : i.get? field = none) :
      Step i (.set field value) i (.set (.error e))
  | setLocal (key : String) (value : Value) :
      Step i (.setLocal key value) (i.setLocal key value) .done
  | update (record : Object) : Step i (.update record) (i.update record) .done
  | call {g : Gateway} {a : Action} {fate : Gateway.Fate} {i' : Instance}
      {outcome : Gateway.Outcome} (h : Gateway.Call g i a fate i' outcome) :
      Step i (.call g a fate) i' (.call outcome)

/-- **There is no other way an operation can go.** -/
theorem act_step (i : Instance) (op : Operation) : Step i op (i.act op).1 (i.act op).2 := by
  cases op with
  | set field value =>
    rw [act]
    cases h : i.set field value with
    | ok i' =>
      obtain ⟨hf, rfl⟩ := set_eq_ok_iff.1 h
      exact .set hf
    | error e => exact .undeclared (set_eq_error_iff.1 h).1
  | setLocal key value => exact .setLocal key value
  | update record => exact .update record
  | call g a fate => exact .call (g.perform_call i a fate)

/-! ## Origins

An instance is made without a record or of one.  The record is kept in the relation because some
statements compare what an instance says with what it was made of. -/

/-- How an instance of a model comes to be, and the record it was made of, if any. -/
inductive Origin (d : Descriptor) : Instance → Option Object → Prop
  | fresh : Origin d (.fresh d) none
  | record {r : Object} {i : Instance} (h : ofRecord d (.object r) = .ok i) : Origin d i (some r)

/-- An instance starts without attributes, unsaved changes or a request under way. -/
theorem Origin.untouched {d : Descriptor} {i : Instance} {record : Option Object}
    (h : Origin d i record) : i.locals = [] ∧ i.dirty = false ∧ i.pending = false := by
  cases h with
  | fresh => exact ⟨rfl, rfl, rfl⟩
  | record h =>
    rw [ofRecord_object] at h
    cases h
    exact ⟨rfl, rfl, rfl⟩

/-- Whatever instance a record gives has an origin: only objects are records. -/
theorem origin_of_ofRecord {d : Descriptor} {v : Value} {i : Instance}
    (h : ofRecord d v = .ok i) : ∃ r, v = .object r ∧ Origin d i (some r) := by
  obtain ⟨r, rfl⟩ := exists_of_ofRecord_eq_ok h
  exact ⟨r, rfl, .record h⟩

/-- The instances of a model that some sequence of operations leads to. -/
def Reachable (d : Descriptor) (i : Instance) : Prop :=
  ∃ (i₀ : Instance) (record : Option Object) (ops : List Operation),
    Origin d i₀ record ∧ i = i₀.run ops

end Instance
end RemoteModels

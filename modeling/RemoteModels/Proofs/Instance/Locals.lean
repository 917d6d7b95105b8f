import RemoteModels.Proofs.Instance.Invariant

/-!
# Attributes of the client's own

The owner of an instance may keep attributes on it that are no business of the server.  They have
a place of their own beside the fields, also where an attribute and a field have the same name, and
nothing that the server or another caller can see depends on them.

Two runs that differ in such attributes may have different numbers of operations, so they are not
compared step by step.  Each is compared with its *core*, the run of the operations that set no
attribute: `Instance.run_eq` says that a run ends where its core ends, but for the attributes, and
`Instance.filter_history` that its core goes through the same events.  Both rest on one fact about
one operation, `Instance.act_withLocals`: what an operation does, and what it results in, is the
same under any attributes, and it hands them on as they are.

* `core`, `attributes` — a run without the operations that set attributes, and what those set.
* `Instance.View` — what can be seen of an instance.
* `Instance.locals_invisible` — runs with the same core look alike, and only setting an attribute
  changes one.
-/

set_option autoImplicit false

namespace RemoteModels

open Json (Value Object)

/-- The attribute that an operation sets. -/
def Operation.attribute? : Operation → Option (String × Value)
  | .setLocal key value => some (key, value)
  | _ => none

/-- Whether an operation sets no attribute. -/
def Operation.isCore (op : Operation) : Bool := op.attribute?.isNone

/-- The operations of a run that set no attribute. -/
def core (ops : List Operation) : List Operation := ops.filter Operation.isCore

/-- The attributes that a run sets, in order. -/
def attributes (ops : List Operation) : Object := ops.filterMap Operation.attribute?

/-- Whether an event is of an operation that sets no attribute. -/
def Event.isCore (e : Event) : Bool := e.operation.isCore

/-- There is one operation that sets an attribute. -/
theorem Operation.eq_setLocal {op : Operation} (h : ¬ op.isCore) :
    ∃ key value, op = .setLocal key value := by
  cases op with
  | setLocal key value => exact ⟨key, value, rfl⟩
  | set | update | call => exact absurd rfl h

theorem core_cons {op : Operation} (h : op.isCore) (ops : List Operation) :
    core (op :: ops) = op :: core ops :=
  List.filter_cons_of_pos h

theorem isCore_of_mem_core {op : Operation} {ops : List Operation} (h : op ∈ core ops) :
    op.isCore :=
  (List.mem_filter.1 h).2

theorem attributes_cons {op : Operation} (h : op.isCore) (ops : List Operation) :
    attributes (op :: ops) = attributes ops :=
  List.filterMap_cons_none (Option.isNone_iff_eq_none.1 h)

namespace Instance

/-- The instance with other attributes. -/
def withLocals (i : Instance) (locals : Object) : Instance := { i with locals := locals }

@[simp] theorem withLocals_locals (i : Instance) (l : Object) : (i.withLocals l).locals = l := rfl

/-! ## One operation

That an operation is blind to the attributes is one equation, which says both halves at once: what
becomes of the rest does not depend on them, and they are handed on. -/

/-- An answer does the same under any attributes. -/
theorem settle_withLocals (a : Action) (url : String) (i : Instance) (l : Object)
    (answer : Answer) :
    Gateway.settle a url (i.withLocals l) answer
      = ((Gateway.settle a url i answer).1.withLocals l, (Gateway.settle a url i answer).2) := by
  obtain ⟨change, result, heffect, hsettle⟩ := Gateway.exists_settle_eq a url answer
  rw [hsettle, hsettle]
  cases heffect <;> rfl

/-- A call neither looks at the attributes nor touches them. -/
theorem perform_withLocals (g : Gateway) (a : Action) (i : Instance) (l : Object)
    (fate : Gateway.Fate) :
    g.perform a (i.withLocals l) fate
      = ((g.perform a i fate).1.withLocals l, (g.perform a i fate).2) := by
  -- The check in front of the request and its body read the identity, the state and the fields.
  have htarget : g.target a (i.withLocals l) = g.target a i := rfl
  have hbody : Gateway.body a (i.withLocals l) = Gateway.body a i := rfl
  rw [Gateway.perform, Gateway.perform, htarget, hbody]
  cases g.target a i with
  | error e => rfl
  | ok url =>
    cases fate with
    | dropped => rfl
    | answered answer => simp only [settle_withLocals]

/-- **Operations are blind to the attributes**: under other attributes an operation does the same
to the rest of the instance and results in the same, and the attributes stay as they are. -/
theorem act_withLocals (i : Instance) (l : Object) {op : Operation} (h : op.isCore) :
    (i.withLocals l).act op = ((i.act op).1.withLocals l, (i.act op).2) := by
  cases op with
  | setLocal => cases h
  | update r => rfl
  | call g a fate => simp only [act, perform_withLocals]
  | set field value =>
    have hget : (i.withLocals l).get? field = i.get? field := rfl
    simp only [act, set, hget]
    cases i.get? field <;> rfl

/-- No other operation changes an attribute. -/
theorem locals_act (i : Instance) {op : Operation} (h : op.isCore) :
    (i.act op).1.locals = i.locals := by
  have hact : i.act op = ((i.act op).1.withLocals i.locals, (i.act op).2) :=
    act_withLocals i i.locals h
  rw [hact, withLocals_locals]

/-! ## A run and its core

A run is compared with its core by induction on its operations.  An operation that sets an attribute
is a step of the run and none of the core, so the two instances differ in between, but in their
attributes only; that the core then goes on alike is the equation for one operation, carried along
the rest of the core. -/

/-- Operations that set no attribute hand the attributes on. -/
theorem run_withLocals (i : Instance) (l : Object) {ops : List Operation}
    (h : ∀ op ∈ ops, op.isCore) : (i.withLocals l).run ops = (i.run ops).withLocals l := by
  induction ops generalizing i with
  | nil => rfl
  | cons op ops ih =>
    rw [List.forall_mem_cons] at h
    rw [run, run, act_withLocals i l h.1]
    exact ih (i.act op).1 h.2

/-- What they result in does not depend on the attributes. -/
theorem history_withLocals (i : Instance) (l : Object) {ops : List Operation}
    (h : ∀ op ∈ ops, op.isCore) : (i.withLocals l).history ops = i.history ops := by
  induction ops generalizing i with
  | nil => rfl
  | cons op ops ih =>
    rw [List.forall_mem_cons] at h
    rw [history, history, act_withLocals i l h.1]
    exact congrArg _ (ih (i.act op).1 h.2)

/-- **A run ends where its core ends**, but for the attributes, which are those that were set. -/
theorem run_eq (i : Instance) (ops : List Operation) :
    i.run ops = (i.run (core ops)).withLocals (i.locals.merge (attributes ops)) := by
  induction ops generalizing i with
  | nil => rfl
  | cons op ops ih =>
    by_cases hop : op.isCore
    · rw [run, ih, core_cons hop, attributes_cons hop, locals_act i hop, run]
    · obtain ⟨key, value, rfl⟩ := Operation.eq_setLocal hop
      have hact : (i.act (.setLocal key value)).1 = i.withLocals (i.locals.put key value) := rfl
      rw [run, hact, ih, run_withLocals i _ fun _ h => isCore_of_mem_core h]
      rfl

/-- **A run goes through the events of its core**, and beside them only sets attributes. -/
theorem filter_history (i : Instance) (ops : List Operation) :
    (i.history ops).filter Event.isCore = i.history (core ops) := by
  induction ops generalizing i with
  | nil => rfl
  | cons op ops ih =>
    rw [history]
    by_cases hop : op.isCore
    · have hevent : (Event.mk op (i.act op).2).isCore := hop
      rw [List.filter_cons_of_pos hevent, ih, core_cons hop, history]
    · obtain ⟨key, value, rfl⟩ := Operation.eq_setLocal hop
      have hevent : ¬ (Event.mk (.setLocal key value) (i.act (.setLocal key value)).2).isCore := hop
      have hact : (i.act (.setLocal key value)).1 = i.withLocals (i.locals.put key value) := rfl
      rw [List.filter_cons_of_neg hevent, ih, hact,
        history_withLocals i _ fun _ h => isCore_of_mem_core h]
      rfl

/-- Setting an attribute sends nothing, so all requests of a run are those of its core. -/
theorem flatMap_requests_history (i : Instance) (ops : List Operation) :
    (i.history ops).flatMap Event.requests = (i.history (core ops)).flatMap Event.requests := by
  rw [← filter_history]
  induction ops generalizing i with
  | nil => rfl
  | cons op ops ih =>
    rw [history, List.flatMap_cons, ih]
    by_cases hop : op.isCore
    · have hevent : (Event.mk op (i.act op).2).isCore := hop
      rw [List.filter_cons_of_pos hevent, List.flatMap_cons]
    · obtain ⟨key, value, rfl⟩ := Operation.eq_setLocal hop
      rfl

/-! ## Two runs

Two runs with the same core are each compared with it, and so with each other.  They need not have
the same number of operations. -/

/-- What can be seen of an instance beside the attributes. -/
structure View where
  id : Option String
  state : State
  dirty : Bool
  pending : Bool
  dict : Object

/-- What is seen of an instance. -/
def view (i : Instance) : View := ⟨i.id, i.state, i.dirty, i.pending, i.toDict⟩

/-- A run and its core end with the same view. -/
theorem view_run (i : Instance) (ops : List Operation) :
    (i.run ops).view = (i.run (core ops)).view := by
  rw [run_eq]
  rfl

/-- They end with the same fields. -/
theorem get?_run_core (i : Instance) (ops : List Operation) (field : String) :
    (i.run ops).get? field = (i.run (core ops)).get? field := by
  rw [run_eq]
  rfl

/-- An instance starts without attributes. -/
theorem Origin.locals_eq {d : Descriptor} {i : Instance} {record : Option Object}
    (h : Origin d i record) : i.locals = [] :=
  h.untouched.1

/-- **Attributes of the client's own are invisible.**  Two runs that differ only in setting them
send the same requests, give every other operation the same result, and after equal parts show the
same instance.  Conversely no other operation changes an attribute, whatever its name: an instance
has the attributes that were set on it, each with the value it was last set to. -/
theorem locals_invisible (i : Instance) {ops ops' : List Operation} (h : core ops = core ops') :
    (i.history ops).flatMap Event.requests = (i.history ops').flatMap Event.requests ∧
    (i.history ops).filter Event.isCore = (i.history ops').filter Event.isCore ∧
    (∀ before before', before <+: ops → before' <+: ops' → core before = core before' →
      (i.run before).view = (i.run before').view ∧
        ∀ field, (i.run before).get? field = (i.run before').get? field) ∧
    (∀ before op, before ++ [op] <+: ops → op.isCore →
      ∀ key, (i.run (before ++ [op])).local? key = (i.run before).local? key) ∧
    ∀ d record, Origin d i record → (i.run ops).locals = Members.ofList (attributes ops) := by
  refine ⟨?_, ?_, ?_, ?_, ?_⟩
  · rw [flatMap_requests_history, flatMap_requests_history i ops', h]
  · rw [filter_history, filter_history, h]
  · intro before before' _ _ hcore
    refine ⟨?_, fun field => ?_⟩
    · rw [view_run, view_run i before', hcore]
    · rw [get?_run_core, get?_run_core i before', hcore]
  · intro before op _ hop key
    rw [run_append]
    exact congrArg (Members.get? · key) (locals_act (i.run before) hop)
  · intro d record ho
    rw [run_eq, withLocals_locals, ho.locals_eq]
    rfl

/-- A bolt whose owner keeps a label of their own on it: the label that is sent is the field. -/
theorem locals_invisible_label :
    let put : Operation := .call ⟨widget⟩ .put (.answered (.ok (.object [("id", .string "8")])))
    let ops : List Operation :=
      [.setLocal "label" (.string "mine"), .set "label" (.string "nut"), put,
        .setLocal "label" (.string "ours"), .setLocal "note" .null, put]
    let ops' : List Operation := [.set "label" (.string "nut"), put, put]
    core ops = core ops' ∧
      (newBolt.history ops).flatMap Event.requests
        = (newBolt.history ops').flatMap Event.requests ∧
      (newBolt.run ops).view = (newBolt.run ops').view ∧
      (newBolt.run ops).locals = [("label", .string "ours"), ("note", .null)] := by
  intro put ops ops'
  have h : core ops = core ops' := rfl
  obtain ⟨hrequests, -, hview, -, hlocals⟩ := locals_invisible newBolt h
  exact ⟨h, hrequests, (hview ops ops' (List.prefix_refl _) (List.prefix_refl _) h).1,
    hlocals widget _ newBolt_origin⟩

end Instance
end RemoteModels

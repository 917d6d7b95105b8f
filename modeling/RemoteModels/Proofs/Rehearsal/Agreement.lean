import Mathlib.Data.List.Forall2
import RemoteModels.Proofs.Instance.Invariant
import RemoteModels.Rehearsal.Instances

/-!
# What a client takes from a record

A server may send more than a model declares, leave out what is null, and write its members in any
order.  Of all this a client takes the declared fields and, where it looks for one, the identity;
of the answer to a deletion it takes nothing.

Two runs of the same steps whose records agree in what is taken are the same run.  The instances
they keep are not merely alike, they are equal, because an instance has no place where anything
else of a record could be left.  So the relation that the proof carries from step to step is
equality, but for the answers that are still to come (`Desk.Agrees`).

* `Descriptor.SameFields`, `Descriptor.SameRecord` — records that agree for a model.
* `Gateway.SameList`, `Gateway.SameItem`, `Action.SameAnswer` — answers that agree, by what they
  are the answer to.
* `Desk.Parallel` — two runs whose records agree at every step.
* `Desk.undeclared_invisible` — they send, result in and keep the same.
-/

set_option autoImplicit false

namespace RemoteModels

open Json (Value Object)

/-! ## Records that agree

Agreement is stated by what a client takes, and each kind of answer has its own notion of it: a list
is taken item by item, a created record is asked for its identity, and the answer to a deletion for
nothing.  What is equal agrees in any case, errors among it. -/

/-- The declared fields have the same values, null standing for those that are missing. -/
def Descriptor.SameFields (d : Descriptor) (r r' : Object) : Prop :=
  ∀ name ∈ d.fieldNames, (r.get? name).getD .null = (r'.get? name).getD .null

/-- Records with the same declared fields and the same identity; what is no record is the same. -/
inductive Descriptor.SameRecord (d : Descriptor) : Value → Value → Prop
  | same (v : Value) : SameRecord d v v
  | record {r r' : Object} (hf : d.SameFields r r') (hid : recordId r = recordId r') :
      SameRecord d (.object r) (.object r')

/-- Answers to a request for a collection whose records agree one by one. -/
inductive Gateway.SameList (g : Gateway) : Answer → Answer → Prop
  | same (answer : Answer) : SameList g answer answer
  | records {items items' : List Value} (h : List.Forall₂ g.descriptor.SameRecord items items') :
      SameList g (.ok (.array items)) (.ok (.array items'))

/-- Answers to a request for one record that agree. -/
inductive Gateway.SameItem (g : Gateway) : Answer → Answer → Prop
  | same (answer : Answer) : SameItem g answer answer
  | record {v v' : Value} (h : g.descriptor.SameRecord v v') : SameItem g (.ok v) (.ok v')

/-- Answers to an action on an instance of a model that agree: a change takes the fields of a
record, a creation its identity as well, and a deletion nothing at all. -/
inductive Action.SameAnswer (d : Descriptor) : Action → Answer → Answer → Prop
  | same (a : Action) (answer : Answer) : SameAnswer d a answer answer
  | put {r r' : Object} (hf : d.SameFields r r') :
      SameAnswer d .put (.ok (.object r)) (.ok (.object r'))
  | post {parentId : String} {r r' : Object} (hf : d.SameFields r r')
      (hid : recordId r = recordId r') :
      SameAnswer d (.post parentId) (.ok (.object r)) (.ok (.object r'))
  | delete (v v' : Value) : SameAnswer d .delete (.ok v) (.ok v')

namespace Instance

/-- An update looks at the declared fields only. -/
theorem update_congr {i : Instance} {r r' : Object} (h : i.descriptor.SameFields r r') :
    i.update r = i.update r' := by
  have hfields := List.foldl_ext
    (fun (m : Object) name => m.put name ((r.get? name).getD .null))
    (fun m name => m.put name ((r'.get? name).getD .null)) i.fields
    (l := i.descriptor.fieldNames) fun m name hn => by rw [h name hn]
  rw [update, update, hfields]

/-- So does an instance that is made of a record, beside its identity. -/
theorem ofRecord_congr {d : Descriptor} {v v' : Value} (h : d.SameRecord v v') :
    ofRecord d v = ofRecord d v' := by
  cases h with
  | same => rfl
  | record hf hid =>
    have hupdate := update_congr (i := fresh d) hf
    rw [ofRecord_object, ofRecord_object, hupdate, hid]

end Instance

namespace Gateway

variable {g : Gateway}

theorem hydrateAll_congr {items items' : List Value}
    (h : List.Forall₂ g.descriptor.SameRecord items items') :
    g.hydrateAll items = g.hydrateAll items' := by
  induction h with
  | nil => rfl
  | cons hv _ ih => rw [hydrateAll, hydrateAll, hydrate, hydrate, Instance.ofRecord_congr hv, ih]

theorem listOf_congr {answer answer' : Answer} (h : g.SameList answer answer') (url : String) :
    g.listOf url answer = g.listOf url answer' := by
  cases h with
  | same => rfl
  | records h => exact hydrateAll_congr h

theorem itemOf_congr {answer answer' : Answer} (h : g.SameItem answer answer') :
    g.itemOf answer = g.itemOf answer' := by
  cases h with
  | same => rfl
  | record h => exact Instance.ofRecord_congr h

/-- And so does the end of a change. -/
theorem settle_congr {i : Instance} {a : Action} {answer answer' : Answer}
    (h : a.SameAnswer i.descriptor answer answer') (url : String) :
    settle a url i answer = settle a url i answer' := by
  cases h with
  | same => rfl
  | delete => rfl
  | put hf =>
    have hupdate := Instance.update_congr (i := { i with pending := false }) hf
    simp only [settle, absorb, recordOf, Value.asObject?, Except.map, Instance.markSynced, hupdate]
  | post hf hid =>
    have hupdate := Instance.update_congr (i := { i with pending := false }) hf
    simp only [settle, absorb, recordOf, Value.asObject?, bind, Except.bind, Instance.markCreated,
      hid, hupdate]

end Gateway

namespace Rehearsal
namespace Desk

/-! ## Desks that agree

A step reads from the script of answers the next one at most.  What two desks may differ in is
therefore the script and nothing else, and the work that comes after an answer is the same on
both. -/

/-- The same desk and the same report, but for the answers that are still to come. -/
def Agrees (x x' : Desk × Report) : Prop :=
  ∃ script, x' = ({ x.1 with script := script }, x.2)

variable {d : Desk} {script : List (Scripted Value)} {slot model : String}

/-- A step for a model may take for granted which gateway is found. -/
theorem agrees_withModel {work work' : Gateway → Desk × Report}
    (h : ∀ g, d.registry.get? model = some g → Agrees (work g) (work' g)) :
    Agrees (d.withModel model work) ({ d with script := script }.withModel model work') := by
  rw [withModel, withModel]
  cases hg : d.registry.get? model with
  | none => exact ⟨script, rfl⟩
  | some g => exact h g hg

/-- A step for a slot may take for granted which instance is found. -/
theorem agrees_withSlot {work work' : Instance → Desk × Report}
    (h : ∀ i, d.slots.get? slot = some i → Agrees (work i) (work' i)) :
    Agrees (d.withSlot slot work) ({ d with script := script }.withSlot slot work') := by
  rw [withSlot, withSlot]
  cases hi : d.slots.get? slot with
  | none => exact ⟨script, rfl⟩
  | some i => exact h i hi

/-- Filling a slot leaves the script alone. -/
theorem fillWith_script (result : Except RequestError Instance) :
    { d with script := script }.fillWith slot result
      = ({ (d.fillWith slot result).1 with script := script }, (d.fillWith slot result).2) := by
  cases result <;> rfl

theorem fillAll_script (target : String) (is : List Instance) :
    { d with script := script }.fillAll target is
      = { d.fillAll target is with script := script } := by
  rw [fillAll, fillAll]
  generalize is.zipIdx = numbered
  induction numbered generalizing d with
  | nil => rfl
  | cons p rest ih => exact ih (d := d.fill (target ++ toString p.2) p.1)

/-! ## Steps that agree

Some steps bring a record with them, others get one as their answer.  For those that send nothing,
nothing is asked of the script. -/

/-- Steps that are the same, but for records that agree. -/
inductive SameStep (d : Desk) : DeskStep → DeskStep → Prop
  | same (step : DeskStep) : SameStep d step step
  | hydrate {slot model : String} {v v' : Value}
      (h : ∀ g, d.registry.get? model = some g → g.descriptor.SameRecord v v') :
      SameStep d (.hydrate slot model v) (.hydrate slot model v')
  | update {slot : String} {r r' : Object}
      (h : ∀ i, d.slots.get? slot = some i → i.descriptor.SameFields r r') :
      SameStep d (.update slot r) (.update slot r')

/-- Answers to the request of a step that agree.  The fields of a change are those of the instance
and not those of the gateway, which may speak for another model. -/
def SameAnswer (d : Desk) (step : DeskStep) (answer answer' : Answer) : Prop :=
  match step with
  | .getAll model _ _ => ∀ g, d.registry.get? model = some g → g.SameList answer answer'
  | .fetch _ model _ => ∀ g, d.registry.get? model = some g → g.SameItem answer answer'
  | .change slot _ a =>
    ∀ i, d.slots.get? slot = some i → a.SameAnswer i.descriptor answer answer'
  | _ => True

/-- Scripted answers that agree: both are held back for good, or both arrive and agree. -/
structure SameScripted (d : Desk) (step : DeskStep) (s s' : Scripted Value) : Prop where
  gate : s.gate.isSome = s'.gate.isSome
  answer : s.gate = none → d.SameAnswer step s.answer s'.answer

/-- Work on a desk that does not look at the answers that are still to come. -/
def Blind (work : Desk → Answer → Desk × Reply) : Prop :=
  ∀ (d : Desk) (script : List (Scripted Value)) (answer : Answer),
    work { d with script := script } answer
      = ({ (work d answer).1 with script := script }, (work d answer).2)

/-! ## Steps that send something

A request takes one answer from each script.  Both answers are held back for good, or both arrive
and the work goes on with them in the same way. -/

/-- Requests for records. -/
theorem agrees_getWith {url : String} {log : LogEntry} {work : Desk → Answer → Desk × Reply}
    (hwork : Blind work)
    (hgate : (next d.script).1.gate.isSome = (next script).1.gate.isSome)
    (hanswer : (next d.script).1.gate = none →
      ∀ d', work d' (next d.script).1.answer = work d' (next script).1.answer) :
    Agrees (d.getWith url log work) ({ d with script := script }.getWith url log work) := by
  rw [getWith, getWith]
  dsimp only
  generalize next d.script = first at hgate hanswer ⊢
  generalize next script = second at hgate hanswer ⊢
  obtain ⟨s, rest⟩ := first
  obtain ⟨s', rest'⟩ := second
  dsimp only at hgate hanswer ⊢
  rw [← hgate]
  cases hs : s.gate with
  | some gate => exact ⟨rest', rfl⟩
  | none =>
    refine ⟨rest', ?_⟩
    have hblind := hwork { d with script := rest } rest' s'.answer
    rw [if_neg (by simp), if_neg (by simp), hblind, hanswer hs]

/-- A change whose answer is held back for good. -/
theorem change_of_gate (d : Desk) (slot : String) {g : Gateway} {a : Action} {i : Instance}
    {url gate : String} (ht : g.target a i = .ok url) (hg : (next d.script).1.gate = some gate) :
    d.change slot g a i
      = ({ d with script := (next d.script).2 }.fill slot (Gateway.inFlight i),
          { reply := .dropped
            requests := [.post url (Gateway.body a i)]
            logs := [g.logSend a url] }) := by
  simp only [change, ht, hg, Option.isSome_some, if_true, Gateway.perform]

/-- The reply to a change that was answered. -/
def replyOf : Except RequestError Unit → Reply
  | .ok () => .done
  | .error e => .requestError e

/-- A change whose answer arrives. -/
theorem change_of_answer (d : Desk) (slot : String) {g : Gateway} {a : Action} {i : Instance}
    {url : String} (ht : g.target a i = .ok url) (hg : (next d.script).1.gate = none) :
    d.change slot g a i
      = ({ d with script := (next d.script).2 }.fill slot
            (Gateway.settle a url i (next d.script).1.answer).1,
          { reply := replyOf (Gateway.settle a url i (next d.script).1.answer).2
            requests := [.post url (Gateway.body a i)]
            logs := [g.logSend a url] }) := by
  have hperform : g.perform a i (.answered (next d.script).1.answer)
      = ((Gateway.settle a url i (next d.script).1.answer).1,
          .finished (.post url (Gateway.body a i))
            (Gateway.settle a url i (next d.script).1.answer).2) := by
    rw [Gateway.perform, ht]
  simp only [change, ht, hg, Option.isSome_none, Bool.false_eq_true, if_false, hperform]
  cases (Gateway.settle a url i (next d.script).1.answer).2 <;> rfl

/-- Changes to a record. -/
theorem agrees_change {g : Gateway} {a : Action} {i : Instance}
    (h : (d.change slot g a i).2.requests ≠ [] →
      (next d.script).1.gate.isSome = (next script).1.gate.isSome ∧
        ((next d.script).1.gate = none →
          a.SameAnswer i.descriptor (next d.script).1.answer (next script).1.answer)) :
    Agrees (d.change slot g a i) ({ d with script := script }.change slot g a i) := by
  cases ht : g.target a i with
  | error e =>
    simp only [change, ht]
    exact ⟨script, rfl⟩
  | ok url =>
    refine ⟨(next script).2, ?_⟩
    cases hg : (next d.script).1.gate with
    | some gate =>
      have hsent := change_of_gate d slot ht hg
      obtain ⟨hgate, -⟩ := h (by rw [hsent]; exact List.cons_ne_nil _ _)
      rw [hg, Option.isSome_some, eq_comm, Option.isSome_iff_exists] at hgate
      obtain ⟨gate', hg'⟩ := hgate
      rw [hsent, change_of_gate { d with script := script } slot ht hg']
      rfl
    | none =>
      have hsent := change_of_answer d slot ht hg
      obtain ⟨hgate, hanswer⟩ := h (by rw [hsent]; exact List.cons_ne_nil _ _)
      rw [hg, Option.isSome_none, eq_comm, Option.isSome_eq_false_iff,
        Option.isNone_iff_eq_none] at hgate
      rw [hsent, change_of_answer { d with script := script } slot ht hgate,
        Gateway.settle_congr (hanswer hg) url]
      rfl

/-- **A step cannot tell agreeing records apart**: from the same desk it leads to the same desk, but
for the answers that are still to come, and reports the same. -/
theorem agrees_act {step step' : DeskStep} (hstep : d.SameStep step step')
    (hnext : (d.act step).2.requests ≠ [] →
      d.SameScripted step (next d.script).1 (next script).1) :
    Agrees (d.act step) ({ d with script := script }.act step') := by
  cases hstep with
  | hydrate h =>
    refine agrees_withModel fun g hg => ⟨script, ?_⟩
    rw [Gateway.hydrate, Gateway.hydrate, ← Instance.ofRecord_congr (h g hg), fillWith_script]
  | update h =>
    refine agrees_withSlot fun i hi => ⟨script, ?_⟩
    rw [Instance.update_congr (h i hi)]
    rfl
  | same step =>
    -- The steps up to `envelope` send nothing, so the script is carried along untouched.
    cases step with
    | new slot model => exact agrees_withModel fun g _ => ⟨script, rfl⟩
    | hydrate slot model v =>
      refine agrees_withModel fun g _ => ⟨script, ?_⟩
      rw [fillWith_script]
    | urls model parentId id => exact agrees_withModel fun g _ => ⟨script, rfl⟩
    | copy slot target => exact agrees_withSlot fun i _ => ⟨script, rfl⟩
    | look slot => exact agrees_withSlot fun i _ => ⟨script, rfl⟩
    | set slot field value =>
      refine agrees_withSlot fun i _ => ⟨script, ?_⟩
      cases i.set field value <;> rfl
    | setLocal slot key value => exact agrees_withSlot fun i _ => ⟨script, rfl⟩
    | update slot r => exact agrees_withSlot fun i _ => ⟨script, rfl⟩
    | get slot field => exact agrees_withSlot fun i _ => ⟨script, rfl⟩
    | getLocal slot key => exact agrees_withSlot fun i _ => ⟨script, rfl⟩
    | envelope slot verb => exact agrees_withSlot fun i _ => ⟨script, rfl⟩
    | getAll model parentId target =>
      refine agrees_withModel fun g hg => ?_
      have hsame := hnext (by simp [act, withModel, hg, getWith])
      refine agrees_getWith ?_ hsame.gate fun hgate d' => ?_
      · intro d' rest answer
        dsimp only
        cases g.listOf (g.collectionUrl parentId) answer with
        | error e => rfl
        | ok is =>
          cases target with
          | none => rfl
          | some target => simp only [fillAll_script]
      · rw [Gateway.listOf_congr (hsame.answer hgate g hg)]
    | fetch slot model id =>
      refine agrees_withModel fun g hg => ?_
      have hsame := hnext (by simp [act, withModel, hg, getWith])
      refine agrees_getWith ?_ hsame.gate fun hgate d' => ?_
      · intro d' rest answer
        exact fillWith_script _
      · rw [Gateway.itemOf_congr (hsame.answer hgate g hg)]
    | change slot model a =>
      refine agrees_withModel fun g hg => agrees_withSlot fun i hi => agrees_change fun hsent => ?_
      have hsame := hnext (by simpa only [act, withModel, hg, withSlot, hi] using hsent)
      exact ⟨hsame.gate, fun hgate => hsame.answer hgate i hi⟩

/-! ## Runs

The steps of two runs are paired off, and each pair is compared at the desk that the first run has
come to.  By then the two desks are the same but for their scripts, so it does not matter which one
is looked at. -/

/-- What can be seen of a run: the report of each step, and the instances in all slots after it. -/
def trace (d : Desk) : List DeskStep → List (Report × Members Instance)
  | [] => []
  | step :: steps => ((d.act step).2, (d.act step).1.slots) :: (d.act step).1.trace steps

/-- Two runs of the same steps whose records agree: those in the steps, and those in the answers to
the steps that send a request. -/
inductive Parallel : Desk → Desk → List DeskStep → List DeskStep → Prop
  | nil (d d' : Desk) : Parallel d d' [] []
  | cons {d d' : Desk} {step step' : DeskStep} {steps steps' : List DeskStep}
      (hstep : d.SameStep step step')
      (hnext : (d.act step).2.requests ≠ [] →
        d.SameScripted step (next d.script).1 (next d'.script).1)
      (hrest : Parallel (d.act step).1 (d'.act step').1 steps steps') :
      Parallel d d' (step :: steps) (step' :: steps')

/-- **What a model does not declare is invisible.**  Two runs from the same instances whose records
agree send the same requests, report the same results and errors, and have equal instances in all
slots after every step, whatever else their records hold and whatever deletions are answered. -/
theorem undeclared_invisible {d d' : Desk} {steps steps' : List DeskStep}
    (hregistry : d.registry = d'.registry) (hslots : d.slots = d'.slots)
    (h : Parallel d d' steps steps') : d.trace steps = d'.trace steps' := by
  induction h with
  | nil => rfl
  | @cons d d' step step' steps steps' hstep hnext hrest ih =>
    have hd : d' = { d with script := d'.script } := by
      rw [hregistry, hslots]
    obtain ⟨script, hact⟩ := agrees_act hstep hnext
    rw [← hd] at hact
    rw [hact] at ih
    rw [trace, trace, hact, ih rfl rfl]

/-- A desk for widgets. -/
def widgets (script : List (Scripted Value)) : Desk :=
  { registry := .put .empty ⟨widget⟩, script := script }

theorem widget_sameFields {r r' : Object}
    (hlabel : (r.get? "label").getD .null = (r'.get? "label").getD .null)
    (hweight : (r.get? "weight").getD .null = (r'.get? "weight").getD .null) :
    widget.SameFields r r' := by
  simp only [Descriptor.SameFields, Descriptor.fieldNames, widget, List.map_cons, List.map_nil,
    List.forall_mem_cons]
  exact ⟨hlabel, hweight, fun _ h => absurd h List.not_mem_nil⟩

/-- A bolt is made of a record, changed and deleted.  The second server adds members, spells the
identity as a text, writes null out, and answers the deletion in another way. -/
theorem undeclared_invisible_bolt :
    let d := widgets
      [⟨.ok (.object [("label", .string "nut"), ("id", .number (.natural 8))]), none⟩,
        ⟨.ok .null, none⟩]
    let d' := widgets
      [⟨.ok (.object [("weight", .null), ("color", .bool true), ("label", .string "nut")]), none⟩,
        ⟨.ok (.string "gone"), none⟩]
    let rest : List DeskStep := [.change "a" "Widget" .put, .change "a" "Widget" .delete]
    let steps := .hydrate "a" "Widget" (.object Instance.boltRecord) :: rest
    let steps' := .hydrate "a" "Widget"
      (.object [("color", .bool true), ("label", .string "bolt"), ("id", .string "7")]) :: rest
    Parallel d d' steps steps' ∧ d.trace steps = d'.trace steps' := by
  intro d d' rest steps steps'
  have h : Parallel d d' steps steps' := by
    refine .cons (.hydrate fun g hg => ?_) (fun hn => absurd rfl hn)
      (.cons (.same _) (fun _ => ⟨rfl, fun _ i hi => ?_⟩)
        (.cons (.same _) (fun _ => ⟨rfl, fun _ i hi => .delete _ _⟩) (.nil _ _)))
    · cases hg
      exact .record (widget_sameFields rfl rfl) rfl
    · cases hi
      exact .put (widget_sameFields rfl rfl)
  exact ⟨h, undeclared_invisible rfl rfl h⟩

end Desk
end Rehearsal
end RemoteModels

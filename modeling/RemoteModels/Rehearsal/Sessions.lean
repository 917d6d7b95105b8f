import RemoteModels.Rehearsal.Script
import RemoteModels.Session.Basic

/-!
# Rehearsing sessions

Calls on a session are started under a name and polled one at a time; the specification comes from a
script whose gates are opened step by step.

Time passes only by steps.  A request is answered as soon as its gate is open, but a call notices it
when it is polled.

* `Rehearsal.Cue` — the steps.
* `Rehearsal.Stage.act` — one step, with what comes of it.
-/

set_option autoImplicit false

namespace RemoteModels
namespace Rehearsal

open Json (Value)

/-- What can be done on a stage. -/
inductive Cue where
  | once (call : Call)
  | start (task : String) (call : Call)
  | poll (task : String)
  | cancel (task : String)
  | openGate (gate : String)
  | list (model parentId : String)

/-- What a step results in. -/
inductive CueReply where
  | ended (o : Outcome)
  | waiting
  | dropped
  | cancelled (wasThere : Bool)
  | opened
  | items (is : List Instance)
  | noTask
  | noModel
  | requestError (e : RequestError)

/-- What can be seen of a step. -/
structure CueReport where
  reply : CueReply
  effects : Effects := {}

/-- A session, the calls that were started by name, and what is left of the script. -/
structure Stage where
  session : Session
  tasks : Members TaskId := []
  gates : List String := []
  texts : List (Scripted TextResponse) := []
  script : List (Scripted Value) := []

namespace Stage

/-- The answers that have arrived: each request has its place in the script, and a gate may hold its
answer back. -/
def answers (s : Stage) (request : Nat) : Option TextAnswer :=
  let scripted := (s.texts[request]?).getD exhaustedText
  match scripted.gate with
  | none => some scripted.answer
  | some gate => if s.gates.contains gate then some scripted.answer else none

/-- Takes a name back; what becomes of its call is not decided here. -/
def forget (s : Stage) (task : String) : Stage :=
  { s with tasks := s.tasks.filter (·.1 ≠ task) }

/-- Keeps a call under a name; the one kept there before is given up. -/
def keep (s : Stage) (task : String) (t : TaskId) : Stage :=
  let session := match s.tasks.get? task with
    | some old => s.session.drop old
    | none => s.session
  { s with session := session, tasks := s.tasks.put task t }

/-- The records of a model below a parent, as the current registry has them. -/
def list (s : Stage) (model parentId : String) : Stage × CueReport :=
  match s.session.once s.answers .factory with
  | (session, e, .waiting) => ({ s with session := session }, ⟨.waiting, e⟩)
  | (session, e, .ended (.loaded b)) =>
    let s := { s with session := session }
    match b.registry.get? model with
    | none => (s, ⟨.noModel, e⟩)
    | some g =>
      let url := g.collectionUrl parentId
      let (scripted, rest) := next s.script
      let s := { s with script := rest }
      let e := e ++ ({ requests := [.get url], logs := [g.logGetAll url] } : Effects)
      if scripted.gate.isSome then (s, ⟨.dropped, e⟩)
      else
        match g.listOf url scripted.answer with
        | .ok is => (s, ⟨.items is, e⟩)
        | .error err => (s, ⟨.requestError err, e⟩)
  | (session, e, .ended o) => ({ s with session := session }, ⟨.ended o, e⟩)

/-- One step. -/
def act (s : Stage) : Cue → Stage × CueReport
  | .once call =>
    match s.session.once s.answers call with
    | (session, e, .waiting) => ({ s with session := session }, ⟨.dropped, e⟩)
    | (session, e, .ended o) => ({ s with session := session }, ⟨.ended o, e⟩)
  | .start task call =>
    let (session, t) := s.session.begin call
    match session.poll s.answers t with
    | (session, e, .waiting) => ({ s with session := session }.keep task t, ⟨.waiting, e⟩)
    | (session, e, .ended o) => ({ s with session := session }, ⟨.ended o, e⟩)
  | .poll task =>
    match s.tasks.get? task with
    | none => (s, ⟨.noTask, {}⟩)
    | some t =>
      match s.session.poll s.answers t with
      | (session, e, .waiting) => ({ s with session := session }, ⟨.waiting, e⟩)
      | (session, e, .ended o) => ({ s with session := session }.forget task, ⟨.ended o, e⟩)
  | .cancel task =>
    match s.tasks.get? task with
    | none => (s, ⟨.cancelled false, {}⟩)
    | some t => ({ s with session := s.session.drop t }.forget task, ⟨.cancelled true, {}⟩)
  | .openGate gate => ({ s with gates := gate :: s.gates }, ⟨.opened, {}⟩)
  | .list model parentId => s.list model parentId

end Stage
end Rehearsal
end RemoteModels

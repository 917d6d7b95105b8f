import RemoteModels.Registry
import RemoteModels.Rehearsal.Script

/-!
# Rehearsing work with instances

Instances live in named slots, and gateways work on them with scripted answers.

A rehearsal is a list of steps.  Each step is given by names alone and reports all that can be seen
of it, so that two rehearsals can be compared step by step.

* `Rehearsal.DeskStep` — the steps.
* `Rehearsal.Desk` — the registry, the slots and the rest of the script.
* `Rehearsal.Desk.act` — one step, with what comes of it.
-/

set_option autoImplicit false

namespace RemoteModels
namespace Rehearsal

open Json (Value Object)

/-- What can be done at a desk: making, reading and changing instances, and sending what was done to
them. -/
inductive DeskStep where
  | new (slot model : String)
  | hydrate (slot model : String) (record : Value)
  | urls (model parentId id : String)
  | copy (slot target : String)
  | look (slot : String)
  | set (slot field : String) (value : Value)
  | setLocal (slot key : String) (value : Value)
  | update (slot : String) (record : Object)
  | get (slot field : String)
  | getLocal (slot key : String)
  | envelope (slot : String) (verb : Verb)
  | getAll (model parentId : String) (target : Option String)
  | fetch (slot model id : String)
  | change (slot model : String) (action : Action)

/-- What a step results in. -/
inductive Reply where
  | done
  | urls (collection item : String)
  | value (v : Option Value)
  | envelope (e : Envelope)
  | items (is : List Instance)
  | dropped
  | noModel
  | noSlot
  | requestError (e : RequestError)
  | fieldError (e : FieldError)

/-- What can be seen of a step. -/
structure Report where
  reply : Reply
  requests : List Request := []
  logs : List LogEntry := []

/-- What the steps work on. -/
structure Desk where
  registry : Registry
  slots : Members Instance := []
  script : List (Scripted Value) := []

namespace Desk

/-! ## Parts of a step

Steps find a gateway or an instance by its name, and some of them send something.  If there is
nothing under the name this is reported, and the desk stays as it is. -/

/-- Puts an instance into a slot. -/
def fill (d : Desk) (slot : String) (i : Instance) : Desk := { d with slots := d.slots.put slot i }

/-- Puts instances into numbered slots. -/
def fillAll (d : Desk) (target : String) (is : List Instance) : Desk :=
  is.zipIdx.foldl (fun d p => d.fill (target ++ toString p.2) p.1) d

/-- Works on the gateway of a model. -/
def withModel (d : Desk) (model : String) (work : Gateway → Desk × Report) : Desk × Report :=
  match d.registry.get? model with
  | some g => work g
  | none => (d, { reply := .noModel })

/-- Works on the instance in a slot. -/
def withSlot (d : Desk) (slot : String) (work : Instance → Desk × Report) : Desk × Report :=
  match d.slots.get? slot with
  | some i => work i
  | none => (d, { reply := .noSlot })

/-- Fills a slot, or tells why there is nothing to fill it with. -/
def fillWith (d : Desk) (slot : String) : Except RequestError Instance → Desk × Reply
  | .ok i => (d.fill slot i, .done)
  | .error e => (d, .requestError e)

/-- Sends a request for JSON; `work` goes on with the answer if one arrives. -/
def getWith (d : Desk) (url : String) (log : LogEntry) (work : Desk → Answer → Desk × Reply) :
    Desk × Report :=
  let (scripted, rest) := next d.script
  let d := { d with script := rest }
  let (d, reply) :=
    if scripted.gate.isSome then (d, Reply.dropped) else work d scripted.answer
  (d, { reply := reply, requests := [.get url], logs := [log] })

/-- Carries out a change of the instance in a slot. -/
def change (d : Desk) (slot : String) (g : Gateway) (a : Action) (i : Instance) :
    Desk × Report :=
  match g.target a i with
  | .error e => (d, { reply := .requestError e })
  | .ok url =>
    let (scripted, rest) := next d.script
    let fate := if scripted.gate.isSome then .dropped else .answered scripted.answer
    let (i, outcome) := g.perform a i fate
    let d := { d with script := rest }.fill slot i
    let report (request : Request) (reply : Reply) : Report :=
      { reply := reply, requests := [request], logs := [g.logSend a url] }
    match outcome with
    | .refused e => (d, { reply := .requestError e })
    | .dropped request => (d, report request .dropped)
    | .finished request (.ok ()) => (d, report request .done)
    | .finished request (.error e) => (d, report request (.requestError e))

/-- One step. -/
def act (d : Desk) : DeskStep → Desk × Report
  | .new slot model => d.withModel model fun g =>
    (d.fill slot g.newInstance, { reply := .done })
  | .hydrate slot model record => d.withModel model fun g =>
    let (d, reply) := d.fillWith slot (g.hydrate record)
    (d, { reply := reply })
  | .urls model parentId id => d.withModel model fun g =>
    (d, { reply := .urls (g.collectionUrl parentId) (g.itemUrl id) })
  | .copy slot target => d.withSlot slot fun i => (d.fill target i, { reply := .done })
  | .look slot => d.withSlot slot fun _ => (d, { reply := .done })
  | .set slot field value => d.withSlot slot fun i =>
    match i.set field value with
    | .ok i => (d.fill slot i, { reply := .done })
    | .error e => (d, { reply := .fieldError e })
  | .setLocal slot key value => d.withSlot slot fun i =>
    (d.fill slot (i.setLocal key value), { reply := .done })
  | .update slot record => d.withSlot slot fun i =>
    (d.fill slot (i.update record), { reply := .done })
  | .get slot field => d.withSlot slot fun i => (d, { reply := .value (i.get? field) })
  | .getLocal slot key => d.withSlot slot fun i => (d, { reply := .value (i.local? key) })
  | .envelope slot verb => d.withSlot slot fun i =>
    (d, { reply := .envelope (.ofInstance verb i) })
  | .getAll model parentId target => d.withModel model fun g =>
    let url := g.collectionUrl parentId
    d.getWith url (g.logGetAll url) fun d answer =>
      match g.listOf url answer with
      | .error e => (d, .requestError e)
      | .ok is =>
        let d := match target with
          | some target => d.fillAll target is
          | none => d
        (d, .items is)
  | .fetch slot model id => d.withModel model fun g =>
    let url := g.itemUrl id
    d.getWith url (g.logGet url) fun d answer => d.fillWith slot (g.itemOf answer)
  | .change slot model action => d.withModel model fun g =>
    d.withSlot slot fun i => d.change slot g action i

end Desk
end Rehearsal
end RemoteModels

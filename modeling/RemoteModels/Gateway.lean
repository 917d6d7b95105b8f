import RemoteModels.Envelope
import RemoteModels.Log

/-!
# Gateways

A gateway speaks for one model: it knows where its collections and records live on the server, makes
instances, and carries their changes over.

A call on an instance has three parts, which are kept apart here: whether it may be made at all,
what it sends, and what the answer does.  Only the last one changes the instance.

* `Gateway.collectionUrl`, `Gateway.itemUrl` — the paths.
* `Gateway.listOf`, `Gateway.itemOf` — instances from the answer to a request.
* `Gateway.target` — whether an action on an instance may be sent, and where to.
* `Gateway.settle` — what an answer does to the instance.
* `Gateway.perform` — an action with a given fate of its request.
-/

set_option autoImplicit false

namespace RemoteModels

open Json (Value Object)

/-- What speaks for a model. -/
structure Gateway where
  descriptor : Descriptor
deriving DecidableEq

/-- A change to a record. -/
inductive Action where
  | put
  | post (parentId : String)
  | delete
deriving DecidableEq

/-- The verb under which an action is sent. -/
def Action.verb : Action → Verb
  | .put => .put
  | .post _ => .post
  | .delete => .delete

namespace Gateway

def modelName (g : Gateway) : String := g.descriptor.localName

def parentName (g : Gateway) : String := g.descriptor.parentName

/-- The gateway as it is shown in messages. -/
def describe (g : Gateway) (quote : String → String) : String :=
  "ModelGateway \x7b model_name: " ++ quote g.modelName ++ ", parent_name: " ++
    quote g.parentName ++ " \x7d"

/-! ## Addresses

Names and identities are put between slashes as they are, without any encoding. -/

/-- The path of the records below one parent record. -/
def collectionUrl (g : Gateway) (parentId : String) : String :=
  "/" ++ g.parentName ++ "/" ++ parentId ++ "/" ++ g.modelName ++ "s"

/-- The path of one record. -/
def itemUrl (g : Gateway) (id : String) : String := "/" ++ g.modelName ++ "/" ++ id

/-! ## Instances from the server

An instance is made of a record, and a list of instances of a list of records; anything else in an
answer is refused. -/

def newInstance (g : Gateway) : Instance := .fresh g.descriptor

def hydrate (g : Gateway) (record : Value) : Except RequestError Instance :=
  Instance.ofRecord g.descriptor record

/-- The instances of records in order; the first that is no record is the fault. -/
def hydrateAll (g : Gateway) : List Value → Except RequestError (List Instance)
  | [] => .ok []
  | r :: rest => do
    let i ← g.hydrate r
    let is ← g.hydrateAll rest
    return i :: is

/-- The instances in the answer to a request for a collection. -/
def listOf (g : Gateway) (url : String) : Answer → Except RequestError (List Instance)
  | .error e => .error (.transport e)
  | .ok (.array items) => g.hydrateAll items
  | .ok other => .error (.decode (url ++ ": expected a list, got " ++ other.compact))

/-- The instance in the answer to a request for one record. -/
def itemOf (g : Gateway) : Answer → Except RequestError Instance
  | .error e => .error (.transport e)
  | .ok record => g.hydrate record

/-! ## Changes

An instance that is new can be created, and one with an identity can be changed or deleted, until it
is destroyed.  What does not fit is refused before anything is sent. -/

/-- The identity of an instance that exists on the server. -/
def liveId (i : Instance) : Except RequestError String :=
  if i.isDestroyed then .error .destroyed
  else
    match i.id with
    | some id => .ok id
    | none => .error .missingId

/-- Where an action is sent, or why it may not be. -/
def target (g : Gateway) (a : Action) (i : Instance) : Except RequestError String :=
  match a with
  | .put => (liveId i).map g.itemUrl
  | .delete => (liveId i).map g.itemUrl
  | .post parentId =>
    match i.state, i.id with
    | .destroyed, _ => .error .destroyed
    | .new, none => .ok (g.collectionUrl parentId)
    | _, id => .error (.alreadyCreated (id.getD ""))

/-- The body of the post that carries an action. -/
def body (a : Action) (i : Instance) : Value := (Envelope.ofInstance a.verb i).toValue

/-- The instance while its request is under way. -/
def inFlight (i : Instance) : Instance := { i with pending := true }

/-- The record in an answer. -/
def recordOf (url : String) (v : Value) : Except RequestError Object :=
  match v.asObject? with
  | some r => .ok r
  | none => .error (.decode (url ++ ": expected a record, got " ++ v.compact))

/-- The changed instance, for an answer that was successful. -/
def absorb (a : Action) (url : String) (i : Instance) (v : Value) : Except RequestError Instance :=
  match a with
  | .put => (recordOf url v).map i.markSynced
  | .post _ => do
    let r ← recordOf url v
    match recordId r with
    | some id => return i.markCreated id r
    | none => .error (.decode (url ++ ": created record has no id"))
  | .delete => .ok i.markDestroyed

/-- The instance and the result once a request has been answered.  A failure leaves the instance as
it was, with no request under way. -/
def settle (a : Action) (url : String) (i : Instance) (answer : Answer) :
    Instance × Except RequestError Unit :=
  let idle := { i with pending := false }
  match answer with
  | .error e => (idle, .error (.transport e))
  | .ok v =>
    match absorb a url idle v with
    | .ok i => (i, .ok ())
    | .error e => (idle, .error e)

/-- What becomes of a request: it is answered, or given up before an answer arrives. -/
inductive Fate where
  | answered (answer : Answer)
  | dropped

/-- What becomes of a call: it is refused without a request, its request is given up, or it is
answered. -/
inductive Outcome where
  | refused (e : RequestError)
  | dropped (request : Request)
  | finished (request : Request) (result : Except RequestError Unit)

/-- An action on an instance whose request, if one is sent, meets the given fate. -/
def perform (g : Gateway) (a : Action) (i : Instance) (fate : Fate) : Instance × Outcome :=
  match g.target a i with
  | .error e => (i, .refused e)
  | .ok url =>
    let request := Request.post url (body a i)
    match fate with
    | .dropped => (inFlight i, .dropped request)
    | .answered answer =>
      let (i, result) := settle a url i answer
      (i, .finished request result)

/-! ## What is reported

Each request is reported with the model it is for. -/

def logGetAll (g : Gateway) (url : String) : LogEntry :=
  ⟨.debug, .gateway, "get_all " ++ url, [("model", g.modelName)]⟩

def logGet (g : Gateway) (url : String) : LogEntry :=
  ⟨.debug, .gateway, "get " ++ url, [("model", g.modelName)]⟩

def logSend (g : Gateway) (a : Action) (url : String) : LogEntry :=
  ⟨.debug, .gateway, "POST " ++ url, [("model", g.modelName), ("method", a.verb.name)]⟩

end Gateway
end RemoteModels

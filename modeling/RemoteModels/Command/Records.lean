import RemoteModels.Command.Dialogue
import RemoteModels.Config
import RemoteModels.Loader
import RemoteModels.Text.Columns
import RemoteModels.Text.Upper
import RemoteModels.Tree

/-!
# Commands about models and records

Every command first loads the models of the context in use, then asks for records or changes one.

A command is an attempt: it goes on as long as everything works out, and the first failure is its
end.  What was said and sent up to then stays said and sent.

* `Failure` — why a command fails; `Failure.report` what the user is told.
* `Records.loadModels` — the registry of the server.
* `Records.list`, `Records.get`, `Records.create`, `Records.update`, `Records.delete`,
  `Records.models` — the commands.
-/

set_option autoImplicit false

namespace RemoteModels

open Json (Value Object)

/-! ## Failures

A failure has a message, and may have causes behind it that are shown below. -/

/-- Why a command fails. -/
inductive Failure where
  | config (e : ConfigError)
  | configText
  | file (message : String)
  | noBody
  | invalidJson (e : Json.Error)
  | notAnObject
  | unknownModel (name : String) (known : List String)
  | load (e : LoadError)
  | request (e : RequestError)
deriving DecidableEq

namespace Failure

/-- The first line that the user is told. -/
def message : Failure → String
  | .config e => e.message
  | .configText => "TOML parse error"
  | .file message => message
  | .noBody => "Provide --json or -f <file>."
  | .invalidJson e => "Invalid JSON: " ++ e.message
  | .notAnObject => "Expected a JSON object."
  | .unknownModel name known =>
    "Unknown model: " ++ name ++ ". Known models: " ++ ", ".intercalate known
  | .load e => e.message
  | .request e => e.message

/-- What lies behind a failure, the nearest cause first. -/
def causes : Failure → List String
  | .load (.fetch e) => [e.message]
  | .load (.parse (.json e)) => [(SpecificationError.json e).message, e.message]
  | .load (.parse e) => [e.message]
  | _ => []

/-- A text whose first line stands behind `first` and every other line behind `other`. -/
def indent (first other : String) (s : String) : String :=
  first ++ ("\n" ++ other).intercalate ((s.splitOn "\n"))

/-- The causes below their head, numbered if there are several. -/
def causesText (cs : List String) : String :=
  match cs with
  | [] => ""
  | [c] => "\n\nCaused by:\n" ++ indent "    " "    " c
  | cs =>
    "\n\nCaused by:\n" ++ "\n".intercalate (cs.zipIdx.map fun p =>
      indent ("    " ++ toString p.2 ++ ": ") "       " p.1)

/-- What the user is told. -/
def report (f : Failure) : String := "Error: " ++ f.message ++ causesText f.causes ++ "\n"

end Failure

/-- A dialogue that may fail. -/
abbrev Attempt (α : Type) := ExceptT Failure Dialogue α

namespace Records

def fail {α : Type} (f : Failure) : Attempt α := throw f

def orFail {α ε : Type} (f : ε → Failure) : Except ε α → Attempt α
  | .ok a => pure a
  | .error e => fail (f e)

/-- A dialogue that does not fail. -/
def lift {α : Type} (d : Dialogue α) : Attempt α := ExceptT.lift d

/-! ## Loading

A context that leaves something open gets the default: no token, or the usual place of the
specification. -/

/-- The client of a context. -/
def clientOf (x : Context) : HttpClient :=
  .ofServer x.server (if x.token = "" then none else some x.token)

def loaderOf (x : Context) : Loader :=
  if x.specPath = "" then .default else .ofPath x.specPath

/-- The registry of a server. -/
def loadModels (loader : Loader) : Attempt Registry := do
  let answer ← lift (Dialogue.askText loader.path)
  let (built, logs) := loader.build answer
  lift (Dialogue.logAll logs)
  let r ← orFail .load built
  lift (Dialogue.log ⟨.info, .session, "session loaded " ++ toString r.size ++ " models", []⟩)
  return r

/-- The gateway of a model. -/
def gatewayOf (r : Registry) (model : String) : Attempt Gateway :=
  match r.get? model with
  | some g => pure g
  | none => fail (.unknownModel model r.names)

/-! ## Showing

Records are shown as a table or as JSON.  In both only the identity and the declared fields are
shown. -/

/-- A record as it is shown: its identity, then the declared fields. -/
def recordValue (i : Instance) : Value :=
  let id : Value := match i.id with
    | some id => .string id
    | none => .null
  .object (Members.merge [("id", id)] i.toDict)

/-- A value in a table. -/
def cell : Option Value → String
  | none => "-"
  | some .null => "-"
  | some (.string s) => s
  | some v => v.compact

/-- The head of a table. -/
def headerRow (g : Gateway) : String :=
  Text.trimEnd (Text.pad 12 "ID" ++
    String.join (g.descriptor.fieldNames.map fun c => " " ++ Text.pad 20 (Text.upper c)))

/-- A record in a table. -/
def recordRow (g : Gateway) (i : Instance) : String :=
  Text.trimEnd (Text.pad 12 (i.id.getD "-") ++
    String.join (g.descriptor.fieldNames.map fun c => " " ++ Text.pad 20 (cell (i.get? c))))

/-- The lines that show records. -/
def recordLines (g : Gateway) (is : List Instance) (json : Bool) : List String :=
  if json then [(Value.array (is.map recordValue)).pretty]
  else if is.isEmpty then ["No " ++ g.modelName ++ " records."]
  else headerRow g :: is.map (recordRow g)

/-- A model as it is shown in JSON. -/
def modelValue (g : Gateway) : Value :=
  .object
    [("name", .string g.modelName), ("full_name", .string g.descriptor.fullName),
     ("parent", .string g.parentName),
     ("fields", .object (Members.ofList (g.descriptor.fields.map fun f =>
       (f.name, .string f.type))))]

/-- The lines that show models. -/
def modelLines (r : Registry) (json : Bool) : List String :=
  if json then [(Value.array (r.gateways.map modelValue)).pretty]
  else r.tree.map (·.text)

/-! ## Requests

Each part reports what it is about to do, asks, and makes of the answer what the gateway makes of
it. -/

/-- The records of a collection. -/
def fetchAll (g : Gateway) (parentId : String) : Attempt (List Instance) := do
  let url := g.collectionUrl parentId
  lift (Dialogue.log (g.logGetAll url))
  let answer ← lift (Dialogue.askJson url)
  orFail .request (g.listOf url answer)

/-- One record. -/
def fetch (g : Gateway) (id : String) : Attempt Instance := do
  let url := g.itemUrl id
  lift (Dialogue.log (g.logGet url))
  let answer ← lift (Dialogue.askJson url)
  orFail .request (g.itemOf answer)

/-- Sends a change, and returns the changed instance. -/
def send (g : Gateway) (a : Action) (i : Instance) : Attempt Instance := do
  let url ← orFail .request (g.target a i)
  lift (Dialogue.log (g.logSend a url))
  let answer ← lift (Dialogue.askPost url (Gateway.body a i))
  match Gateway.settle a url i answer with
  | (i, .ok ()) => return i
  | (_, .error e) => fail (.request e)

/-- Sets the members of an object on an instance.  Those that are not declared are left out, and
each is told. -/
def applyMembers : List (String × Value) → Instance → Dialogue Instance
  | [], i => .done i
  | (key, value) :: rest, i =>
    match i.set key value with
    | .ok i => applyMembers rest i
    | .error e =>
      .say (.log ⟨.warn, .resource, e.message, []⟩)
        (.say (.err ("Skipping " ++ e.message ++ ".\n")) (applyMembers rest i))

/-- Sets the members of a JSON text on an instance. -/
def applyJson (i : Instance) (body : String) : Attempt Instance := do
  let v ← orFail .invalidJson (Json.parse body)
  match v with
  | .object m => lift (applyMembers m i)
  | _ => fail .notAnObject

/-! ## Commands

The order of the parts is the order in which faults are noticed.  An unknown model is noticed before
any record is asked for, and a bad text for an update only after the record has come. -/

def models (loader : Loader) (json : Bool) : Attempt Unit := do
  let r ← loadModels loader
  lift (Dialogue.outAll (modelLines r json))

def list (loader : Loader) (model parentId : String) (json : Bool) : Attempt Unit := do
  let r ← loadModels loader
  let g ← gatewayOf r model
  let is ← fetchAll g parentId
  lift (Dialogue.outAll (recordLines g is json))

def get (loader : Loader) (model id : String) (json : Bool) : Attempt Unit := do
  let r ← loadModels loader
  let g ← gatewayOf r model
  let i ← fetch g id
  lift (Dialogue.outAll (recordLines g [i] json))

def create (loader : Loader) (model parentId body : String) : Attempt Unit := do
  let r ← loadModels loader
  let g ← gatewayOf r model
  let i ← applyJson g.newInstance body
  let i ← send g (.post parentId) i
  lift (Dialogue.outAll [g.modelName ++ " created.", (recordValue i).pretty])

def update (loader : Loader) (model id body : String) : Attempt Unit := do
  let r ← loadModels loader
  let g ← gatewayOf r model
  let i ← fetch g id
  let i ← applyJson i body
  let i ← send g .put i
  lift (Dialogue.outAll [g.modelName ++ " " ++ id ++ " updated.", (recordValue i).pretty])

def delete (loader : Loader) (model id : String) : Attempt Unit := do
  let r ← loadModels loader
  let g ← gatewayOf r model
  let i ← orFail .request (g.hydrate (.object [("id", .string id)]))
  let _ ← send g .delete i
  lift (Dialogue.out (g.modelName ++ " " ++ id ++ " deleted."))

end Records
end RemoteModels

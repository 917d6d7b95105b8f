import RemoteModels.Command.Arguments
import RemoteModels.Command.Records
import RemoteModels.Files
import RemoteModels.Log.Filter

/-!
# The program

The program reads its command line, loads the configuration, does what is asked, and tells the user.

Everything a run depends on is in its surroundings, and all that it changes is in its report.  So a
run is a function, and two runs can be compared.

* `Surroundings` — the files, the environment, the input and the network around a run.
* `Report` — what a run leaves behind.
* `Program.paths`, `Program.asks` — what a run needs to know beforehand.
* `Program.run` — a whole run.
-/

set_option autoImplicit false

namespace RemoteModels

/-- What a run finds. -/
structure Surroundings where
  files : Files := []
  environment : Members String := []
  input : String := ""
  network : Network := .unreachable

/-- What a run leaves behind. -/
structure Report where
  code : Nat
  sayings : List Saying
  files : Files
  network : Network
  turns : List Turn := []
  /-- What was handed over to the network, whether or not an answer came back. -/
  arrived : List HttpMessage := []

namespace Report

/-- The text a run puts out. -/
def output (r : Report) : String :=
  String.join (r.sayings.map fun
    | .out line => line ++ "\n"
    | _ => "")

/-- The text a run puts beside its output. -/
def errors (r : Report) : String :=
  String.join (r.sayings.map fun
    | .err text => text
    | _ => "")

/-- The reports that a filter shows. -/
def logs (r : Report) (f : LogFilter) : List LogEntry :=
  r.sayings.filterMap fun
    | .log e => if f.admits e then some e else none
    | _ => none

end Report

namespace Program

/-! ## Configuration

The file is read anew for each run.  A change to it is read, changed and written; a change that is
refused writes nothing. -/

/-- The file of the configuration when none is named. -/
def defaultConfigPath (environment : Members String) : String :=
  let home := match environment.get? "HOME" with
    | some home => home
    | none => (environment.get? "USERPROFILE").getD "."
  PathName.join (PathName.join home ".modelgate") "config.toml"

/-- The configuration in a file; a missing file has an empty one. -/
def loadConfig (files : Files) (path : String) : Except Failure Config :=
  if files.has path then
    match files.read path with
    | .error e => .error (.file e.message)
    | .ok text =>
      match Config.parse text with
      | some c => .ok c
      | none => .error .configText
  else .ok {}

/-- Writes a configuration.  Directories above the file are made even if the file cannot be
written. -/
def saveConfig (files : Files) (path : String) (c : Config) : Files × Except Failure Unit :=
  match files.makeParents path with
  | .error e => (files, .error (.file e.message))
  | .ok made =>
    match made.write path c.text with
    | .error e => (made, .error (.file e.message))
    | .ok written => (written, .ok ())

/-- Changes the configuration in a file. -/
def changeConfig (files : Files) (path : String) (change : Config → Except ConfigError Config) :
    Files × Except Failure Unit :=
  match loadConfig files path with
  | .error f => (files, .error f)
  | .ok c =>
    match change c with
    | .error e => (files, .error (.config e))
    | .ok c => saveConfig files path c

/-- One line of the list of contexts. -/
def contextRow (marker name server spec : String) : String :=
  Text.pad 2 marker ++ " " ++ Text.pad 20 name ++ " " ++ Text.pad 40 server ++ " " ++
    Text.pad 12 spec

/-- The lines that list the contexts. -/
def contextLines (c : Config) : List String :=
  if c.contexts.isEmpty then
    ["No contexts configured.", "Run: modelgate context create <name> --server <url>"]
  else
    contextRow "" "NAME" "SERVER" "SPEC" :: c.contexts.map fun x =>
      contextRow (if x.name = c.current then "*" else " ") x.name
        (if x.server = "" then "-" else x.server)
        (if x.specPath = "" then "(default)" else x.specPath)

/-! ## Runs

Commands about contexts need the file alone, and those about models and records the server of the
context in use too.  A run ends with 0 where all went well, with 1 where something failed, and with
2 where the command line made no sense. -/

/-- The end of a run that talked to nobody. -/
def quiet (s : Surroundings) (files : Files) (lines : List String) (result : Except Failure Unit) :
    Report :=
  let (code, sayings) := match result with
    | .ok () => (0, lines.map Saying.out)
    | .error f => (1, [Saying.err f.report])
  { code := code, sayings := sayings, files := files, network := s.network }

/-- Changes the configuration, and tells when it is done. -/
def runChange (s : Surroundings) (path : String) (change : Config → Except ConfigError Config)
    (line : String) : Report :=
  let (files, result) := changeConfig s.files path change
  quiet s files [line] result

/-- Runs a dialogue with the server of the context in use. -/
def runDialogue (s : Surroundings) (path : String) (dialogue : Loader → Attempt Unit) : Report :=
  match loadConfig s.files path with
  | .error f => quiet s s.files [] (.error f)
  | .ok c =>
    match c.require with
    | .error e => quiet s s.files [] (.error (.config e))
    | .ok x =>
      let r := Dialogue.run (Records.clientOf x) s.network (dialogue (Records.loaderOf x)).run
      let (code, last) := match r.result with
        | .ok () => (0, [])
        | .error f => (1, [Saying.err f.report])
      { code := code
        sayings := r.sayings ++ last
        files := s.files
        network := r.network
        turns := r.turns
        arrived := r.arrived }

/-- The text given for a new record: that of a file, else that of the command line. -/
def bodyOf (files : Files) (json file : Option String) : Except Failure String :=
  match file, json with
  | some path, _ =>
    match files.read path with
    | .ok text => .ok text
    | .error e => .error (.file e.message)
  | none, some json => .ok json
  | none, none => .error .noBody

/-- The question before a record is deleted. -/
def question : String := "Are you sure? [y/N]: "

/-- Whether the first line of the input says yes. -/
def confirms (input : String) : Bool :=
  let line := String.ofList (input.toList.takeWhile (· ≠ '\n'))
  Text.trim line == "y" || Text.trim line == "Y"

/-- Puts something said before in front. -/
def saying (before : Saying) (r : Report) : Report := { r with sayings := before :: r.sayings }

/-- Does what is asked. -/
def perform (s : Surroundings) (path : String) (json : Bool) : Command → Report
  | .createContext name props =>
    if name = "" then quiet s s.files [] (.error (.config .emptyName))
    else runChange s path (·.create name props) ("Context \"" ++ name ++ "\" created.")
  | .setContext name props =>
    runChange s path (·.set name props) ("Context \"" ++ name ++ "\" updated.")
  | .deleteContext name =>
    runChange s path (·.delete name) ("Context \"" ++ name ++ "\" deleted.")
  | .useContext name =>
    runChange s path (·.use name) ("Switched to context \"" ++ name ++ "\".")
  | .listContexts =>
    match loadConfig s.files path with
    | .error f => quiet s s.files [] (.error f)
    | .ok c => quiet s s.files (contextLines c) (.ok ())
  | .models => runDialogue s path fun loader => Records.models loader json
  | .list model parentId => runDialogue s path fun loader => Records.list loader model parentId json
  | .get model id => runDialogue s path fun loader => Records.get loader model id json
  | .create model parentId body file =>
    match bodyOf s.files body file with
    | .error f => quiet s s.files [] (.error f)
    | .ok body => runDialogue s path fun loader => Records.create loader model parentId body
  | .update model id body => runDialogue s path fun loader => Records.update loader model id body
  | .delete model id yes =>
    if yes then runDialogue s path fun loader => Records.delete loader model id
    else
      saying (.err question)
        (if confirms s.input then runDialogue s path fun loader => Records.delete loader model id
        else quiet s s.files ["Cancelled."] (.ok ()))
  | .version => quiet s s.files ["modelgate cli v0.1.0"] (.ok ())

/-- The file of the configuration of a run. -/
def configPath (i : Invocation) (environment : Members String) : String :=
  i.config.getD (defaultConfigPath environment)

/-- The files that a run looks at. -/
def paths (args : List String) (environment : Members String) : List String :=
  match Invocation.read args with
  | .error _ => []
  | .ok i =>
    configPath i environment ::
      match i.command with
      | .create _ _ _ (some path) => [path]
      | _ => []

/-- Whether a run asks its question, and so reads its input. -/
def asks (args : List String) : Bool :=
  match Invocation.read args with
  | .ok { command := .delete _ _ yes, .. } => !yes
  | _ => false

/-- A whole run. -/
def run (args : List String) (s : Surroundings) : Report :=
  match Invocation.read args with
  | .error stop =>
    { code := if stop = .help then 0 else 2
      sayings := []
      files := s.files
      network := s.network }
  | .ok i => perform s (configPath i s.environment) i.json i.command

end Program
end RemoteModels

import RemoteModels.Config

/-!
# Command lines

A command line is read level by level: options may stand anywhere in their level, and a word that
names a subcommand opens the next level.  The options `--config` and `--output` belong to every
level, and the innermost one counts.

Reading goes from left to right and ends at the first thing that is wrong, or at the first request
for help, whichever comes first.  What a level may hold is data: the options it knows, the words
that open the next level, and the number of other words there is room for.

* `Command`, `Invocation` — what is asked for.
* `Switch`, `Level` — the options, and what has been read of a level.
* `readLevel` — one level.
* `Invocation.read` — a whole command line.
-/

set_option autoImplicit false

namespace RemoteModels

/-- What a user asks for. -/
inductive Command where
  | createContext (name : String) (props : ContextProps)
  | listContexts
  | setContext (name : String) (props : ContextProps)
  | deleteContext (name : String)
  | useContext (name : String)
  | models
  | list (model parentId : String)
  | get (model id : String)
  | create (model parentId : String) (json file : Option String)
  | update (model id json : String)
  | delete (model id : String) (yes : Bool)
  | version
deriving DecidableEq

/-- A command with the options that belong to every command. -/
structure Invocation where
  config : Option String
  json : Bool
  command : Command
deriving DecidableEq

/-- Why there is nothing to do: the command line is wrong, or asks for help. -/
inductive Stop where
  | usage
  | help
deriving DecidableEq

namespace Arguments

/-! ## Options

An option has a long name, and some have a letter as well.  Which of them a level knows is up to the
level. -/

inductive Switch where
  | config
  | output
  | json
  | file
  | yes
  | server
  | token
  | specPath
  | help
deriving DecidableEq

namespace Switch

def long : Switch → String
  | .config => "config"
  | .output => "output"
  | .json => "json"
  | .file => "file"
  | .yes => "yes"
  | .server => "server"
  | .token => "token"
  | .specPath => "spec-path"
  | .help => "help"

def short : Switch → Option Char
  | .output => some 'o'
  | .file => some 'f'
  | .yes => some 'y'
  | .help => some 'h'
  | _ => none

def takesValue : Switch → Bool
  | .yes => false
  | .help => false
  | _ => true

/-- Whether a value may be given. -/
def accepts : Switch → String → Bool
  | .output, v => v == "table" || v == "json"
  | _, _ => true

end Switch

/-! ## Levels

An option may carry its value with it or take the next word for it.  A word that looks like an
option is never taken for a value, and behind two dashes nothing is an option. -/

/-- What has been read of a level. -/
structure Level where
  values : List (Switch × String) := []
  words : List String := []
deriving DecidableEq

namespace Level

def get? (l : Level) (s : Switch) : Option String := l.values.lookup s

/-- Notes an option, which may be given once. -/
def put (l : Level) (s : Switch) (value : String) : Except Stop Level :=
  if s = .help then .error .help
  else if (l.get? s).isSome || !s.accepts value then .error .usage
  else .ok { l with values := l.values ++ [(s, value)] }

end Level

/-- Whether a word reads as an option, so that it can be no value. -/
def isOption (word : String) : Bool :=
  match word.toList with
  | '-' :: _ :: _ => true
  | _ => false

/-- Notes the options of a word with one dash.  One that lacks its value is left over. -/
def putShorts (known : List Switch) : Level → List Char → Except Stop (Level × Option Switch)
  | l, [] => .ok (l, none)
  | l, c :: rest =>
    match known.find? (·.short = some c) with
    | none => .error .usage
    | some s =>
      if s.takesValue then
        match rest with
        | [] => .ok (l, some s)
        | '=' :: value => (l.put s (String.ofList value)).map (·, none)
        | value => (l.put s (String.ofList value)).map (·, none)
      else do
        let l ← l.put s ""
        putShorts known l rest

/-- Notes the option of a word with two dashes.  One that lacks its value is left over. -/
def putLong (known : List Switch) (l : Level) (cs : List Char) :
    Except Stop (Level × Option Switch) :=
  let name := String.ofList (cs.takeWhile (· ≠ '='))
  match known.find? (·.long = name), cs.dropWhile (· ≠ '=') with
  | none, _ => .error .usage
  | some s, [] => if s.takesValue then .ok (l, some s) else (l.put s "").map (·, none)
  | some s, _ :: value =>
    if s.takesValue then (l.put s (String.ofList value)).map (·, none) else .error .usage

/-- Reads a level up to the word that opens the next one.  It has room for so many other words. -/
def readLevel (known : List Switch) (subcommands : List String) (room : Nat) :
    Level → List String → Except Stop (Level × List String)
  | l, [] => .ok (l, [])
  | l, word :: rest =>
    if word = "--" then .ok ({ l with words := l.words ++ rest }, [])
    else if isOption word then do
      let (l, open?) ← match word.toList with
        | '-' :: '-' :: cs => putLong known l cs
        | _ :: cs => putShorts known l cs
        | [] => .error .usage
      match open?, rest with
      | none, rest => readLevel known subcommands room l rest
      | some _, [] => .error .usage
      | some s, value :: rest =>
        if isOption value then .error .usage
        else
          let l ← l.put s value
          readLevel known subcommands room l rest
    else if subcommands.contains word then .ok (l, word :: rest)
    else if l.words.length < room then
      readLevel known subcommands room { l with words := l.words ++ [word] } rest
    else .error .usage

/-! ## Whole command lines

There are two levels or three.  The outer ones take options and a subcommand, and the words of a
command stand on the innermost level. -/

/-- The options of every level. -/
def everywhere : List Switch := [.config, .output, .help]

/-- Reads a level that only opens another. -/
def readOuter (subcommands : List String) (args : List String) :
    Except Stop (Level × String × List String) := do
  let (l, rest) ← readLevel everywhere ("help" :: subcommands) 0 {} args
  match l.words, rest with
  | [], "help" :: _ => .error .help
  | [], word :: rest => .ok (l, word, rest)
  | _, _ => .error .usage

/-- Reads a level that opens no other. -/
def readInner (known : List Switch) (room : Nat) (args : List String) : Except Stop Level := do
  let (l, _) ← readLevel (everywhere ++ known) [] room {} args
  return l

def propsOf (l : Level) : ContextProps :=
  { server := l.get? .server, token := l.get? .token, specPath := l.get? .specPath }

/-- The options of the properties of a context. -/
def propSwitches : List Switch := [.server, .token, .specPath]

/-- Reads a command about contexts. -/
def readContext (args : List String) : Except Stop (List Level × Command) := do
  let (outer, word, rest) ← readOuter ["create", "list", "set", "delete"] args
  let known := if word = "create" ∨ word = "set" then propSwitches else []
  let l ← readInner known (if word = "list" then 0 else 1) rest
  let command ← match word, l.words with
    | "create", [name] => .ok (Command.createContext name (propsOf l))
    | "set", [name] => .ok (.setContext name (propsOf l))
    | "delete", [name] => .ok (.deleteContext name)
    | "list", [] => .ok .listContexts
    | _, _ => .error Stop.usage
  return ([outer, l], command)

/-- Reads a command that takes something into use. -/
def readUse (args : List String) : Except Stop (List Level × Command) := do
  let (outer, _, rest) ← readOuter ["context"] args
  let l ← readInner [] 1 rest
  match l.words with
  | [name] => return ([outer, l], .useContext name)
  | _ => .error .usage

/-- The options of a command about records. -/
def recordSwitches (word : String) : List Switch :=
  if word = "create" then [.json, .file]
  else if word = "update" then [.json]
  else if word = "delete" then [.yes]
  else []

/-- Reads a command about models and their records. -/
def readRecord (word : String) (args : List String) : Except Stop (List Level × Command) := do
  let l ← readInner (recordSwitches word) (if word = "models" ∨ word = "version" then 0 else 2) args
  let command ← match word, l.words with
    | "models", [] => .ok Command.models
    | "version", [] => .ok .version
    | "list", [model, parentId] => .ok (.list model parentId)
    | "get", [model, id] => .ok (.get model id)
    | "create", [model, parentId] =>
      .ok (.create model parentId (l.get? .json) (l.get? .file))
    | "update", [model, id] =>
      match l.get? .json with
      | some json => .ok (.update model id json)
      | none => .error .usage
    | "delete", [model, id] => .ok (.delete model id (l.get? .yes).isSome)
    | _, _ => .error Stop.usage
  return ([l], command)

/-- The value of an option on the innermost level that has it. -/
def innermost (levels : List Level) (s : Switch) : Option String :=
  (levels.filterMap (·.get? s)).getLast?

end Arguments

open Arguments in
/-- Reads a command line. -/
def Invocation.read (args : List String) : Except Stop Invocation := do
  let (root, word, rest) ← readOuter
    ["context", "use", "models", "list", "get", "create", "update", "delete", "version"] args
  let (levels, command) ← match word with
    | "context" => readContext rest
    | "use" => readUse rest
    | word => readRecord word rest
  let levels := root :: levels
  return {
    config := innermost levels .config
    json := innermost levels .output = some "json"
    command := command }

end RemoteModels

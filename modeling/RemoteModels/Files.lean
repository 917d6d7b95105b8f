import RemoteModels.Members
import RemoteModels.Text.Parts

/-!
# Files

A tree of files and directories, with the operations a command needs and the faults they meet.  The
tree is that of the working directory: every path is taken from there, one that begins with a slash
too, and what lies above it cannot be reached.  There are no links and no permissions.

* `FileNode`, `Files` — the tree.
* `PathName` — a path as its steps, and whether it has to name a directory.
* `Files.read`, `Files.write`, `Files.makeParents` — the operations.
-/

set_option autoImplicit false

namespace RemoteModels

/-- A file with its text, or a directory. -/
inductive FileNode where
  | file (text : String)
  | directory (entries : List (String × FileNode))

/-- The entries of the working directory. -/
abbrev Files := List (String × FileNode)

/-- Why an operation on files fails. -/
inductive FileError where
  | notFound
  | alreadyThere
  | notADirectory
  | isADirectory
deriving DecidableEq

def FileError.message : FileError → String
  | .notFound => "No such file or directory (os error 2)"
  | .alreadyThere => "File exists (os error 17)"
  | .notADirectory => "Not a directory (os error 20)"
  | .isADirectory => "Is a directory (os error 21)"

/-! ## Paths

A path is reduced to its steps by its spelling, before anything is looked up. -/

/-- The steps of a path, and whether a slash at its end asks for a directory. -/
structure PathName where
  steps : List String
  wantsDirectory : Bool := false
deriving DecidableEq

namespace PathName

/-- Goes one step: empty steps and dots lead nowhere, and two dots lead back.

Two dots are taken by their spelling.  They strike the step before them without asking whether it
leads to a directory, and at the working directory, above which there is nothing here, they lead
nowhere.  So a path that leaves a directory again reads the same whether or not the directory is
there; for paths without two dots nothing is left out. -/
def step (steps : List String) (part : String) : List String :=
  if part = "" || part = "." then steps
  else if part = ".." then steps.dropLast
  else steps ++ [part]

/-- The path of a text. -/
def ofString (s : String) : PathName :=
  let parts := (Text.parts (· = '/') s.toList).map String.ofList
  { steps := parts.foldl step []
    wantsDirectory := match parts.getLast? with
      | some last => (last == "" || last == "." || last == "..") && s != ""
      | none => false }

/-- The path one step up. -/
def parent (p : PathName) : PathName := { steps := p.steps.dropLast }

/-- A path with one more part behind a slash. -/
def join (base part : String) : String :=
  if base = "" || base.toList.getLast? = some '/' then base ++ part else base ++ "/" ++ part

end PathName

/-! ## Looking

A file can be read, and a directory entered.  The fault tells which of the two was tried in vain. -/

namespace Files

/-- What a sequence of steps leads to. -/
def walk : List String → FileNode → Except FileError FileNode
  | [], n => .ok n
  | _ :: _, .file _ => .error .notADirectory
  | s :: rest, .directory entries =>
    match Members.get? entries s with
    | some n => walk rest n
    | none => .error .notFound

/-- What a path leads to. -/
def lookup (fs : Files) (path : String) : Except FileError FileNode :=
  if path = "" then .error .notFound
  else
    let p := PathName.ofString path
    match walk p.steps (.directory fs) with
    | .ok (.file text) => if p.wantsDirectory then .error .notADirectory else .ok (.file text)
    | r => r

def has (fs : Files) (path : String) : Bool := (fs.lookup path).toBool

/-- The text of a file. -/
def read (fs : Files) (path : String) : Except FileError String :=
  match fs.lookup path with
  | .ok (.file text) => .ok text
  | .ok (.directory _) => .error .isADirectory
  | .error e => .error e

/-! ## Changing

A change rebuilds the directories above it, and everything beside them stays as it was. -/

/-- Works on the entries of the directory at the end of some steps. -/
def within (work : Files → Except FileError Files) : List String → Files → Except FileError Files
  | [], entries => work entries
  | s :: rest, entries =>
    match Members.get? entries s with
    | none => .error .notFound
    | some (.file _) => .error .notADirectory
    | some (.directory inner) => do
      let inner ← within work rest inner
      return Members.put entries s (.directory inner)

/-- Writes a file into a directory. -/
def writeHere (name text : String) (entries : Files) : Except FileError Files :=
  match Members.get? entries name with
  | some (.directory _) => .error .isADirectory
  | _ => .ok (Members.put entries name (.file text))

/-- Writes a file. -/
def write (fs : Files) (path text : String) : Except FileError Files :=
  let p := PathName.ofString path
  match p.steps.getLast? with
  | none => .error (if path = "" then .notFound else .isADirectory)
  | some name =>
    if p.wantsDirectory then
      match fs.lookup path with
      | .error .notADirectory => .error .notADirectory
      | _ => .error .isADirectory
    else within (writeHere name text) p.steps.dropLast fs

/-- Makes the directories of some steps, as far as they are missing.  A file at the end is in the
way, and one before it cannot be entered. -/
def makeDirectories : List String → Files → Except FileError Files
  | [], entries => .ok entries
  | s :: rest, entries =>
    match Members.get? entries s with
    | none => do
      let inner ← makeDirectories rest []
      return entries ++ [(s, .directory inner)]
    | some (.file _) => .error (if rest.isEmpty then .alreadyThere else .notADirectory)
    | some (.directory inner) => do
      let inner ← makeDirectories rest inner
      return Members.put entries s (.directory inner)

/-- Makes the directories above a path. -/
def makeParents (fs : Files) (path : String) : Except FileError Files :=
  makeDirectories (PathName.ofString path).parent.steps fs

/-- A tree with one more file, and the directories above it. -/
def add (fs : Files) (path text : String) : Files :=
  match fs.makeParents path with
  | .ok made => (made.write path text).toOption.getD fs
  | .error _ => fs

mutual

/-- All files below a directory, with their paths behind `base`. -/
def listing (base : String) : List (String × FileNode) → List (String × String)
  | [] => []
  | (name, n) :: rest => nodeListing (base ++ name) n ++ listing base rest

/-- The files of one entry. -/
def nodeListing (path : String) : FileNode → List (String × String)
  | .file text => [(path, text)]
  | .directory entries => listing (path ++ "/") entries

end

/-- All files with their paths, in the order of the paths. -/
def all (fs : Files) : List (String × String) :=
  (listing "" fs).mergeSort fun a b => decide (a.1 ≤ b.1)

end Files
end RemoteModels

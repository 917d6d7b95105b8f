import RemoteModels.Command.Program

/-!
# The command line

Brings the files, the environment and the input of a run together, and carries out what the run
leaves behind.  No connection is ever opened: every server is out of reach.
-/

set_option autoImplicit false

namespace RemoteModels
namespace Main

/-- The environment that a run looks at. -/
def environment : IO (Members String) := do
  let mut found : Members String := []
  for name in ["HOME", "USERPROFILE", "RUST_LOG"] do
    if let some value ← IO.getEnv name then
      found := found.put name value
  return found

/-- A tree with the file at a path, or with a directory if something else is there. -/
def gather (files : Files) (path : String) : IO Files := do
  match ← (IO.FS.readFile path).toBaseIO with
  | .ok text => return files.add path text
  | .error (.noFileOrDirectory ..) => return files
  | .error _ =>
    return (Files.makeDirectories (PathName.ofString path).steps files).toOption.getD files

/-- Writes the file at a path if a run changed it. -/
def keep (before after : Files) (path : String) : IO Unit := do
  match before.read path, after.read path with
  | .ok old, .ok new => if old ≠ new then IO.FS.writeFile path new
  | .error _, .ok new => do
    let directory := "/".intercalate (path.splitOn "/").dropLast
    if directory ≠ "" then IO.FS.createDirAll directory
    IO.FS.writeFile path new
  | _, .error _ => return

/-- Puts out what was said; a filter chooses the reports. -/
def tell (filter : LogFilter) : Saying → IO Unit
  | .out line => IO.println line
  | .err text => IO.eprint text
  | .log e => if filter.admits e then IO.eprintln e.fullText else return

end Main
end RemoteModels

open RemoteModels in
def main (args : List String) : IO UInt32 := do
  let environment ← Main.environment
  let paths := Program.paths args environment
  let files ← paths.foldlM Main.gather []
  let asks := Program.asks args
  if asks then IO.eprint Program.question
  let input ← if asks then (← IO.getStdin).getLine else pure ""
  let report := Program.run args { files := files, environment := environment, input := input }
  for path in paths do
    Main.keep files report.files path
  let sayings := if asks then report.sayings.drop 1 else report.sayings
  for saying in sayings do
    Main.tell (.ofEnvironment (environment.get? "RUST_LOG")) saying
  return report.code.toUInt32

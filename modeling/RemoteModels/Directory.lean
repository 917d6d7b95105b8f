import RemoteModels.Log
import RemoteModels.Specification.Basic
import RemoteModels.Text.Quoted
import RemoteModels.Text.Utf8

/-!
# Specifications from a directory

A directory holds one specification in several files.  The files with a known ending are read in the
order of their names, and a later file is written over an earlier one.

Reading stops at the first file that cannot be read, and then there is no specification, whatever
the files before it said.

* `Directory.Listing` — what is found at the place of the directory.
* `Directory.load` — the merged specification, with what is reported.
-/

set_option autoImplicit false

namespace RemoteModels
namespace Directory

/-- An entry of a directory. -/
inductive Node where
  | file (bytes : List UInt8)
  | directory

/-- What is found at the place of a directory. -/
inductive Listing where
  | missing
  | notADirectory
  | entries (nodes : List (String × Node))

/-- Why a directory or a file in it cannot be read. -/
inductive ReadFault where
  | notFound
  | notADirectory
  | invalidData
deriving DecidableEq

def ReadFault.name : ReadFault → String
  | .notFound => "NotFound"
  | .notADirectory => "NotADirectory"
  | .invalidData => "InvalidData"

/-- A fault of the directory itself, of one of its files, or of a specification in it. -/
inductive Fault where
  | unreadable (fault : ReadFault)
  | unreadableFile (name : String) (fault : ReadFault)
  | parse (e : SpecificationError)
deriving DecidableEq

/-! ## Which files count

A file counts for the ending of its name, and its content is not looked at to tell. -/

/-- What follows the last dot of a file name, if anything stands before that dot. -/
def extension? (name : String) : Option String :=
  let reversed := name.toList.reverse
  match reversed.dropWhile (· ≠ '.') with
  | _dot :: before =>
    if before.isEmpty then none
    else some (String.ofList (reversed.takeWhile (· ≠ '.')).reverse)
  | [] => none

def isSpecification (name : String) : Bool :=
  match extension? name with
  | some e => ["yaml", "yml", "json"].contains e
  | none => false

/-- The files among entries, in the order given. -/
def files (nodes : List (String × Node)) : List (String × List UInt8) :=
  nodes.filterMap fun
    | (name, .file bytes) => some (name, bytes)
    | (_, .directory) => none

/-- The specification files in the order of their names. -/
def chosen (nodes : List (String × Node)) : List (String × List UInt8) :=
  ((files nodes).filter (isSpecification ·.1)).mergeSort fun a b => decide (a.1 ≤ b.1)

/-! ## Reading them

Files that are left out are reported first, and each file that was read is reported before the next
one is tried. -/

/-- The specification in one file. -/
def readFile (name : String) (bytes : List UInt8) : Except Fault Specification :=
  match Text.strict bytes with
  | none => .error (.unreadableFile name .invalidData)
  | some text =>
    match Specification.parse (Format.ofPath name) text with
    | .ok s => .ok s
    | .error e => .error (.parse e)

def logSkipped (name : String) : LogEntry :=
  ⟨.warn, .loader, "skipping non-specification file " ++ Text.quotedName name, []⟩

def logLoaded (name : String) : LogEntry :=
  ⟨.debug, .loader, "loaded specification file " ++ Text.quotedName name, []⟩

/-- Writes files over a specification, one after the other, up to the first fault. -/
def mergeFiles (s : Specification) :
    List (String × List UInt8) → Except Fault Specification × List LogEntry
  | [] => (.ok s, [])
  | (name, bytes) :: rest =>
    match readFile name bytes with
    | .error e => (.error e, [])
    | .ok later =>
      let (result, logs) := mergeFiles (s.merge later) rest
      (result, logLoaded name :: logs)

/-- The specification of a directory, with what is reported. -/
def load : Listing → Except Fault Specification × List LogEntry
  | .missing => (.error (.unreadable .notFound), [])
  | .notADirectory => (.error (.unreadable .notADirectory), [])
  | .entries nodes =>
    let skipped := ((files nodes).filter (!isSpecification ·.1)).map (logSkipped ·.1)
    let (result, logs) := mergeFiles .empty (chosen nodes)
    (result, skipped ++ logs)

end Directory
end RemoteModels

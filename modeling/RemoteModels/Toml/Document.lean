import RemoteModels.Members
import RemoteModels.Toml.Scalar

/-!
# TOML documents

A document is a sequence of lines: values under dotted keys, and headers that open a table or one
more table of an array.  A table may be opened once, and a key set once.

Whether a header may open a table depends on how the table came about.  This is all that the flags
of a table are for, and they are gone in the finished document.

* `Toml.Node`, `Toml.Entries` — tables while they are being built.
* `Toml.Entries.descend` — working on the table at the end of a path.
* `Toml.readValue` — values, with arrays and tables in line.
* `Toml.Building` — the document while its lines are read.
* `Toml.parse` — the table of a whole text.
-/

set_option autoImplicit false

namespace RemoteModels
namespace Toml

/-! ## Tables

A path may lead through tables that have not been opened yet, and through the last table of an
array. -/

/-- A table: whether it exists only because of what is below it, whether dotted keys made it, and
its entries. -/
structure Entries (α : Type) where
  implicit : Bool := false
  dotted : Bool := false
  items : List (String × α) := []

/-- What a key can have: a value, a table, or an array of tables. -/
inductive Node where
  | leaf (v : Value)
  | table (t : Entries Node)
  | tables (l : List (Entries Node))

abbrev Table := Entries Node

namespace Table

def put (t : Table) (key : String) (n : Node) : Table :=
  { t with items := Members.put t.items key n }

def get? (t : Table) (key : String) : Option Node := Members.get? t.items key

def erase (t : Table) (key : String) : Table :=
  { t with items := t.items.filter (·.1 ≠ key) }

end Table

/-- Works on the table at the end of a path, making the tables on the way.  A path of dotted keys
may not lead through a table that has a header. -/
def descend (dotted : Bool) (work : Table → Option Table) : List String → Table → Option Table
  | [], t => work t
  | k :: ks, t =>
    match t.get? k with
    | none =>
      (descend dotted work ks { implicit := true, dotted := dotted }).map fun c =>
        t.put k (.table c)
    | some (.leaf _) => none
    | some (.tables l) =>
      match l.getLast? with
      | none => none
      | some last =>
        (descend dotted work ks last).map fun c => t.put k (.tables (l.dropLast ++ [c]))
    | some (.table c) =>
      if dotted && !c.implicit then none
      else (descend dotted work ks c).map fun c => t.put k (.table c)

/-- Sets a key, which has to be new, in a table. -/
def setNew (path : List String) (key : String) (v : Value) (t : Table) : Option Table :=
  if t.dotted == path.isEmpty then none
  else
    match t.get? key with
    | some _ => none
    | none => some (t.put key (.leaf v))

/-- Sets a value under a dotted key. -/
def insertDotted (t : Table) (key : List String) (v : Value) : Option Table :=
  match key.getLast? with
  | none => none
  | some last => descend true (setNew key.dropLast last v) key.dropLast t

mutual

/-- The value of a finished node. -/
def Node.toValue : Node → Value
  | .leaf v => v
  | .table t => .table (itemValues t.items)
  | .tables l => .array (tableValues l)

def itemValues : List (String × Node) → List (String × Value)
  | [] => []
  | (k, n) :: rest => (k, n.toValue) :: itemValues rest

def tableValues : List (Entries Node) → List Value
  | [] => []
  | t :: rest => .table (itemValues t.items) :: tableValues rest

end

/-! ## Keys

A key is made of parts between dots, each a bare word or a string. -/

def isBareKeyChar (c : Char) : Bool :=
  (c.isAlphanum && c.toNat < 0x80) || c == '_' || c == '-'

/-- Reads one part of a key. -/
def readSimpleKey : Reader String := fun cs =>
  match cs with
  | '"' :: rest => readBasic rest
  | '\'' :: rest => readLiteral rest
  | _ =>
    let name := cs.takeWhile isBareKeyChar
    if name.isEmpty then none else some (String.ofList name, cs.dropWhile isBareKeyChar)

/-- Reads the parts of a key between dots. -/
def readKeyParts : Nat → Reader (List String)
  | 0, _ => none
  | n + 1, cs => do
    let (name, rest) ← readSimpleKey (skipSpaces cs)
    match skipSpaces rest with
    | '.' :: rest =>
      let (names, rest) ← readKeyParts n rest
      return (name :: names, rest)
    | rest => return ([name], rest)

/-- The deepest nesting of containers, and the number of parts of a key, are below this. -/
def depthLimit : Nat := 80

/-- Reads a key with the blanks around it. -/
def readKey : Reader (List String) := fun cs => do
  let (names, rest) ← readKeyParts (cs.length + 1) cs
  if names.length < depthLimit then return (names, rest) else none

/-! ## Values

As in other readers, the one for containers takes the one for items as a parameter, and nesting is
counted in `readValue`. -/

/-- Reads the items of an array behind its bracket or behind a comma. -/
def readItems (item : Reader Value) : Nat → Reader (List Value)
  | 0, _ => none
  | n + 1, cs =>
    match skipLines cs.length cs with
    | ']' :: rest => some ([], rest)
    | cs => do
      let (v, rest) ← item cs
      match skipLines rest.length rest with
      | ',' :: rest =>
        let (vs, rest) ← readItems item n rest
        return (v :: vs, rest)
      | ']' :: rest => return ([v], rest)
      | _ => none

/-- Reads a key and its value. -/
def readPair (item : Reader Value) : Reader (List String × Value) := fun cs => do
  let (key, rest) ← readKey cs
  match rest with
  | '=' :: rest =>
    let (v, rest) ← item (skipSpaces rest)
    return ((key, v), rest)
  | _ => none

/-- Reads the pairs of a table in line into a table. -/
def readPairs (item : Reader Value) : Nat → Table → Reader Table
  | 0, _, _ => none
  | n + 1, t, cs => do
    let ((key, v), rest) ← readPair item cs
    let t ← insertDotted t key v
    match skipSpaces rest with
    | ',' :: rest => readPairs item n t rest
    | '\x7d' :: rest => return (t, rest)
    | _ => none

/-- Reads an array or a table in line. -/
def readContainer (item : Reader Value) : Reader Value
  | '[' :: rest => do
    let (vs, rest) ← readItems item (rest.length + 1) rest
    return (.array vs, rest)
  | '\x7b' :: rest =>
    match skipSpaces rest with
    | '\x7d' :: rest => some (.table [], rest)
    | rest => do
      let (t, rest) ← readPairs item (rest.length + 1) {} rest
      return ((Node.table t).toValue, rest)
  | _ => none

def readValueWith (container : Reader Value) : Reader Value := fun cs =>
  match cs with
  | '[' :: _ => container cs
  | '\x7b' :: _ => container cs
  | _ => readScalar cs

/-- Reads a value in which at most `depth` containers are nested. -/
def readValue : Nat → Reader Value
  | 0 => readValueWith fun _ => none
  | depth + 1 => readValueWith (readContainer (readValue depth))

/-! ## Lines

Lines are read before anything is built of them.  Of an error nothing is told but that there is one,
so it does not matter which of the two steps finds it. -/

/-- A line that says something. -/
inductive Line where
  | pair (key : List String) (v : Value)
  | header (key : List String)
  | arrayHeader (key : List String)

/-- Reads a line that is not blank. -/
def readLine : Reader Line := fun cs => do
  match cs with
  | '[' :: '[' :: rest =>
    let (key, rest) ← readKey rest
    match rest with
    | ']' :: ']' :: rest => return (.arrayHeader key, ← readLineEnd rest)
    | _ => none
  | '[' :: rest =>
    let (key, rest) ← readKey rest
    match rest with
    | ']' :: rest => return (.header key, ← readLineEnd rest)
    | _ => none
  | cs =>
    let ((key, v), rest) ← readPair (readValue (depthLimit - 1)) cs
    return (.pair key v, ← readLineEnd rest)

/-- Reads the lines of a document. -/
def readLines : Nat → List Char → Option (List Line)
  | 0, _ => none
  | n + 1, cs =>
    match skipLines cs.length cs with
    | [] => some []
    | '#' :: rest => if (skipComment ('#' :: rest)).isEmpty then some [] else none
    | cs => do
      let (line, rest) ← readLine cs
      let lines ← readLines n rest
      return line :: lines

/-! ## Building

The table that is open is kept apart and put into its place when the next header comes, or the
end. -/

/-- The finished tables, and the table whose entries are being read: where it belongs, and whether
it is one more of an array. -/
structure Building where
  root : Table := {}
  current : Table := {}
  path : List String := []
  inArray : Bool := false

namespace Building

/-- Puts the current table in its place. -/
def place (current : Table) (inArray : Bool) (key : String) (parent : Table) : Option Table :=
  if inArray then
    match parent.get? key with
    | none => some (parent.put key (.tables [current]))
    | some (.tables l) => some (parent.put key (.tables (l ++ [current])))
    | some _ => none
  else
    match parent.get? key with
    | none => some (parent.put key (.table current))
    | some _ => none

/-- The tables with the current one among them. -/
def close (b : Building) : Option Table :=
  match b.path.getLast? with
  | none => some b.current
  | some key => descend false (place b.current b.inArray key) b.path.dropLast b.root

/-- The table that a path leads to. -/
def find? : List String → Table → Option Table
  | [], t => some t
  | k :: ks, t =>
    match t.get? k with
    | some (.table c) => find? ks c
    | some (.tables l) => l.getLast?.bind (find? ks)
    | _ => none

/-- Opens the table of a header.  One that exists already may only be there because of what is below
it. -/
def openTable (b : Building) (key : List String) : Option Building := do
  let root ← b.close
  let last ← key.getLast?
  let before := key.dropLast
  let root ← descend false some before root
  match (find? before root).bind (·.get? last) with
  | none => return { root := root, path := key }
  | some (.table t) =>
    if t.implicit && !t.dotted then
      let root ← descend false (fun parent => some (parent.erase last)) before root
      return { root := root, current := { t with implicit := false }, path := key }
    else none
  | some _ => none

/-- Opens one more table of an array. -/
def openArray (b : Building) (key : List String) : Option Building := do
  let root ← b.close
  let last ← key.getLast?
  let before := key.dropLast
  let root ← descend false some before root
  match (find? before root).bind (·.get? last) with
  | none => return { root := root, path := key, inArray := true }
  | some (.tables _) => return { root := root, path := key, inArray := true }
  | some _ => none

/-- Takes in one line. -/
def add (b : Building) : Line → Option Building
  | .pair key v => (insertDotted b.current key v).map fun t => { b with current := t }
  | .header key => b.openTable key
  | .arrayHeader key => b.openArray key

end Building

/-- The members of the table of a whole text. -/
def parse (text : String) : Option (List (String × Value)) := do
  let cs := match text.toList with
    | '\ufeff' :: rest => rest
    | cs => cs
  let lines ← readLines (cs.length + 1) cs
  let building ← lines.foldlM Building.add {}
  let root ← building.close
  return itemValues root.items

end Toml
end RemoteModels

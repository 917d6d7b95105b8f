import RemoteModels.Json.Value
import RemoteModels.Yaml.Node
import RemoteModels.Yaml.Schema
import RemoteModels.Yaml.Token.Scan

/-!
# The value of a YAML document

Aliases are replaced by the value of the node they stand for.  Anchors are numbered in document
order by the count of names known so far: an anchor whose name is already known takes the next
number without adding a name, so the next anchor takes the same number, and a number stands for the
last node that took it.

* `Yaml.Labels` — the numbering.
* `Yaml.Compose` — values from labelled nodes, at most 128 containers deep, with at most a hundred
  aliases followed for each event of the document.
* `Yaml.parse` — the value of a text; `none` is a fault.
-/

set_option autoImplicit false

namespace RemoteModels
namespace Yaml

open Json (Value)

/-! ## Labels

The tree is walked once, in document order, since an alias may only stand for what came before
it. -/

/-- A node in which every alias has become a label. -/
inductive Labelled where
  | label (n : Nat)
  | scalar (tag : Option String) (text : String) (style : Style)
  | sequence (tag : Option String) (items : List Labelled)
  | mapping (tag : Option String) (entries : List (Labelled × Labelled))

/-- The labels given so far: the label of each name, for each label the serial number of the anchor
that took it last, the nodes of the anchors by serial number, and the anchors and events counted. -/
structure Labels where
  names : List (String × Nat)
  owners : List (Nat × Nat)
  nodes : List (Nat × Labelled)
  anchors : Nat
  events : Nat

namespace Labels

def empty : Labels := ⟨[], [], [], 0, 0⟩

def count (l : Labels) (n : Nat) : Labels := { l with events := l.events + n }

/-- Takes up an anchor, giving it a serial number. -/
def define (l : Labels) : Option String → Option Nat × Labels
  | .none => (.none, l)
  | some name =>
    let label := l.names.length
    let names :=
      if (l.names.lookup name).isSome then
        l.names.map fun kv => if kv.1 = name then (name, label) else kv
      else l.names ++ [(name, label)]
    (some l.anchors,
      { l with names, owners := (label, l.anchors) :: l.owners, anchors := l.anchors + 1 })

/-- Keeps the node of an anchor that has been taken up. -/
def keep (l : Labels) (serial : Option Nat) (node : Labelled) : Labels :=
  match serial with
  | .none => l
  | some k => { l with nodes := (k, node) :: l.nodes }

/-- The node a label stands for. -/
def node? (l : Labels) (label : Nat) : Option Labelled := do
  let serial ← l.owners.lookup label
  l.nodes.lookup serial

end Labels

mutual

/-- Labels a node, in document order; an alias without an anchor before it is a fault. -/
def Node.label : Node → Labels → Option (Labelled × Labels)
  | .alias name, l => do return (.label (← l.names.lookup name), l.count 1)
  | .scalar p text style, l =>
    let (serial, l) := l.define p.anchor
    let node := Labelled.scalar p.tag text style
    some (node, (l.count 1).keep serial node)
  | .sequence p items, l => do
    let (serial, l) := l.define p.anchor
    let (items, l) ← Node.labelItems items (l.count 2)
    let node := Labelled.sequence p.tag items
    return (node, l.keep serial node)
  | .mapping p entries, l => do
    let (serial, l) := l.define p.anchor
    let (entries, l) ← Node.labelEntries entries (l.count 2)
    let node := Labelled.mapping p.tag entries
    return (node, l.keep serial node)

/-- Labels items, one after the other. -/
def Node.labelItems : List Node → Labels → Option (List Labelled × Labels)
  | [], l => some ([], l)
  | item :: rest, l => do
    let (item, l) ← Node.label item l
    let (rest, l) ← Node.labelItems rest l
    return (item :: rest, l)

/-- Labels keys and values, one after the other. -/
def Node.labelEntries :
    List (Node × Node) → Labels → Option (List (Labelled × Labelled) × Labels)
  | [], l => some ([], l)
  | (k, v) :: rest, l => do
    let (k, l) ← Node.label k l
    let (v, l) ← Node.label v l
    let (rest, l) ← Node.labelEntries rest l
    return ((k, v) :: rest, l)

end

/-! ## Values

An alias may stand for a node with aliases in it, so a short text can have a large value.  The count
of aliases that are followed keeps it in bounds. -/

/-- A computation that counts the aliases it follows and may fail. -/
abbrev Compose (α : Type) := Nat → Option (α × Nat)

namespace Compose

/-- Follows an alias, if the node is one. -/
def follow (l : Labels) (node : Labelled) : Compose Labelled := fun used =>
  match node with
  | .label n =>
    if l.events * 100 < used + 1 then none
    else (l.node? n).map fun node => (node, used + 1)
  | node => some (node, used)

/-- A key is the text of a scalar, whatever its tag. -/
def key (l : Labels) (node : Labelled) : Compose String := fun used => do
  let (node, used) ← follow l node used
  match node with
  | .scalar _ text _ => return (text, used)
  | _ => none

/-- Whether a collection carries a local tag. -/
def hasLocalTag (tag : Option String) : Bool := tag.any fun t => t.toList.head? == some '!'

/-- The value of a scalar: by its tag, by its look if it is plain, and else its text. -/
def scalar? (tag : Option String) (text : String) (style : Style) : Option Value :=
  match tag with
  | some tag => taggedValue? tag text
  | .none => if style = .plain then plainValue? text else some (.string text)

/-- The values of items in order. -/
def items (item : Labelled → Compose Value) : List Labelled → Compose (List Value)
  | [], used => some ([], used)
  | node :: rest, used => do
    let (v, used) ← item node used
    let (vs, used) ← items item rest used
    return (v :: vs, used)

/-- The members of a mapping in order. -/
def members (l : Labels) (item : Labelled → Compose Value) :
    List (Labelled × Labelled) → Compose (List (String × Value))
  | [], used => some ([], used)
  | (k, v) :: rest, used => do
    let (name, used) ← key l k used
    let (v, used) ← item v used
    let (more, used) ← members l item rest used
    return ((name, v) :: more, used)

/-- The value of a node in which at most `depth` containers are nested. -/
def value (l : Labels) : Nat → Labelled → Compose Value
  | 0, node, used => do
    let (node, used) ← follow l node used
    match node with
    | .scalar tag text style => return (← scalar? tag text style, used)
    | _ => none
  | depth + 1, node, used => do
    let (node, used) ← follow l node used
    match node with
    | .scalar tag text style => return (← scalar? tag text style, used)
    | .sequence tag nodes =>
      if hasLocalTag tag then none
      let (vs, used) ← items (value l depth) nodes used
      return (.array vs, used)
    | .mapping tag entries =>
      if hasLocalTag tag then none
      let (ms, used) ← members l (value l depth) entries used
      return (.object (Members.ofList ms), used)
    | .label _ => none

end Compose

/-- The deepest nesting of containers. -/
def maxDepth : Nat := 128

/-- The value of a text that holds at most one document; an empty stream is null. -/
def parse (text : String) : Option Value := do
  let tokens ← Token.scan text
  match ← Node.ofTokens? tokens with
  | .none => return .null
  | some node =>
    let (root, labels) ← node.label .empty
    let (v, _) ← Compose.value labels maxDepth root 0
    return v

end Yaml
end RemoteModels

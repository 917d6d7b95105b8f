import RemoteModels.Yaml.Token

/-!
# YAML nodes

The tokens of a document form a tree of scalars, sequences and mappings, in which a node may carry
an anchor and a tag and an alias stands for an anchored node.

* `Yaml.Node` — the tree.
* `Yaml.Node.ofTokens?` — the tree of a stream that holds at most one document; `none` is a fault.

Each reader takes a number of steps that bounds how often readers may call each other; a stream of
`n` tokens needs fewer than `3 * n + 8`.
-/

set_option autoImplicit false

namespace RemoteModels
namespace Yaml

/-- What may stand in front of a node. -/
structure Properties where
  anchor : Option String
  tag : Option String

/-- A node of the tree of a document. -/
inductive Node where
  | alias (name : String)
  | scalar (properties : Properties) (text : String) (style : Style)
  | sequence (properties : Properties) (items : List Node)
  | mapping (properties : Properties) (entries : List (Node × Node))

namespace Node

/-- The node that stands where nothing is written. -/
def empty : Node := .scalar ⟨none, none⟩ "" .plain

/-! ## Tags and anchors

A tag is written with a handle, which stands for what a directive says. -/

/-- The handles declared in front of a document, with what they stand for. -/
abbrev Handles := List (String × String)

/-- The full tag of a handle and a suffix. -/
def resolveTag? (handles : Handles) (handle suffix : String) : Option String :=
  if handle = "" then some suffix
  else (handles.lookup handle).map (· ++ suffix)

/-- Reads an anchor and a tag in either order. -/
def readProperties (handles : Handles) : List Token → Option (Properties × List Token)
  | .anchor a :: .tag h s :: rest => do return (⟨some a, some (← resolveTag? handles h s)⟩, rest)
  | .tag h s :: .anchor a :: rest => do return (⟨some a, some (← resolveTag? handles h s)⟩, rest)
  | .anchor a :: rest => some (⟨some a, none⟩, rest)
  | .tag h s :: rest => do return (⟨none, some (← resolveTag? handles h s)⟩, rest)
  | rest => some (⟨none, none⟩, rest)

/-! ## Nodes

Tokens say where collections begin and end, so the readers need no positions.  What may be left out,
an entry, a key or a value, is told by the token that follows. -/

/-- Where a node stands decides which collections may start there. -/
inductive Place where
  | flow
  | block
  | blockValue
deriving DecidableEq

/-! ## Entries that are left out

One question for each place where something may be left out. -/

/-- Whether a block entry, key or value is left empty before this token. -/
def endsEntry : List Token → Bool
  | .blockEntry :: _ => true
  | .blockEnd :: _ => true
  | _ => false

def endsValue : List Token → Bool
  | .key :: _ => true
  | .value :: _ => true
  | .blockEnd :: _ => true
  | _ => false

def endsFlowKey : List Token → Bool
  | .value :: _ => true
  | .flowEntry :: _ => true
  | .flowMappingEnd :: _ => true
  | _ => false

def endsFlowValue : List Token → Bool
  | .flowEntry :: _ => true
  | .flowMappingEnd :: _ => true
  | _ => false

def endsPairKey : List Token → Bool
  | .value :: _ => true
  | .flowEntry :: _ => true
  | .flowSequenceEnd :: _ => true
  | _ => false

def endsPairValue : List Token → Bool
  | .flowEntry :: _ => true
  | .flowSequenceEnd :: _ => true
  | _ => false

mutual

/-- Reads a node. -/
def read (handles : Handles) : Nat → Place → List Token → Option (Node × List Token)
  | 0, _, _ => none
  | _ + 1, _, .alias name :: rest => some (.alias name, rest)
  | n + 1, place, tokens => do
    let (p, tokens) ← readProperties handles tokens
    match tokens with
    | .blockEntry :: _ =>
      if place = .blockValue then
        let (items, rest) ← readIndentless handles n tokens
        return (.sequence p items, rest)
      else readBare p tokens
    | .scalar text style :: rest =>
      return (.scalar { p with tag := if p.tag = some "!" then none else p.tag } text style, rest)
    | .flowSequenceStart :: rest =>
      let (items, rest) ← readFlowItems handles n true rest
      return (.sequence p items, rest)
    | .flowMappingStart :: rest =>
      let (entries, rest) ← readFlowEntries handles n true rest
      return (.mapping p entries, rest)
    | .blockSequenceStart :: rest =>
      if place = .flow then readBare p tokens
      else
        let (items, rest) ← readBlockItems handles n rest
        return (.sequence p items, rest)
    | .blockMappingStart :: rest =>
      if place = .flow then readBare p tokens
      else
        let (entries, rest) ← readBlockEntries handles n rest
        return (.mapping p entries, rest)
    | _ => readBare p tokens

/-- A node of which only properties are written; something has to be. -/
def readBare (p : Properties) (tokens : List Token) : Option (Node × List Token) :=
  if p.anchor.isSome || p.tag.isSome then some (.scalar p "" .plain, tokens) else none

/-- Reads the entries of a block sequence up to its end. -/
def readBlockItems (handles : Handles) : Nat → List Token → Option (List Node × List Token)
  | 0, _ => none
  | n + 1, .blockEntry :: tokens => do
    let (item, tokens) ←
      if endsEntry tokens then pure (empty, tokens) else read handles n .block tokens
    let (items, tokens) ← readBlockItems handles n tokens
    return (item :: items, tokens)
  | _ + 1, .blockEnd :: tokens => some ([], tokens)
  | _ + 1, _ => none

/-- Reads the entries of a sequence at the indentation of its mapping. -/
def readIndentless (handles : Handles) : Nat → List Token → Option (List Node × List Token)
  | 0, _ => none
  | n + 1, .blockEntry :: tokens => do
    let (item, tokens) ←
      if endsEntry tokens || endsValue tokens then pure (empty, tokens)
      else read handles n .block tokens
    let (items, tokens) ← readIndentless handles n tokens
    return (item :: items, tokens)
  | _ + 1, tokens => some ([], tokens)

/-- Reads the keys and values of a block mapping up to its end. -/
def readBlockEntries (handles : Handles) :
    Nat → List Token → Option (List (Node × Node) × List Token)
  | 0, _ => none
  | n + 1, .key :: tokens => do
    let (k, tokens) ←
      if endsValue tokens then pure (empty, tokens) else read handles n .blockValue tokens
    let (v, tokens) ← match tokens with
      | .value :: tokens =>
        if endsValue tokens then pure (empty, tokens) else read handles n .blockValue tokens
      | _ => pure (empty, tokens)
    let (entries, tokens) ← readBlockEntries handles n tokens
    return ((k, v) :: entries, tokens)
  | _ + 1, .blockEnd :: tokens => some ([], tokens)
  | _ + 1, _ => none

/-- Reads the items of a bracketed sequence up to its end. -/
def readFlowItems (handles : Handles) :
    Nat → Bool → List Token → Option (List Node × List Token)
  | 0, _, _ => none
  | _ + 1, _, .flowSequenceEnd :: tokens => some ([], tokens)
  | n + 1, first, tokens => do
    let tokens ← match first, tokens with
      | true, _ => pure tokens
      | false, .flowEntry :: rest => pure rest
      | false, _ => none
    match tokens with
    | .flowSequenceEnd :: rest => return ([], rest)
    | .key :: rest =>
      let (pair, rest) ← readPair handles n rest
      let (items, rest) ← readFlowItems handles n false rest
      return (.mapping ⟨none, none⟩ [pair] :: items, rest)
    | _ =>
      let (item, rest) ← read handles n .flow tokens
      let (items, rest) ← readFlowItems handles n false rest
      return (item :: items, rest)

/-- Reads the single key and value of a mapping without braces.  An empty key takes the token that
ends it along. -/
def readPair (handles : Handles) : Nat → List Token → Option ((Node × Node) × List Token)
  | 0, _ => none
  | n + 1, tokens => do
    let (k, tokens) ←
      if endsPairKey tokens then pure (empty, tokens.tail) else read handles n .flow tokens
    match tokens with
    | .value :: tokens =>
      let (v, tokens) ←
        if endsPairValue tokens then pure (empty, tokens) else read handles n .flow tokens
      return ((k, v), tokens)
    | _ => return ((k, empty), tokens)

/-- Reads the keys and values of a mapping in braces up to its end. -/
def readFlowEntries (handles : Handles) :
    Nat → Bool → List Token → Option (List (Node × Node) × List Token)
  | 0, _, _ => none
  | _ + 1, _, .flowMappingEnd :: tokens => some ([], tokens)
  | n + 1, first, tokens => do
    let tokens ← match first, tokens with
      | true, _ => pure tokens
      | false, .flowEntry :: rest => pure rest
      | false, _ => none
    match tokens with
    | .flowMappingEnd :: rest => return ([], rest)
    | .key :: rest =>
      let (k, rest) ←
        if endsFlowKey rest then pure (empty, rest) else read handles n .flow rest
      let (v, rest) ← match rest with
        | .value :: rest =>
          if endsFlowValue rest then pure (empty, rest) else read handles n .flow rest
        | _ => pure (empty, rest)
      let (entries, rest) ← readFlowEntries handles n false rest
      return ((k, v) :: entries, rest)
    | _ =>
      let (k, rest) ← read handles n .flow tokens
      let (entries, rest) ← readFlowEntries handles n false rest
      return ((k, empty) :: entries, rest)

end

/-! ## Documents

A stream may hold several documents.  Only one is wanted here, and more of them are a fault. -/

/-- The handles that every document has. -/
def standardHandles : Handles := [("!", "!"), ("!!", "tag:yaml.org,2002:")]

/-- Reads the directives in front of a document; a second version or handle is refused, and so is a
version other than 1.1 and 1.2. -/
def readDirectives : Bool → Handles → List Token → Option (Handles × List Token)
  | versioned, handles, .version major minor :: rest =>
    if versioned || major ≠ 1 || (minor ≠ 1 && minor ≠ 2) then none
    else readDirectives true handles rest
  | versioned, handles, .tagHandle handle lead :: rest =>
    if (handles.lookup handle).isSome then none
    else readDirectives versioned (handles ++ [(handle, lead)]) rest
  | _, handles, rest => some (handles ++ standardHandles, rest)

/-- Whether a document ends before it has any content. -/
def endsDocument : List Token → Bool
  | .version _ _ :: _ => true
  | .tagHandle _ _ :: _ => true
  | .documentStart :: _ => true
  | .documentEnd :: _ => true
  | .streamEnd :: _ => true
  | _ => false

/-- Reads the first document of a stream. -/
def readDocument (tokens : List Token) : Option (Node × List Token) := do
  let steps := 3 * tokens.length + 8
  match tokens with
  | .version _ _ :: _ | .tagHandle _ _ :: _ | .documentStart :: _ =>
    let (handles, tokens) ← readDirectives false [] tokens
    match tokens with
    | .documentStart :: tokens =>
      if endsDocument tokens then return (empty, tokens) else read handles steps .block tokens
    | _ => none
  | _ => read standardHandles steps .block tokens

/-- The document of a stream: `some none` when it holds none, and a fault when it holds more. -/
def ofTokens? (tokens : List Token) : Option (Option Node) :=
  match tokens with
  | [.streamEnd] => some none
  | _ => do
    let (node, rest) ← readDocument tokens
    match rest.dropWhile (· = .documentEnd) with
    | [.streamEnd] => return some node
    | _ => none

end Node
end Yaml
end RemoteModels

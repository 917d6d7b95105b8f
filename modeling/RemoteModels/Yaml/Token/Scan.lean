import RemoteModels.Yaml.Token
import RemoteModels.Yaml.Token.Scalar

/-!
# From YAML text to tokens

The scanner walks the text once.  A scalar, alias or bracket may turn out to be a key only when the
colon behind it is met; the place where it started is remembered, and the key token (with the start
of a block mapping, if one begins there) is put in front of it then.

Two things go beyond the next token: the columns of the open blocks, and the places at which keys
may have started, one for each open bracket.

* `Yaml.Scan` — the state of the walk.
* `Yaml.Scan.next` — one step: the blanks before the next token, and that token.
* `Yaml.Token.scan` — the tokens of a whole text; `none` is a fault.
-/

set_option autoImplicit false

namespace RemoteModels
namespace Yaml

/-- A place where a key may have started: the number of tokens before it and its position. -/
structure PossibleKey where
  number : Nat
  index : Nat
  line : Nat
  column : Nat
  required : Bool

/-- The state of the scanner.  `keys` has one entry for each open bracket and one for the block
around them, the innermost first. -/
structure Scan where
  source : Source
  tokens : Array Token
  flowLevel : Nat
  indent : Int
  indents : List Int
  keyAllowed : Bool
  keys : List (Option PossibleKey)

namespace Scan

def start (text : String) : Scan :=
  { source := Source.ofText text
    tokens := #[]
    flowLevel := 0
    indent := -1
    indents := []
    keyAllowed := true
    keys := [none] }

def inFlow (s : Scan) : Bool := s.flowLevel != 0

def emit (s : Scan) (t : Token) : Scan := { s with tokens := s.tokens.push t }

/-- Emits an indicator of `n` characters. -/
def emitIndicator (s : Scan) (t : Token) (n : Nat) : Scan :=
  { s with tokens := s.tokens.push t, source := s.source.skip n }

/-! ## Keys

A place is given up when the text has gone on too far for it.  If a key had to start there, that is
a fault. -/

/-- Whether a key started there may no longer be completed: it stands on one line and has at most
1024 characters. -/
def isStale (s : Scan) (k : PossibleKey) : Bool :=
  k.line < s.source.line || k.index + 1024 < s.source.index

/-- Forgets the places that are no longer possible; a required one is a fault. -/
def dropStale (s : Scan) : Option Scan :=
  let stale (k : Option PossibleKey) : Bool := k.any s.isStale
  if s.keys.any (fun k => stale k && k.any (·.required)) then none
  else some { s with keys := s.keys.map fun k => if stale k then none else k }

/-- Forgets the place of the innermost level; a required one is a fault. -/
def removeKey (s : Scan) : Option Scan :=
  match s.keys with
  | [] => some s
  | k :: rest => if k.any (·.required) then none else some { s with keys := none :: rest }

/-- Remembers the current place as a possible key.  It must become one when it stands at the
indentation of the block. -/
def saveKey (s : Scan) : Option Scan :=
  if s.keyAllowed then do
    let s ← s.removeKey
    let k : PossibleKey :=
      { number := s.tokens.size
        index := s.source.index
        line := s.source.line
        column := s.source.column
        required := !s.inFlow && s.indent == s.source.column }
    return { s with keys := some k :: s.keys.tail }
  else some s

/-! ## Indentation

A token that stands deeper than the open block opens one, and a token that stands less deep closes
those in between. -/

/-- Opens a block collection at a column deeper than the current one.  Its token goes to the place
`number`, or to the end. -/
def rollIndent (s : Scan) (column : Nat) (number : Option Nat) (t : Token) : Scan :=
  if s.inFlow then s
  else if s.indent < column then
    { s with
      indents := s.indent :: s.indents
      indent := column
      tokens := match number with
        | some n => s.tokens.insertIdxIfInBounds n t
        | none => s.tokens.push t }
  else s

/-- Closes the block collections deeper than a column. -/
def closeBlocks (column : Int) : List Int → Int → Array Token → List Int × Int × Array Token
  | [], indent, tokens => ([], indent, tokens)
  | outer :: rest, indent, tokens =>
    if column < indent then closeBlocks column rest outer (tokens.push .blockEnd)
    else (outer :: rest, indent, tokens)

/-- Closes the blocks deeper than a column, outside brackets. -/
def unrollIndent (s : Scan) (column : Int) : Scan :=
  if s.inFlow then s
  else
    let (indents, indent, tokens) := closeBlocks column s.indents s.indent s.tokens
    { s with indents, indent, tokens }

/-! ## Blanks and comments between tokens

A line break outside brackets allows a key to start. -/

/-- Passes blanks, comments and line breaks.  Tabs do not count as blanks where a key may start. -/
def skipToToken : Nat → Scan → Scan
  | 0, s => s
  | fuel + 1, s =>
    let source :=
      if s.source.column == 0 && s.source.rest.head? == some '\ufeff' then s.source.skip 1
      else s.source
    let tabs := s.inFlow || !s.keyAllowed
    let source := source.skipWhile fun c => c == ' ' || (tabs && c == '\t')
    let source :=
      if source.rest.head? == some '#' then source.skipWhile (fun c => !isBreak c) else source
    if source.rest.head?.any isBreak then
      skipToToken fuel
        { s with source := source.skipBreak, keyAllowed := s.keyAllowed || !s.inFlow }
    else { s with source }

/-! ## Directives, anchors and tags

These are words with characters of their own, read in one go. -/

/-- The characters of a tag. -/
def isUriChar (verbatim : Bool) (c : Char) : Bool :=
  isWord c || ";/?:@&=+$.%!~*'()".toList.contains c || (verbatim && ",[]".toList.contains c)

/-- The byte written by `%XX`. -/
def escapedByte? : List Char → Option Nat
  | '%' :: a :: b :: _ => do return (← hexDigit? a) * 16 + (← hexDigit? b)
  | _ => none

/-- The number of bytes in the encoding of a character that starts with this one. -/
def encodingWidth? (byte : Nat) : Option Nat :=
  if byte < 0x80 then some 1
  else if 0xC0 ≤ byte ∧ byte < 0xE0 then some 2
  else if 0xE0 ≤ byte ∧ byte < 0xF0 then some 3
  else if 0xF0 ≤ byte ∧ byte < 0xF8 then some 4
  else none

/-- Adds `n` continuation bytes, each written `%XX`, to a code. -/
def continuation? : Nat → List Char → Nat → Option Nat
  | 0, _, code => some code
  | n + 1, cs, code => do
    let b ← escapedByte? cs
    if 0x80 ≤ b ∧ b < 0xC0 then continuation? n (cs.drop 3) (code * 64 + (b - 0x80)) else none

/-- The character written by escaped bytes, and the number of characters they take. -/
def escapedChar? (cs : List Char) : Option (Char × Nat) := do
  let b ← escapedByte? cs
  let width ← encodingWidth? b
  let lead := match width with
    | 1 => b
    | 2 => b - 0xC0
    | 3 => b - 0xE0
    | _ => b - 0xF0
  let code ← continuation? (width - 1) (cs.drop 3) lead
  return (Char.ofNat code, 3 * width)

/-- Reads the characters of a tag; the length counts them in the text. -/
def readUri (verbatim : Bool) : Nat → Source → Option (List Char × Source)
  | 0, s => some ([], s)
  | fuel + 1, s =>
    match s.rest with
    | [] => some ([], s)
    | c :: _ =>
      if c == '%' then do
        let (x, n) ← escapedChar? s.rest
        let (more, s) ← readUri verbatim fuel (s.skip n)
        return (x :: more, s)
      else if isUriChar verbatim c then do
        let (more, s) ← readUri verbatim fuel (s.skip 1)
        return (c :: more, s)
      else some ([], s)

/-- Reads a handle: `!`, `!!` or `!word!`, or the start of a tag that has none. -/
def readHandle (s : Source) : Option (List Char × Source) :=
  match s.rest with
  | '!' :: rest =>
    let word := rest.takeWhile isWord
    let s := s.skip (1 + word.length)
    if s.rest.head? == some '!' then some ('!' :: word ++ ['!'], s.skip 1)
    else some ('!' :: word, s)
  | _ => none

/-- Reads a tag: verbatim, with a handle, or local. -/
def readTag (inFlow : Bool) (s : Source) : Option (Token × Source) := do
  let (token, s) ←
    if (s.rest.drop 1).head? == some '<' then do
      let (uri, s) ← readUri true (s.rest.length + 1) (s.skip 2)
      if uri.isEmpty || s.rest.head? != some '>' then none
      pure (Token.tag "" (String.ofList uri), s.skip 1)
    else do
      let (handle, s) ← readHandle s
      let (suffix, s) ← readUri false (s.rest.length + 1) s
      if handle.length > 1 && handle.getLast? == some '!' then
        if suffix.isEmpty then none
        pure (Token.tag (String.ofList handle) (String.ofList suffix), s)
      else
        let whole := handle.drop 1 ++ suffix
        if whole.isEmpty then pure (Token.tag "" "!", s)
        else pure (Token.tag "!" (String.ofList whole), s)
  if startsBlank s.rest || (inFlow && s.rest.head? == some ',') then return (token, s) else none

/-- Reads the name of an anchor or alias behind its indicator. -/
def readName (s : Source) : Option (String × Source) :=
  let name := s.rest.takeWhile isWord
  let s := s.skip name.length
  let ended := startsBlank s.rest || s.rest.head?.any fun c => "?:,]\x7d%@`".toList.contains c
  if name.isEmpty || !ended then none else some (String.ofList name, s)

/-- Reads a number of at most nine digits. -/
def readVersionNumber (s : Source) : Option (Nat × Source) :=
  let ds := s.rest.takeWhile Char.isDigit
  if ds.isEmpty || 9 < ds.length then none
  else some (ds.foldl (fun n d => n * 10 + (d.toNat - '0'.toNat)) 0, s.skip ds.length)

/-- Reads what follows the name of a directive. -/
def readDirectiveBody (name : String) (s : Source) : Option (Token × Source) :=
  let s := s.skipWhile isBlank
  if name = "YAML" then do
    let (major, s) ← readVersionNumber s
    if s.rest.head? != some '.' then none
    let (minor, s) ← readVersionNumber (s.skip 1)
    return (.version major minor, s)
  else if name = "TAG" then do
    let (handle, s) ← readHandle s
    if handle != ['!'] && !(1 < handle.length && handle.getLast? == some '!') then none
    if !(s.rest.head?.any isBlank) then none
    let s := s.skipWhile isBlank
    let (lead, s) ← readUri true (s.rest.length + 1) s
    if lead.isEmpty || !startsBlank s.rest then none
    return (.tagHandle (String.ofList handle) (String.ofList lead), s)
  else none

/-- Reads a directive and the rest of its line. -/
def readDirective (s : Source) : Option (Token × Source) := do
  let s := s.skip 1
  let name := s.rest.takeWhile isWord
  let s := s.skip name.length
  if name.isEmpty || !startsBlank s.rest then none
  let (token, s) ← readDirectiveBody (String.ofList name) s
  let s := s.skipComment
  if startsBreak s.rest then return (token, s.skipBreak) else none

/-! ## Tokens

The next characters decide about the kind of a token.  Each kind then says what becomes of the place
for a key, before and behind it. -/

/-- Closes all blocks and emits a token that stands outside them. -/
def outside (s : Scan) (act : Scan → Option Scan) : Option Scan := do
  let s ← (s.unrollIndent (-1)).removeKey
  act { s with keyAllowed := false }

/-- Opens a bracket. -/
def openFlow (s : Scan) (t : Token) : Option Scan := do
  let s ← s.saveKey
  return { s with flowLevel := s.flowLevel + 1, keys := none :: s.keys, keyAllowed := true }
    |>.emitIndicator t 1

/-- Closes a bracket. -/
def closeFlow (s : Scan) (t : Token) : Option Scan := do
  let s ← s.removeKey
  let s := if s.inFlow then { s with flowLevel := s.flowLevel - 1, keys := s.keys.tail } else s
  return { s with keyAllowed := false }.emitIndicator t 1

/-- An item of a block sequence, which it may open. -/
def blockEntry (s : Scan) : Option Scan := do
  if !s.inFlow && !s.keyAllowed then none
  let s ← (s.rollIndent s.source.column none .blockSequenceStart).removeKey
  return { s with keyAllowed := true }.emitIndicator .blockEntry 1

/-- A key with a question mark in front. -/
def explicitKey (s : Scan) : Option Scan := do
  if !s.inFlow && !s.keyAllowed then none
  let s ← (s.rollIndent s.source.column none .blockMappingStart).removeKey
  return { s with keyAllowed := !s.inFlow }.emitIndicator .key 1

/-- A colon: it completes the remembered key, or stands behind an explicit one. -/
def valueIndicator (s : Scan) : Option Scan :=
  match s.keys with
  | some k :: rest =>
    let s := { s with tokens := s.tokens.insertIdxIfInBounds k.number .key, keys := none :: rest }
    let s := s.rollIndent k.column (some k.number) .blockMappingStart
    some ({ s with keyAllowed := false }.emitIndicator .value 1)
  | _ => do
    if !s.inFlow && !s.keyAllowed then none
    let s := s.rollIndent s.source.column none .blockMappingStart
    return { s with keyAllowed := !s.inFlow }.emitIndicator .value 1

/-- A token that may start a key. -/
def keyed (s : Scan) (act : Source → Option (Token × Source)) : Option Scan := do
  let s ← s.saveKey
  let (t, source) ← act s.source
  return { s with keyAllowed := false, source }.emit t

def plainScalar (s : Scan) : Option Scan := do
  let s ← s.saveKey
  let r ← readPlain s.inFlow (s.indent + 1).toNat s.source
  return { s with keyAllowed := r.broken, source := r.source }.emit
    (.scalar (String.ofList r.text) .plain)

def blockScalar (s : Scan) (literal : Bool) : Option Scan := do
  let s ← s.removeKey
  let (text, source) ← readBlock literal s.indent s.source
  return { s with keyAllowed := true, source }.emit (.scalar (String.ofList text) .quoted)

/-- Whether a plain scalar may start with `c` before `rest`. -/
def startsPlain (inFlow : Bool) (c : Char) (rest : List Char) : Bool :=
  !(isBlankOrBreak c || "-?:,[]\x7b\x7d#&*!|>'\"%@`".toList.contains c) ||
    (c == '-' && !(rest.head?.any isBlank)) ||
    (!inFlow && (c == '?' || c == ':') && !startsBlank rest)

/-- Scans the token at the source, which is not at its end. -/
def token (s : Scan) (c : Char) (rest : List Char) : Option Scan :=
  let spaced := startsBlank rest
  if s.source.column == 0 && c == '%' then
    s.outside fun s => do
      let (t, source) ← readDirective s.source
      return { s with source }.emit t
  else if s.source.atDocumentMark then
    s.outside fun s => some (s.emitIndicator (if c == '-' then .documentStart else .documentEnd) 3)
  else if c == '[' then s.openFlow .flowSequenceStart
  else if c == '\x7b' then s.openFlow .flowMappingStart
  else if c == ']' then s.closeFlow .flowSequenceEnd
  else if c == '\x7d' then s.closeFlow .flowMappingEnd
  else if c == ',' then do
    let s ← s.removeKey
    return { s with keyAllowed := true }.emitIndicator .flowEntry 1
  else if c == '-' && spaced then s.blockEntry
  else if c == '?' && (s.inFlow || spaced) then s.explicitKey
  else if c == ':' && (s.inFlow || spaced) then s.valueIndicator
  else if c == '*' then
    s.keyed fun src => (readName (src.skip 1)).map fun (n, src) => (.alias n, src)
  else if c == '&' then
    s.keyed fun src => (readName (src.skip 1)).map fun (n, src) => (.anchor n, src)
  else if c == '!' then s.keyed (readTag s.inFlow)
  else if c == '|' && !s.inFlow then s.blockScalar true
  else if c == '>' && !s.inFlow then s.blockScalar false
  else if c == '\'' || c == '"' then
    s.keyed fun src => (readQuoted (c == '\'') src).map fun (text, src) =>
      (.scalar (String.ofList text) .quoted, src)
  else if startsPlain s.inFlow c rest then s.plainScalar
  else none

/-- Moves to the next token and scans it; at the end of the text, closes what is open. -/
def next (s : Scan) : Option (Scan × Bool) := do
  let s ← (skipToToken (s.source.rest.length + 1) s).dropStale
  let s := s.unrollIndent s.source.column
  match s.source.rest with
  | [] =>
    let s ← (s.unrollIndent (-1)).removeKey
    return (s.emit .streamEnd, true)
  | c :: rest => return (← s.token c rest, false)

/-- Scans up to the end of the text. -/
def run : Nat → Scan → Option Scan
  | 0, _ => none
  | fuel + 1, s => do
    let (s, done) ← s.next
    if done then return s else run fuel s

end Scan

/-- The tokens of a text.  Every token takes at least one character of it. -/
def Token.scan (text : String) : Option (List Token) :=
  if text.toList.all isAllowed then
    (Scan.run (text.length + 2) (Scan.start text)).map (·.tokens.toList)
  else none

end Yaml
end RemoteModels

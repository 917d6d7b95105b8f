import RemoteModels.Yaml.Source

/-!
# The text of YAML scalars

Each function reads one scalar and gives its text and the source behind it; `none` is a fault.

Readers of parts take a bound on their steps, which the length of the text gives; each step takes at
least one character.

* `Yaml.readPlain` — words up to an indicator, folded over lines that are indented enough.
* `Yaml.readQuoted` — between single or double quotes.
* `Yaml.readBlock` — literal and folded blocks.
-/

set_option autoImplicit false

namespace RemoteModels
namespace Yaml

/-! ## Plain scalars

A plain scalar ends where something else could begin: at a colon or a comment, and inside brackets
at a comma or a bracket. -/

def isFlowIndicator (c : Char) : Bool :=
  c == ',' || c == '[' || c == ']' || c == '\x7b' || c == '\x7d'

/-- The characters up to a blank or an indicator that ends a plain scalar.  Inside brackets, a
colon directly before an indicator is refused. -/
def plainWord (flow : Bool) : List Char → Option (List Char)
  | [] => some []
  | c :: rest =>
    if isBlankOrBreak c then some []
    else if flow && c == ':' && rest.head?.any (fun d => isFlowIndicator d || d == '?') then none
    else if (c == ':' && startsBlank rest) || (flow && isFlowIndicator c) then some []
    else (plainWord flow rest).map (c :: ·)

/-- A scalar that has been read: its text, the source behind it, and whether a line break was
passed behind its last word. -/
structure Scanned where
  text : List Char
  source : Source
  broken : Bool

/-- Reads further words of a plain scalar; `g` is the gap before the next one. -/
def readPlainWords (flow : Bool) (indent : Nat) : Nat → Gap → Source → Option Scanned
  | 0, g, s => some ⟨[], s, g.broken⟩
  | fuel + 1, g, s =>
    if s.atDocumentMark || s.rest.head? == some '#' then some ⟨[], s, g.broken⟩
    else do
      let word ← plainWord flow s.rest
      if word.isEmpty then return ⟨[], s, g.broken⟩
      let piece := g.text ++ word
      let s := s.skip word.length
      if !(s.rest.head?.any isBlankOrBreak) then return ⟨piece, s, false⟩
      let (g, s) ← readGap indent (s.rest.length + 1) .empty s
      if !flow && s.column < indent then return ⟨piece, s, g.broken⟩
      let more ← readPlainWords flow indent fuel g s
      return { more with text := piece ++ more.text }

/-- Reads a plain scalar; `indent` is the least column of a continuation line. -/
def readPlain (flow : Bool) (indent : Nat) (s : Source) : Option Scanned :=
  readPlainWords flow indent (s.rest.length + 1) .empty s

/-! ## Quoted scalars

Between double quotes there are escapes, and between single ones only the quote is doubled. -/

def hexDigit? (c : Char) : Option Nat :=
  if '0' ≤ c ∧ c ≤ '9' then some (c.toNat - '0'.toNat)
  else if 'a' ≤ c ∧ c ≤ 'f' then some (c.toNat - 'a'.toNat + 10)
  else if 'A' ≤ c ∧ c ≤ 'F' then some (c.toNat - 'A'.toNat + 10)
  else none

/-- The number written by the first `n` characters, all hexadecimal digits. -/
def hexNumber? : Nat → List Char → Nat → Option Nat
  | 0, _, acc => some acc
  | n + 1, c :: rest, acc => do hexNumber? n rest (acc * 16 + (← hexDigit? c))
  | _ + 1, [], _ => none

/-- The character of a one-letter escape. -/
def simpleEscape? (c : Char) : Option Char :=
  match c with
  | '0' => some '\x00'
  | 'a' => some '\x07'
  | 'b' => some '\x08'
  | 't' => some '\t'
  | '\t' => some '\t'
  | 'n' => some '\n'
  | 'v' => some '\x0b'
  | 'f' => some '\x0c'
  | 'r' => some '\r'
  | 'e' => some '\x1b'
  | ' ' => some ' '
  | '"' => some '"'
  | '/' => some '/'
  | '\\' => some '\\'
  | 'N' => some '\x85'
  | '_' => some '\xa0'
  | 'L' => some '\u2028'
  | 'P' => some '\u2029'
  | _ => none

/-- The number of digits of a numeric escape. -/
def escapeDigits? (c : Char) : Option Nat :=
  match c with
  | 'x' => some 2
  | 'u' => some 4
  | 'U' => some 8
  | _ => none

/-- The character of an escape behind its backslash, and the characters it takes. -/
def readEscape (rest : List Char) : Option (Char × Nat) :=
  match rest with
  | [] => none
  | c :: more =>
    match simpleEscape? c with
    | some x => some (x, 1)
    | none => do
      let n ← escapeDigits? c
      let code ← hexNumber? n more 0
      if (0xD800 ≤ code ∧ code ≤ 0xDFFF) ∨ 0x10FFFF < code then none
      else some (Char.ofNat code, n + 1)

/-- Part of a quoted scalar: its text, the source behind it, and whether an escaped line break
ended it. -/
structure QuotedWord where
  text : List Char
  source : Source
  escaped : Bool

/-- Puts a character in front. -/
def QuotedWord.cons (c : Char) (w : QuotedWord) : QuotedWord := { w with text := c :: w.text }

/-- Reads the characters of a quoted scalar up to a blank, a break or the closing quote. -/
def readQuotedWord (single : Bool) : Nat → Source → Option QuotedWord
  | 0, s => some ⟨[], s, false⟩
  | fuel + 1, s =>
    match s.rest with
    | [] => some ⟨[], s, false⟩
    | c :: rest =>
      if isBlankOrBreak c then some ⟨[], s, false⟩
      else if single then
        if c == '\'' then
          if rest.head? == some '\'' then (readQuotedWord single fuel (s.skip 2)).map (.cons c)
          else some ⟨[], s, false⟩
        else (readQuotedWord single fuel (s.skip 1)).map (.cons c)
      else if c == '"' then some ⟨[], s, false⟩
      else if c == '\\' then
        if rest.head?.any isBreak then some ⟨[], (s.skip 1).skipBreak, true⟩
        else do
          let (x, n) ← readEscape rest
          (readQuotedWord single fuel (s.skip (n + 1))).map (.cons x)
      else (readQuotedWord single fuel (s.skip 1)).map (.cons c)

/-- Reads words and gaps up to the closing quote. -/
def readQuotedWords (single : Bool) : Nat → Source → Option (List Char × Source)
  | 0, _ => none
  | fuel + 1, s =>
    if s.atDocumentMark || s.rest.isEmpty then none
    else do
      let w ← readQuotedWord single (s.rest.length + 1) s
      if w.source.rest.head? == some (if single then '\'' else '"') then
        return (w.text, w.source.skip 1)
      let (g, s) ← readGap 0 (w.source.rest.length + 1) { Gap.empty with broken := w.escaped }
        w.source
      let (more, s) ← readQuotedWords single fuel s
      return (w.text ++ g.text ++ more, s)

/-- Reads a quoted scalar at its opening quote. -/
def readQuoted (single : Bool) (s : Source) : Option (List Char × Source) :=
  readQuotedWords single (s.rest.length + 1) (s.skip 1)

/-! ## Block scalars

A block goes on as long as lines are indented.  How its lines are joined and what becomes of its end
is said in front of it. -/

/-- What becomes of the line breaks at the end of a block. -/
inductive Chomping where
  | strip
  | clip
  | keep
deriving DecidableEq

/-- The marks behind the indicator of a block: an indentation and a chomping, in either order. -/
def readBlockHeader (s : Source) : Option (Nat × Chomping × Source) :=
  let chomping? (c : Char) : Option Chomping :=
    if c == '+' then some .keep else if c == '-' then some .strip else none
  match s.rest with
  | [] => some (0, .clip, s)
  | c :: rest =>
    match chomping? c with
    | some ch =>
      match rest with
      | d :: _ =>
        if d.isDigit then
          if d == '0' then none else some (d.toNat - '0'.toNat, ch, s.skip 2)
        else some (0, ch, s.skip 1)
      | [] => some (0, ch, s.skip 1)
    | none =>
      if c.isDigit then
        if c == '0' then none
        else
          match rest.head?.bind chomping? with
          | some ch => some (c.toNat - '0'.toNat, ch, s.skip 2)
          | none => some (c.toNat - '0'.toNat, .clip, s.skip 1)
      else some (0, .clip, s)

/-- Passes empty lines of a block.  `indent` is `0` while it is not known; the result has the breaks
passed, the largest column reached and the source at the next line that is not empty. -/
def readBlockBreaks (indent : Nat) :
    Nat → List Char → Nat → Source → Option (List Char × Nat × Source)
  | 0, acc, widest, s => some (acc, widest, s)
  | fuel + 1, acc, widest, s =>
    let spaces := (s.rest.takeWhile (· == ' ')).length
    let s := s.skip (if indent = 0 then spaces else min spaces (indent - s.column))
    let widest := max widest s.column
    if (indent = 0 ∨ s.column < indent) ∧ s.rest.head? = some '\t' then none
    else if s.rest.head?.any isBreak then
      readBlockBreaks indent fuel (acc ++ s.breakText) widest s.skipBreak
    else some (acc, widest, s)

/-- The lines of a block: their text, the break behind the last one, the empty lines after it, and
the source behind those. -/
structure BlockLines where
  text : List Char
  first : List Char
  others : List Char
  source : Source

/-- Reads the lines of a block at its indentation.  `first` is the break behind the previous line,
`others` are the empty lines after it, and `blank` tells whether that line began with a blank. -/
def readBlockLines (literal : Bool) (indent : Nat) :
    Nat → List Char → List Char → Bool → Source → Option BlockLines
  | 0, first, others, _, s => some ⟨[], first, others, s⟩
  | fuel + 1, first, others, blank, s =>
    if s.column != indent || s.rest.isEmpty then some ⟨[], first, others, s⟩
    else do
      let startsBlank := s.rest.head?.any isBlank
      let joint :=
        if !literal && first == ['\n'] && !blank && !startsBlank then
          if others.isEmpty then [' '] else others
        else first ++ others
      let line := s.rest.takeWhile (fun c => !isBreak c)
      let s := s.skip line.length
      let first := s.breakText
      let s := s.skipBreak
      let (others, _, s) ← readBlockBreaks indent (s.rest.length + 1) [] 0 s
      let more ← readBlockLines literal indent fuel first others startsBlank s
      return { more with text := joint ++ line ++ more.text }

/-- Reads a block scalar at its indicator; `parent` is the indentation of the block around it. -/
def readBlock (literal : Bool) (parent : Int) (s : Source) : Option (List Char × Source) := do
  let (increment, chomping, s) ← readBlockHeader (s.skip 1)
  let s := s.skipComment
  if !startsBreak s.rest then none
  let s := s.skipBreak
  let given : Nat := if increment = 0 then 0 else (max parent 0).toNat + increment
  let (breaks, widest, s) ← readBlockBreaks given (s.rest.length + 1) [] 0 s
  let indent := if given ≠ 0 then given else max widest (max (parent + 1) 1).toNat
  let lines ← readBlockLines literal indent (s.rest.length + 1) [] breaks false s
  let tail := match chomping with
    | .strip => []
    | .clip => lines.first
    | .keep => lines.first ++ lines.others
  return (lines.text ++ tail, lines.source)

end Yaml
end RemoteModels

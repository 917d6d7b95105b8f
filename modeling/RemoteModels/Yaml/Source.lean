/-!
# Characters and positions of YAML text

Indentation is counted in characters, and lines and columns from zero.

* `Yaml.isBreak`, `Yaml.isBlank`, `Yaml.isWord` — the character classes of the format.
* `Yaml.Source` — the text still to be read, with the index, line and column reached.
* `Yaml.Gap` — blanks and line breaks between two words of a scalar, and what they fold to.
-/

set_option autoImplicit false

namespace RemoteModels
namespace Yaml

/-! ## Character classes

What ends a word, a line or a scalar is told by classes of characters. -/

/-- Carriage return, line feed, next line, line separator, paragraph separator. -/
def isBreak (c : Char) : Bool :=
  c == '\r' || c == '\n' || c == '\x85' || c == '\u2028' || c == '\u2029'

/-- Space and tab. -/
def isBlank (c : Char) : Bool := c == ' ' || c == '\t'

def isBlankOrBreak (c : Char) : Bool := isBlank c || isBreak c

/-- The characters of anchors, directive names and tag handles. -/
def isWord (c : Char) : Bool := c.isAlphanum || c == '_' || c == '-'

/-- The characters a text may hold at all. -/
def isAllowed (c : Char) : Bool :=
  let n := c.toNat
  n == 0x09 || n == 0x0A || n == 0x0D || (0x20 ≤ n && n ≤ 0x7E) || n == 0x85 ||
    (0xA0 ≤ n && n ≤ 0xD7FF) || (0xE000 ≤ n && n ≤ 0xFFFD) || 0x10000 ≤ n

/-- Whether the text is at its end or starts with a blank or a break. -/
def startsBlank : List Char → Bool
  | [] => true
  | c :: _ => isBlankOrBreak c

/-- Whether the text is at its end or starts with a break. -/
def startsBreak : List Char → Bool
  | [] => true
  | c :: _ => isBreak c

/-! ## Sources

A source moves forward, by characters within a line or over a line break. -/

/-- The text still to be read and the place reached: characters passed, lines passed, and
characters of the current line passed. -/
structure Source where
  rest : List Char
  index : Nat
  line : Nat
  column : Nat

namespace Source

/-- The start of a text, behind a byte order mark. -/
def ofText (text : String) : Source :=
  let cs := match text.toList with
    | '\ufeff' :: rest => rest
    | cs => cs
  ⟨cs, 0, 0, 0⟩

/-- Passes the next `n` characters, all of the current line. -/
def skip (s : Source) (n : Nat) : Source :=
  { s with rest := s.rest.drop n, index := s.index + n, column := s.column + n }

/-- Passes the leading characters of a class that holds no break. -/
def skipWhile (s : Source) (p : Char → Bool) : Source := s.skip (s.rest.takeWhile p).length

/-- Passes a line break, if the source is at one; a carriage return and a line feed are one. -/
def skipBreak (s : Source) : Source :=
  match s.rest with
  | '\r' :: '\n' :: rest => ⟨rest, s.index + 2, s.line + 1, 0⟩
  | c :: rest => if isBreak c then ⟨rest, s.index + 1, s.line + 1, 0⟩ else s
  | [] => s

/-- What the line break ahead is read as: the separators of lines and paragraphs stay, the others
become a line feed. -/
def breakText (s : Source) : List Char :=
  match s.rest with
  | [] => []
  | c :: _ => if c == '\u2028' || c == '\u2029' then [c] else if isBreak c then ['\n'] else []

/-- Passes blanks and a comment up to the end of the line. -/
def skipComment (s : Source) : Source :=
  let s := s.skipWhile isBlank
  if s.rest.head? == some '#' then s.skipWhile (fun c => !isBreak c) else s

/-- Whether a line starts here with `---` or `...` standing alone. -/
def atDocumentMark (s : Source) : Bool :=
  s.column == 0 &&
    match s.rest with
    | '-' :: '-' :: '-' :: rest => startsBlank rest
    | '.' :: '.' :: '.' :: rest => startsBlank rest
    | _ => false

end Source

/-! ## Gaps between words

A scalar may go on over several lines, and a single line break then reads as a space. -/

/-- Blanks and breaks between two words: `broken` once a break was met, `blanks` before it, the
first break, and the further breaks. -/
structure Gap where
  broken : Bool
  blanks : List Char
  first : List Char
  others : List Char

namespace Gap

def empty : Gap := ⟨false, [], [], []⟩

/-- What a gap reads as: its blanks, a single space for one line feed, or the further breaks. -/
def text (g : Gap) : List Char :=
  if g.broken then
    if g.first == ['\n'] then
      if g.others.isEmpty then [' '] else g.others
    else g.first ++ g.others
  else g.blanks

end Gap

/-- Passes blanks and breaks, adding them to a gap.  A tab before column `indent` of a continued
line is refused. -/
def readGap (indent : Nat) : Nat → Gap → Source → Option (Gap × Source)
  | 0, g, s => some (g, s)
  | fuel + 1, g, s =>
    match s.rest with
    | [] => some (g, s)
    | c :: _ =>
      if isBlank c then
        if g.broken && s.column < indent && c == '\t' then none
        else
          let g := if g.broken then g else { g with blanks := g.blanks ++ [c] }
          readGap indent fuel g (s.skip 1)
      else if isBreak c then
        let g :=
          if g.broken then { g with others := g.others ++ s.breakText }
          else { g with broken := true, blanks := [], first := s.breakText }
        readGap indent fuel g s.skipBreak
      else some (g, s)

end Yaml
end RemoteModels

import RemoteModels.Json.Parser
import RemoteModels.Toml.Value

/-!
# Strings in TOML

Strings are written between single or triple quotes, with escapes (double quotes) or without (single
quotes).

* `Toml.readBasic`, `Toml.readLiteral` — strings on one line.
* `Toml.readBasicLines`, `Toml.readLiteralLines` — strings over several lines.
* `Toml.readText` — any of the four.
* `Toml.Style`, `Toml.styleOf` — how a string is written, and the choice between the ways.
* `Toml.textOf` — a string as it is written.
-/

set_option autoImplicit false

namespace RemoteModels
namespace Toml

/-! ## Escapes

A character is escaped by a letter or by its number, which has to be that of a character. -/

/-- Reads a character given by hexadecimal digits. -/
def readCode (digits : Nat) : Reader Char := fun cs =>
  let code := (cs.take digits).foldlM (fun n c => (Json.hexValue? c).map (n * 16 + ·)) 0
  match code with
  | some n =>
    if h : n.isValidChar then
      if digits ≤ cs.length then some (Char.ofNatAux n h, cs.drop digits) else none
    else none
  | none => none

/-- Reads what follows a backslash. -/
def readEscape : Reader Char
  | 'b' :: rest => some ('\x08', rest)
  | 't' :: rest => some ('\t', rest)
  | 'n' :: rest => some ('\n', rest)
  | 'f' :: rest => some ('\x0c', rest)
  | 'r' :: rest => some ('\r', rest)
  | '"' :: rest => some ('"', rest)
  | '\\' :: rest => some ('\\', rest)
  | 'u' :: rest => readCode 4 rest
  | 'U' :: rest => readCode 8 rest
  | _ => none

/-! ## Strings on one line

A string ends at its own kind of quote, and may hold the other. -/

/-- Reads up to the closing quote. -/
def readBasicChars : Nat → Reader (List Char)
  | 0, _ => none
  | n + 1, cs =>
    match cs with
    | [] => none
    | '"' :: rest => some ([], rest)
    | '\\' :: rest => do
      let (c, rest) ← readEscape rest
      let (cs, rest) ← readBasicChars n rest
      return (c :: cs, rest)
    | c :: rest => do
      if !isPrintable c then none
      let (cs, rest) ← readBasicChars n rest
      return (c :: cs, rest)

/-- A string with escapes, behind its opening quote. -/
def readBasic : Reader String := fun cs => do
  let (chars, rest) ← readBasicChars (cs.length + 1) cs
  return (String.ofList chars, rest)

/-- A string without escapes, behind its opening quote. -/
def readLiteral : Reader String := fun cs =>
  let isPart (c : Char) : Bool := isPrintable c && c != '\''
  match cs.dropWhile isPart with
  | '\'' :: rest => some (String.ofList (cs.takeWhile isPart), rest)
  | _ => none

/-! ## Strings over several lines

One or two quotes may stand anywhere in the string, at its end as well. -/

/-- The number of quotes in front. -/
def quotesAhead (quote : Char) (cs : List Char) : Nat := (cs.takeWhile (· = quote)).length

/-- Reads the quotes at the end of a string: the last three close it, and up to two in front of them
belong to it. -/
def readClosing (quote : Char) : Reader (List Char) := fun cs =>
  let count := quotesAhead quote cs
  if count ≤ 5 then some (List.replicate (count - 3) quote, cs.drop count) else none

/-- Passes spaces and line breaks. -/
def skipBreaks : Nat → List Char → List Char
  | 0, cs => cs
  | n + 1, cs =>
    let cs := skipSpaces cs
    match readNewline cs with
    | some rest => skipBreaks n rest
    | none => cs

/-- Passes a line break behind a backslash, with all blanks and line breaks that follow. -/
def skipEscapedBreak (cs : List Char) : Option (List Char) :=
  (readNewline (skipSpaces cs)).map fun rest => skipBreaks (rest.length + 1) rest

/-- Reads up to the closing quotes of a string with escapes. -/
def readBasicLineChars : Nat → Reader (List Char)
  | 0, _ => none
  | n + 1, cs =>
    if 3 ≤ quotesAhead '"' cs then readClosing '"' cs
    else
      match cs with
      | [] => none
      | '\\' :: rest =>
        match skipEscapedBreak rest with
        | some rest => readBasicLineChars n rest
        | none => do
          let (c, rest) ← readEscape rest
          let (cs, rest) ← readBasicLineChars n rest
          return (c :: cs, rest)
      | c :: rest =>
        match readNewline (c :: rest) with
        | some rest => do
          let (cs, rest) ← readBasicLineChars n rest
          return ('\n' :: cs, rest)
        | none => do
          if !isPrintable c then none
          let (cs, rest) ← readBasicLineChars n rest
          return (c :: cs, rest)

/-- Reads up to the closing quotes of a string without escapes. -/
def readLiteralLineChars : Nat → Reader (List Char)
  | 0, _ => none
  | n + 1, cs =>
    if 3 ≤ quotesAhead '\'' cs then readClosing '\'' cs
    else
      match cs with
      | [] => none
      | c :: rest =>
        match readNewline (c :: rest) with
        | some rest => do
          let (cs, rest) ← readLiteralLineChars n rest
          return ('\n' :: cs, rest)
        | none => do
          if !isPrintable c then none
          let (cs, rest) ← readLiteralLineChars n rest
          return (c :: cs, rest)

/-- Passes a line break right behind opening quotes. -/
def skipFirstBreak (cs : List Char) : List Char := (readNewline cs).getD cs

def readBasicLines : Reader String := fun cs => do
  let cs := skipFirstBreak cs
  let (chars, rest) ← readBasicLineChars (cs.length + 1) cs
  return (String.ofList chars, rest)

def readLiteralLines : Reader String := fun cs => do
  let cs := skipFirstBreak cs
  let (chars, rest) ← readLiteralLineChars (cs.length + 1) cs
  return (String.ofList chars, rest)

/-- Reads a string of any kind. -/
def readText : Reader String
  | '"' :: '"' :: '"' :: rest => readBasicLines rest
  | '"' :: rest => readBasic rest
  | '\'' :: '\'' :: '\'' :: rest => readLiteralLines rest
  | '\'' :: rest => readLiteral rest
  | _ => none

/-! ## Writing

A string is written without escapes if there is a way to do so, on one line rather than on
several. -/

/-- The ways to write a string. -/
inductive Style where
  | basic
  | literal
  | basicLines
  | literalLines
deriving DecidableEq

/-- Controls that have to be escaped; a line feed is none of them. -/
def isControl (c : Char) : Bool := (c.toNat < 0x20 && c != '\n') || c.toNat == 0x7F

/-- Whether a character occurs three times in a row. -/
def hasTriple (q : Char) : List Char → Bool
  | a :: b :: c :: rest => (a == q && b == q && c == q) || hasTriple q (b :: c :: rest)
  | _ => false

/-- The first style that needs no escapes, else one with them: the flag tells whether. -/
def styleOf (cs : List Char) : Style × Bool :=
  let controls := cs.any isControl
  let lines := cs.contains '\n'
  let backslash := cs.contains '\\'
  if !controls && !lines && !backslash && !cs.contains '"' then (.basic, false)
  else if !controls && !lines && !cs.contains '\'' then (.literal, false)
  else if !controls && !backslash && !hasTriple '"' cs then (.basicLines, false)
  else if !controls && !hasTriple '\'' cs then (.literalLines, false)
  else if lines then (.basicLines, true)
  else (.basic, true)

/-- A code in four hexadecimal digits. -/
def codeText (n : Nat) : List Char :=
  let digit (d : Nat) : Char :=
    if d < 10 then Char.ofNat ('0'.toNat + d) else Char.ofNat ('A'.toNat + (d - 10))
  [digit (n / 4096 % 16), digit (n / 256 % 16), digit (n / 16 % 16), digit (n % 16)]

/-- A character with its escape, where it needs one. -/
def escaped (c : Char) : List Char :=
  if c = '\x08' then ['\\', 'b']
  else if c = '\t' then ['\\', 't']
  else if c = '\n' then ['\\', 'n']
  else if c = '\x0c' then ['\\', 'f']
  else if c = '\r' then ['\\', 'r']
  else if c = '"' then ['\\', '"']
  else if c = '\\' then ['\\', '\\']
  else if c.toNat < 0x20 ∨ c.toNat = 0x7F then '\\' :: 'u' :: codeText c.toNat
  else [c]

/-- A text with escapes over several lines: line feeds stay, and of quotes in a row every third one
is escaped.  The first argument counts the quotes just passed. -/
def escapedLines : Nat → List Char → List Char
  | _, [] => []
  | quotes, c :: rest =>
    if c = '"' then
      if quotes = 2 then '\\' :: '"' :: escapedLines 0 rest
      else '"' :: escapedLines (quotes + 1) rest
    else if c = '\n' then '\n' :: escapedLines 0 rest
    else escaped c ++ escapedLines 0 rest

/-- What follows opening triple quotes. -/
def firstBreak (cs : List Char) : List Char := if cs.contains '\n' then ['\n'] else []

/-- The characters of a string as it is written. -/
def textChars (cs : List Char) : List Char :=
  match styleOf cs with
  | (.basic, false) => '"' :: cs ++ ['"']
  | (.basic, true) => '"' :: cs.flatMap escaped ++ ['"']
  | (.literal, _) => '\'' :: cs ++ ['\'']
  | (.basicLines, false) => "\"\"\"".toList ++ firstBreak cs ++ cs ++ "\"\"\"".toList
  | (.basicLines, true) =>
    "\"\"\"".toList ++ firstBreak cs ++ escapedLines 0 cs ++ "\"\"\"".toList
  | (.literalLines, _) => "'''".toList ++ firstBreak cs ++ cs ++ "'''".toList

/-- A string as it is written. -/
def textOf (s : String) : String := String.ofList (textChars s.toList)

end Toml
end RemoteModels

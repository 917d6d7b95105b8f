import RemoteModels.Text.Lower
import RemoteModels.Text.Parts
import RemoteModels.Url.Encode
import RemoteModels.Url.Punycode

/-!
# Hosts

The host of a URL with a well-known scheme is a domain name in lower case, four numbers, or an
address in brackets.  Other schemes take the host as it is written.

* `Url.parseIpv4`, `Url.parseIpv6` — the two kinds of address.
* `Url.parseDomain` — a domain name.
* `Url.parseHost`, `Url.parsePlainHost` — hosts in their normal form.
-/

set_option autoImplicit false

namespace RemoteModels
namespace Url

/-! ## Addresses of four numbers

There may be fewer than four parts, in several bases.  A domain whose last part is a number has to
be such an address. -/

def digitIn (base : Nat) (c : Char) : Option Nat :=
  match Json.hexValue? c with
  | some d => if d < base then some d else none
  | none => none

/-- The number that digits of a base write. -/
def natIn (base : Nat) (cs : List Char) : Option Nat :=
  cs.foldlM (fun n c => (digitIn base c).map (n * base + ·)) 0

/-- A part of an address: hexadecimal behind `0x`, octal behind `0`, else decimal. -/
def parsePart : List Char → Option Nat
  | [] => none
  | '0' :: 'x' :: rest => natIn 16 rest
  | '0' :: 'X' :: rest => natIn 16 rest
  | '0' :: d :: rest => natIn 8 (d :: rest)
  | cs => natIn 10 cs

/-- The parts of a domain without an empty last one. -/
def domainParts (cs : List Char) : List (List Char) :=
  let parts := Text.parts (· = '.') cs
  if parts.getLast? = some [] && 1 < parts.length then parts.dropLast else parts

/-- Whether the last part of a domain is a number, so that it has to be an address. -/
def endsInNumber (cs : List Char) : Bool :=
  match (domainParts cs).getLast? with
  | none => false
  | some last =>
    (!last.isEmpty && last.all Char.isDigit) ||
      (match last with
        | '0' :: 'x' :: rest => (natIn 16 rest).isSome
        | '0' :: 'X' :: rest => (natIn 16 rest).isSome
        | _ => false)

/-- The number of an address; its last part fills all places left. -/
def ipv4Number (parts : List Nat) : Option Nat :=
  match parts.reverse with
  | [] => none
  | last :: before =>
    let before := before.reverse
    if before.any (255 < ·) || Nat.pow 256 (4 - before.length) ≤ last then none
    else some (before.foldl (fun n p => n * 256 + p) 0 * Nat.pow 256 (4 - before.length) + last)

def parseIpv4 (cs : List Char) : Option String := do
  let parts := domainParts cs
  if 4 < parts.length then none
  let numbers ← parts.mapM parsePart
  let n ← ipv4Number numbers
  let part (i : Nat) : String := toString (n / Nat.pow 256 i % 256)
  return part 3 ++ "." ++ part 2 ++ "." ++ part 1 ++ "." ++ part 0

/-! ## Addresses in brackets

Eight groups, of which a run of zeros may be left out once.  Written out, the longest run is. -/

/-- The two groups of four plain decimal numbers. -/
def parseTail (cs : List Char) : Option (List Nat) := do
  let parts := Text.parts (· = '.') cs
  if parts.length ≠ 4 then none
  let numbers ← parts.mapM fun p =>
    match p with
    | [] => none
    | '0' :: _ :: _ => none
    | p => if p.all Char.isDigit then natIn 10 p else none
  match numbers with
  | [a, b, c, d] =>
    if [a, b, c, d].all (· ≤ 255) then return [a * 256 + b, c * 256 + d] else none
  | _ => none

/-- One group of hexadecimal digits. -/
def parseGroup (cs : List Char) : Option Nat :=
  if cs.isEmpty || 4 < cs.length then none else natIn 16 cs

/-- Groups between colons; the last may be four decimal numbers. -/
def parseGroups : List (List Char) → Option (List Nat)
  | [] => some []
  | [last] => if last.contains '.' then parseTail last else (parseGroup last).map ([·])
  | g :: rest => do return (← parseGroup g) :: (← parseGroups rest)

/-- Cuts a text at the first double colon. -/
def splitDouble : List Char → List Char × Option (List Char)
  | ':' :: ':' :: rest => ([], some rest)
  | c :: rest =>
    let (before, after) := splitDouble rest
    (c :: before, after)
  | [] => ([], none)

/-- The groups of one side of the double colon. -/
def sideGroups (cs : List Char) : Option (List Nat) :=
  if cs.isEmpty then some [] else parseGroups (Text.parts (· = ':') cs)

/-- The eight groups of an address. -/
def ipv6Groups (cs : List Char) : Option (List Nat) :=
  match splitDouble cs with
  | (all, none) => do
    let groups ← parseGroups (Text.parts (· = ':') all)
    if groups.length = 8 then some groups else none
  | (before, some after) => do
    if before.contains '.' then none
    let left ← sideGroups before
    let right ← sideGroups after
    if left.length + right.length ≤ 7 then
      some (left ++ List.replicate (8 - left.length - right.length) 0 ++ right)
    else none

/-- The number of leading zeros. -/
def zeros (gs : List Nat) : Nat := (gs.takeWhile (· = 0)).length

/-- The start and length of the first longest run of zeros. -/
def longestZeros : List Nat → Nat → Nat × Nat
  | [], i => (i, 0)
  | g :: rest, i =>
    let here := zeros (g :: rest)
    let later := longestZeros rest (i + 1)
    if later.2 ≤ here then (i, here) else later

def hexText (n : Nat) : String := String.ofList (Nat.toDigits 16 n)

/-- An address with its longest run of at least two zeros left out. -/
def ipv6Text (gs : List Nat) : String :=
  let join (l : List Nat) : String := ":".intercalate (l.map hexText)
  let (start, length) := longestZeros gs 0
  if length < 2 then "[" ++ join gs ++ "]"
  else "[" ++ join (gs.take start) ++ "::" ++ join (gs.drop (start + length)) ++ "]"

/-- An address in its normal form. -/
def parseIpv6 (cs : List Char) : Option String := (ipv6Groups cs).map ipv6Text

/-! ## Domain names

A name is decoded, mapped character by character, and cut into labels; a label outside ASCII is then
encoded. -/

/-- ASCII characters that may not stand in a domain name. -/
def forbiddenInDomain (c : Char) : Bool :=
  c.toNat ≤ 0x20 || c.toNat == 0x7F ||
    ['%', '#', '/', ':', '<', '>', '?', '@', '[', '\\', ']', '^', '|'].contains c

/-- The characters that stand for one character of a domain name: lower case, full stops of all
scripts, and the wide forms of ASCII; some are left out. -/
def domainChar (c : Char) : List Char :=
  let n := c.toNat
  if n = 0xAD ∨ n = 0x200B ∨ n = 0x2060 ∨ n = 0xFEFF ∨ (0xFE00 ≤ n ∧ n ≤ 0xFE0F) then []
  else if n = 0x3002 ∨ n = 0xFF61 then ['.']
  else if 0xFF01 ≤ n ∧ n ≤ 0xFF5E then [(Char.ofNat (n - 0xFEE0)).toLower]
  else if n < 0x80 then [c.toLower]
  else [Text.lowerChar c]

/-- Whether a decoded label needed its encoding and is in normal form. -/
def validDecoded (label : List Char) : Bool :=
  label.any (0x80 ≤ ·.toNat) &&
    label.all fun c => c.toNat < 0x80 || (0xA0 ≤ c.toNat && domainChar c == [c])

/-- A label in ASCII.  One that claims to be encoded has to be so. -/
def domainLabel (label : List Char) : Option (List Char) :=
  match label with
  | 'x' :: 'n' :: '-' :: '-' :: rest =>
    if label.all (·.toNat < 0x80) then
      match Punycode.decode rest with
      | some decoded => if validDecoded decoded then some label else none
      | none => none
    else none
  | _ =>
    if label.all (·.toNat < 0x80) then some label
    else some ("xn--".toList ++ Punycode.encode label)

/-- A domain name in its normal form. -/
def parseDomain (cs : List Char) : Option (List Char) := do
  let text ← Text.strict (decodeBytes cs)
  let mapped := text.toList.flatMap domainChar
  if mapped.any forbiddenInDomain then none
  let labels ← (Text.parts (· = '.') mapped).mapM domainLabel
  return [ '.' ].intercalate labels

/-! ## Hosts

A bracket in front decides for an address; else the last part of the name does. -/

/-- The text between brackets. -/
def bracketed? : List Char → Option (Option (List Char))
  | '[' :: rest => some (if rest.getLast? = some ']' then some rest.dropLast else none)
  | _ => none

/-- The host of a URL with a well-known scheme. -/
def parseHost (cs : List Char) : Option String :=
  match bracketed? cs with
  | some inner => inner.bind parseIpv6
  | none => do
    let domain ← parseDomain cs
    if domain.isEmpty then none
    else if endsInNumber domain then parseIpv4 domain
    else return String.ofList domain

/-- Characters that may not stand in a host that is taken as it is. -/
def forbiddenInHost (c : Char) : Bool :=
  ['\x00', '\t', '\n', '\r', ' ', '#', '/', ':', '<', '>', '?', '@', '[', '\\', ']', '^',
    '|'].contains c

/-- The host of a URL with any other scheme. -/
def parsePlainHost (cs : List Char) : Option String :=
  match bracketed? cs with
  | some inner => inner.bind parseIpv6
  | none => if cs.any forbiddenInHost then none else some (encode inControls cs)

end Url
end RemoteModels

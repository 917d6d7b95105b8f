/-!
# Punycode

Labels of a domain name are written in ASCII.  The characters outside ASCII are taken in increasing
order, each as the distance from the last one, and the distances are written as numbers with digits
of varying weight.

How many digits a distance takes depends on a bias, which follows the distances written before;
reader and writer change it in the same way.

* `Url.Punycode.encode` — a label as ASCII.
* `Url.Punycode.decode` — the label of an ASCII text.
-/

set_option autoImplicit false

namespace RemoteModels
namespace Url
namespace Punycode

/-- The character of a digit below 36. -/
def digitChar (d : Nat) : Char :=
  if d < 26 then Char.ofNat ('a'.toNat + d) else Char.ofNat ('0'.toNat + (d - 26))

def digitValue? (c : Char) : Option Nat :=
  if 'a' ≤ c ∧ c ≤ 'z' then some (c.toNat - 'a'.toNat)
  else if 'A' ≤ c ∧ c ≤ 'Z' then some (c.toNat - 'A'.toNat)
  else if '0' ≤ c ∧ c ≤ '9' then some (c.toNat - '0'.toNat + 26)
  else none

/-- The digits from which on a number goes on, at a place. -/
def threshold (place bias : Nat) : Nat :=
  if place ≤ bias then 1 else if bias + 26 ≤ place then 26 else place - bias

/-- Divides until the number is small; the second part grows with every division. -/
def shrink (delta place : Nat) : Nat × Nat :=
  if 455 < delta then shrink (delta / 35) (place + 36) else (delta, place)
termination_by delta
decreasing_by exact Nat.div_lt_self (by omega) (by omega)

/-- The bias after a distance has been written. -/
def adapt (delta count : Nat) (first : Bool) : Nat :=
  let d := if first then delta / 700 else delta / 2
  let r := shrink (d + d / count) 0
  r.2 + 36 * r.1 / (r.1 + 38)

/-! ## Writing

Each code is written when the characters up to it have been passed, and the distance counts the
places that were passed in between. -/

/-- The digits of a distance. -/
def digits (bias place q : Nat) : List Char :=
  let t := threshold place bias
  if q < t then [digitChar q]
  else digitChar (t + (q - t) % (36 - t)) :: digits bias (place + 36) ((q - t) / (36 - t))
termination_by q
decreasing_by
  have h1 : 1 ≤ threshold place bias := by
    unfold threshold
    split
    · omega
    · split <;> omega
  have h2 : (q - threshold place bias) / (36 - threshold place bias) ≤ q - threshold place bias :=
    Nat.div_le_self _ _
  omega

/-- The digits written, the distance gathered, the bias and the number of characters written. -/
structure Writing where
  out : List Char := []
  delta : Nat := 0
  bias : Nat := 72
  done : Nat

/-- Passes one character of the label while the code `m` is being written. -/
def Writing.pass (basic m : Nat) (w : Writing) (c : Char) : Writing :=
  if c.toNat < m then { w with delta := w.delta + 1 }
  else if c.toNat = m then
    { out := w.out ++ digits w.bias 36 w.delta
      delta := 0
      bias := adapt w.delta (w.done + 1) (w.done == basic)
      done := w.done + 1 }
  else w

/-- Writes the codes of a label in increasing order, from `n` on. -/
def writeCodes (label : List Char) (basic : Nat) : List Nat → Nat → Writing → Writing
  | [], _, w => w
  | m :: rest, n, w =>
    let w := { w with delta := w.delta + (m - n) * (w.done + 1) }
    let w := label.foldl (Writing.pass basic m) w
    writeCodes label basic rest (m + 1) { w with delta := w.delta + 1 }

/-- A label as ASCII. -/
def encode (label : List Char) : List Char :=
  let basic := label.filter (·.toNat < 0x80)
  let codes := ((label.filter (0x80 ≤ ·.toNat)).map Char.toNat).eraseDups.mergeSort
  let written := (writeCodes label basic.length codes 0x80 { done := basic.length }).out
  (if basic.isEmpty then [] else basic ++ ['-']) ++ written

/-! ## Reading

A distance says how much further the next character is, in code and in place at once. -/

/-- Reads a distance: the number, and the text behind it. -/
def readDistance (bias : Nat) : List Char → Nat → Nat → Nat → Option (Nat × List Char)
  | [], _, _, _ => none
  | c :: rest, place, weight, sum =>
    match digitValue? c with
    | none => none
    | some d =>
      let t := threshold place bias
      if d < t then some (sum + d * weight, rest)
      else readDistance bias rest (place + 36) (weight * (36 - t)) (sum + d * weight)

/-- Reads distances and puts their characters into the label. -/
def readCodes : Nat → Nat → Nat → Nat → List Char → List Char → Option (List Char)
  | _, _, _, _, out, [] => some out
  | 0, _, _, _, _, _ :: _ => none
  | fuel + 1, bias, n, i, out, cs =>
    match readDistance bias cs 36 1 i with
    | none => none
    | some (i', rest) =>
      let count := out.length + 1
      let code := n + i' / count
      let place := i' % count
      if h : code.isValidChar then
        readCodes fuel (adapt (i' - i) count (i == 0)) code (place + 1)
          (out.insertIdx place (Char.ofNatAux code h)) rest
      else none

/-- The label of an ASCII text. -/
def decode (cs : List Char) : Option (List Char) :=
  let reversed := cs.reverse
  let tail := (reversed.takeWhile (· ≠ '-')).reverse
  let head := ((reversed.dropWhile (· ≠ '-')).drop 1).reverse
  readCodes cs.length 72 0x80 0 head tail

end Punycode
end Url
end RemoteModels

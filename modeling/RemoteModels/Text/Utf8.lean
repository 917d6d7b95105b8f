/-!
# Characters from bytes

Bytes are cut into pieces: a well-formed sequence is a character, and every longest start of one
that breaks off is a piece without a character.

* `Text.pieces` — the pieces of a sequence of bytes.
* `Text.strict` — the text, if all pieces are characters.
* `Text.lossy` — the text with a replacement character for each bad piece.
-/

set_option autoImplicit false

namespace RemoteModels
namespace Text

/-! ## Pieces

The first byte of a piece fixes its length, and the bounds of the byte behind it rule out what has a
shorter encoding or none. -/

/-- How a sequence goes on after its first byte: the number of bytes that follow, the bounds of the
first of them, and the bits the first byte gives. -/
structure Lead where
  count : Nat
  low : Nat := 0x80
  high : Nat := 0xBF
  bits : Nat

def lead? (b : Nat) : Option Lead :=
  if b < 0x80 then some { count := 0, bits := b }
  else if b < 0xC2 then none
  else if b < 0xE0 then some { count := 1, bits := b - 0xC0 }
  else if b = 0xE0 then some { count := 2, low := 0xA0, bits := 0 }
  else if b = 0xED then some { count := 2, high := 0x9F, bits := 0xD }
  else if b < 0xF0 then some { count := 2, bits := b - 0xE0 }
  else if b = 0xF0 then some { count := 3, low := 0x90, bits := 0 }
  else if b < 0xF4 then some { count := 3, bits := b - 0xF0 }
  else if b = 0xF4 then some { count := 3, high := 0x8F, bits := 4 }
  else none

/-- Takes the bytes that follow as long as they fit; the number is missing if they break off. -/
def gather : Nat → Nat → Nat → Nat → List UInt8 → Option Nat × List UInt8
  | 0, _, _, bits, bs => (some bits, bs)
  | _ + 1, _, _, _, [] => (none, [])
  | n + 1, low, high, bits, b :: bs =>
    if low ≤ b.toNat ∧ b.toNat ≤ high then
      gather n 0x80 0xBF (bits * 64 + (b.toNat - 0x80)) bs
    else (none, b :: bs)

theorem length_gather_le (n low high bits : Nat) (bs : List UInt8) :
    (gather n low high bits bs).2.length ≤ bs.length := by
  induction n generalizing low high bits bs with
  | zero => simp [gather]
  | succ n ih =>
    cases bs with
    | nil => simp [gather]
    | cons b bs =>
      simp only [gather]
      split
      · exact Nat.le_succ_of_le (ih _ _ _ bs)
      · exact Nat.le_refl _

/-- The piece that starts with a byte, and the bytes behind it. -/
def nextPiece (b : UInt8) (bs : List UInt8) : Option Char × List UInt8 :=
  match lead? b.toNat with
  | none => (none, bs)
  | some l =>
    let r := gather l.count l.low l.high l.bits bs
    (r.1.map Char.ofNat, r.2)

theorem length_nextPiece_le (b : UInt8) (bs : List UInt8) :
    (nextPiece b bs).2.length ≤ bs.length := by
  unfold nextPiece
  split
  · exact Nat.le_refl _
  · exact length_gather_le _ _ _ _ bs

/-- The pieces of a sequence of bytes.  Each takes at least one byte, so that cutting comes to an
end. -/
def pieces : List UInt8 → List (Option Char)
  | [] => []
  | b :: bs =>
    have := length_nextPiece_le b bs
    (nextPiece b bs).1 :: pieces (nextPiece b bs).2
termination_by bs => bs.length
decreasing_by simp only [List.length_cons]; omega

/-! ## Texts

Who needs the exact text refuses bytes with a bad piece; who only shows it puts a mark there. -/

/-- The text of bytes that are well formed throughout. -/
def strict (bytes : List UInt8) : Option String :=
  ((pieces bytes).mapM id).map String.ofList

/-- The text of any bytes. -/
def lossy (bytes : List UInt8) : String :=
  String.ofList ((pieces bytes).map (·.getD '�'))

end Text
end RemoteModels

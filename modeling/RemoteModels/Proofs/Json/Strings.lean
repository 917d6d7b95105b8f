import RemoteModels.Json.Parser
import RemoteModels.Json.Printer

/-!
# Strings read back

Between quotes every character is written as itself or as an escape, and the reader turns each of
these pieces into the character it came from.

A string says itself where it ends, so it reads back in front of anything.  The statement is about
positions as well: a reader counts lines and columns, and what it gives must not depend on them.

* `Json.Reader.Takes` — what it means that a reader takes a text and leaves the rest.
* `Json.readPiece_takes` — one character, escaped or not.
* `Json.readString_takes` — a whole string.
-/

set_option autoImplicit false

namespace RemoteModels
namespace Json

/-! ## Cursors and readers

A reader takes characters from a cursor, which knows its position in the text.  `Takes` is the one
notion of reading back that is used for all readers; the position behind the text is left open. -/

namespace Cursor

variable {x : Char} {xs : List Char} {p : Position}

theorem skip_cons : skip ⟨x :: xs, p⟩ = ⟨xs, p.past x⟩ := rfl

theorem skipBlanks_cons (h : isBlank x = false) : skipBlanks ⟨x :: xs, p⟩ = ⟨x :: xs, p⟩ := by
  simp [skipBlanks, h, skipMany]

end Cursor

/-- In front of `rest`, the reader takes exactly `text`, and gives `a` for it.  Where the text
stands does not matter. -/
def Reader.Takes {α : Type} (r : Reader α) (a : α) (text rest : List Char) : Prop :=
  ∀ p, ∃ p', r ⟨text ++ rest, p⟩ = .ok (a, ⟨rest, p'⟩)

/-! ## Escapes

Control characters are written by their number, other characters that have a meaning in a short
form, and all the rest as themselves. -/

/-- The two digits of a number below 32 are read as the number; all of them are tried. -/
theorem hexUnit?_hexPair : ∀ n < 32,
    hexUnit? '0' '0' (Nat.digitChar (n / 16)) (Nat.digitChar (n % 16)) = some n := by
  decide

/-- A control character's number reads back from its four digits. -/
theorem readHexUnit_takes {n : Nat} (h : n < 32) (rest : List Char) :
    Reader.Takes readHexUnit n ('0' :: '0' :: hexPair n) rest := by
  intro p
  simp only [hexPair, List.cons_append, List.nil_append, readHexUnit, hexUnit?_hexPair n h]
  exact ⟨_, rfl⟩

/-- The number of a control character is no surrogate. -/
theorem readUnicodeEscape_takes {c : Char} (h : c.toNat < 32) (rest : List Char) :
    Reader.Takes readUnicodeEscape c ('0' :: '0' :: hexPair c.toNat) rest := by
  intro p
  obtain ⟨p', hn⟩ := readHexUnit_takes h rest p
  have hlow : isLowSurrogate c.toNat = false := by
    simp [isLowSurrogate]
    omega
  have hhigh : isHighSurrogate c.toNat = false := by
    simp [isHighSurrogate]
    omega
  refine ⟨p', ?_⟩
  rw [readUnicodeEscape, hn]
  simp [bind, Except.bind, hlow, hhigh]

/-- **A character reads back from the way it is written.** -/
theorem readPiece_takes (c : Char) (rest : List Char) :
    Reader.Takes readPiece (.char c) (escapeChar c) rest := by
  intro p
  fun_cases escapeChar c with
  | case1 | case2 | case3 | case4 | case5 =>
    subst_vars
    exact ⟨_, rfl⟩
  | case6 _ _ _ _ _ h =>
    obtain rfl : c = '\x08' := Char.toNat_inj.1 h
    exact ⟨_, rfl⟩
  | case7 _ _ _ _ _ _ h =>
    obtain rfl : c = '\x0c' := Char.toNat_inj.1 h
    exact ⟨_, rfl⟩
  | case8 _ _ _ _ _ _ _ h =>
    obtain ⟨p', hc⟩ := readUnicodeEscape_takes h rest ((p.past '\\').past 'u')
    refine ⟨p', ?_⟩
    show (readUnicodeEscape
      ⟨'0' :: '0' :: hexPair c.toNat ++ rest, (p.past '\\').past 'u'⟩ >>= _) = _
    rw [hc]
    rfl
  | case9 hquote hbackslash _ _ _ _ _ hcontrol =>
    -- Any other character stands for itself.
    refine ⟨p.past c, ?_⟩
    rw [List.singleton_append, readPiece]
    split
    · next h => cases h
    · next h => exact absurd (List.cons.inj h).1 hquote
    · next h => exact absurd (List.cons.inj h).1 hbackslash
    · next h =>
      cases h
      rw [if_neg hcontrol]
      rfl

/-! ## Whole strings

The reader has fuel for as many pieces as there are characters left in the text, and each character
of the string takes up one or more of these. -/

/-- Escaping does not make a string shorter. -/
theorem length_le_length_escape (cs : List Char) : cs.length ≤ (escape cs).length := by
  induction cs with
  | nil => exact Nat.le_refl 0
  | cons c cs ih =>
    have hpos : 0 < (escapeChar c).length := by
      fun_cases escapeChar c <;> simp
    rw [escape, List.flatMap_cons, List.length_append, List.length_cons]
    rw [escape] at ih
    omega

/-- The pieces of a string, with one step of the reader for each and one for the closing quote. -/
theorem readPieces_takes (cs rest : List Char) {n : Nat} (hn : cs.length < n) :
    Reader.Takes (readPieces n) cs (escape cs ++ ['"']) rest := by
  induction cs generalizing n with
  | nil =>
    intro p
    cases n with
    | zero => cases hn
    | succ n => exact ⟨_, rfl⟩
  | cons c cs ih =>
    intro p
    cases n with
    | zero => cases hn
    | succ n =>
      have hsplit : escape (c :: cs) ++ ['"'] ++ rest
          = escapeChar c ++ (escape cs ++ ['"'] ++ rest) := by
        simp [escape]
      obtain ⟨p₁, hc⟩ := readPiece_takes c (escape cs ++ ['"'] ++ rest) p
      obtain ⟨p₂, hcs⟩ := ih (Nat.lt_of_succ_lt_succ hn) p₁
      refine ⟨p₂, ?_⟩
      rw [hsplit, readPieces, hc]
      show (readPieces n ⟨escape cs ++ ['"'] ++ rest, p₁⟩ >>= _) = _
      rw [hcs]
      rfl

/-- **A string reads back from its escaped characters and the closing quote.** -/
theorem readString_takes (s : String) (rest : List Char) :
    Reader.Takes readString s (escape s.toList ++ ['"']) rest := by
  intro p
  have hlen : s.toList.length < (escape s.toList ++ ['"'] ++ rest).length + 1 := by
    have hle := length_le_length_escape s.toList
    simp only [List.length_append]
    omega
  obtain ⟨p', h⟩ := readPieces_takes s.toList rest hlen p
  refine ⟨p', ?_⟩
  rw [readString, h]
  show Except.ok (String.ofList s.toList, _) = _
  rw [String.ofList_toList]

end Json
end RemoteModels

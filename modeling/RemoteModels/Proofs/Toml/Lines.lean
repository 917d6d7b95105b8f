import RemoteModels.Proofs.Toml.Strings
import RemoteModels.Toml.Document

/-!
# Lines read back, in TOML

The lines of a document are read one after the other, each up to its line break.  So a document that
is put together from lines reads as these lines as soon as each of them does.

Reading is deterministic and goes from left to right, but a reader that meets a character it does
not expect gives up on the whole document.  So each statement about a piece of text says what
follows the piece: anything at all for a line, a line break for a value, and a character that cannot
belong to it for a key.

* `Toml.IsValueText` — a text that reads as a value in front of a line break.
* `Toml.IsLine` — a text that reads as a line in front of anything.
* `Toml.isLine_pair`, `Toml.isLine_arrayHeader` — the lines for values under plain keys, and those
  that open one more table of an array.
* `Toml.readLines_flatMap` — a document from its lines.
-/

set_option autoImplicit false

namespace RemoteModels
namespace Toml

variable {c : Char} {cs key rest : List Char} {n : Nat} {v : Value} {line : Line}

/-! ## Keys

Only plain keys are written, made of letters, digits, dashes and underscores.  Such a key needs no
quotes, and it ends where another character stands. -/

/-- Characters of plain keys, none of which has a meaning elsewhere. -/
structure IsBareKey (key : List Char) : Prop where
  ne_nil : key ≠ []
  bare : key.all isBareKeyChar = true

/-- A character that is no space is not passed over. -/
theorem skipSpaces_cons (h : isSpace c = false) : skipSpaces (c :: cs) = c :: cs := by
  simp [skipSpaces, h]

/-- The first character of a plain key is none that means something else. -/
theorem IsBareKey.exists_cons (h : IsBareKey key) :
    ∃ c cs, key = c :: cs ∧ ∀ d, isBareKeyChar d = false → c ≠ d := by
  cases key with
  | nil => exact absurd rfl h.ne_nil
  | cons c cs =>
    refine ⟨c, cs, rfl, ?_⟩
    rintro d hd rfl
    rw [List.all_eq_true.1 h.bare c List.mem_cons_self] at hd
    cases hd

theorem isSpace_of_ne (h : c ≠ ' ') (h' : c ≠ '\t') : isSpace c = false := by
  simp [isSpace, h, h']

/-- A plain key is read up to the first character that is none of its own. -/
theorem readSimpleKey_bare (h : IsBareKey key) (hc : isBareKeyChar c = false) :
    readSimpleKey (key ++ c :: rest) = some (String.ofList key, c :: rest) := by
  have hbare := List.all_eq_true.1 h.bare
  have htake : (key ++ c :: rest).takeWhile isBareKeyChar = key := by
    simp [List.takeWhile_append_of_pos hbare, hc]
  have hdrop : (key ++ c :: rest).dropWhile isBareKeyChar = c :: rest := by
    simp [List.dropWhile_append_of_pos hbare, hc]
  have hfirst : ∀ d more, isBareKeyChar d = false → key ++ c :: rest ≠ d :: more := by
    obtain ⟨first, others, rfl, hne⟩ := h.exists_cons
    intro d more hd heq
    exact hne d hd (List.cons.inj heq).1
  rw [readSimpleKey, htake, hdrop]
  · simp [h.ne_nil]
  · exact fun more => hfirst _ more (by decide)
  · exact fun more => hfirst _ more (by decide)

/-- A plain key ends where another character stands, and no dot goes on with it. -/
theorem readKey_bare (h : IsBareKey key) (hc : isBareKeyChar c = false) (rest : List Char)
    (hdot : ∀ more, skipSpaces (c :: rest) ≠ '.' :: more) :
    readKey (key ++ c :: rest) = some ([String.ofList key], skipSpaces (c :: rest)) := by
  have hfront : skipSpaces (key ++ c :: rest) = key ++ c :: rest := by
    obtain ⟨d, ds, rfl, hd⟩ := h.exists_cons
    exact skipSpaces_cons (isSpace_of_ne (hd _ (by decide)) (hd _ (by decide)))
  have hparts : readKeyParts ((key ++ c :: rest).length + 1) (key ++ c :: rest)
      = some ([String.ofList key], skipSpaces (c :: rest)) := by
    rw [readKeyParts, hfront, readSimpleKey_bare h hc]
    simp
  rw [readKey, hparts]
  rfl

/-! ## Values

Two kinds of values are written: strings, and the array without elements that stands for no
contexts. -/

/-- In front of a line break, the text reads as the value. -/
structure IsValueText (text : List Char) (v : Value) : Prop where
  front : ∀ rest, skipSpaces (text ++ rest) = text ++ rest
  reads : ∀ rest, readValue (depthLimit - 1) (text ++ '\n' :: rest) = some (v, '\n' :: rest)

/-- A string begins with a quote of either kind. -/
theorem textChars_cases (cs rest : List Char) :
    ∃ more, textChars cs ++ rest = '"' :: more ∨ textChars cs ++ rest = '\'' :: more := by
  rw [textChars]
  split <;> simp

/-- A string reads back as a value. -/
theorem isValueText_textChars (cs : List Char) :
    IsValueText (textChars cs) (.string (String.ofList cs)) := by
  refine ⟨fun rest => ?_, fun rest => ?_⟩
  · obtain ⟨more, hmore | hmore⟩ := textChars_cases cs rest <;> rw [hmore] <;> rfl
  · -- The first quote tells that the value is a string.
    have hstring : readValue (depthLimit - 1) (textChars cs ++ '\n' :: rest)
        = (readText (textChars cs ++ '\n' :: rest)).map fun p => (.string p.1, p.2) := by
      obtain ⟨more, hmore | hmore⟩ := textChars_cases cs ('\n' :: rest) <;> rw [hmore] <;> rfl
    have hquotes : ∀ q, q ≠ '\n' → quotesAhead q ('\n' :: rest) = 0 := fun q hq =>
      quotesAhead_of_ne hq.symm
    rw [hstring, readText_textChars cs (hquotes _ (by decide)) (hquotes _ (by decide))]
    rfl

theorem isValueText_brackets : IsValueText ['[', ']'] (.array []) :=
  ⟨fun _ => rfl, fun _ => rfl⟩

/-! ## Lines

A line is a value under a key, or a header.  `IsLine` is what both have in common, and all that a
document needs: with fuel for one line more, the line is read and what follows is read as if it
stood alone. -/

/-- In front of anything, the text reads as the line. -/
structure IsLine (text : List Char) (line : Line) : Prop where
  ne_nil : text ≠ []
  reads : ∀ n rest, readLines (n + 1) (text ++ rest) = (readLines n rest).map (line :: ·)

/-- A line that begins with a character is not passed over as a blank one or a comment. -/
theorem skipLines_cons (hspace : isSpace c = false) (hc : c ≠ '#') (hn : c ≠ '\n') (hr : c ≠ '\r') :
    skipLines n (c :: cs) = c :: cs := by
  cases n with
  | zero => rfl
  | succ n => simp [skipLines, skipSpaces_cons hspace, skipComment, readNewline, hc, hn, hr]

/-- One line and the rest. -/
theorem readLines_of_skipLines {text : List Char} (hskip : skipLines text.length text = c :: cs)
    (hc : c ≠ '#') (hline : readLine (c :: cs) = some (line, rest)) :
    readLines (n + 1) text = (readLines n rest).map (line :: ·) := by
  rw [readLines, hskip]
  split
  · next heq => cases heq
  · next heq => exact absurd (List.cons.inj heq).1 hc
  · rw [hline]
    show (readLines n rest >>= _) = _
    cases readLines n rest <;> rfl

/-- A value under a plain key. -/
def pairChars (key text : List Char) : List Char := key ++ ' ' :: '=' :: ' ' :: (text ++ ['\n'])

/-- A value under a plain key reads as such. -/
theorem readPair_bare {text : List Char} (h : IsBareKey key) (hv : IsValueText text v)
    (rest : List Char) :
    readPair (readValue (depthLimit - 1)) (pairChars key text ++ rest)
      = some (([String.ofList key], v), '\n' :: rest) := by
  have htext : pairChars key text ++ rest
      = key ++ ' ' :: '=' :: ' ' :: (text ++ '\n' :: rest) := by
    simp [pairChars]
  have hkey := readKey_bare (c := ' ') h (by decide) ('=' :: ' ' :: (text ++ '\n' :: rest)) nofun
  rw [htext, readPair, hkey]
  show (readValue (depthLimit - 1) (skipSpaces (text ++ '\n' :: rest)) >>= _) = _
  rw [hv.front, hv.reads]
  rfl

/-- **A value under a plain key is a line.** -/
theorem isLine_pair {text : List Char} (h : IsBareKey key) (hv : IsValueText text v) :
    IsLine (pairChars key text) (.pair [String.ofList key] v) := by
  have hpair := readPair_bare h hv
  obtain ⟨c, cs, hkey, hc⟩ := h.exists_cons
  have htext : ∃ more, pairChars key text = c :: more := by
    rw [pairChars, hkey]
    exact ⟨_, rfl⟩
  obtain ⟨more, hmore⟩ := htext
  refine ⟨by simp [hmore], fun n rest => ?_⟩
  have hopen : ∀ more, pairChars key text ++ rest ≠ '[' :: more := by
    intro more heq
    rw [hmore] at heq
    exact hc '[' (by decide) (List.cons.inj heq).1
  have hline : readLine (pairChars key text ++ rest)
      = some (.pair [String.ofList key] v, rest) := by
    rw [readLine, hpair]
    · rfl
    · exact fun more => hopen _
    · exact hopen
  rw [hmore] at hline ⊢
  refine readLines_of_skipLines (skipLines_cons ?_ ?_ ?_ ?_) (hc _ (by decide)) hline
  · exact isSpace_of_ne (hc _ (by decide)) (hc _ (by decide))
  all_goals exact hc _ (by decide)

/-- The header of one more table of an array, behind a blank line. -/
def headerChars (key : List Char) : List Char := '\n' :: '[' :: '[' :: (key ++ [']', ']', '\n'])

/-- **A header is a line**, with the blank line in front of it. -/
theorem isLine_arrayHeader (h : IsBareKey key) :
    IsLine (headerChars key) (.arrayHeader [String.ofList key]) := by
  refine ⟨by simp [headerChars], fun n rest => ?_⟩
  have htext : headerChars key ++ rest
      = '\n' :: '[' :: '[' :: (key ++ ']' :: ']' :: '\n' :: rest) := by
    simp [headerChars]
  have hkey := readKey_bare (c := ']') h (by decide) (']' :: '\n' :: rest) nofun
  have hline : readLine ('[' :: '[' :: (key ++ ']' :: ']' :: '\n' :: rest))
      = some (.arrayHeader [String.ofList key], rest) := by
    rw [readLine, hkey]
    rfl
  rw [htext]
  exact readLines_of_skipLines rfl (by decide) hline

/-! ## Documents

The reader has fuel for as many lines as there are characters, and a line has at least one. -/

/-- **A document reads as the lines it is put together from.** -/
theorem readLines_flatMap {lines : List (List Char × Line)} (h : ∀ l ∈ lines, IsLine l.1 l.2)
    (hn : (lines.flatMap Prod.fst).length < n) :
    readLines n (lines.flatMap Prod.fst) = some (lines.map Prod.snd) := by
  induction lines generalizing n with
  | nil =>
    cases n with
    | zero => cases hn
    | succ n => rfl
  | cons l lines ih =>
    obtain ⟨hl, hlines⟩ := List.forall_mem_cons.1 h
    have hpos := List.length_pos_iff.2 hl.ne_nil
    rw [List.flatMap_cons, List.length_append] at hn
    obtain ⟨n, rfl⟩ : ∃ m, n = m + 1 := ⟨n - 1, by omega⟩
    rw [List.flatMap_cons, hl.reads, ih hlines (by omega)]
    rfl

end Toml
end RemoteModels

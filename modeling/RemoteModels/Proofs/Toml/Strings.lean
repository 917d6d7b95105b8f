import RemoteModels.Toml.Text

/-!
# Strings read back, in TOML

A string is written in one of four styles.  Two of them leave every character as it is, and are
chosen only if nothing in the string has a meaning there; the other two have escapes.  Between
triple quotes a string may hold quotes, also at its end, where they stand right before the closing
ones: the reader tells them apart by their number, so that no three may stand in a row before.

The choice between the styles does not matter for reading back: it is shown for each style under the
conditions on which it is chosen, and the writer's tests are these conditions.  The two styles with
escapes have no condition, so they are read back for every string.

* `Toml.escaped_cases` — a character is written as itself or as an escape.
* `Toml.quotesAhead_escapedLines`, `Toml.quotesAhead_literal` — three quotes in a row are met only
  where the string is at its end.
* `Toml.readText_textChars` — a string reads back from the way it is written.
-/

set_option autoImplicit false

namespace RemoteModels
namespace Toml

variable {c q : Char} {cs rest more : List Char} {n k : Nat}

/-! ## Plain characters

The reader of literal strings and the writer divide the characters differently.  For the writer a
character is a control character or not; for the reader it is printable, a tab, or a line break.
The lemmas bring the first to the second. -/

theorem bounds_of_isControl (h : isControl c = false) (hn : c ≠ '\n') :
    0x20 ≤ c.toNat ∧ c.toNat ≠ 0x7F := by
  simp only [isControl, Bool.or_eq_false_iff, Bool.and_eq_false_iff, decide_eq_false_iff_not,
    bne_eq_false_iff_eq, beq_eq_false_iff_ne, hn, or_false] at h
  omega

theorem isPrintable_of_bounds (h : 0x20 ≤ c.toNat ∧ c.toNat ≠ 0x7F) : isPrintable c = true := by
  simp [isPrintable, h]

theorem isPrintable_of_isControl (h : isControl c = false) (hn : c ≠ '\n') :
    isPrintable c = true :=
  isPrintable_of_bounds (bounds_of_isControl h hn)

theorem readNewline_of_isPrintable (h : isPrintable c = true) :
    readNewline (c :: rest) = none := by
  have hn : c ≠ '\n' := by
    rintro rfl
    exact absurd h (by decide)
  have hr : c ≠ '\r' := by
    rintro rfl
    exact absurd h (by decide)
  simp [readNewline, hn, hr]

/-! ## Escapes

A character that must not stand in a string as itself is written with a backslash, in one of the
short forms or by its number.  Between triple quotes a backslash may also stand in front of a line
break, where it swallows the blanks that follow; an escape must not be mistaken for this. -/

/-- The digits of a number below 128 are read as the number; all of them are tried. -/
theorem foldlM_codeText : ∀ n < 0x80,
    (codeText n).foldlM (fun n c => (Json.hexValue? c).map (n * 16 + ·)) 0 = some n := by
  decide

/-- A character that is written by its number reads back. -/
theorem readCode_codeText (h : c.toNat < 0x80) (rest : List Char) :
    readCode 4 (codeText c.toNat ++ rest) = some (c, rest) := by
  have htake : (codeText c.toNat ++ rest).take 4 = codeText c.toNat := rfl
  have hvalid : c.toNat.isValidChar := c.valid
  have hlen : 4 ≤ (codeText c.toNat ++ rest).length := by
    rw [List.length_append]
    exact Nat.le_add_right 4 _
  rw [readCode, htake, foldlM_codeText _ h]
  dsimp only
  rw [dif_pos hvalid, if_pos hlen]
  rfl

/-- Behind a backslash, `e` stands for the character. -/
structure IsEscape (e : List Char) (c : Char) : Prop where
  read : ∀ rest, readEscape (e ++ rest) = some (c, rest)
  /-- It is not taken for the blanks in front of a line break. -/
  noBreak : ∀ rest, skipEscapedBreak (e ++ rest) = none

/-- **A character is written as itself or as an escape**, and in the first case it has no meaning in
a string. -/
theorem escaped_cases (c : Char) :
    (escaped c = [c] ∧ c ≠ '"' ∧ c ≠ '\\' ∧ isPrintable c = true) ∨
      ∃ e, escaped c = '\\' :: e ∧ IsEscape e c := by
  fun_cases escaped c with
  | case1 | case2 | case3 | case4 | case5 | case6 | case7 =>
    subst_vars
    exact .inr ⟨_, rfl, fun _ => rfl, fun _ => rfl⟩
  | case8 _ _ _ _ _ _ _ h =>
    refine .inr ⟨_, rfl, fun rest => ?_, fun _ => rfl⟩
    exact readCode_codeText (by omega) rest
  | case9 _ _ _ _ _ hquote hbackslash h =>
    exact .inl ⟨rfl, hquote, hbackslash, isPrintable_of_bounds (by omega)⟩

/-- A character without a meaning is written as itself. -/
theorem escaped_of_plain (hc : isControl c = false) (hn : c ≠ '\n') (hq : c ≠ '"')
    (hb : c ≠ '\\') : escaped c = [c] := by
  have hcontrol : ∀ d, isControl d = true → c ≠ d := by
    rintro d hd rfl
    rw [hc] at hd
    cases hd
  have hbounds := bounds_of_isControl hc hn
  rw [escaped, if_neg (hcontrol _ (by decide)), if_neg (hcontrol _ (by decide)), if_neg hn,
    if_neg (hcontrol _ (by decide)), if_neg (hcontrol _ (by decide)), if_neg hq, if_neg hb,
    if_neg (by omega)]

/-! ## Strings on one line

Between single quotes nothing has a meaning but the quote; between double quotes there are
escapes. -/

/-- One character of a string. -/
theorem readBasicChars_escaped (h : readBasicChars n more = some (cs, rest)) :
    readBasicChars (n + 1) (escaped c ++ more) = some (c :: cs, rest) := by
  rcases escaped_cases c with ⟨hself, hquote, hbackslash, hprint⟩ | ⟨e, hescape, he⟩
  · simp [hself, readBasicChars, hprint, h]
  · simp [hescape, readBasicChars, he.read, h]

theorem length_le_length_flatMap_escaped (cs : List Char) :
    cs.length ≤ (cs.flatMap escaped).length := by
  induction cs with
  | nil => exact Nat.le_refl 0
  | cons c cs ih =>
    have hpos : 0 < (escaped c).length := by
      fun_cases escaped c <;> simp
    simp only [List.flatMap_cons, List.length_append, List.length_cons]
    omega

/-- All characters of a string, up to the quote that closes it. -/
theorem readBasicChars_flatMap (hn : cs.length < n) :
    readBasicChars n (cs.flatMap escaped ++ '"' :: rest) = some (cs, rest) := by
  induction cs generalizing n with
  | nil =>
    cases n with
    | zero => cases hn
    | succ n => rfl
  | cons c cs ih =>
    cases n with
    | zero => cases hn
    | succ n =>
      rw [List.flatMap_cons, List.append_assoc]
      exact readBasicChars_escaped (ih (Nat.lt_of_succ_lt_succ hn))

theorem readBasic_flatMap (cs rest : List Char) :
    readBasic (cs.flatMap escaped ++ '"' :: rest) = some (String.ofList cs, rest) := by
  have hlen := length_le_length_flatMap_escaped cs
  rw [readBasic, readBasicChars_flatMap]
  · rfl
  · rw [List.length_append]
    omega

/-- A string without quotes and control characters, between single quotes. -/
theorem readLiteral_append (hp : ∀ c ∈ cs, isPrintable c = true) (hq : '\'' ∉ cs) :
    readLiteral (cs ++ '\'' :: rest) = some (String.ofList cs, rest) := by
  have hpart : ∀ c ∈ cs, (isPrintable c && c != '\'') = true := by
    intro c hc
    have hne : c ≠ '\'' := fun h => hq (h ▸ hc)
    simp [hp c hc, hne]
  simp [readLiteral, List.dropWhile_append_of_pos hpart, List.takeWhile_append_of_pos hpart]

/-! ## Quotes in a row

The reader closes a string at three quotes, and takes up to two more in front of them for its own.
So the writer must not let three quotes stand in a row inside the string: the literal style is not
chosen for such strings, and the style with escapes breaks the row.  What has to be shown for both
is that wherever the reader stands, it sees three quotes ahead only at the end. -/

@[simp]
theorem quotesAhead_self : quotesAhead q (q :: cs) = quotesAhead q cs + 1 := by
  simp [quotesAhead]

theorem quotesAhead_of_ne (h : c ≠ q) : quotesAhead q (c :: cs) = 0 := by
  simp [quotesAhead, h]

/-- A row of quotes is as long as it is. -/
theorem quotesAhead_replicate (h : quotesAhead q rest = 0) :
    quotesAhead q (List.replicate k q ++ rest) = k := by
  induction k with
  | zero => exact h
  | succ k ih => rw [List.replicate_succ, List.cons_append, quotesAhead_self, ih]

/-- An escaped character is no quote. -/
theorem quotesAhead_escaped (c : Char) (more : List Char) :
    quotesAhead '"' (escaped c ++ more) = 0 := by
  rcases escaped_cases c with ⟨hself, hquote, -⟩ | ⟨e, hescape, -⟩
  · rw [hself]
    exact quotesAhead_of_ne hquote
  · rw [hescape]
    exact quotesAhead_of_ne (by decide)

/-- The quotes in front of the closing ones are those at the end of the string. -/
theorem readClosing_replicate (hk : k ≤ 2) (h : quotesAhead q rest = 0) :
    3 ≤ quotesAhead q (List.replicate k q ++ (List.replicate 3 q ++ rest)) ∧
      readClosing q (List.replicate k q ++ (List.replicate 3 q ++ rest))
        = some (List.replicate k q, rest) := by
  rw [← List.append_assoc, List.replicate_append_replicate, readClosing, quotesAhead_replicate h,
    if_pos (by omega), List.drop_left' List.length_replicate]
  exact ⟨Nat.le_add_left 3 k, rfl⟩

theorem hasTriple_of_tail (h : hasTriple q (c :: cs) = false) : hasTriple q cs = false := by
  rcases cs with _ | ⟨_, _ | ⟨_, cs⟩⟩
  · rfl
  · rfl
  · rw [hasTriple, Bool.or_eq_false_iff] at h
    exact h.2

/-- A part of a string has no three quotes in a row that the string does not have. -/
theorem hasTriple_of_append (h : hasTriple q (more ++ cs) = false) : hasTriple q cs = false := by
  induction more with
  | nil => exact h
  | cons c more ih => exact ih (hasTriple_of_tail h)

/-- In a text without three quotes in a row, behind `k` quotes that were just passed, there are
three or more ahead only if the text is nothing but quotes. -/
theorem quotesAhead_literal (h : hasTriple q (List.replicate k q ++ cs) = false) (hk : k ≤ 2)
    (more : List Char) :
    (∃ j, k + j ≤ 2 ∧ cs = List.replicate j q) ∨ k + quotesAhead q (cs ++ more) ≤ 2 := by
  induction cs generalizing k with
  | nil => exact .inl ⟨0, hk, rfl⟩
  | cons c cs ih =>
    by_cases hc : c = q
    · subst hc
      have hk' : k ≠ 2 := by
        rintro rfl
        simp [hasTriple] at h
      have hshift : List.replicate k c ++ c :: cs = List.replicate (k + 1) c ++ cs := by
        rw [List.replicate_succ', List.append_assoc]
        rfl
      rw [hshift] at h
      rcases ih h (by omega) with ⟨j, hj, rfl⟩ | hle
      · exact .inl ⟨j + 1, by omega, rfl⟩
      · refine .inr ?_
        rw [List.cons_append, quotesAhead_self]
        omega
    · refine .inr ?_
      rw [List.cons_append, quotesAhead_of_ne hc]
      exact hk

/-- The same for a text with escapes, which breaks up longer rows of quotes. -/
theorem quotesAhead_escapedLines (hk : k ≤ 2) (cs more : List Char) :
    (∃ j, k + j ≤ 2 ∧ cs = List.replicate j '"' ∧ escapedLines k cs = List.replicate j '"') ∨
      k + quotesAhead '"' (escapedLines k cs ++ more) ≤ 2 := by
  fun_induction escapedLines k cs with
  | case1 k => exact .inl ⟨0, hk, rfl, rfl⟩
  | case2 rest ih =>
    -- The third quote is escaped, so that a backslash comes first.
    exact .inr (Nat.le_refl 2)
  | case3 k rest hk' ih =>
    rcases ih (by omega) with ⟨j, hj, rfl, hj'⟩ | hle
    · exact .inl ⟨j + 1, by omega, rfl, by rw [hj']; rfl⟩
    · refine .inr ?_
      rw [List.cons_append, quotesAhead_self]
      omega
  | case4 k rest _ ih => exact .inr hk
  | case5 k c rest hquote hline ih =>
    refine .inr ?_
    rw [List.append_assoc, quotesAhead_escaped]
    exact hk

/-! ## Strings over several lines

The induction is on the characters still to be read.  What was read before matters only through the
number of quotes just passed, which is at most two. -/

/-- At the end of the string. -/
theorem readBasicLineChars_closing (hk : k ≤ 2) (hrest : quotesAhead '"' rest = 0) :
    readBasicLineChars (n + 1) (List.replicate k '"' ++ (List.replicate 3 '"' ++ rest))
      = some (List.replicate k '"', rest) := by
  obtain ⟨hthree, hclosing⟩ := readClosing_replicate hk hrest
  rw [readBasicLineChars.eq_def]
  simp only [if_pos hthree, hclosing]

/-- A character that stands for itself, unless it is the first of three quotes. -/
theorem readBasicLineChars_plain (hc : isPrintable c = true) (hb : c ≠ '\\')
    (hquotes : quotesAhead '"' (c :: more) ≤ 2) (h : readBasicLineChars n more = some (cs, rest)) :
    readBasicLineChars (n + 1) (c :: more) = some (c :: cs, rest) := by
  rw [readBasicLineChars, if_neg (by omega)]
  · simp [readNewline_of_isPrintable hc, hc, h]
  · exact hb

/-- A line break in the string. -/
theorem readBasicLineChars_newline (h : readBasicLineChars n more = some (cs, rest)) :
    readBasicLineChars (n + 1) ('\n' :: more) = some ('\n' :: cs, rest) := by
  have hquotes : quotesAhead '"' ('\n' :: more) = 0 := quotesAhead_of_ne (by decide)
  rw [readBasicLineChars, if_neg (by omega)]
  · simp [readNewline, h]
  · decide

/-- An escape in the string. -/
theorem readBasicLineChars_escaped (h : readBasicLineChars n more = some (cs, rest)) :
    readBasicLineChars (n + 1) (escaped c ++ more) = some (c :: cs, rest) := by
  have hquotes := quotesAhead_escaped c more
  rcases escaped_cases c with ⟨hself, hquote, hbackslash, hprint⟩ | ⟨e, hescape, he⟩
  · rw [hself, List.singleton_append] at hquotes ⊢
    exact readBasicLineChars_plain hprint hbackslash (by omega) h
  · rw [hescape, List.cons_append] at hquotes ⊢
    rw [readBasicLineChars, if_neg (by omega)]
    simp [he.noBreak, he.read, h]

/-- All characters of a string, up to the quotes that close it. -/
theorem readBasicLineChars_escapedLines (hrest : quotesAhead '"' rest = 0) (hk : k ≤ 2)
    (hn : cs.length < n) :
    readBasicLineChars n (escapedLines k cs ++ (List.replicate 3 '"' ++ rest))
      = some (cs, rest) := by
  obtain ⟨n, rfl⟩ : ∃ m, n = m + 1 := ⟨n - 1, by omega⟩
  induction cs generalizing k n with
  | nil => exact readBasicLineChars_closing (Nat.zero_le 2) hrest
  | cons c cs ih =>
    -- Either only quotes are left, and they are read with the closing ones, or one character is.
    obtain ⟨n, rfl⟩ : ∃ m, n = m + 1 := ⟨n - 1, by rw [List.length_cons] at hn; omega⟩
    have hn' : cs.length < n + 1 := Nat.lt_of_succ_lt_succ hn
    rcases quotesAhead_escapedLines hk (c :: cs) (List.replicate 3 '"' ++ rest) with
      ⟨j, hj, hcs, htext⟩ | hle
    · rw [htext, hcs]
      exact readBasicLineChars_closing (by omega) hrest
    · by_cases hquote : c = '"'
      · subst hquote
        by_cases hk₂ : k = 2
        · subst hk₂
          exact readBasicLineChars_escaped (c := '"') (ih (Nat.zero_le 2) n hn')
        · have htext : escapedLines k ('"' :: cs) = '"' :: escapedLines (k + 1) cs := by
            simp [escapedLines, hk₂]
          rw [htext, List.cons_append] at hle ⊢
          exact readBasicLineChars_plain (by decide) (by decide) (by omega)
            (ih (by omega) n hn')
      · by_cases hline : c = '\n'
        · subst hline
          exact readBasicLineChars_newline (ih (Nat.zero_le 2) n hn')
        · rw [escapedLines, if_neg hquote, if_neg hline, List.append_assoc]
          exact readBasicLineChars_escaped (ih (Nat.zero_le 2) n hn')

/-- The same for the literal style, where there are no escapes: at the end of the string, -/
theorem readLiteralLineChars_closing (hk : k ≤ 2) (hrest : quotesAhead '\'' rest = 0) :
    readLiteralLineChars (n + 1) (List.replicate k '\'' ++ (List.replicate 3 '\'' ++ rest))
      = some (List.replicate k '\'', rest) := by
  obtain ⟨hthree, hclosing⟩ := readClosing_replicate hk hrest
  rw [readLiteralLineChars.eq_def]
  simp only [if_pos hthree, hclosing]

/-- at a character of it, -/
theorem readLiteralLineChars_cons (hc : isControl c = false)
    (hquotes : quotesAhead '\'' (c :: more) ≤ 2)
    (h : readLiteralLineChars n more = some (cs, rest)) :
    readLiteralLineChars (n + 1) (c :: more) = some (c :: cs, rest) := by
  rw [readLiteralLineChars, if_neg (by omega)]
  by_cases hline : c = '\n'
  · subst hline
    simp [readNewline, h]
  · have hprint := isPrintable_of_isControl hc hline
    simp [readNewline_of_isPrintable hprint, hprint, h]

/-- and for all its characters. -/
theorem readLiteralLineChars_append (hrest : quotesAhead '\'' rest = 0)
    (hc : ∀ c ∈ cs, isControl c = false) (ht : hasTriple '\'' cs = false) (hn : cs.length < n) :
    readLiteralLineChars n (cs ++ (List.replicate 3 '\'' ++ rest)) = some (cs, rest) := by
  obtain ⟨n, rfl⟩ : ∃ m, n = m + 1 := ⟨n - 1, by omega⟩
  induction cs generalizing n with
  | nil => exact readLiteralLineChars_closing (k := 0) (Nat.zero_le 2) hrest
  | cons c cs ih =>
    obtain ⟨n, rfl⟩ : ∃ m, n = m + 1 := ⟨n - 1, by rw [List.length_cons] at hn; omega⟩
    obtain ⟨hc, hcs⟩ := List.forall_mem_cons.1 hc
    rcases quotesAhead_literal (k := 0) ht (Nat.zero_le 2) (List.replicate 3 '\'' ++ rest) with
      ⟨j, hj, hj'⟩ | hle
    · rw [hj']
      exact readLiteralLineChars_closing (by omega) hrest
    · rw [List.cons_append] at hle ⊢
      exact readLiteralLineChars_cons hc (by omega)
        (ih hcs (hasTriple_of_tail ht) n (Nat.lt_of_succ_lt_succ hn))

/-! ## The choice of the style

The writer chooses by looking through the string, and each style comes with what the look-through
has found.  The line break that opens a string over several lines is not part of it, and is passed
by the reader. -/

/-- Where nothing has a meaning the style with escapes writes the string as it is. -/
theorem flatMap_escaped_of_plain (hc : ∀ c ∈ cs, isControl c = false) (hn : '\n' ∉ cs)
    (hq : '"' ∉ cs) (hb : '\\' ∉ cs) : cs.flatMap escaped = cs := by
  induction cs with
  | nil => rfl
  | cons c cs ih =>
    simp only [List.mem_cons, not_or, forall_eq_or_imp] at hc hn hq hb
    rw [List.flatMap_cons, ih hc.2 hn.2 hq.2 hb.2,
      escaped_of_plain hc.1 (Ne.symm hn.1) (Ne.symm hq.1) (Ne.symm hb.1)]
    rfl

/-- So does that over several lines, if no three quotes stand in a row. -/
theorem escapedLines_of_plain (hc : ∀ c ∈ cs, isControl c = false) (hb : '\\' ∉ cs)
    (ht : hasTriple '"' (List.replicate k '"' ++ cs) = false) : escapedLines k cs = cs := by
  fun_induction escapedLines k cs with
  | case1 => rfl
  | case2 rest ih => simp [hasTriple] at ht
  | case3 k rest hk ih =>
    simp only [List.mem_cons, not_or, forall_eq_or_imp] at hc hb
    rw [ih hc.2 hb.2]
    rw [List.replicate_succ', List.append_assoc]
    exact ht
  | case4 k rest hq ih =>
    simp only [List.mem_cons, not_or, forall_eq_or_imp] at hc hb
    rw [ih hc.2 hb.2 (hasTriple_of_tail (hasTriple_of_append ht))]
  | case5 k c rest hq hn ih =>
    simp only [List.mem_cons, not_or, forall_eq_or_imp] at hc hb
    rw [ih hc.2 hb.2 (hasTriple_of_tail (hasTriple_of_append ht)),
      escaped_of_plain hc.1 hn hq (Ne.symm hb.1)]
    rfl

theorem length_le_length_escapedLines (k : Nat) (cs : List Char) :
    cs.length ≤ (escapedLines k cs).length := by
  fun_induction escapedLines k cs with
  | case1 => exact Nat.le_refl 0
  | case2 | case3 | case4 =>
    simp only [List.length_cons]
    omega
  | case5 k c rest _ _ ih =>
    have hpos := length_le_length_flatMap_escaped [c]
    simp only [List.flatMap_singleton, List.length_append, List.length_cons, List.length_nil]
      at hpos ⊢
    omega

/-! ## Style by style

What was shown for the inside of a string is put between its quotes. -/

/-- Between double quotes. -/
theorem readText_basic (cs rest : List Char) (hrest : quotesAhead '"' rest = 0) :
    readText ('"' :: (cs.flatMap escaped ++ '"' :: rest)) = some (String.ofList cs, rest) := by
  have hquotes : quotesAhead '"' (cs.flatMap escaped ++ '"' :: rest) ≤ 1 := by
    cases cs with
    | nil => simp [hrest]
    | cons c cs => simp [quotesAhead_escaped]
  rw [readText, readBasic_flatMap]
  intro more hmore
  simp [hmore] at hquotes

/-- Between single quotes. -/
theorem readText_literal (hrest : quotesAhead '\'' rest = 0)
    (hc : ∀ c ∈ cs, isPrintable c = true) (hq : '\'' ∉ cs) :
    readText ('\'' :: (cs ++ '\'' :: rest)) = some (String.ofList cs, rest) := by
  have hquotes : quotesAhead '\'' (cs ++ '\'' :: rest) ≤ 1 := by
    cases cs with
    | nil => simp [hrest]
    | cons c cs =>
      have hne : c ≠ '\'' := fun h => hq (h ▸ List.mem_cons_self)
      rw [List.cons_append, quotesAhead_of_ne hne]
      exact Nat.zero_le 1
  rw [readText, readLiteral_append hc hq]
  intro more hmore
  simp [hmore] at hquotes

/-- The line break behind the opening quotes is passed, and it is there if the string has line
breaks of its own. -/
theorem skipFirstBreak_firstBreak (h : '\n' ∉ cs → readNewline more = none) :
    skipFirstBreak (firstBreak cs ++ more) = more := by
  by_cases hn : '\n' ∈ cs
  · simp [firstBreak, hn, skipFirstBreak, readNewline]
  · simp [firstBreak, hn, skipFirstBreak, h hn]

/-- A string without a line break does not begin with one in any style. -/
theorem readNewline_escapedLines (hn : '\n' ∉ cs) (rest : List Char) :
    readNewline (escapedLines 0 cs ++ (List.replicate 3 '"' ++ rest)) = none := by
  cases cs with
  | nil => rfl
  | cons c cs =>
    have hc : c ≠ '\n' := fun h => hn (h ▸ List.mem_cons_self)
    by_cases hq : c = '"'
    · subst hq
      rfl
    · rw [escapedLines, if_neg hq, if_neg hc]
      rcases escaped_cases c with ⟨hself, -, -, hprint⟩ | ⟨e, hescape, -⟩
      · rw [hself]
        exact readNewline_of_isPrintable hprint
      · rw [hescape]
        rfl

/-- Between three double quotes. -/
theorem readText_basicLines (cs rest : List Char) (hrest : quotesAhead '"' rest = 0) :
    readText ('"' :: '"' :: '"' ::
        (firstBreak cs ++ (escapedLines 0 cs ++ (List.replicate 3 '"' ++ rest))))
      = some (String.ofList cs, rest) := by
  have hlen := length_le_length_escapedLines 0 cs
  rw [readText, readBasicLines, skipFirstBreak_firstBreak (readNewline_escapedLines · rest)]
  simp only [readBasicLineChars_escapedLines hrest (Nat.zero_le 2)
    (Nat.lt_succ_of_le (Nat.le_trans hlen (List.length_append ▸ Nat.le_add_right _ _)))]
  rfl

/-- Between three single quotes. -/
theorem readText_literalLines (hrest : quotesAhead '\'' rest = 0)
    (hc : ∀ c ∈ cs, isControl c = false) (ht : hasTriple '\'' cs = false) :
    readText ('\'' :: '\'' :: '\'' :: (firstBreak cs ++ (cs ++ (List.replicate 3 '\'' ++ rest))))
      = some (String.ofList cs, rest) := by
  have hbreak : '\n' ∉ cs → readNewline (cs ++ (List.replicate 3 '\'' ++ rest)) = none := by
    intro hn
    cases cs with
    | nil => rfl
    | cons c cs =>
      have hne : c ≠ '\n' := fun h => hn (h ▸ List.mem_cons_self)
      exact readNewline_of_isPrintable (isPrintable_of_isControl (hc c List.mem_cons_self) hne)
  rw [readText, readLiteralLines, skipFirstBreak_firstBreak hbreak]
  simp only [readLiteralLineChars_append hrest hc ht
    (Nat.lt_succ_of_le (List.length_append ▸ Nat.le_add_right _ _))]
  rfl

/-- **A string reads back from the way it is written.**  What follows may not be one more quote. -/
theorem readText_textChars (cs : List Char) (hrest : quotesAhead '"' rest = 0)
    (hrest' : quotesAhead '\'' rest = 0) :
    readText (textChars cs ++ rest) = some (String.ofList cs, rest) := by
  rw [textChars]
  fun_cases styleOf cs with
  | case1 controls lines backslash h =>
    simp only [controls, lines, backslash, Bool.and_eq_true, Bool.not_eq_true', List.any_eq_false,
      Bool.not_eq_true, List.contains_eq_mem, decide_eq_false_iff_not] at h
    obtain ⟨⟨⟨hc, hn⟩, hb⟩, hq⟩ := h
    have hplain := readText_basic cs rest hrest
    rw [flatMap_escaped_of_plain hc hn hq hb] at hplain
    simpa using hplain
  | case2 controls lines backslash _ h =>
    simp only [controls, lines, Bool.and_eq_true, Bool.not_eq_true', List.any_eq_false,
      Bool.not_eq_true, List.contains_eq_mem, decide_eq_false_iff_not] at h
    obtain ⟨⟨hc, hn⟩, hq⟩ := h
    have hprint : ∀ c ∈ cs, isPrintable c = true := fun c hmem =>
      isPrintable_of_isControl (hc c hmem) fun heq => hn (heq ▸ hmem)
    simpa using readText_literal hrest' hprint hq
  | case3 controls lines backslash _ _ h =>
    simp only [controls, backslash, Bool.and_eq_true, Bool.not_eq_true', List.any_eq_false,
      Bool.not_eq_true, List.contains_eq_mem, decide_eq_false_iff_not] at h
    obtain ⟨⟨hc, hb⟩, ht⟩ := h
    have hplain := readText_basicLines cs rest hrest
    rw [escapedLines_of_plain (k := 0) hc hb ht] at hplain
    simpa using hplain
  | case4 controls lines backslash _ _ _ h =>
    simp only [controls, Bool.and_eq_true, Bool.not_eq_true', List.any_eq_false,
      Bool.not_eq_true] at h
    simpa using readText_literalLines hrest' h.1 h.2
  | case5 => simpa using readText_basicLines cs rest hrest
  | case6 => simpa using readText_basic cs rest hrest

end Toml
end RemoteModels

import RemoteModels.Proofs.Json.RoundTrip

/-!
# Readers that mind only what they take

A value is read the same way wherever it stands: what its reader gives depends on the characters it
takes and on nothing behind them, as long as these do not run on into what follows.  Numbers alone
can run on (`Json.readNumber_local`); strings, words and containers have an end of their own, and
are read the same way in front of anything.

The loops count down from the length of the text that is left, which does depend on what follows.
One step for each piece and one for the end is all they need, so any larger count does as well.

The two notions are proved of a reader together with what it has taken: given a successful reading,
there is a text that was used up, and on that text the reader succeeds again in front of anything
else.  So each lemma has the same shape, one reading in and all readings out, and those of a
compound reader are chained along what its parts have used.

* `Json.Reader.Closed` — a reader whose texts have an end of their own.
* `Json.readString_closed`, `Json.readContainer_closed` — strings, lists and objects.
* `Json.readValue_local` — all values.
-/

set_option autoImplicit false

namespace RemoteModels
namespace Json

variable {α : Type}

/-- The reader minds only what it takes, and what follows may be anything. -/
def Reader.Closed (r : Reader α) : Prop :=
  ∀ (cs : List Char) (p : Position) (a : α) (c : Cursor), r ⟨cs, p⟩ = .ok (a, c) →
    ∃ used, cs = used ++ c.rest ∧ ∀ rest, r.Takes a used rest

/-- The reader gives nothing for the empty text. -/
def Reader.NeedsText (r : Reader α) : Prop := ∀ p x, r ⟨[], p⟩ ≠ .ok x

/-- What such a reader has taken begins where the text begins. -/
theorem Reader.NeedsText.exists_cons {r : Reader α} (h : r.NeedsText) {a : α} {x : Char}
    {xs used rest : List Char} (htakes : r.Takes a used []) (heq : x :: xs = used ++ rest) :
    ∃ more, used = x :: more := by
  cases used with
  | nil =>
    obtain ⟨q, hq⟩ := htakes ⟨1, 0⟩
    exact absurd hq (h _ _)
  | cons y more =>
    cases heq
    exact ⟨more, rfl⟩

/-! ## Blanks

Blanks may stand wherever two pieces of a text meet, and are passed over without leaving a trace in
what is read.  A text is therefore known up to the blanks in front of its pieces, and the lemmas say
where these may be. -/

/-- The text is made of blanks. -/
def IsBlank (cs : List Char) : Prop := ∀ c ∈ cs, Cursor.isBlank c

theorem isBlank_nil : IsBlank [] := by simp [IsBlank]

theorem isBlank_append {cs cs' : List Char} : IsBlank (cs ++ cs') ↔ IsBlank cs ∧ IsBlank cs' :=
  List.forall_mem_append

/-- Blanks stop a value, and so does whatever stops it behind them. -/
theorem IsBlank.stops {bs rest : List Char} (hb : IsBlank bs) (h : Stops rest) :
    Stops (bs ++ rest) := by
  cases bs with
  | nil => exact h
  | cons b bs => simp [Stops, hb b List.mem_cons_self]

theorem stops_nil : Stops [] := by simp [Stops]

/-- Only the first character counts. -/
theorem Stops.of_append {cs rest rest' : List Char} (h : Stops (cs ++ rest)) (hne : cs ≠ []) :
    Stops (cs ++ rest') := by
  cases cs with
  | nil => exact absurd rfl hne
  | cons c cs => exact h

namespace Cursor

/-- Blanks in front make no difference. -/
theorem skipBlanks_append {bs : List Char} (hb : IsBlank bs) (cs : List Char) (p : Position) :
    ∃ q, skipBlanks ⟨bs ++ cs, p⟩ = skipBlanks ⟨cs, q⟩ := by
  induction bs generalizing p with
  | nil => exact ⟨p, rfl⟩
  | cons b bs ih =>
    rw [IsBlank, List.forall_mem_cons] at hb
    obtain ⟨q, hq⟩ := ih hb.2 (p.past b)
    refine ⟨q, ?_⟩
    rw [← hq, List.cons_append, skipBlanks, List.takeWhile_cons_of_pos hb.1]
    rfl

/-- Blanks are passed up to the first character that is none. -/
theorem skipBlanks_append_cons {bs : List Char} (hb : IsBlank bs) {x : Char}
    (hx : isBlank x = false) (xs : List Char) (p : Position) :
    ∃ q, skipBlanks ⟨bs ++ x :: xs, p⟩ = ⟨x :: xs, q⟩ := by
  obtain ⟨q, hq⟩ := skipBlanks_append hb (x :: xs) p
  exact ⟨q, hq.trans (skipBlanks_cons hx)⟩

/-- What is skipped are the blanks in front. -/
theorem exists_skipBlanks (cs : List Char) (p : Position) :
    ∃ bs rest q, IsBlank bs ∧ cs = bs ++ rest ∧ skipBlanks ⟨cs, p⟩ = ⟨rest, q⟩ ∧
      ∀ x ∈ rest.head?, isBlank x = false := by
  induction cs generalizing p with
  | nil => exact ⟨[], [], p, isBlank_nil, rfl, rfl, by simp⟩
  | cons x xs ih =>
    cases hx : isBlank x with
    | false => exact ⟨[], x :: xs, p, isBlank_nil, rfl, skipBlanks_cons hx, by simp [hx]⟩
    | true =>
      obtain ⟨bs, rest, q, hb, rfl, hq, hrest⟩ := ih (p.past x)
      refine ⟨x :: bs, rest, q, List.forall_mem_cons.2 ⟨hx, hb⟩, rfl, ?_, hrest⟩
      rw [← hq, skipBlanks, List.takeWhile_cons_of_pos hx]
      rfl

end Cursor

/-! ## Strings

A string ends at its quote, and inside it no piece depends on what follows.  The longest piece is a
pair of escapes that make up one character. -/

/-- Four hexadecimal digits. -/
theorem readHexUnit_closed : Reader.Closed readHexUnit := by
  intro cs p n c h
  simp only [readHexUnit] at h
  split at h
  · next x y z w rest =>
    split at h
    · next m hm =>
      cases h
      refine ⟨[x, y, z, w], rfl, fun rest q => ?_⟩
      simp only [List.cons_append, List.nil_append, readHexUnit, hm]
      exact ⟨_, rfl⟩
    · split at h <;> cases h
  · split at h <;> cases h

/-- What has to stand inside a pair of escapes stands there. -/
theorem of_expectInPair {x : Char} {cs : List Char} {p : Position} {c : Cursor}
    (h : expectInPair x ⟨cs, p⟩ = .ok c) : cs = x :: c.rest := by
  cases cs with
  | nil => cases h
  | cons y ys =>
    simp only [expectInPair] at h
    split at h
    · next hy =>
      cases h
      rw [hy, Cursor.skip_cons]
    · cases h

theorem expectInPair_cons (x : Char) (cs : List Char) (p : Position) :
    expectInPair x ⟨x :: cs, p⟩ = .ok ⟨cs, p.past x⟩ := if_pos rfl

/-- A character by its number, which may take a second escape. -/
theorem readUnicodeEscape_closed : Reader.Closed readUnicodeEscape := by
  intro cs p x c h
  rw [readUnicodeEscape] at h
  obtain ⟨⟨n, c₁⟩, hn, h⟩ := of_bind_eq_ok h
  obtain ⟨used, hused, htakes⟩ := readHexUnit_closed _ _ _ _ hn
  simp only at h
  split at h
  · cases h
  · next hlow =>
    split at h
    · next hhigh =>
      obtain ⟨c₂, hc₂, h⟩ := of_bind_eq_ok h
      obtain ⟨c₃, hc₃, h⟩ := of_bind_eq_ok h
      obtain ⟨⟨m, c₄⟩, hm, h⟩ := of_bind_eq_ok h
      obtain ⟨used', hused', htakes'⟩ := readHexUnit_closed _ _ _ _ hm
      simp only at h
      split at h
      · next hsecond =>
        simp only [Except.ok.injEq, Prod.mk.injEq] at h
        obtain ⟨rfl, rfl⟩ := h
        refine ⟨used ++ '\\' :: 'u' :: used', ?_, fun rest q => ?_⟩
        · rw [hused, of_expectInPair hc₂, of_expectInPair hc₃, hused']
          simp
        · obtain ⟨q₁, h₁⟩ := htakes ('\\' :: 'u' :: (used' ++ rest)) q
          obtain ⟨q₂, h₂⟩ := htakes' rest ((q₁.past '\\').past 'u')
          refine ⟨q₂, ?_⟩
          simp only [List.append_assoc, List.cons_append, readUnicodeEscape, h₁, bind, Except.bind,
            hlow, hhigh, if_true, expectInPair_cons, h₂, hsecond]
          rfl
      · cases h
    · next hhigh =>
      cases h
      refine ⟨used, hused, fun rest q => ?_⟩
      obtain ⟨q₁, h₁⟩ := htakes rest q
      refine ⟨q₁, ?_⟩
      simp only [readUnicodeEscape, h₁, bind, Except.bind, hlow, hhigh]
      rfl

/-- An escape, in either form. -/
theorem readEscape_closed : Reader.Closed readEscape := by
  intro cs p x c h
  simp only [readEscape] at h
  split at h
  · cases h
  iterate 8
    · cases h
      exact ⟨[_], rfl, fun rest q => ⟨_, rfl⟩⟩
  · next rest =>
    obtain ⟨used, hused, htakes⟩ := readUnicodeEscape_closed _ _ _ _ h
    refine ⟨'u' :: used, congrArg _ hused, fun rest q => ?_⟩
    obtain ⟨q', hq⟩ := htakes rest (q.past 'u')
    exact ⟨q', hq⟩
  · cases h

/-! ## Pieces of a string

Each piece takes at least one character, which is why the count of steps a string starts with is
enough. -/

/-- One piece of a string, or its end. -/
theorem readPiece_closed : Reader.Closed readPiece := by
  intro cs p piece c h
  simp only [readPiece] at h
  split at h
  · cases h
  · cases h
    exact ⟨['"'], rfl, fun rest q => ⟨_, rfl⟩⟩
  · next rest =>
    obtain ⟨⟨x, c₁⟩, hx, h⟩ := of_bind_eq_ok h
    cases h
    obtain ⟨used, hused, htakes⟩ := readEscape_closed _ _ _ _ hx
    refine ⟨'\\' :: used, congrArg _ hused, fun rest q => ?_⟩
    obtain ⟨q', hq⟩ := htakes rest (q.past '\\')
    refine ⟨q', ?_⟩
    show (readEscape ⟨used ++ rest, q.past '\\'⟩ >>= _) = _
    rw [hq]
    rfl
  · next x rest hquote hbackslash =>
    split at h
    · cases h
    · next hcontrol =>
      cases h
      refine ⟨[x], rfl, fun rest q => ⟨q.past x, ?_⟩⟩
      rw [List.singleton_append, readPiece]
      split
      · next heq => cases heq
      · next heq => exact absurd (List.cons.inj heq).1 hquote
      · next heq => exact absurd (List.cons.inj heq).1 hbackslash
      · next heq =>
        cases heq
        rw [if_neg hcontrol]
        rfl

/-- The pieces of a string.  They are fewer than the characters they are read from, and any count of
steps beyond their number will do. -/
theorem readPieces_closed {n : Nat} {cs xs : List Char} {p : Position} {c : Cursor}
    (h : readPieces n ⟨cs, p⟩ = .ok (xs, c)) :
    ∃ used, cs = used ++ c.rest ∧ xs.length < used.length ∧
      ∀ m rest, xs.length < m → Reader.Takes (readPieces m) xs used rest := by
  induction n generalizing cs p xs with
  | zero => cases h
  | succ n ih =>
    rw [readPieces] at h
    obtain ⟨⟨piece, c₁⟩, hpiece, h⟩ := of_bind_eq_ok h
    obtain ⟨used, hused, htakes⟩ := readPiece_closed _ _ _ _ hpiece
    -- A piece takes text, since nothing is read from nothing.
    have hpos : 0 < used.length := by
      refine List.length_pos_iff.2 fun hnil => ?_
      obtain ⟨q, hq⟩ := htakes [] p
      rw [hnil] at hq
      cases hq
    cases piece with
    | close =>
      cases h
      refine ⟨used, hused, hpos, fun m rest hm q => ?_⟩
      obtain ⟨m, rfl⟩ := Nat.exists_eq_succ_of_ne_zero (Nat.ne_zero_of_lt hm)
      obtain ⟨q', hq⟩ := htakes rest q
      refine ⟨q', ?_⟩
      rw [readPieces, hq]
      rfl
    | char x =>
      obtain ⟨⟨ys, c₂⟩, hys, h⟩ := of_bind_eq_ok h
      cases h
      obtain ⟨used', hused', hlen, htakes'⟩ := ih hys
      refine ⟨used ++ used', by rw [hused, hused', List.append_assoc], ?_, fun m rest hm q => ?_⟩
      · simp only [List.length_cons, List.length_append]
        omega
      · obtain ⟨m, rfl⟩ := Nat.exists_eq_succ_of_ne_zero (Nat.ne_zero_of_lt hm)
        obtain ⟨q₁, h₁⟩ := htakes (used' ++ rest) q
        obtain ⟨q₂, h₂⟩ := htakes' _ rest (Nat.lt_of_succ_lt_succ hm) q₁
        refine ⟨q₂, ?_⟩
        rw [List.append_assoc, readPieces, h₁]
        show (readPieces _ ⟨used' ++ rest, q₁⟩ >>= _) = _
        rw [h₂]
        rfl

/-- **A string has an end of its own.** -/
theorem readString_closed : Reader.Closed readString := by
  intro cs p s c h
  rw [readString] at h
  obtain ⟨⟨xs, c₁⟩, hxs, h⟩ := of_bind_eq_ok h
  cases h
  obtain ⟨used, hused, hlen, htakes⟩ := readPieces_closed hxs
  refine ⟨used, hused, fun rest q => ?_⟩
  obtain ⟨q', hq⟩ := htakes ((used ++ rest).length + 1) rest
    (by simp only [List.length_append]; omega) q
  refine ⟨q', ?_⟩
  rw [readString, hq]
  rfl

/-! ## Words

The words for null and the truth values are taken letter by letter. -/

/-- A word that was read stands there. -/
theorem of_readWord {w cs : List Char} {p : Position} {c : Cursor}
    (h : readWord w ⟨cs, p⟩ = .ok c) : cs = w ++ c.rest := by
  induction w generalizing cs p with
  | nil =>
    cases h
    rfl
  | cons x w ih =>
    cases cs with
    | nil => cases h
    | cons y ys =>
      simp only [readWord] at h
      split at h
      · next hy => rw [hy, ih h, List.cons_append]
      · cases h

/-! ## Lists

The reader of items is a parameter, and local; for its last item, whatever follows begins with a
comma or a bracket.  The count of steps is treated here as well: a reading that succeeds with one
count does so with every count beyond the number of items. -/

/-- What stands in front of an item or a member: blanks, and unless it is the first, a comma between
them. -/
def Leads (first : Bool) (lead : List Char) : Prop :=
  if first then IsBlank lead
  else ∃ before after, IsBlank before ∧ IsBlank after ∧ lead = before ++ ',' :: after

section Items

variable {item : Reader Value}

/-- The end of a list. -/
theorem readItems_close (item : Reader Value) (n : Nat) (first : Bool) {bs : List Char}
    (hb : IsBlank bs) (rest : List Char) (p : Position) :
    ∃ q, readItems item (n + 1) first ⟨bs ++ ']' :: rest, p⟩ = .ok ([], ⟨rest, q⟩) := by
  obtain ⟨q, hq⟩ := Cursor.skipBlanks_append_cons hb (by decide : Cursor.isBlank ']' = false) rest p
  refine ⟨q.past ']', ?_⟩
  rw [readItems, hq]
  rfl

/-- An item behind what leads up to it. -/
theorem readItems_lead (item : Reader Value) (n : Nat) {first : Bool} {lead : List Char}
    (hlead : Leads first lead) {x : Char} {xs : List Char} (hb : Cursor.isBlank x = false)
    (hx : x ≠ ']') (p : Position) :
    ∃ q, readItems item (n + 1) first ⟨lead ++ x :: xs, p⟩
      = readItemsFrom item n ⟨x :: xs, q⟩ := by
  cases first with
  | true =>
    obtain ⟨q, hq⟩ := Cursor.skipBlanks_append_cons hlead hb xs p
    refine ⟨q, ?_⟩
    rw [← readItems_first n hb hx, readItems, hq, readItems, Cursor.skipBlanks_cons hb]
  | false =>
    obtain ⟨before, after, hbefore, hafter, rfl⟩ := hlead
    obtain ⟨q₁, h₁⟩ := Cursor.skipBlanks_append_cons hbefore
      (by decide : Cursor.isBlank ',' = false) (after ++ x :: xs) p
    obtain ⟨q₂, h₂⟩ := Cursor.skipBlanks_append_cons hafter hb xs (q₁.past ',')
    refine ⟨q₂, ?_⟩
    rw [List.append_assoc, List.cons_append, readItems, h₁]
    simp only [Bool.false_eq_true, if_false, Cursor.skip_cons, h₂]
    split
    · next h => cases h
    · next h => exact absurd (List.cons.inj h).1 (by decide)
    · next h =>
      cases h
      rw [if_pos rfl]
      split
      · next h => cases h
      · next h => exact absurd (List.cons.inj h).1 hx
      · rfl

/-- There is an item, or the list ends. -/
theorem of_readItems {n : Nat} {first : Bool} {cs : List Char} {p : Position} {vs : List Value}
    {c : Cursor} (h : readItems item (n + 1) first ⟨cs, p⟩ = .ok (vs, c)) :
    (∃ bs, IsBlank bs ∧ cs = bs ++ ']' :: c.rest ∧ vs = []) ∨
      ∃ lead x xs q, cs = lead ++ x :: xs ∧ Leads first lead ∧ Cursor.isBlank x = false ∧ x ≠ ']' ∧
        readItemsFrom item n ⟨x :: xs, q⟩ = .ok (vs, c) := by
  obtain ⟨bs, rest, q, hb, rfl, hq, hrest⟩ := Cursor.exists_skipBlanks cs p
  rw [readItems, hq] at h
  simp only at h
  split at h
  · cases h
  · cases h
    exact .inl ⟨bs, hb, rfl, rfl⟩
  · next x xs hx =>
    refine .inr ?_
    cases first with
    | true => exact ⟨bs, x, xs, q, rfl, hb, hrest x rfl, fun heq => hx (heq ▸ rfl), h⟩
    | false =>
      simp only [Bool.false_eq_true, if_false] at h
      split at h
      · next hcomma =>
        obtain ⟨bs', rest', q', hb', hrest', hq', hhead⟩ := Cursor.exists_skipBlanks xs (q.past x)
        rw [Cursor.skip_cons, hq'] at h
        simp only at h
        split at h
        · cases h
        · cases h
        · next hnil hclose =>
          cases rest' with
          | nil => exact absurd rfl hnil
          | cons y ys =>
            refine ⟨bs ++ ',' :: bs', y, ys, q', by simp [hcomma, hrest'], ⟨bs, bs', hb, hb', rfl⟩,
              hhead y rfl, fun heq => hclose ys (heq ▸ rfl), h⟩
      · cases h

/-- What follows an item stops it. -/
theorem stops_of_readItems {n : Nat} {cs : List Char} {p : Position} {x : List Value × Cursor}
    (h : readItems item n false ⟨cs, p⟩ = .ok x) : Stops cs := by
  cases n with
  | zero => cases h
  | succ n =>
    rcases of_readItems h with ⟨bs, hb, rfl, -⟩ | ⟨lead, x, xs, q, rfl, hlead, -⟩
    · exact hb.stops (stops_cons (.inr (.inl rfl)) _)
    · obtain ⟨before, after, hbefore, -, rfl⟩ := hlead
      rw [List.append_assoc]
      exact hbefore.stops (stops_cons (.inl rfl) _)

/-- The items of a list up to its end.  Any count of steps beyond their number will do. -/
theorem readItems_closed (hi : item.Local) (hneeds : item.NeedsText) {n : Nat} {first : Bool}
    {cs : List Char} {p : Position} {vs : List Value} {c : Cursor}
    (h : readItems item n first ⟨cs, p⟩ = .ok (vs, c)) :
    ∃ used, cs = used ++ c.rest ∧ vs.length < used.length ∧
      ∀ m rest, vs.length < m → Reader.Takes (readItems item m first) vs used rest := by
  induction n generalizing first cs p vs with
  | zero => cases h
  | succ n ih =>
    rcases of_readItems h with ⟨bs, hb, hcs, rfl⟩ | ⟨lead, x, xs, q, rfl, hlead, hx, hclose, h⟩
    · refine ⟨bs ++ [']'], by simp [hcs], by simp, fun m rest hm p => ?_⟩
      obtain ⟨m, rfl⟩ := Nat.exists_eq_succ_of_ne_zero (Nat.ne_zero_of_lt hm)
      obtain ⟨q, hq⟩ := readItems_close item m first hb rest p
      exact ⟨q, by simpa using hq⟩
    · obtain ⟨⟨v, c₁⟩, hv, h⟩ := of_bind_eq_ok h
      obtain ⟨⟨ws, c₂⟩, hws, h⟩ := of_bind_eq_ok h
      cases h
      obtain ⟨used, hused, htakes⟩ := hi _ _ _ _ hv
      obtain ⟨used', hused', hlen, htakes'⟩ := ih hws
      -- Whatever comes behind the list, the item is stopped by the rest of the list itself.
      have hstops : ∀ rest, Stops (used' ++ rest) := fun rest =>
        (hused' ▸ stops_of_readItems hws).of_append (List.ne_nil_of_length_pos (by omega))
      obtain ⟨more, rfl⟩ := hneeds.exists_cons (htakes [] stops_nil) hused
      refine ⟨lead ++ (x :: more ++ used'), ?_, ?_, fun m rest hm p => ?_⟩
      · rw [hused, hused', List.append_assoc, List.append_assoc]
      · simp only [List.length_append, List.length_cons]
        omega
      · obtain ⟨m, rfl⟩ := Nat.exists_eq_succ_of_ne_zero (Nat.ne_zero_of_lt hm)
        obtain ⟨q₀, h₀⟩ := readItems_lead item m hlead hx hclose p
        obtain ⟨q₁, h₁⟩ := htakes (used' ++ rest) (hstops rest) q₀
        obtain ⟨q₂, h₂⟩ := htakes' _ rest (Nat.lt_of_succ_lt_succ hm) q₁
        refine ⟨q₂, ?_⟩
        simp only [List.append_assoc, List.cons_append] at h₁ ⊢
        rw [h₀, readItemsFrom, h₁]
        show (readItems item _ false ⟨used' ++ rest, q₁⟩ >>= _) = _
        rw [h₂]
        rfl

end Items

/-! ## Objects

The same for members, each of which is a string, a colon and an item. -/

section Members

variable {item : Reader Value}

/-- A colon behind blanks. -/
theorem exists_readColon {bs : List Char} (hb : IsBlank bs) (rest : List Char) (p : Position) :
    ∃ q, readColon ⟨bs ++ ':' :: rest, p⟩ = .ok ⟨rest, q⟩ := by
  obtain ⟨q, hq⟩ := Cursor.skipBlanks_append_cons hb (by decide : Cursor.isBlank ':' = false) rest p
  refine ⟨q.past ':', ?_⟩
  rw [readColon, hq]
  rfl

/-- What was read as a colon is one, behind blanks. -/
theorem of_readColon {cs : List Char} {p : Position} {c : Cursor}
    (h : readColon ⟨cs, p⟩ = .ok c) : ∃ bs, IsBlank bs ∧ cs = bs ++ ':' :: c.rest := by
  obtain ⟨bs, rest, q, hb, rfl, hq, -⟩ := Cursor.exists_skipBlanks cs p
  rw [readColon, hq] at h
  simp only at h
  split at h
  · cases h
  · cases h
    exact ⟨bs, hb, rfl⟩
  · cases h

/-- The end of an object. -/
theorem readMembers_close (item : Reader Value) (n : Nat) (first : Bool) {bs : List Char}
    (hb : IsBlank bs) (rest : List Char) (p : Position) :
    ∃ q, readMembers item (n + 1) first ⟨bs ++ '\x7d' :: rest, p⟩ = .ok ([], ⟨rest, q⟩) := by
  obtain ⟨q, hq⟩ :=
    Cursor.skipBlanks_append_cons hb (by decide : Cursor.isBlank '\x7d' = false) rest p
  refine ⟨q.past '\x7d', ?_⟩
  simp only [readMembers, nextName, hq]
  rfl

/-- A member behind what leads up to it. -/
theorem readMembers_lead (item : Reader Value) (n : Nat) {first : Bool} {lead : List Char}
    (hlead : Leads first lead) (xs : List Char) (p : Position) :
    ∃ q, readMembers item (n + 1) first ⟨lead ++ '"' :: xs, p⟩
      = readMembersFrom item n ⟨'"' :: xs, q⟩ := by
  cases first with
  | true =>
    obtain ⟨q, hq⟩ :=
      Cursor.skipBlanks_append_cons hlead (by decide : Cursor.isBlank '"' = false) xs p
    refine ⟨q, ?_⟩
    simp only [readMembers, nextName, hq]
    rfl
  | false =>
    obtain ⟨before, after, hbefore, hafter, rfl⟩ := hlead
    obtain ⟨q₁, h₁⟩ := Cursor.skipBlanks_append_cons hbefore
      (by decide : Cursor.isBlank ',' = false) (after ++ '"' :: xs) p
    obtain ⟨q₂, h₂⟩ := Cursor.skipBlanks_append_cons hafter
      (by decide : Cursor.isBlank '"' = false) xs (q₁.past ',')
    refine ⟨q₂, ?_⟩
    simp only [List.append_assoc, List.cons_append, readMembers, nextName, h₁, Cursor.skip_cons, h₂]
    rfl

/-- There is a member, or the object ends. -/
theorem of_readMembers {n : Nat} {first : Bool} {cs : List Char} {p : Position}
    {ms : List (String × Value)} {c : Cursor}
    (h : readMembers item (n + 1) first ⟨cs, p⟩ = .ok (ms, c)) :
    (∃ bs, IsBlank bs ∧ cs = bs ++ '\x7d' :: c.rest ∧ ms = []) ∨
      ∃ lead xs q, cs = lead ++ '"' :: xs ∧ Leads first lead ∧
        readMembersFrom item n ⟨'"' :: xs, q⟩ = .ok (ms, c) := by
  obtain ⟨bs, rest, q, hb, rfl, hq, -⟩ := Cursor.exists_skipBlanks cs p
  rw [readMembers] at h
  obtain ⟨next, hnext, hread⟩ := of_bind_eq_ok h
  simp only [nextName, hq] at hnext
  split at hnext
  · cases hnext
  · cases hnext
    cases hread
    refine .inl ⟨bs, hb, ?_, rfl⟩
    rw [hq]
    rfl
  · next x xs _ =>
    refine .inr ?_
    cases first with
    | true =>
      simp only [if_true] at hnext
      split at hnext
      · next hquote =>
        cases hnext
        exact ⟨bs, xs, q, by rw [hquote], hb, hquote ▸ hread⟩
      · cases hnext
    | false =>
      simp only [Bool.false_eq_true, if_false] at hnext
      split at hnext
      · next hcomma =>
        obtain ⟨bs', rest', q', hb', hrest', hq', -⟩ := Cursor.exists_skipBlanks xs (q.past x)
        rw [Cursor.skip_cons, hq'] at hnext
        simp only at hnext
        split at hnext
        · cases hnext
        · next ys =>
          cases hnext
          exact ⟨bs ++ ',' :: bs', ys, q', by simp [hcomma, hrest'], ⟨bs, bs', hb, hb', rfl⟩, hread⟩
        · cases hnext
        · cases hnext
      · cases hnext

/-- What follows a member stops it. -/
theorem stops_of_readMembers {n : Nat} {cs : List Char} {p : Position}
    {x : List (String × Value) × Cursor}
    (h : readMembers item n false ⟨cs, p⟩ = .ok x) : Stops cs := by
  cases n with
  | zero => cases h
  | succ n =>
    rcases of_readMembers h with ⟨bs, hb, rfl, -⟩ | ⟨lead, xs, q, rfl, hlead, -⟩
    · exact hb.stops (stops_cons (.inr (.inr rfl)) _)
    · obtain ⟨before, after, hbefore, -, rfl⟩ := hlead
      rw [List.append_assoc]
      exact hbefore.stops (stops_cons (.inl rfl) _)

/-! ## Members that read

What it takes for a member to be read is put into one structure.  The reader goes on behind every
such member, and whatever it has read was one. -/

/-- A name with its colon, and the text of a value, are read as one member. -/
structure MemberReads (item : Reader Value) (e : String × Value) (name blanks value : List Char) :
    Prop where
  name_takes : ∀ rest, readString.Takes e.1 name rest
  isBlank : IsBlank blanks
  value_takes : ∀ rest, Stops rest → item.Takes e.2 value rest

/-- A member that reads is read, and the reader goes on behind it. -/
theorem MemberReads.readMembersFrom {e : String × Value} {name blanks value : List Char}
    (h : MemberReads item e name blanks value) (n : Nat) {rest : List Char} (hrest : Stops rest)
    (p : Position) :
    ∃ q, readMembersFrom item n ⟨'"' :: name ++ blanks ++ ':' :: value ++ rest, p⟩
      = readMembers item n false ⟨rest, q⟩ >>= fun r => .ok (e :: r.1, r.2) := by
  obtain ⟨q₁, h₁⟩ := h.name_takes (blanks ++ ':' :: (value ++ rest)) (p.past '"')
  obtain ⟨q₂, h₂⟩ := exists_readColon h.isBlank (value ++ rest) q₁
  obtain ⟨q₃, h₃⟩ := h.value_takes rest hrest q₂
  refine ⟨q₃, ?_⟩
  simp only [List.append_assoc, List.cons_append]
  rw [Json.readMembersFrom, Cursor.skip_cons, h₁]
  show (readColon ⟨blanks ++ ':' :: (value ++ rest), q₁⟩ >>= _) = _
  rw [h₂]
  show (item ⟨value ++ rest, q₂⟩ >>= _) = _
  rw [h₃]
  rfl

/-- A member that was read is one that reads. -/
theorem of_readMembersFrom (hi : item.Local) {n : Nat} {xs : List Char} {p : Position}
    {ms : List (String × Value)} {c : Cursor}
    (h : readMembersFrom item n ⟨'"' :: xs, p⟩ = .ok (ms, c)) :
    ∃ e more name blanks value rest q, ms = e :: more ∧
      xs = name ++ blanks ++ ':' :: value ++ rest ∧ MemberReads item e name blanks value ∧
      readMembers item n false ⟨rest, q⟩ = .ok (more, c) := by
  rw [readMembersFrom] at h
  obtain ⟨⟨k, c₁⟩, hk, h⟩ := of_bind_eq_ok h
  obtain ⟨c₂, hc₂, h⟩ := of_bind_eq_ok h
  obtain ⟨⟨v, c₃⟩, hv, h⟩ := of_bind_eq_ok h
  obtain ⟨⟨more, c₄⟩, hmore, h⟩ := of_bind_eq_ok h
  cases h
  obtain ⟨name, hname, htakes⟩ := readString_closed _ _ _ _ hk
  obtain ⟨blanks, hb, hblanks⟩ := of_readColon hc₂
  obtain ⟨value, hvalue, hvtakes⟩ := hi _ _ _ _ hv
  refine ⟨(k, v), more, name, blanks, value, c₃.rest, c₃.position, rfl, ?_, ⟨htakes, hb, hvtakes⟩,
    hmore⟩
  rw [hname, hblanks, hvalue]
  simp

/-- The members of an object up to its end.  Any count of steps beyond their number will do. -/
theorem readMembers_closed (hi : item.Local) {n : Nat} {first : Bool} {cs : List Char}
    {p : Position} {ms : List (String × Value)} {c : Cursor}
    (h : readMembers item n first ⟨cs, p⟩ = .ok (ms, c)) :
    ∃ used, cs = used ++ c.rest ∧ ms.length < used.length ∧
      ∀ m rest, ms.length < m → Reader.Takes (readMembers item m first) ms used rest := by
  induction n generalizing first cs p ms with
  | zero => cases h
  | succ n ih =>
    rcases of_readMembers h with ⟨bs, hb, hcs, rfl⟩ | ⟨lead, xs, q, rfl, hlead, h⟩
    · refine ⟨bs ++ ['\x7d'], by simp [hcs], by simp, fun m rest hm p => ?_⟩
      obtain ⟨m, rfl⟩ := Nat.exists_eq_succ_of_ne_zero (Nat.ne_zero_of_lt hm)
      obtain ⟨q, hq⟩ := readMembers_close item m first hb rest p
      exact ⟨q, by simpa using hq⟩
    · obtain ⟨e, more, name, blanks, value, rest, q', rfl, rfl, hreads, hmore⟩ :=
        of_readMembersFrom hi h
      obtain ⟨used', rfl, hlen, htakes'⟩ := ih hmore
      -- As in a list, the rest of the object stops the value.
      have hstops : ∀ rest, Stops (used' ++ rest) := fun rest =>
        (stops_of_readMembers hmore).of_append (List.ne_nil_of_length_pos (by omega))
      refine ⟨lead ++ ('"' :: name ++ blanks ++ ':' :: value ++ used'), by simp, ?_,
        fun m rest hm p => ?_⟩
      · simp only [List.length_append, List.length_cons]
        omega
      · obtain ⟨m, rfl⟩ := Nat.exists_eq_succ_of_ne_zero (Nat.ne_zero_of_lt hm)
        obtain ⟨q₀, h₀⟩ := readMembers_lead item m hlead
          (name ++ blanks ++ ':' :: value ++ used' ++ rest) p
        obtain ⟨q₁, h₁⟩ := hreads.readMembersFrom m (hstops rest) q₀
        obtain ⟨q₂, h₂⟩ := htakes' m rest (Nat.lt_of_succ_lt_succ hm) q₁
        refine ⟨q₂, ?_⟩
        simp only [List.append_assoc, List.cons_append] at h₀ h₁ ⊢
        rw [h₀, h₁, h₂]
        rfl

end Members

/-! ## Values

A value is told by its first character.  The container reader that goes one level deeper is a
parameter, so that the statement about values of any depth is an induction with nothing else in
it. -/

/-- The reader goes on at an opening bracket or brace, and finds the closing one by itself. -/
def ClosesContainers (container : Reader Value) : Prop :=
  ∀ {x : Char}, x = '[' ∨ x = '\x7b' → ∀ {xs : List Char} {p : Position} {v : Value} {c : Cursor},
    container ⟨x :: xs, p⟩ = .ok (v, c) →
      ∃ used, xs = used ++ c.rest ∧ ∀ rest, container.Takes v (x :: used) rest

/-- **Lists and objects have an end of their own.** -/
theorem readContainer_closed {item : Reader Value} (hi : item.Local) (hneeds : item.NeedsText) :
    ClosesContainers (readContainer item) := by
  rintro x (rfl | rfl) xs p v c h
  · rw [readContainer_bracket] at h
    obtain ⟨⟨items, c₁⟩, hitems, h⟩ := of_bind_eq_ok h
    cases h
    obtain ⟨used, hused, hlen, htakes⟩ := readItems_closed hi hneeds hitems
    refine ⟨used, hused, fun rest p => ?_⟩
    obtain ⟨q, hq⟩ := htakes ((used ++ rest).length + 1 + 1) rest
      (by simp only [List.length_append]; omega) (p.past '[')
    refine ⟨q, ?_⟩
    rw [List.cons_append, readContainer_bracket, hq]
    rfl
  · rw [readContainer_brace] at h
    obtain ⟨⟨members, c₁⟩, hmembers, h⟩ := of_bind_eq_ok h
    cases h
    obtain ⟨used, hused, hlen, htakes⟩ := readMembers_closed hi hmembers
    refine ⟨used, hused, fun rest p => ?_⟩
    obtain ⟨q, hq⟩ := htakes ((used ++ rest).length + 1 + 1) rest
      (by simp only [List.length_append]; omega) (p.past '\x7b')
    refine ⟨q, ?_⟩
    rw [List.cons_append, readContainer_brace, hq]
    rfl

/-- Nothing is no value. -/
theorem readValueWith_needsText (container : Reader Value) :
    Reader.NeedsText (readValueWith container) := by
  intro p x h
  cases h

/-- Blanks in front of a value make no difference. -/
theorem readValueWith_blanks (container : Reader Value) {bs : List Char} (hb : IsBlank bs)
    (cs : List Char) (p : Position) :
    ∃ q, readValueWith container ⟨bs ++ cs, p⟩ = readValueWith container ⟨cs, q⟩ := by
  obtain ⟨q, hq⟩ := Cursor.skipBlanks_append hb cs p
  refine ⟨q, ?_⟩
  rw [readValueWith, hq]
  rfl

theorem readNumber_needsText : Reader.NeedsText readNumber := by
  intro p x h
  cases h

/-- A word that stands for a value. -/
theorem of_readWord_bind {w xs : List Char} {p : Position} {v v' : Value} {c : Cursor}
    (h : (readWord w ⟨xs, p⟩ >>= fun c => .ok (v', c)) = .ok (v, c)) :
    v = v' ∧ xs = w ++ c.rest := by
  obtain ⟨c₁, hc₁, h⟩ := of_bind_eq_ok h
  cases h
  exact ⟨rfl, of_readWord hc₁⟩

/-- A value is read locally, if containers have an end of their own. -/
theorem readValueWith_local {container : Reader Value} (hc : ClosesContainers container) :
    Reader.Local (readValueWith container) := by
  intro cs p v c h
  obtain ⟨bs, cs, q, hb, rfl, hq, hhead⟩ := Cursor.exists_skipBlanks cs p
  -- Blanks in front are taken along; from here on there are none.
  suffices hrest : ∃ used, cs = used ++ c.rest ∧
      ∀ rest, Stops rest → Reader.Takes (readValueWith container) v used rest by
    obtain ⟨used, rfl, htakes⟩ := hrest
    refine ⟨bs ++ used, by rw [List.append_assoc], fun rest hrest p => ?_⟩
    obtain ⟨q₁, h₁⟩ := readValueWith_blanks container hb (used ++ rest) p
    obtain ⟨q₂, h₂⟩ := htakes rest hrest q₁
    exact ⟨q₂, by rw [List.append_assoc, h₁, h₂]⟩
  simp only [readValueWith, hq] at h
  split at h
  · cases h
  iterate 3
    · obtain ⟨rfl, rfl⟩ := of_readWord_bind h
      exact ⟨_ :: _, rfl, fun rest _ p => ⟨_, rfl⟩⟩
  · next xs =>
    obtain ⟨⟨s, c₁⟩, hs, h⟩ := of_bind_eq_ok h
    cases h
    obtain ⟨used, hused, htakes⟩ := readString_closed _ _ _ _ hs
    refine ⟨'"' :: used, congrArg _ hused, fun rest _ p => ?_⟩
    obtain ⟨q', hq'⟩ := htakes rest (p.past '"')
    refine ⟨q', ?_⟩
    show (readString ⟨used ++ rest, p.past '"'⟩ >>= _) = _
    rw [hq']
    rfl
  · obtain ⟨used, hused, htakes⟩ := hc (.inl rfl) h
    exact ⟨'[' :: used, congrArg _ hused, fun rest _ => htakes rest⟩
  · obtain ⟨used, hused, htakes⟩ := hc (.inr rfl) h
    exact ⟨'\x7b' :: used, congrArg _ hused, fun rest _ => htakes rest⟩
  · next x xs _ _ _ _ _ _ =>
    split at h
    · next hx =>
      obtain ⟨⟨n, c₁⟩, hn, h⟩ := of_bind_eq_ok h
      cases h
      obtain ⟨used, hused, htakes⟩ := readNumber_local _ _ _ _ hn
      obtain ⟨more, rfl⟩ := readNumber_needsText.exists_cons (htakes [] stops_nil) hused
      refine ⟨x :: more, hused, fun rest hrest p => ?_⟩
      obtain ⟨q', hq'⟩ := htakes rest hrest p
      refine ⟨q', ?_⟩
      rw [List.cons_append] at hq' ⊢
      rw [readValueWith_number container hx, hq']
      rfl
    · cases h

theorem readValue_needsText (depth : Nat) : Reader.NeedsText (readValue depth) := by
  obtain ⟨container, h⟩ := exists_readValue_eq depth
  rw [h]
  exact readValueWith_needsText container

/-- **A value is read the same way wherever it stands.** -/
theorem readValue_local (depth : Nat) : Reader.Local (readValue depth) := by
  induction depth with
  | zero => exact readValueWith_local fun _ _ _ _ _ h => by cases h
  | succ depth ih =>
    exact readValueWith_local (readContainer_closed ih (readValue_needsText depth))

end Json
end RemoteModels

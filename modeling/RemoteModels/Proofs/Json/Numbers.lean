import RemoteModels.Proofs.Json.Proper
import RemoteModels.Proofs.Json.Strings

/-!
# Numbers read back

A number has no mark at its end: its reader goes on as long as the text could still belong to it.
So a number reads back in front of whatever cannot belong to one, and that is all that ever follows
a value: a blank, a comma, a closing bracket, or nothing.

Integers read back as they are.  For a double this is a matter of rounding, and it is taken as given
that its text, standing alone, reads back; the readers being local, it then does so wherever it
stands.

Locality is what makes numbers like the other values.  It says that a reader which succeeds has
looked at nothing behind what it took, except to see that it is at the end; so whatever is known of
a number on its own is known of it in the middle of a text.

* `Json.Reader.Local` — a reader that minds only what it takes; it is put together from a few
  readers of that kind (`Local.head`, `Local.digits`).
* `Json.readNumber_local` — numbers are read locally.
* `Json.readNumber_normal` — what is read is in its normal form (`Json.Number.Normal`);
  `Json.readNumber_takes` — what is in its normal form reads back.
-/

set_option autoImplicit false

namespace RemoteModels
namespace Json

/-! ## What follows a value

A number ends where a character stands that cannot belong to it.  Behind a value there is never
anything else. -/

/-- What can stand behind a value: the end of the text, a blank, a comma or a closing bracket. -/
def Stops (rest : List Char) : Prop :=
  ∀ c ∈ rest.head?, Cursor.isBlank c ∨ c = ',' ∨ c = ']' ∨ c = '\x7d'

/-- The text does not go on with a digit. -/
def NoDigit (rest : List Char) : Prop := ∀ c ∈ rest.head?, c.isDigit = false

/-- What can stand behind a value is no digit. -/
theorem Stops.noDigit {rest : List Char} (h : Stops rest) : NoDigit rest := by
  intro c hc
  have hchar := h c hc
  simp only [Cursor.isBlank, Bool.or_eq_true, beq_iff_eq] at hchar
  rcases hchar with (((rfl | rfl) | rfl) | rfl) | rfl | rfl | rfl <;> rfl

/-- What cannot follow a value does not stand behind one. -/
theorem Stops.head?_beq {rest : List Char} (h : Stops rest) {x : Char} (hx : ¬ Stops [x]) :
    (rest.head? == some x) = false := by
  rw [beq_eq_false_iff_ne]
  intro heq
  refine hx fun y hy => ?_
  cases hy
  exact h x heq

/-! ## Digits

The only loop in the reader of numbers is the one that gathers digits. -/

namespace Cursor

/-- Skipping characters leaves the rest of them. -/
theorem rest_skipMany (n : Nat) (cs : List Char) (p : Position) :
    (skipMany n ⟨cs, p⟩).rest = cs.drop n := by
  induction n generalizing cs p with
  | zero => rfl
  | succ n ih =>
    cases cs with
    | nil => exact (ih [] p).trans (List.drop_nil)
    | cons c cs => exact ih cs (p.past c)

/-- Digits are gathered up to the first character that is none. -/
theorem takeDigits_append {ds rest : List Char} (hds : ∀ d ∈ ds, d.isDigit) (hrest : NoDigit rest)
    (p : Position) : ∃ p', takeDigits ⟨ds ++ rest, p⟩ = (ds, ⟨rest, p'⟩) := by
  have htake : (ds ++ rest).takeWhile Char.isDigit = ds := by
    rw [List.takeWhile_append_of_pos hds]
    cases rest with
    | nil => simp
    | cons c rest => simp [hrest c rfl]
  have hskip := rest_skipMany ds.length (ds ++ rest) p
  rw [List.drop_left] at hskip
  simp only [takeDigits, htake]
  generalize skipMany ds.length ⟨ds ++ rest, p⟩ = c at hskip
  subst hskip
  exact ⟨c.position, rfl⟩

/-- What has been gathered are the digits in front, all of them. -/
theorem takeDigits_eq {cs ds : List Char} {p : Position} {c : Cursor}
    (h : takeDigits ⟨cs, p⟩ = (ds, c)) :
    cs = ds ++ c.rest ∧ (∀ d ∈ ds, d.isDigit) ∧ NoDigit c.rest := by
  simp only [takeDigits, Prod.mk.injEq] at h
  obtain ⟨rfl, rfl⟩ := h
  have hsplit : cs.takeWhile Char.isDigit ++ cs.dropWhile Char.isDigit = cs :=
    List.takeWhile_append_dropWhile
  have hrest : (skipMany (cs.takeWhile Char.isDigit).length ⟨cs, p⟩).rest
      = cs.dropWhile Char.isDigit := by
    have hdrop := congrArg (List.drop (cs.takeWhile Char.isDigit).length) hsplit
    rw [List.drop_left] at hdrop
    rw [rest_skipMany, ← hdrop]
  rw [hrest]
  refine ⟨hsplit.symm, fun d hd => List.all_eq_true.1 List.all_takeWhile d hd, fun d hd => ?_⟩
  have hhead := List.head?_dropWhile_not Char.isDigit cs
  rw [Option.mem_def.1 hd] at hhead
  exact hhead

end Cursor

/-! ## Local readers

The reader of numbers branches on the next character and gathers digits, and does nothing else with
the text.  A reader that is made of these two is local if its parts are; so there is one lemma for
each, and the readers are taken apart with them. -/

section Local

variable {α : Type} {r r' : Reader α}

/-- The reader minds only what it takes: what it gives for a text, it gives for the part of it that
it has taken, wherever that stands and whatever follows. -/
def Reader.Local (r : Reader α) : Prop :=
  ∀ (cs : List Char) (p : Position) (a : α) (c : Cursor), r ⟨cs, p⟩ = .ok (a, c) →
    ∃ used, cs = used ++ c.rest ∧ ∀ rest, Stops rest → r.Takes a used rest

/-- Only success matters. -/
theorem Reader.Local.of_iff (h : r'.Local) (hr : ∀ c x, r c = .ok x ↔ r' c = .ok x) : r.Local := by
  intro cs p a c hc
  obtain ⟨used, hcs, htakes⟩ := h cs p a c ((hr _ _).1 hc)
  refine ⟨used, hcs, fun rest hrest q => ?_⟩
  obtain ⟨q', hq⟩ := htakes rest hrest q
  exact ⟨q', (hr _ _).2 hq⟩

/-- A character that can belong to a number decides how to go on. -/
theorem Reader.Local.head {x : Char} (hx : ¬ Stops [x]) (h : r.Local) (h' : r'.Local) :
    Reader.Local fun c => if c.rest.head? == some x then r c.skip else r' c := by
  intro cs p a c hc
  simp only at hc
  split at hc
  · next heq =>
    obtain ⟨cs, rfl⟩ := List.head?_eq_some_iff.1 (eq_of_beq heq)
    obtain ⟨used, rfl, htakes⟩ := h cs _ a c hc
    refine ⟨x :: used, rfl, fun rest hrest q => ?_⟩
    obtain ⟨q', hq⟩ := htakes rest hrest (q.past x)
    exact ⟨q', (if_pos heq).trans hq⟩
  · next hne =>
    obtain ⟨used, rfl, htakes⟩ := h' cs p a c hc
    refine ⟨used, rfl, fun rest hrest q => ?_⟩
    obtain ⟨q', hq⟩ := htakes rest hrest q
    refine ⟨q', (if_neg fun heq => ?_).trans hq⟩
    cases used with
    | cons y used => exact hne heq
    | nil =>
      -- Nothing was taken, and what follows does not begin with `x`.
      rw [List.nil_append, hrest.head?_beq hx] at heq
      cases heq

/-- Digits are gathered first. -/
theorem Reader.Local.digits {k : List Char → Reader α} (h : ∀ ds, (k ds).Local) :
    Reader.Local fun c => k c.takeDigits.1 c.takeDigits.2 := by
  intro cs p a c hc
  cases hd : Cursor.takeDigits ⟨cs, p⟩ with
  | mk ds behind =>
    simp only [hd] at hc
    obtain ⟨rfl, hds, hbehind⟩ := Cursor.takeDigits_eq hd
    obtain ⟨used, hused, htakes⟩ := h ds _ _ a c hc
    refine ⟨ds ++ used, by rw [hused, List.append_assoc], fun rest hrest q => ?_⟩
    have hno : NoDigit (used ++ rest) := by
      cases used with
      | nil => exact hrest.noDigit
      | cons y used =>
        rw [hused] at hbehind
        exact hbehind
    obtain ⟨q₁, hq₁⟩ := Cursor.takeDigits_append hds hno q
    obtain ⟨q₂, hq₂⟩ := htakes rest hrest q₁
    refine ⟨q₂, ?_⟩
    simp only [List.append_assoc, hq₁, hq₂]

/-- Readers that take nothing, and give the same wherever they stand. -/
theorem Reader.Local.of_keeps
    (h : ∀ c a c', r c = .ok (a, c') → c' = c ∧ ∀ c, r c = .ok (a, c)) : r.Local := by
  intro cs p a c hc
  obtain ⟨rfl, hkeeps⟩ := h _ a c hc
  exact ⟨[], rfl, fun rest _ q => ⟨q, hkeeps _⟩⟩

end Local

/-! ## Numbers are read locally

From the inside out: exponents, fractions, what follows the digits of an integer, and the
integer. -/

section

variable (negative down : Bool) (significand : Nat) (exponent : Int)

/-- Rounding takes nothing from the text. -/
theorem readReal_local : Reader.Local (readReal negative significand exponent) := by
  refine .of_keeps fun c n c' h => ?_
  simp only [readReal] at h ⊢
  split at h
  · next x hx =>
    cases h
    exact ⟨rfl, fun c => rfl⟩
  · cases h

/-- The digits of an exponent give the same wherever they stand. -/
theorem fst_readExponentDigits (ds : List Char) (acc : Nat) (c c' : Cursor) :
    (readExponentDigits acc ds c).1 = (readExponentDigits acc ds c').1 := by
  induction ds generalizing acc c c' with
  | nil => rfl
  | cons d ds ih =>
    simp only [readExponentDigits]
    split
    · exact ih _ _ _
    · rfl

/-- The number that the digits of an exponent lead to, at the cursor behind them. -/
def exponentOf (ds : List Char) : Reader Number := fun c =>
  if ds.isEmpty then failSeen c .invalidNumber
  else
    match (readExponentDigits 0 ds ⟨[], ⟨1, 0⟩⟩).1 with
    | some e => readReal negative significand (if down then exponent - e else exponent + e) c
    | none =>
      if significand ≠ 0 ∧ !down then failSeen c .numberOutOfRange
      else .ok (.real (.zero negative), c)

/-- The number that digits of an exponent lead to depends on the digits alone. -/
theorem exponentOf_local (ds : List Char) :
    Reader.Local (exponentOf negative down significand exponent ds) := by
  unfold exponentOf
  split
  · exact .of_keeps fun c n c' h => by cases h
  · split
    · exact readReal_local _ _ _
    · split
      · exact .of_keeps fun c n c' h => by cases h
      · refine .of_keeps fun c n c' h => ?_
        cases h
        exact ⟨rfl, fun c => rfl⟩

/-- The reader of an exponent gathers its digits as it goes, which comes to the same as gathering
them first. -/
theorem readPower_eq_ok_iff (c : Cursor) (x : Number × Cursor) :
    readPower negative significand exponent down c = .ok x ↔
      exponentOf negative down significand exponent c.takeDigits.1 c.takeDigits.2 = .ok x := by
  rw [readPower]
  generalize c.takeDigits = digits
  obtain ⟨ds, behind⟩ := digits
  cases ds with
  | nil => exact iff_of_false (fun h => by cases h) (fun h => by cases h)
  | cons d ds =>
    have hfst := fst_readExponentDigits (d :: ds) 0 c ⟨[], ⟨1, 0⟩⟩
    simp only [exponentOf, ← hfst, List.isEmpty_cons, Bool.false_eq_true, if_false]
    generalize readExponentDigits 0 (d :: ds) c = read
    obtain ⟨e, overflow⟩ := read
    cases e with
    | some e => rfl
    | none =>
      simp only
      split
      · exact iff_of_false (fun h => by cases h) (fun h => by cases h)
      · rfl

theorem readPower_local : Reader.Local (readPower negative significand exponent down) :=
  .of_iff (.digits fun ds => exponentOf_local negative down significand exponent ds)
    (readPower_eq_ok_iff negative down significand exponent)

theorem readExponent_local : Reader.Local (readExponent negative significand exponent) :=
  .head (by simp [Stops, Cursor.isBlank]) (readPower_local _ _ _ _)
    (.head (by simp [Stops, Cursor.isBlank]) (readPower_local _ _ _ _) (readPower_local _ _ _ _))

theorem readScaled_local : Reader.Local (readScaled negative significand exponent) :=
  .head (by simp [Stops, Cursor.isBlank]) (readExponent_local _ _ _)
    (.head (by simp [Stops, Cursor.isBlank]) (readExponent_local _ _ _) (readReal_local _ _ _))

theorem readFraction_local (dropped : Nat) :
    Reader.Local (readFraction negative significand dropped) := by
  refine .of_iff (.digits (k := fun ds c =>
    if ds.isEmpty then failSeen c .invalidNumber
    else readScaled negative (absorb significand ds).1 (dropped - (absorb significand ds).2) c)
    fun ds => ?_) fun c x => ?_
  · split
    · exact .of_keeps fun c n c' h => by cases h
    · exact readScaled_local _ _ _
  · rw [readFraction]
    generalize c.takeDigits = digits
    obtain ⟨ds, behind⟩ := digits
    cases ds with
    | nil => exact iff_of_false (fun h => by cases h) (fun h => by cases h)
    | cons d ds => rfl

theorem readTail_local (dropped : Nat) : Reader.Local (readTail negative significand dropped) := by
  refine .head (by simp [Stops, Cursor.isBlank]) (readFraction_local _ _ _)
    (.head (by simp [Stops, Cursor.isBlank]) (readExponent_local _ _ _)
      (.head (by simp [Stops, Cursor.isBlank]) (readExponent_local _ _ _) ?_))
  split
  · refine .of_keeps fun c n c' h => ?_
    cases h
    exact ⟨rfl, fun c => rfl⟩
  · exact readReal_local _ _ _

/-! ## Integers

The digits in front are gathered in one go.  Whether they make up an integer is a question about
them alone. -/

/-- No integer has these digits: there are none, or there is a needless zero in front. -/
def isBadInteger (ds : List Char) : Bool := ds.isEmpty || ds.head? == some '0' && 1 < ds.length

/-- The digits of an integer, with no needless zero in front. -/
theorem isBadInteger_eq_false {ds : List Char} (hnil : ds ≠ [])
    (hzero : ∀ d ds', ds ≠ '0' :: d :: ds') : isBadInteger ds = false := by
  cases ds with
  | nil => exact absurd rfl hnil
  | cons d ds =>
    cases ds with
    | nil => simp [isBadInteger]
    | cons d' ds =>
      have hd : d ≠ '0' := fun heq => hzero d' ds (heq ▸ rfl)
      simp [isBadInteger, hd]

/-- A number without its sign is read locally. -/
theorem readUnsigned_local : Reader.Local (readUnsigned negative) := by
  refine .of_iff (.digits (k := fun ds c =>
    if isBadInteger ds then failSeen c .invalidNumber
    else readTail negative (absorb 0 ds).1 (ds.length - (absorb 0 ds).2) c)
    fun ds => ?_) fun c x => ?_
  · split
    · exact .of_keeps fun c n c' h => by cases h
    · exact readTail_local _ _ _
  · rw [readUnsigned]
    generalize c.takeDigits = digits
    obtain ⟨ds, behind⟩ := digits
    simp only
    split
    · next heq =>
      cases heq
      exact iff_of_false (fun h => by cases h) (fun h => by cases h)
    · next heq =>
      cases heq
      exact iff_of_false (fun h => by cases h) (fun h => by cases h)
    · next hnil hzero heq =>
      cases heq
      rw [isBadInteger_eq_false hnil hzero]
      rfl

end

/-- **Numbers are read locally.** -/
theorem readNumber_local : Reader.Local readNumber :=
  .head (by simp [Stops, Cursor.isBlank]) (readUnsigned_local true) (readUnsigned_local false)

/-! ## Integers

The reader takes digits as long as the number they make up fits into 64 bits; of an integer that
fits it takes them all. -/

/-- More digits never make a smaller number. -/
theorem le_ofDigitChars (ds : List Char) (s : Nat) : s ≤ Nat.ofDigitChars 10 ds s := by
  induction ds generalizing s with
  | nil => exact Nat.le_refl s
  | cons d ds ih =>
    rw [Nat.ofDigitChars_cons]
    have hle := ih (10 * s + (d.toNat - '0'.toNat))
    omega

/-- As long as the number they make up fits, all digits are taken. -/
theorem absorb_eq {ds : List Char} {s : Nat} (h : Nat.ofDigitChars 10 ds s < Nat.pow 2 64) :
    absorb s ds = (Nat.ofDigitChars 10 ds s, ds.length) := by
  induction ds generalizing s with
  | nil => rfl
  | cons d ds ih =>
    rw [Nat.ofDigitChars_cons, Nat.mul_comm] at h ⊢
    have hle := le_ofDigitChars ds (s * 10 + digitValue d)
    have hlt : s * 10 + digitValue d < Nat.pow 2 64 := Nat.lt_of_le_of_lt hle h
    have hrest : absorb (s * 10 + digitValue d) ds = _ := ih h
    rw [absorb, if_pos hlt, hrest]
    rfl

/-- Only zero begins with a zero. -/
theorem eq_zero_of_head?_toDigits {n : Nat} (h : (Nat.toDigits 10 n).head? = some '0') : n = 0 := by
  have hdigit : ∀ n < 10, Nat.digitChar n = '0' → n = 0 := by decide
  induction n using Nat.strongRecOn with
  | ind n ih =>
    by_cases hn : n < 10
    · rw [Nat.toDigits_of_lt_base hn] at h
      exact hdigit n hn (Option.some.inj h)
    · have hsome : (Nat.toDigits 10 (n / 10)).head?.isSome :=
        List.isSome_head?.2 Nat.toDigits_ne_nil
      rw [Nat.toDigits_of_base_le (by omega) (by omega), List.head?_append,
        Option.or_of_isSome hsome] at h
      have hzero := ih (n / 10) (by omega) h
      omega

/-- Where a number stops behind its digits, it is an integer, unless digits were left over. -/
theorem readTail_of_stops (negative : Bool) (significand dropped : Nat) {rest : List Char}
    (h : Stops rest) (p : Position) : readTail negative significand dropped ⟨rest, p⟩
      = if dropped = 0 then .ok (integerOf negative significand, ⟨rest, p⟩)
        else readReal negative significand dropped ⟨rest, p⟩ := by
  have hpoint : (rest.head? == some '.') = false := h.head?_beq (by simp [Stops, Cursor.isBlank])
  have hlower : (rest.head? == some 'e') = false := h.head?_beq (by simp [Stops, Cursor.isBlank])
  have hupper : (rest.head? == some 'E') = false := h.head?_beq (by simp [Stops, Cursor.isBlank])
  rw [readTail, hpoint, hlower, hupper]
  rfl

/-- The digits of a number are gathered up to its end, as far as they fit. -/
theorem readUnsigned_toDigits (negative : Bool) (n : Nat) {rest : List Char} (hrest : Stops rest)
    (p : Position) :
    ∃ q, readUnsigned negative ⟨Nat.toDigits 10 n ++ rest, p⟩
      = readTail negative (absorb 0 (Nat.toDigits 10 n)).1
        ((Nat.toDigits 10 n).length - (absorb 0 (Nat.toDigits 10 n)).2) ⟨rest, q⟩ := by
  have hdigits : ∀ d ∈ Nat.toDigits 10 n, d.isDigit := fun d hd =>
    Nat.isDigit_of_mem_toDigits (by decide) (by decide) hd
  obtain ⟨q, hq⟩ := Cursor.takeDigits_append hdigits hrest.noDigit p
  refine ⟨q, ?_⟩
  simp only [readUnsigned, hq]
  split
  · next heq => exact absurd (congrArg Prod.fst heq) Nat.toDigits_ne_nil
  · next heq =>
    have hds : Nat.toDigits 10 n = _ := congrArg Prod.fst heq
    have hzero : n = 0 := eq_zero_of_head?_toDigits (by rw [hds]; rfl)
    subst hzero
    cases hds
  · next heq =>
    cases heq
    rfl

/-- An integer that fits reads back from its digits. -/
theorem readUnsigned_takes (negative : Bool) {n : Nat} (hn : n < Nat.pow 2 64) {rest : List Char}
    (hrest : Stops rest) :
    Reader.Takes (readUnsigned negative) (integerOf negative n) (Nat.toDigits 10 n) rest := by
  intro p
  have hvalue : Nat.ofDigitChars 10 (Nat.toDigits 10 n) 0 = n := Nat.ofDigitChars_ten_toDigits
  obtain ⟨q, hq⟩ := readUnsigned_toDigits negative n hrest p
  refine ⟨q, ?_⟩
  rw [hq, absorb_eq (hvalue.symm ▸ hn), hvalue, Nat.sub_self]
  exact readTail_of_stops negative n 0 hrest q

/-! ## Numbers

A number in the type may be an integer that is called negative without being so, which no text
gives.  Only numbers as they are read can read back. -/

namespace Number

/-- A number in the form in which it is read: what is not negative is a natural number. -/
def Normal : Number → Prop
  | .negative n => n.toInt < 0
  | _ => True

/-- A double whose text reads back as the same double. -/
def ReadsBack : Number → Prop
  | .real x => parse x.text = .ok (.number (.real x))
  | _ => True

end Number

/-! ### Numbers are read in their normal form

The same readers once more, with another property: what each of them gives is normal. -/

section Normal

variable (negative down : Bool) (significand dropped : Nat) (exponent : Int)

/-- A minus gives a negative integer, or a double where there is none: for zero, and beyond
64 bits. -/
theorem integerOf_normal : (integerOf negative significand).Normal := by
  rw [integerOf]
  split
  · trivial
  · split
    · next h =>
      have hlow : -(significand : Int) < 0 := by omega
      have hhigh : -Int.pow 2 63 ≤ -(significand : Int) := Int.neg_le_neg (Int.ofNat_le.2 h.2)
      show (Int64.ofInt _).toInt < 0
      rw [Int64.toInt_ofInt_of_le hhigh (Int.lt_trans hlow (by decide))]
      exact hlow
    · trivial

theorem readReal_normal : Reader.Gives Number.Normal (readReal negative significand exponent) := by
  intro c c' n h
  rw [readReal] at h
  split at h
  · cases h
    trivial
  · cases h

theorem readPower_normal :
    Reader.Gives Number.Normal (readPower negative significand exponent down) := by
  intro c c' n h
  rw [readPower] at h
  split at h
  · cases h
  · split at h
    · exact readReal_normal _ _ _ h
    · split at h
      · cases h
      · cases h
        trivial

theorem readExponent_normal :
    Reader.Gives Number.Normal (readExponent negative significand exponent) := by
  intro c c' n h
  rw [readExponent] at h
  split at h
  · exact readPower_normal _ _ _ _ h
  · split at h <;> exact readPower_normal _ _ _ _ h

theorem readScaled_normal :
    Reader.Gives Number.Normal (readScaled negative significand exponent) := by
  intro c c' n h
  rw [readScaled] at h
  split at h
  · exact readExponent_normal _ _ _ h
  · split at h
    · exact readExponent_normal _ _ _ h
    · exact readReal_normal _ _ _ h

theorem readFraction_normal :
    Reader.Gives Number.Normal (readFraction negative significand dropped) := by
  intro c c' n h
  rw [readFraction] at h
  split at h
  · cases h
  · exact readScaled_normal _ _ _ h

theorem readTail_normal : Reader.Gives Number.Normal (readTail negative significand dropped) := by
  intro c c' n h
  rw [readTail] at h
  split at h
  · exact readFraction_normal _ _ _ h
  · split at h
    · exact readExponent_normal _ _ _ h
    · split at h
      · exact readExponent_normal _ _ _ h
      · split at h
        · cases h
          exact integerOf_normal _ _
        · exact readReal_normal _ _ _ h

theorem readUnsigned_normal : Reader.Gives Number.Normal (readUnsigned negative) := by
  intro c c' n h
  rw [readUnsigned] at h
  split at h
  · cases h
  · cases h
  · exact readTail_normal _ _ _ h

/-- **A number is read in its normal form.** -/
theorem readNumber_normal : Reader.Gives Number.Normal readNumber := by
  intro c c' n h
  rw [readNumber] at h
  split at h <;> exact readUnsigned_normal _ h

end Normal

/-! ### Integers read back

A natural number is its digits; a negative one has a minus in front of the digits of its size. -/

/-- A digit is no sign. -/
theorem readNumber_of_digits {ds rest : List Char} (hds : ∀ d ∈ ds, d.isDigit) (hne : ds ≠ [])
    (p : Position) : readNumber ⟨ds ++ rest, p⟩ = readUnsigned false ⟨ds ++ rest, p⟩ := by
  cases ds with
  | nil => exact absurd rfl hne
  | cons d ds =>
    have hd : d ≠ '-' := by
      rintro rfl
      exact absurd (hds '-' List.mem_cons_self) (by decide)
    exact if_neg (by simpa using hd)

/-- A natural number reads back. -/
theorem readNumber_takes_natural (n : UInt64) {rest : List Char} (hrest : Stops rest) :
    Reader.Takes readNumber (.natural n) (Number.natural n).text.toList rest := by
  intro p
  have hdigits : ∀ d ∈ Nat.toDigits 10 n.toNat, d.isDigit := fun d hd =>
    Nat.isDigit_of_mem_toDigits (by decide) (by decide) hd
  have hvalue : integerOf false n.toNat = .natural n := by
    rw [integerOf, if_pos (by decide), UInt64.ofNat_toNat]
  obtain ⟨p', hp'⟩ := readUnsigned_takes false n.toNat_lt hrest p
  refine ⟨p', ?_⟩
  rw [Number.text, String.toList_ofList, readNumber_of_digits hdigits Nat.toDigits_ne_nil, hp',
    hvalue]

/-- A negative number reads back. -/
theorem readNumber_takes_negative {n : Int64} (hn : n.toInt < 0) {rest : List Char}
    (hrest : Stops rest) :
    Reader.Takes readNumber (.negative n) (Number.negative n).text.toList rest := by
  intro p
  have hle : n.toInt.natAbs ≤ Nat.pow 2 63 := by
    have hmin := n.le_toInt
    have hpow : Nat.pow 2 63 = 9223372036854775808 := rfl
    omega
  have hneg : -(n.toInt.natAbs : Int) = n.toInt := by omega
  have hvalue : integerOf true n.toInt.natAbs = .negative n := by
    rw [integerOf, if_neg (by decide), if_pos ⟨by omega, hle⟩, hneg, Int64.ofInt_toInt]
  have htext : (Number.negative n).text.toList = '-' :: Nat.toDigits 10 n.toInt.natAbs := by
    simp [Number.text]
  have hlt : n.toInt.natAbs < Nat.pow 2 64 := Nat.lt_of_le_of_lt hle (by decide)
  obtain ⟨p', hp'⟩ := readUnsigned_takes true hlt hrest (p.past '-')
  refine ⟨p', ?_⟩
  rw [htext, ← hvalue]
  exact hp'

/-! ## Doubles

Nothing is said here about how a double is written, except which characters its text is made of:
none of them can stand behind a value, so the text is taken to its end. -/

end Json

namespace Binary64

/-- The characters that the text of a double is made of. -/
def isNumeral (c : Char) : Bool := c.isDigit || c == '.' || c == 'e' || c == '-' || c == '+'

theorem isNumeral_pointZero : ∀ c ∈ ['.', '0'], isNumeral c := by
  simp only [List.forall_mem_cons]
  exact ⟨rfl, rfl, fun _ h => absurd h List.not_mem_nil⟩

/-- The text of a numeral begins with a digit. -/
theorem Numeral.exists_text_eq (form : Layout) (n : Numeral) :
    ∃ d cs, (n.text form).toList = d :: cs ∧ d.isDigit ∧ ∀ c ∈ cs, isNumeral c := by
  have hdigits : ∀ m, ∀ c ∈ Nat.toDigits 10 m, isNumeral c := fun m c hc => by
    simp [isNumeral, Nat.isDigit_of_mem_toDigits (by decide) (by decide) hc]
  have hzero : ∀ k, ∀ c ∈ List.replicate k '0', isNumeral c := fun k c hc => by
    rw [(List.mem_replicate.1 hc).2]
    rfl
  cases hds : Nat.toDigits 10 n.digits with
  | nil => exact absurd hds Nat.toDigits_ne_nil
  | cons d ds =>
    have hd : d.isDigit :=
      Nat.isDigit_of_mem_toDigits (by decide) (by decide) (hds ▸ List.mem_cons_self)
    have hrest : ∀ c ∈ ds, isNumeral c := fun c hc =>
      hdigits n.digits c (hds ▸ List.mem_cons_of_mem d hc)
    have hsign : ∀ e : Int, isNumeral (if e < 0 then '-' else '+') := fun e => by split <;> rfl
    -- Four layouts: whole, with a point among the digits, with zeros in front, and with an
    -- exponent.
    simp only [Numeral.text, hds]
    split
    · split
      · refine ⟨d, ds ++ List.replicate n.exponent.toNat '0' ++ ['.', '0'], by simp, hd, ?_⟩
        have hwhole := List.forall_mem_append.2 ⟨hrest, hzero n.exponent.toNat⟩
        exact List.forall_mem_append.2 ⟨hwhole, isNumeral_pointZero⟩
      · split
        · generalize (n.exponent + ↑(d :: ds).length - 1).toNat = k
          refine ⟨d, ds.take k ++ '.' :: ds.drop k, by simp, hd, ?_⟩
          refine List.forall_mem_append.2 ⟨fun c hc => hrest c (List.mem_of_mem_take hc), ?_⟩
          exact List.forall_mem_cons.2 ⟨rfl, fun c hc => hrest c (List.mem_of_mem_drop hc)⟩
        · generalize (-(n.exponent + ↑(d :: ds).length - 1)).toNat - 1 = k
          refine ⟨'0', '.' :: List.replicate k '0' ++ d :: ds, by simp, rfl, ?_⟩
          refine List.forall_mem_append.2 ⟨List.forall_mem_cons.2 ⟨rfl, hzero k⟩, ?_⟩
          exact hds ▸ hdigits n.digits
    · generalize n.exponent + ↑(d :: ds).length - 1 = e
      have hpower : ∀ c ∈ 'e' :: (if e < 0 then '-' else '+') :: Nat.toDigits 10 e.natAbs,
          isNumeral c :=
        List.forall_mem_cons.2 ⟨rfl, List.forall_mem_cons.2 ⟨hsign e, hdigits e.natAbs⟩⟩
      cases ds with
      | nil => exact ⟨d, _, by rw [String.toList_ofList]; rfl, hd, hpower⟩
      | cons d' ds =>
        refine ⟨d, '.' :: d' :: ds ++ _, by rw [String.toList_ofList]; rfl, hd, ?_⟩
        exact List.forall_mem_append.2 ⟨List.forall_mem_cons.2 ⟨rfl, hrest⟩, hpower⟩

/-- The text of a double begins with a minus or a digit. -/
theorem exists_text_eq (x : Binary64) :
    ∃ d cs, x.text.toList = d :: cs ∧ (d = '-' ∨ d.isDigit) ∧ ∀ c ∈ d :: cs, isNumeral c := by
  have hbody : ∃ d cs,
      (if x.isZero then "0.0" else x.shortest.text decimalLayout).toList = d :: cs ∧
        d.isDigit ∧ ∀ c ∈ cs, isNumeral c := by
    split
    · exact ⟨'0', ['.', '0'], rfl, rfl, isNumeral_pointZero⟩
    · exact Numeral.exists_text_eq decimalLayout x.shortest
  obtain ⟨d, cs, hcs, hd, hrest⟩ := hbody
  have hall : ∀ c ∈ d :: cs, isNumeral c :=
    List.forall_mem_cons.2 ⟨by simp [isNumeral, hd], hrest⟩
  rw [text]
  split
  · refine ⟨'-', d :: cs, ?_, .inl rfl, List.forall_mem_cons.2 ⟨rfl, hall⟩⟩
    rw [String.toList_append, hcs]
    rfl
  · exact ⟨d, cs, hcs, .inr hd, hall⟩

end Binary64

namespace Json

/-! ## Numbers among values

The first character of a number tells it from the other values, and the rest of its text has nothing
in it that would end it early. -/

/-- The text of a number begins with a minus or a digit. -/
theorem Number.exists_text_eq (n : Number) :
    ∃ d cs, n.text.toList = d :: cs ∧ (d = '-' ∨ d.isDigit) := by
  cases n with
  | natural n =>
    rw [Number.text, String.toList_ofList]
    cases hds : Nat.toDigits 10 n.toNat with
    | nil => exact absurd hds Nat.toDigits_ne_nil
    | cons d ds =>
      have hd : d ∈ Nat.toDigits 10 n.toNat := hds ▸ List.mem_cons_self
      exact ⟨d, ds, rfl, .inr (Nat.isDigit_of_mem_toDigits (by decide) (by decide) hd)⟩
  | negative n => exact ⟨'-', Nat.toDigits 10 n.toInt.natAbs, by simp [Number.text], .inl rfl⟩
  | real x =>
    obtain ⟨d, cs, hcs, hd, -⟩ := x.exists_text_eq
    exact ⟨d, cs, hcs, hd⟩

/-- No character of a number is a blank. -/
theorem isBlank_of_isNumeral {c : Char} (h : Binary64.isNumeral c) : Cursor.isBlank c = false := by
  cases hb : Cursor.isBlank c with
  | false => rfl
  | true =>
    simp only [Cursor.isBlank, Bool.or_eq_true, beq_iff_eq] at hb
    rcases hb with ((rfl | rfl) | rfl) | rfl <;> cases h

theorem isBlank_of_number {d : Char} (hd : d = '-' ∨ d.isDigit) : Cursor.isBlank d = false := by
  refine isBlank_of_isNumeral ?_
  rcases hd with rfl | hd
  · rfl
  · simp [Binary64.isNumeral, hd]

/-- A minus or a digit begins a number. -/
theorem readValueWith_number (container : Reader Value) {d : Char} (hd : d = '-' ∨ d.isDigit)
    (cs : List Char) (p : Position) :
    readValueWith container ⟨d :: cs, p⟩
      = readNumber ⟨d :: cs, p⟩ >>= fun r => .ok (.number r.1, r.2) := by
  simp only [readValueWith, Cursor.skipBlanks_cons (isBlank_of_number hd)]
  split
  · next h => cases h
  iterate 6
    · next h =>
      cases h
      exact absurd hd (by decide)
  · next h =>
    cases h
    rw [if_pos hd]

/-- A double whose text reads back on its own reads back in front of anything. -/
theorem readNumber_takes_real {x : Binary64} (h : parse x.text = .ok (.number (.real x)))
    {rest : List Char} (hrest : Stops rest) :
    Reader.Takes readNumber (.real x) x.text.toList rest := by
  obtain ⟨d, cs, htext, hd, hall⟩ := x.exists_text_eq
  obtain ⟨⟨v, c⟩, hv, h⟩ := of_bind_eq_ok h
  obtain ⟨⟨⟩, hend, h⟩ := of_bind_eq_ok h
  cases h
  rw [Cursor.ofText, htext, maxDepth, readValue, readValueWith_number _ hd] at hv
  obtain ⟨⟨n, left⟩, hn, hv⟩ := of_bind_eq_ok hv
  cases hv
  obtain ⟨used, hused, htakes⟩ := readNumber_local _ _ _ _ hn
  -- Nothing is left: it could only be blanks, and the text has none.
  have hleft : left.rest = [] := by
    obtain ⟨left, q⟩ := left
    cases left with
    | nil => rfl
    | cons y ys =>
      have hy : Cursor.isBlank y = false := isBlank_of_isNumeral (hall y (hused ▸ by simp))
      simp only [readEnd, Cursor.skipBlanks_cons hy] at hend
      cases hend
  have hwhole : used = x.text.toList := by rw [htext, hused, hleft, List.append_nil]
  exact hwhole ▸ htakes rest hrest

/-- **Numbers read back.** -/
theorem readNumber_takes {n : Number} (hn : n.Normal) (hb : n.ReadsBack) {rest : List Char}
    (hrest : Stops rest) : Reader.Takes readNumber n n.text.toList rest := by
  cases n with
  | natural n => exact readNumber_takes_natural n hrest
  | negative n => exact readNumber_takes_negative hn hrest
  | real x => exact readNumber_takes_real hb hrest

end Json
end RemoteModels

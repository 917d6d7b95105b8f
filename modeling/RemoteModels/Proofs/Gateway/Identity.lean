import RemoteModels.Gateway
import RemoteModels.Http
import RemoteModels.Proofs.Faults
import RemoteModels.Proofs.Gateway.Addresses
import RemoteModels.Proofs.Json.Spelling
import RemoteModels.Proofs.Specification.Merge

/-!
# Identities that are numbers

A record may carry its identity as a number, and the identity of its instance is then the text of
that number.  Between the record and the instance the numeral is read as a number and written again.
An integer that fits into 64 bits comes back as it was.  One that does not becomes a double, whose
text always has a point or an exponent and so is never the numeral it came from; or it is too large
for a double as well, and the record is not read at all.

The statement is about texts, not about numbers: a record is a text in which the identity is written
as a decimal numeral, with any spelling of everything around it.  That the numeral can be looked at
alone, wherever it stands, is what the theory of spellings gives.

* `Json.Fits` — the integers that are read as integers.
* `Json.readNumber_of_fits`, `Json.readNumber_of_not_fits` — how the numeral of an integer is read.
* `Gateway.NumbersRecord` — the text is a record whose identity is written as an integer.
* `Gateway.integer_identities` — which identities are kept.
-/

set_option autoImplicit false

namespace RemoteModels

/-! ## Numerals of integers

Two texts are compared here that come from different printers: the decimal digits of an integer, and
the shortest text of a double.  They never agree, because the second always marks itself as no
integer. -/

/-- A double is never written as an integer. -/
theorem Binary64.mark_mem_text (x : Binary64) : ∃ c ∈ x.text.toList, c = '.' ∨ c = 'e' := by
  have hbody : ∃ c ∈ (if x.isZero then "0.0" else x.shortest.text decimalLayout).toList,
      c = '.' ∨ c = 'e' := by
    split
    · exact ⟨'.', by decide, .inl rfl⟩
    · rw [Numeral.text]
      split
      · refine ⟨'.', ?_, .inl rfl⟩
        split
        · simp
        · split <;> simp
      · exact ⟨'e', by simp, .inr rfl⟩
  obtain ⟨c, hc, hmark⟩ := hbody
  refine ⟨c, ?_, hmark⟩
  rw [text]
  split
  · simp [hc]
  · exact hc

namespace Json

theorem toList_toString_natural (n : Nat) :
    (toString (Int.ofNat n)).toList = Nat.toDigits 10 n := String.toList_ofList

theorem toList_toString_negative (n : Nat) :
    (toString (Int.negSucc n)).toList = '-' :: Nat.toDigits 10 (n + 1) := by
  show ("-" ++ String.ofList (Nat.toDigits 10 (n + 1))).toList = _
  simp

theorem isDigit_of_mem_toDigits {n : Nat} {c : Char} (h : c ∈ Nat.toDigits 10 n) : c.isDigit :=
  Nat.isDigit_of_mem_toDigits (by decide) (by decide) h

/-- A numeral begins with a minus or a digit, and has nothing else in it. -/
theorem exists_toString_eq (n : Int) :
    ∃ d ds, (toString n).toList = d :: ds ∧ ∀ c ∈ d :: ds, c = '-' ∨ c.isDigit := by
  cases n with
  | ofNat n =>
    cases hds : Nat.toDigits 10 n with
    | nil => exact absurd hds Nat.toDigits_ne_nil
    | cons d ds =>
      refine ⟨d, ds, (toList_toString_natural n).trans hds, fun c hc => ?_⟩
      exact .inr (isDigit_of_mem_toDigits (hds ▸ hc))
  | negSucc n =>
    refine ⟨'-', _, toList_toString_negative n, ?_⟩
    exact List.forall_mem_cons.2 ⟨.inl rfl, fun c hc => .inr (isDigit_of_mem_toDigits hc)⟩

/-- No double has the text of an integer. -/
theorem text_ne_toString (x : Binary64) (n : Int) : x.text ≠ toString n := by
  intro h
  obtain ⟨c, hc, hmark⟩ := x.mark_mem_text
  obtain ⟨d, ds, heq, hall⟩ := exists_toString_eq n
  rw [h, heq] at hc
  rcases hmark with rfl | rfl <;> exact absurd (hall _ hc) (by decide)

/-- Different integers have different numerals. -/
theorem toString_int_inj {a b : Int} : toString a = toString b ↔ a = b := by
  refine ⟨fun h => ?_, congrArg toString⟩
  have hlist := congrArg String.toList h
  -- Digits make up one number, and a minus is no digit.
  have hvalue : ∀ {m n : Nat}, Nat.toDigits 10 m = Nat.toDigits 10 n → m = n := fun h => by
    have := congrArg (Nat.ofDigitChars 10 · 0) h
    simpa using this
  have hminus : ∀ {m n : Nat}, Nat.toDigits 10 m ≠ '-' :: Nat.toDigits 10 n := fun h => by
    have hdigit : '-'.isDigit := isDigit_of_mem_toDigits (h ▸ List.mem_cons_self)
    cases hdigit
  cases a with
  | ofNat m =>
    cases b with
    | ofNat n =>
      rw [toList_toString_natural, toList_toString_natural] at hlist
      rw [hvalue hlist]
    | negSucc n =>
      rw [toList_toString_natural, toList_toString_negative] at hlist
      exact absurd hlist hminus
  | negSucc m =>
    cases b with
    | ofNat n =>
      rw [toList_toString_natural, toList_toString_negative] at hlist
      exact absurd hlist.symm hminus
    | negSucc n =>
      rw [toList_toString_negative, toList_toString_negative] at hlist
      rw [Nat.succ.inj (hvalue (List.cons.inj hlist).2)]

/-! ## Reading them

The reader takes digits as long as their number fits into 64 bits.  Where it does not, the digits
that are left become an exponent, and the number a double or, if even that is too large, a fault.
Which of these happens depends on the numeral alone and not on what follows, as long as the numeral
ends there. -/

/-- The integers that are read as integers: those of 64 bits, without a sign or with one. -/
def Fits (n : Int) : Prop := -Int.pow 2 63 ≤ n ∧ n < Int.pow 2 64

instance (n : Int) : Decidable (Fits n) := inferInstanceAs (Decidable (_ ∧ _))

/-- An integer that fits is read as a number with the same text. -/
theorem readNumber_of_fits {n : Int} (h : Fits n) : ∃ m : Number, m.text = toString n ∧
    ∀ rest, Stops rest → Reader.Takes readNumber m (toString n).toList rest := by
  obtain ⟨hlow, hhigh⟩ := h
  cases n with
  | ofNat n =>
    have hn : (UInt64.ofNat n).toNat = n := UInt64.toNat_ofNat_of_lt (Int.ofNat_lt.1 hhigh)
    have htext : (Number.natural (.ofNat n)).text = toString (Int.ofNat n) := by
      rw [Number.text, hn]
      rfl
    exact ⟨_, htext, fun rest hrest => htext ▸ readNumber_takes_natural _ hrest⟩
  | negSucc n =>
    have hn : (Int64.ofInt (Int.negSucc n)).toInt = Int.negSucc n :=
      Int64.toInt_ofInt_of_le hlow (Int.lt_trans (Int.negSucc_lt_zero n) (by decide))
    have htext : (Number.negative (.ofInt (Int.negSucc n))).text = toString (Int.negSucc n) := by
      rw [Number.text, hn]
      rfl
    have hneg : (Int64.ofInt (Int.negSucc n)).toInt < 0 := by
      rw [hn]
      exact Int.negSucc_lt_zero n
    exact ⟨_, htext, fun rest hrest => htext ▸ readNumber_takes_negative hneg hrest⟩

/-- Of digits that make up too large a number some are not taken. -/
theorem snd_absorb_lt {ds : List Char} {s : Nat} (hs : s < Nat.pow 2 64)
    (h : Nat.pow 2 64 ≤ Nat.ofDigitChars 10 ds s) : (absorb s ds).2 < ds.length := by
  induction ds generalizing s with
  | nil => exact absurd h (Nat.not_le_of_lt hs)
  | cons d ds ih =>
    rw [Nat.ofDigitChars_cons, Nat.mul_comm] at h
    rw [absorb]
    by_cases hlt : s * 10 + digitValue d < Nat.pow 2 64
    · rw [if_pos hlt]
      exact Nat.succ_lt_succ (ih hlt h)
    · rw [if_neg hlt]
      exact Nat.zero_lt_succ _

/-! ## Integers that do not fit

They are read as doubles or not at all, and which of the two it is does not depend on where they
stand. -/

/-- Digits that make up too large a number are read as a double everywhere, or nowhere. -/
theorem readUnsigned_of_large (negative : Bool) {n : Nat} (hn : Nat.pow 2 64 ≤ n) :
    (∃ x, ∀ rest, Stops rest →
      Reader.Takes (readUnsigned negative) (.real x) (Nat.toDigits 10 n) rest) ∨
    ∀ rest, Stops rest → ∀ p a, readUnsigned negative ⟨Nat.toDigits 10 n ++ rest, p⟩ ≠ .ok a := by
  have hvalue : Nat.ofDigitChars 10 (Nat.toDigits 10 n) 0 = n := Nat.ofDigitChars_ten_toDigits
  have htaken : (absorb 0 (Nat.toDigits 10 n)).2 < (Nat.toDigits 10 n).length :=
    snd_absorb_lt (by decide) (hvalue.symm ▸ hn)
  have hreal : ∀ rest, Stops rest → ∀ p, ∃ q,
      readUnsigned negative ⟨Nat.toDigits 10 n ++ rest, p⟩
        = readReal negative (absorb 0 (Nat.toDigits 10 n)).1
          ((Nat.toDigits 10 n).length - (absorb 0 (Nat.toDigits 10 n)).2 : Nat) ⟨rest, q⟩ := by
    intro rest hrest p
    obtain ⟨q, hq⟩ := readUnsigned_toDigits negative n hrest p
    refine ⟨q, ?_⟩
    rw [hq, readTail_of_stops _ _ _ hrest, if_neg (by omega)]
  -- What the digits come to no longer matters, only that it is the same wherever they stand.
  generalize ((Nat.toDigits 10 n).length - (absorb 0 (Nat.toDigits 10 n)).2 : Nat) = k at hreal
  generalize (absorb 0 (Nat.toDigits 10 n)).1 = s at hreal
  cases hx : realOf? negative s k with
  | some x =>
    refine .inl ⟨x, fun rest hrest p => ?_⟩
    obtain ⟨q, hq⟩ := hreal rest hrest p
    refine ⟨q, ?_⟩
    rw [hq, readReal, hx]
  | none =>
    refine .inr fun rest hrest p a h => ?_
    obtain ⟨q, hq⟩ := hreal rest hrest p
    rw [hq, readReal, hx] at h
    cases h

/-- An integer that does not fit is read as a double everywhere, or nowhere. -/
theorem readNumber_of_not_fits {n : Int} (h : ¬ Fits n) :
    (∃ x, ∀ rest, Stops rest → Reader.Takes readNumber (.real x) (toString n).toList rest) ∨
    ∀ rest, Stops rest → ∀ p a, readNumber ⟨(toString n).toList ++ rest, p⟩ ≠ .ok a := by
  cases n with
  | ofNat n =>
    have hsign : ∀ rest p, readNumber ⟨Nat.toDigits 10 n ++ rest, p⟩
        = readUnsigned false ⟨Nat.toDigits 10 n ++ rest, p⟩ := fun rest p =>
      readNumber_of_digits (fun d => isDigit_of_mem_toDigits) Nat.toDigits_ne_nil p
    have hn : Nat.pow 2 64 ≤ n := by
      refine Nat.le_of_not_lt fun hlt => h ⟨?_, Int.ofNat_lt.2 hlt⟩
      exact Int.le_trans (by decide) (Int.natCast_nonneg n)
    simp only [toList_toString_natural, Reader.Takes, hsign]
    exact readUnsigned_of_large false hn
  | negSucc n =>
    have hsign : ∀ rest p, readNumber ⟨'-' :: Nat.toDigits 10 (n + 1) ++ rest, p⟩
        = readUnsigned true ⟨Nat.toDigits 10 (n + 1) ++ rest, p.past '-'⟩ := fun _ _ => rfl
    have hn : Nat.pow 2 63 < n + 1 := by
      refine Nat.lt_of_not_le fun hle => h ⟨?_, Int.lt_trans (Int.negSucc_lt_zero n) (by decide)⟩
      rw [Int.negSucc_eq]
      exact Int.neg_le_neg (Int.ofNat_le.2 hle)
    simp only [toList_toString_negative, Reader.Takes, hsign]
    by_cases hlt : n + 1 < Nat.pow 2 64
    · -- The digits fit, but not with the minus.
      refine .inl ⟨((Binary64.ofNat? (n + 1)).getD default).withSign true, fun rest hrest p => ?_⟩
      have hreal : integerOf true (n + 1)
          = .real (((Binary64.ofNat? (n + 1)).getD default).withSign true) := by
        rw [integerOf, if_neg (by decide), if_neg fun hsmall => by omega]
      rw [← hreal]
      exact readUnsigned_takes true hlt hrest _
    · rcases readUnsigned_of_large true (Nat.le_of_not_lt hlt) with ⟨x, hx⟩ | hfail
      · exact .inl ⟨x, fun rest hrest p => hx rest hrest _⟩
      · exact .inr fun rest hrest p => hfail rest hrest _

/-- A value that begins like a number is one. -/
theorem readValue_toString (depth : Nat) {bs : List Char} (hb : IsBlank bs) (n : Int)
    (rest : List Char) (p : Position) :
    ∃ q, readValue depth ⟨bs ++ (toString n).toList ++ rest, p⟩
      = readNumber ⟨(toString n).toList ++ rest, q⟩ >>= fun r => .ok (.number r.1, r.2) := by
  obtain ⟨container, hd⟩ := exists_readValue_eq depth
  obtain ⟨d, ds, hds, hall⟩ := exists_toString_eq n
  obtain ⟨q, hq⟩ := readValueWith_blanks container hb ((toString n).toList ++ rest) p
  refine ⟨q, ?_⟩
  rw [hd, List.append_assoc, hq, hds]
  exact readValueWith_number container (hall d List.mem_cons_self) _ q

/-- A numeral that is read is read inside a value, between blanks. -/
theorem spells_toString {depth : Nat} {n : Int} {m : Number} {bs bs' : List Char} (hb : IsBlank bs)
    (hb' : IsBlank bs')
    (h : ∀ rest, Stops rest → Reader.Takes readNumber m (toString n).toList rest) :
    Spells depth (bs ++ (toString n).toList ++ bs') (.number m) := by
  refine spells_of_takes hb' fun rest hrest p => ?_
  obtain ⟨q₁, h₁⟩ := readValue_toString depth hb n rest p
  obtain ⟨q₂, h₂⟩ := h rest hrest q₁
  refine ⟨q₂, ?_⟩
  rw [h₁, h₂]
  rfl

end Json

/-! ## Records

Of several members with the name `id` the last one counts.  The other members may be anything that
can be read. -/

namespace Gateway

open Json

variable {g : Gateway} {text : String} {n : Int}

/-- The text is an object in which `id` is written as this integer, by its decimal numeral.  If
there are several members of that name, it is the last of them. -/
def NumbersRecord (text : String) (n : Int) : Prop :=
  ∃ before m after l l', Consists text (before ++ m :: after) ∧
    List.Forall₂ (MemberText.Reads (maxDepth - 1)) before l ∧
    List.Forall₂ (MemberText.Reads (maxDepth - 1)) after l' ∧
    Spells 0 m.name (.string "id") ∧ "id" ∉ l'.map Prod.fst ∧
    ∃ bs bs', IsBlank bs ∧ IsBlank bs' ∧ m.value = bs ++ (toString n).toList ++ bs'

/-- An object is not blank, so an answer is read as its text is. -/
theorem decode_of_consists {ms : List MemberText} (h : Consists text ms) :
    HttpResponse.decode text =
      (parse text).mapError fun e => .decode ("response body: " ++ e.message) := by
  obtain ⟨before, inside, after, -, -, -, htext⟩ := h
  have hblank : Text.isAllBlank text = false := by
    rw [Text.isAllBlank, htext]
    simp [Text.isBlank]
  rw [HttpResponse.decode, hblank]
  cases parse text <;> rfl

/-- If the numeral is read, it gives the identity. -/
theorem itemOf_of_takes (g : Gateway) (h : NumbersRecord text n) {m : Number}
    (hm : ∀ rest, Stops rest → Reader.Takes readNumber m (toString n).toList rest) :
    ∃ i, g.itemOf (HttpResponse.decode text) = .ok i ∧ i.id = some m.text := by
  obtain ⟨before, member, after, l, l', htext, hbefore, hafter, hname, hlast, bs, bs', hb, hb',
    hvalue⟩ := h
  have hmember : member.Reads (maxDepth - 1) ("id", .number m) :=
    ⟨hname, hvalue ▸ spells_toString hb hb' hm⟩
  have hlists : Lists text (l ++ ("id", .number m) :: l') :=
    ⟨_, htext, List.rel_append hbefore (.cons hmember hafter)⟩
  have hid : recordId (Members.ofList (l ++ ("id", .number m) :: l')) = some m.text := by
    have hnone : Members.get? l'.reverse "id" = none := by
      refine Members.get?_of_not_mem ?_
      rw [Members.names, List.map_reverse, List.mem_reverse]
      exact hlast
    rw [recordId, Members.get?_ofList, List.reverse_append, List.reverse_cons, List.append_assoc,
      Members.get?_append, hnone]
    rfl
  rw [decode_of_consists htext, parse_of_lists hlists]
  exact ⟨_, Instance.ofRecord_object g.descriptor _, hid⟩

/-- If the numeral is not read, neither is the record. -/
theorem itemOf_ne_ok_of_fails (h : NumbersRecord text n)
    (hn : ∀ rest, Stops rest → ∀ p a, readNumber ⟨(toString n).toList ++ rest, p⟩ ≠ .ok a)
    (i : Instance) : g.itemOf (HttpResponse.decode text) ≠ .ok i := by
  intro hi
  obtain ⟨before, member, after, l, l', htext, hbefore, -, hname, -, bs, bs', hb, hb', hvalue⟩ := h
  have hunread : ∀ v, parse text ≠ .ok v := by
    refine parse_ne_ok_of_unreadable htext hbefore hname fun tail htail p x hx => ?_
    obtain ⟨q, hq⟩ := readValue_toString (maxDepth - 1) hb n (bs' ++ tail) p
    rw [hvalue, List.append_assoc, hq] at hx
    obtain ⟨a, ha, -⟩ := of_bind_eq_ok hx
    exact hn _ (hb'.stops htail) q a ha
  rw [decode_of_consists htext] at hi
  cases hp : parse text with
  | ok v => exact hunread v hp
  | error e =>
    rw [hp] at hi
    cases hi

/-- A record whose identity does not fit has the text of a double for it, if it is read. -/
theorem exists_real_of_not_fits (h : NumbersRecord text n) (hn : ¬ Fits n) {i : Instance}
    (hi : g.itemOf (HttpResponse.decode text) = .ok i) : ∃ x : Binary64, i.id = some x.text := by
  rcases readNumber_of_not_fits hn with ⟨x, hx⟩ | hfail
  · obtain ⟨i', hi', hid⟩ := g.itemOf_of_takes h hx
    rw [hi] at hi'
    cases hi'
    exact ⟨x, hid⟩
  · exact absurd hi (itemOf_ne_ok_of_fails h hfail i)

/-- An identity that fits is kept. -/
theorem itemOf_of_fits (g : Gateway) (h : NumbersRecord text n) (hn : Fits n) :
    ∃ i, g.itemOf (HttpResponse.decode text) = .ok i ∧ i.id = some (toString n) := by
  obtain ⟨m, htext, hm⟩ := readNumber_of_fits hn
  rw [← htext]
  exact g.itemOf_of_takes h hm

/-! ## Which identities are told apart

An identity is exact where its integer fits into 64 bits; beyond, it is the text of a double. -/

/-- **An integer identity is kept exactly if it fits into 64 bits.**  Beyond them the identity is
the text of a double, if the record is read at all; within them different integers give different
identities and different addresses. -/
theorem integer_identities (g : Gateway) (h : NumbersRecord text n) :
    ((∃ i, g.itemOf (HttpResponse.decode text) = .ok i ∧ i.id = some (toString n)) ↔ Fits n) ∧
    (¬ Fits n → ∀ i, g.itemOf (HttpResponse.decode text) = .ok i →
      ∃ x : Binary64, i.id = some x.text) ∧
    (Fits n → ∀ text' n', NumbersRecord text' n' → Fits n' →
      ∃ i i' id id', g.itemOf (HttpResponse.decode text) = .ok i ∧
        g.itemOf (HttpResponse.decode text') = .ok i' ∧ i.id = some id ∧ i'.id = some id' ∧
        (id = id' ↔ n = n') ∧ (g.itemUrl id = g.itemUrl id' ↔ n = n')) := by
  refine ⟨⟨fun ⟨i, hi, hid⟩ => ?_, g.itemOf_of_fits h⟩, fun hn i => exists_real_of_not_fits h hn,
    fun hn text' n' h' hn' => ?_⟩
  · refine Decidable.byContradiction fun hn => ?_
    obtain ⟨x, hx⟩ := exists_real_of_not_fits h hn hi
    exact text_ne_toString x n (Option.some.inj (hx.symm.trans hid))
  · obtain ⟨i, hi, hid⟩ := g.itemOf_of_fits h hn
    obtain ⟨i', hi', hid'⟩ := g.itemOf_of_fits h' hn'
    refine ⟨i, i', _, _, hi, hi', hid, hid', toString_int_inj, ?_⟩
    rw [g.itemUrl_inj, toString_int_inj]

/-- A record with nothing but an identity. -/
def bareRecord (n : Int) : String := "\x7b\"id\": " ++ toString n ++ "\x7d"

/-- Its identity is written as the integer. -/
theorem numbersRecord_bareRecord (n : Int) : NumbersRecord (bareRecord n) n := by
  have hname : Spells 0 "\"id\"".toList (.string "id") := ⟨_, rfl, isBlank_nil⟩
  refine ⟨[], ⟨"\"id\"".toList, ' ' :: (toString n).toList⟩, [], [], [], ⟨[], [], [], ?_⟩, .nil,
    .nil, hname, List.not_mem_nil, [' '], [], by simp [IsBlank, Cursor.isBlank], isBlank_nil,
    by simp⟩
  exact ⟨isBlank_nil, isBlank_nil, isBlank_nil,
    by simp [bareRecord, MemberText.joined, MemberText.following, MemberText.chars]⟩

/-- The greatest and the least identity that are kept. -/
theorem integer_identities_bounds :
    NumbersRecord (bareRecord 18446744073709551615) 18446744073709551615 ∧
    NumbersRecord (bareRecord (-9223372036854775808)) (-9223372036854775808) ∧
    ∃ i i' id id', itemOf ⟨widget⟩ (HttpResponse.decode (bareRecord 18446744073709551615)) = .ok i ∧
      itemOf ⟨widget⟩ (HttpResponse.decode (bareRecord (-9223372036854775808))) = .ok i' ∧
      i.id = some id ∧ i'.id = some id' ∧ itemUrl ⟨widget⟩ id ≠ itemUrl ⟨widget⟩ id' := by
  refine ⟨numbersRecord_bareRecord _, numbersRecord_bareRecord _, ?_⟩
  obtain ⟨-, -, hkept⟩ :=
    integer_identities ⟨widget⟩ (numbersRecord_bareRecord 18446744073709551615)
  obtain ⟨i, i', id, id', hi, hi', hid, hid', -, hurl⟩ := hkept (by decide) _ _
    (numbersRecord_bareRecord (-9223372036854775808)) (by decide)
  exact ⟨i, i', id, id', hi, hi', hid, hid', fun heq => absurd (hurl.1 heq) (by decide)⟩

/-- Two records whose identities are beyond 64 bits, and become one. -/
theorem identities_collide :
    NumbersRecord (bareRecord 18446744073709551616) 18446744073709551616 ∧
    NumbersRecord (bareRecord 18446744073709551617) 18446744073709551617 ∧
    ∃ i i', itemOf ⟨widget⟩ (HttpResponse.decode (bareRecord 18446744073709551616)) = .ok i ∧
      itemOf ⟨widget⟩ (HttpResponse.decode (bareRecord 18446744073709551617)) = .ok i' ∧
      i.id = some "1.8446744073709552e+19" ∧ i'.id = some "1.8446744073709552e+19" := by
  have hid : ∀ n ∈ [18446744073709551616, 18446744073709551617],
      (itemOf ⟨widget⟩ (HttpResponse.decode (bareRecord n))).toOption.bind Instance.id
        = some "1.8446744073709552e+19" := by decide +kernel
  have hexists : ∀ n ∈ [18446744073709551616, 18446744073709551617],
      ∃ i, itemOf ⟨widget⟩ (HttpResponse.decode (bareRecord n)) = .ok i ∧
        i.id = some "1.8446744073709552e+19" := fun n hn => by
    obtain ⟨i, hi, hid⟩ := Option.bind_eq_some_iff.1 (hid n hn)
    exact ⟨i, eq_ok_of_toOption hi, hid⟩
  obtain ⟨i, hi, hiid⟩ := hexists 18446744073709551616 (by simp)
  obtain ⟨i', hi', hiid'⟩ := hexists 18446744073709551617 (by simp)
  exact ⟨numbersRecord_bareRecord _, numbersRecord_bareRecord _, i, i', hi, hi', hiid, hiid'⟩

end Gateway
end RemoteModels

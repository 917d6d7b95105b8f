import Mathlib.Data.List.Forall2
import RemoteModels.Proofs.Json.Locality

/-!
# The text of an object

An object is written as its members, each a name and a value with a colon between them, with commas
between the members, all in braces and with blanks wherever two of these meet.  A text that is read
as an object is of this form, and every text of this form is read: no more is asked of it than that
each name and each value reads on its own.

A name may be written more than once.  The text then has more members than the object, which keeps
the last of them.

Both directions rest on locality.  A piece that was read inside a text reads on its own, since its
reader minded nothing else; and a piece that reads on its own reads inside a text, since what stands
behind it stops it.

* `Json.Spells` — a text that reads as a value, on its own.
* `Json.Consists`, `Json.Lists` — the members of a text in its order, with all repetitions.
* `Json.parse_eq_object_iff` — the texts that are read as an object, and what is read.
-/

set_option autoImplicit false

namespace RemoteModels
namespace Json

/-! ## Texts of values

A value on its own may have blanks around it.  Inside a text these blanks are those between the
pieces. -/

/-- The text reads as this value, with at most `depth` containers nested and perhaps blanks behind
it. -/
def Spells (depth : Nat) (text : List Char) (v : Value) : Prop :=
  ∃ c, readValue depth ⟨text, ⟨1, 0⟩⟩ = .ok (v, c) ∧ IsBlank c.rest

variable {depth : Nat} {text : List Char} {v : Value}

/-- A text that reads on its own reads in front of anything that stops it. -/
theorem Spells.exists_takes (h : Spells depth text v) :
    ∃ used bs, text = used ++ bs ∧ IsBlank bs ∧
      ∀ rest, Stops rest → Reader.Takes (readValue depth) v used rest := by
  obtain ⟨c, hc, hb⟩ := h
  obtain ⟨used, hused, htakes⟩ := readValue_local depth _ _ _ _ hc
  exact ⟨used, c.rest, hused, hb, htakes⟩

/-- And the other way round. -/
theorem spells_of_takes {used bs : List Char} (hb : IsBlank bs)
    (h : ∀ rest, Stops rest → Reader.Takes (readValue depth) v used rest) :
    Spells depth (used ++ bs) v := by
  obtain ⟨q, hq⟩ := h bs (by simpa using hb.stops stops_nil) ⟨1, 0⟩
  exact ⟨⟨bs, q⟩, hq, hb⟩

/-- A text may end in blanks. -/
theorem readEnd_eq_ok_iff {c : Cursor} : readEnd c = .ok () ↔ IsBlank c.rest := by
  obtain ⟨cs, p⟩ := c
  obtain ⟨bs, rest, q, hb, rfl, hq, hhead⟩ := Cursor.exists_skipBlanks cs p
  rw [readEnd, hq]
  cases rest with
  | nil => simpa using hb
  | cons x xs =>
    refine iff_of_false (by simp [failSeen]) fun hall => ?_
    have hx := hall x (by simp)
    rw [hhead x rfl] at hx
    cases hx

/-- A whole text is read exactly if it spells a value. -/
theorem parse_eq_ok_iff {text : String} : parse text = .ok v ↔ Spells maxDepth text.toList v := by
  rw [parse]
  constructor
  · intro h
    obtain ⟨⟨w, c⟩, hw, h⟩ := of_bind_eq_ok h
    obtain ⟨⟨⟩, hend, h⟩ := of_bind_eq_ok h
    cases h
    exact ⟨c, hw, readEnd_eq_ok_iff.1 hend⟩
  · rintro ⟨c, hc, hb⟩
    rw [Cursor.ofText, hc]
    show (readEnd c >>= fun _ => Except.ok v) = _
    rw [readEnd_eq_ok_iff.2 hb]
    rfl

/-- A string is written between quotes. -/
theorem Spells.exists_quoted {s : String} (h : Spells 0 text (.string s)) :
    ∃ bs name bs', IsBlank bs ∧ IsBlank bs' ∧ text = bs ++ '"' :: name ++ bs' ∧
      ∀ rest, readString.Takes s name rest := by
  obtain ⟨c, hc, hblank⟩ := h
  obtain ⟨bs, cs, q, hb, rfl, hq, -⟩ := Cursor.exists_skipBlanks text ⟨1, 0⟩
  simp only [readValue, readValueWith, hq] at hc
  split at hc
  · cases hc
  iterate 3
    · cases (of_readWord_bind hc).1
  · obtain ⟨⟨s', c'⟩, hs, hc⟩ := of_bind_eq_ok hc
    cases hc
    obtain ⟨name, hname, htakes⟩ := readString_closed _ _ _ _ hs
    exact ⟨bs, name, _, hb, hblank, by rw [hname, List.append_assoc, List.cons_append], htakes⟩
  · cases hc
  · cases hc
  · split at hc
    · obtain ⟨n, -, hc⟩ := of_bind_eq_ok hc
      cases hc
    · cases hc

/-- What is read as a string between quotes spells that string. -/
theorem spells_quoted {s : String} {bs name bs' : List Char} (hb : IsBlank bs) (hb' : IsBlank bs')
    (h : ∀ rest, readString.Takes s name rest) :
    Spells depth (bs ++ '"' :: name ++ bs') (.string s) := by
  obtain ⟨container, hd⟩ := exists_readValue_eq depth
  refine spells_of_takes hb' fun rest _ p => ?_
  obtain ⟨q₁, h₁⟩ := readValueWith_blanks container hb ('"' :: name ++ rest) p
  obtain ⟨q₂, h₂⟩ := h rest (q₁.past '"')
  refine ⟨q₂, ?_⟩
  rw [hd, List.append_assoc, h₁]
  show (readString ⟨name ++ rest, q₁.past '"'⟩ >>= _) = _
  rw [h₂]
  rfl

/-! ## Texts of members

A member is kept as the two texts it is made of, with the blanks around them.  The colon and the
commas are put back by `joined`. -/

/-- One member of an object as it is written, without the colon. -/
structure MemberText where
  name : List Char
  value : List Char

namespace MemberText

/-- The text of a member. -/
def chars (m : MemberText) : List Char := m.name ++ ':' :: m.value

/-- The texts of the name and of the value read as these. -/
structure Reads (depth : Nat) (m : MemberText) (e : String × Value) : Prop where
  name : Spells 0 m.name (.string e.1)
  value : Spells depth m.value e.2

/-- Members behind others, each after a comma. -/
def following : List MemberText → List Char
  | [] => []
  | m :: rest => ',' :: m.chars ++ following rest

/-- Members with commas between them. -/
def joined : List MemberText → List Char
  | [] => []
  | m :: rest => m.chars ++ following rest

/-- A member that reads on its own reads among others. -/
theorem Reads.exists_memberReads {m : MemberText} {e : String × Value} (h : m.Reads depth e) :
    ∃ bs name blanks value bs', IsBlank bs ∧ IsBlank bs' ∧
      m.chars = bs ++ ('"' :: name ++ blanks ++ ':' :: value) ++ bs' ∧
      MemberReads (readValue depth) e name blanks value := by
  obtain ⟨bs, name, blanks, hb, hblanks, hname, htakes⟩ := h.name.exists_quoted
  obtain ⟨value, bs', hvalue, hb', hvtakes⟩ := h.value.exists_takes
  refine ⟨bs, name, blanks, value, bs', hb, hb', ?_, ⟨htakes, hblanks, hvtakes⟩⟩
  simp [chars, hname, hvalue]

end MemberText

/-- A member that was read among others reads on its own. -/
theorem MemberReads.reads {e : String × Value} {name blanks value bs bs' : List Char}
    (h : MemberReads (readValue depth) e name blanks value) (hb : IsBlank bs) (hb' : IsBlank bs') :
    MemberText.Reads depth ⟨bs ++ '"' :: name ++ blanks, value ++ bs'⟩ e :=
  ⟨spells_quoted hb h.isBlank h.name_takes, spells_of_takes hb' h.value_takes⟩

open MemberText (following joined)

/-- What stands behind members stops the last of them. -/
theorem stops_following (ms : List MemberText) {tail : List Char} (h : Stops tail) :
    Stops (following ms ++ tail) := by
  cases ms with
  | nil => exact h
  | cons m ms => exact stops_cons (.inl rfl) _

theorem following_append (ms ms' : List MemberText) :
    following (ms ++ ms') = following ms ++ following ms' := by
  induction ms with
  | nil => rfl
  | cons m ms ih => simp [following, ih]

/-- The members in front of one and those behind it. -/
theorem joined_append_cons (before : List MemberText) (m : MemberText) (after : List MemberText) :
    joined (before ++ m :: after) = joined (before ++ [m]) ++ following after := by
  cases before with
  | nil => simp [joined, following]
  | cons first rest => simp [joined, following_append, following]

theorem Leads.append {first : Bool} {lead bs : List Char} (h : Leads first lead) (hb : IsBlank bs) :
    Leads first (lead ++ bs) := by
  cases first with
  | true => exact isBlank_append.2 ⟨h, hb⟩
  | false =>
    obtain ⟨before, after, hbefore, hafter, rfl⟩ := h
    exact ⟨before, after ++ bs, hbefore, isBlank_append.2 ⟨hafter, hb⟩, by simp⟩

/-! ## Members among others

Members that read on their own are read one after the other, and the other way round.  The first is
by induction on the members, the second on the steps of the reader. -/

/-- One member, and on to the next. -/
theorem MemberText.Reads.readMembers {m : MemberText} {e : String × Value} (h : m.Reads depth e)
    (n : Nat) {first : Bool} {lead : List Char} (hlead : Leads first lead) {tail : List Char}
    (htail : Stops tail) (p : Position) :
    ∃ bs q, IsBlank bs ∧
      readMembers (readValue depth) (n + 1) first ⟨lead ++ m.chars ++ tail, p⟩
        = readMembers (readValue depth) n false ⟨bs ++ tail, q⟩ >>=
          fun r => .ok (e :: r.1, r.2) := by
  obtain ⟨bs₁, name, blanks, value, bs, hb₁, hb, hchars, hreads⟩ := h.exists_memberReads
  obtain ⟨q₁, h₁⟩ := readMembers_lead (readValue depth) n (hlead.append hb₁)
    (name ++ blanks ++ ':' :: value ++ (bs ++ tail)) p
  obtain ⟨q₂, h₂⟩ := hreads.readMembersFrom n (hb.stops htail) q₁
  refine ⟨bs, q₂, hb, ?_⟩
  simp only [hchars, List.append_assoc, List.cons_append] at h₁ h₂ ⊢
  rw [h₁, h₂]

/-- Members behind others, and on to what follows them. -/
theorem readMembers_past {ms : List MemberText} {l : List (String × Value)}
    (h : List.Forall₂ (MemberText.Reads depth) ms l) (n : Nat) {bs : List Char} (hb : IsBlank bs)
    {tail : List Char} (htail : Stops tail) (p : Position) :
    ∃ bs' q, IsBlank bs' ∧
      readMembers (readValue depth) (l.length + n) false ⟨bs ++ following ms ++ tail, p⟩
        = readMembers (readValue depth) n false ⟨bs' ++ tail, q⟩ >>=
          fun r => .ok (l ++ r.1, r.2) := by
  induction h generalizing bs p with
  | nil =>
    refine ⟨bs, p, hb, ?_⟩
    simp only [List.length_nil, Nat.zero_add, following, List.append_nil, List.nil_append]
    exact (bind_pure _).symm
  | @cons m e ms l hm _ ih =>
    have hlead : Leads false (bs ++ [',']) := ⟨bs, [], hb, isBlank_nil, rfl⟩
    obtain ⟨bs₁, q₁, hb₁, h₁⟩ := hm.readMembers (l.length + n) hlead (stops_following ms htail) p
    obtain ⟨bs₂, q₂, hb₂, h₂⟩ := ih hb₁ q₁
    refine ⟨bs₂, q₂, hb₂, ?_⟩
    simp only [following, List.append_assoc, List.cons_append, List.nil_append,
      List.length_cons, Nat.succ_add] at h₁ h₂ ⊢
    rw [h₁, h₂]
    exact bind_assoc _ _ _

/-- Members of an object up to one of them. -/
theorem readMembers_upTo {ms : List MemberText} {l : List (String × Value)}
    (h : List.Forall₂ (MemberText.Reads depth) ms l) (n : Nat) {inside : List Char}
    (hb : IsBlank inside) (m : MemberText) (tail : List Char) (p : Position) :
    ∃ first lead q, Leads first lead ∧
      readMembers (readValue depth) (l.length + n) true ⟨inside ++ joined (ms ++ [m]) ++ tail, p⟩
        = readMembers (readValue depth) n first ⟨lead ++ m.chars ++ tail, q⟩ >>=
          fun r => .ok (l ++ r.1, r.2) := by
  cases h with
  | nil =>
    refine ⟨true, inside, p, hb, ?_⟩
    simp only [List.length_nil, Nat.zero_add, joined, following, List.append_nil, List.nil_append]
    exact (bind_pure _).symm
  | @cons m₁ e ms l hm hrest =>
    have htail : Stops (',' :: m.chars ++ tail) := stops_cons (.inl rfl) _
    obtain ⟨bs₁, q₁, hb₁, h₁⟩ := hm.readMembers (l.length + n) (show Leads true inside from hb)
      (stops_following ms htail) p
    obtain ⟨bs₂, q₂, hb₂, h₂⟩ := readMembers_past hrest n hb₁ htail q₁
    refine ⟨false, bs₂ ++ [','], q₂, ⟨bs₂, [], hb₂, isBlank_nil, rfl⟩, ?_⟩
    simp only [joined, following_append, following, List.append_assoc, List.cons_append,
      List.nil_append, List.append_nil, List.length_cons, Nat.succ_add] at h₁ h₂ ⊢
    rw [h₁, h₂]
    exact bind_assoc _ _ _

/-- All members of an object behind its brace. -/
theorem readMembers_joined {ms : List MemberText} {l : List (String × Value)}
    (h : List.Forall₂ (MemberText.Reads depth) ms l) (n : Nat) {bs : List Char} (hb : IsBlank bs)
    (rest : List Char) :
    Reader.Takes (readMembers (readValue depth) (l.length + (n + 1)) true) l
      (bs ++ joined ms ++ ['\x7d']) rest := by
  intro p
  have htail : Stops ('\x7d' :: rest) := stops_cons (.inr (.inr rfl)) _
  cases h with
  | nil =>
    obtain ⟨q, hq⟩ := readMembers_close (readValue depth) n true hb rest p
    exact ⟨q, by simpa [joined] using hq⟩
  | @cons m e ms l hm hrest =>
    obtain ⟨bs₁, q₁, hb₁, h₁⟩ := hm.readMembers (l.length + (n + 1)) (show Leads true bs from hb)
      (stops_following ms htail) p
    obtain ⟨bs₂, q₂, hb₂, h₂⟩ := readMembers_past hrest (n + 1) hb₁ htail q₁
    obtain ⟨q₃, h₃⟩ := readMembers_close (readValue depth) n false hb₂ rest q₂
    refine ⟨q₃, ?_⟩
    simp only [joined, List.append_assoc, List.cons_append, List.nil_append, List.length_cons,
      Nat.succ_add] at h₁ h₂ h₃ ⊢
    rw [h₁, h₂, h₃]
    simp [bind, Except.bind]

/-- Members that have been read are members that read on their own. -/
theorem exists_following {n : Nat} {cs : List Char} {p : Position} {l : List (String × Value)}
    {c : Cursor} (h : readMembers (readValue depth) n false ⟨cs, p⟩ = .ok (l, c)) :
    ∃ bs ms, IsBlank bs ∧ cs = bs ++ following ms ++ '\x7d' :: c.rest ∧
      List.Forall₂ (MemberText.Reads depth) ms l := by
  induction n generalizing cs p l with
  | zero => cases h
  | succ n ih =>
    rcases of_readMembers h with ⟨bs, hb, rfl, rfl⟩ | ⟨lead, xs, q, rfl, hlead, hread⟩
    · exact ⟨bs, [], hb, by simp [following], .nil⟩
    · obtain ⟨before, after, hbefore, hafter, rfl⟩ := hlead
      obtain ⟨e, more, name, blanks, value, rest, q', rfl, rfl, hreads, hmore⟩ :=
        of_readMembersFrom (readValue_local depth) hread
      obtain ⟨bs, ms, hb, rfl, hms⟩ := ih hmore
      refine ⟨before, _ :: ms, hbefore, ?_, .cons (hreads.reads hafter hb) hms⟩
      simp [following, MemberText.chars]

/-- All members of an object that was read. -/
theorem exists_joined {n : Nat} {cs : List Char} {p : Position} {l : List (String × Value)}
    {c : Cursor} (h : readMembers (readValue depth) n true ⟨cs, p⟩ = .ok (l, c)) :
    ∃ bs ms, IsBlank bs ∧ cs = bs ++ joined ms ++ '\x7d' :: c.rest ∧
      List.Forall₂ (MemberText.Reads depth) ms l := by
  cases n with
  | zero => cases h
  | succ n =>
    rcases of_readMembers h with ⟨bs, hb, rfl, rfl⟩ | ⟨lead, xs, q, rfl, hlead, h⟩
    · exact ⟨bs, [], hb, by simp [joined], .nil⟩
    · obtain ⟨e, more, name, blanks, value, rest, q', rfl, rfl, hreads, hmore⟩ :=
        of_readMembersFrom (readValue_local depth) h
      obtain ⟨bs, ms, hb, rfl, hms⟩ := exists_following hmore
      refine ⟨[], _ :: ms, isBlank_nil, ?_, .cons (hreads.reads hlead hb) hms⟩
      simp [joined, MemberText.chars]

/-! ## Texts of objects

`Consists` is about characters only, and `Lists` adds what the members read as.  An object is what
is listed, with repeated names written over each other. -/

/-- The text is a pair of braces with these members between them. -/
def Consists (text : String) (ms : List MemberText) : Prop :=
  ∃ before inside after, IsBlank before ∧ IsBlank inside ∧ IsBlank after ∧
    text.toList = before ++ '\x7b' :: inside ++ joined ms ++ '\x7d' :: after

/-- The text is an object with these members, in the order of the text and with all repetitions. -/
def Lists (text : String) (l : List (String × Value)) : Prop :=
  ∃ ms, Consists text ms ∧ List.Forall₂ (MemberText.Reads (maxDepth - 1)) ms l

/-- Each member takes up some text. -/
theorem length_le_joined (ms : List MemberText) : ms.length ≤ (joined ms).length := by
  have hfollowing : ∀ ms, ms.length ≤ (following ms).length := by
    intro ms
    induction ms with
    | nil => exact Nat.le_refl 0
    | cons m ms ih =>
      simp only [following, List.length_cons, List.length_append]
      omega
  cases ms with
  | nil => exact Nat.le_refl 0
  | cons m ms =>
    have := hfollowing ms
    simp only [joined, MemberText.chars, List.length_cons, List.length_append]
    omega

theorem readValue_maxDepth :
    readValue maxDepth = readValueWith (readContainer (readValue (maxDepth - 1))) := rfl

/-! ## Reading what is listed

The two directions are kept apart.  A member that cannot be read spoils the whole text, wherever it
stands among the others. -/

/-- A text that lists members is read as their object. -/
theorem parse_of_lists {text : String} {l : List (String × Value)} (h : Lists text l) :
    parse text = .ok (.object (Members.ofList l)) := by
  obtain ⟨ms, ⟨before, inside, after, hbefore, hinside, hafter, htext⟩, hms⟩ := h
  have hlen : l.length ≤ (joined ms).length := hms.length_eq ▸ length_le_joined ms
  rw [parse_eq_ok_iff, htext]
  obtain ⟨q₁, h₁⟩ := readValueWith_blanks (readContainer (readValue (maxDepth - 1))) hbefore
    ('\x7b' :: (inside ++ joined ms ++ ['\x7d'] ++ after)) ⟨1, 0⟩
  obtain ⟨n, hn⟩ : ∃ n, (inside ++ joined ms ++ ['\x7d'] ++ after).length + 1 + 1
      = l.length + (n + 1) := by
    refine ⟨(inside ++ joined ms ++ ['\x7d'] ++ after).length + 1 - l.length, ?_⟩
    simp only [List.length_append]
    omega
  obtain ⟨q₂, h₂⟩ := readMembers_joined hms n hinside after (q₁.past '\x7b')
  refine ⟨⟨after, q₂⟩, ?_, hafter⟩
  have hbrace : readValueWith (readContainer (readValue (maxDepth - 1)))
      ⟨'\x7b' :: (inside ++ joined ms ++ ['\x7d'] ++ after), q₁⟩
        = .ok (.object (Members.ofList l), ⟨after, q₂⟩) := by
    show readContainer (readValue (maxDepth - 1)) ⟨'\x7b' :: _, q₁⟩ = _
    rw [readContainer_brace, hn, h₂]
    rfl
  rw [readValue_maxDepth, ← hbrace, ← h₁]
  simp only [List.append_assoc, List.cons_append, List.nil_append]

/-- A text that is read as an object lists its members. -/
theorem lists_of_parse {text : String} {m : Object} (h : parse text = .ok (.object m)) :
    ∃ l, Lists text l ∧ m = Members.ofList l := by
  obtain ⟨c, hc, hafter⟩ := parse_eq_ok_iff.1 h
  obtain ⟨before, cs, q, hbefore, hcs, hq, -⟩ := Cursor.exists_skipBlanks text.toList ⟨1, 0⟩
  rw [readValue_maxDepth] at hc
  simp only [readValueWith, hq] at hc
  split at hc
  · cases hc
  iterate 3
    · cases (of_readWord_bind hc).1
  · obtain ⟨s, -, hc⟩ := of_bind_eq_ok hc
    cases hc
  · rw [readContainer_bracket] at hc
    obtain ⟨items, -, hc⟩ := of_bind_eq_ok hc
    cases hc
  · rw [readContainer_brace] at hc
    obtain ⟨⟨l, c'⟩, hl, hc⟩ := of_bind_eq_ok hc
    cases hc
    obtain ⟨inside, ms, hinside, rfl, hms⟩ := exists_joined hl
    refine ⟨l, ⟨ms, ⟨before, inside, _, hbefore, hinside, hafter, ?_⟩, hms⟩, rfl⟩
    rw [hcs]
    simp
  · split at hc
    · obtain ⟨n, -, hc⟩ := of_bind_eq_ok hc
      cases hc
    · cases hc

/-- A text with a value that is read nowhere is not read. -/
theorem parse_ne_ok_of_unreadable {text : String} {before after : List MemberText} {m : MemberText}
    {l : List (String × Value)} {name : String} (htext : Consists text (before ++ m :: after))
    (hbefore : List.Forall₂ (MemberText.Reads (maxDepth - 1)) before l)
    (hname : Spells 0 m.name (.string name))
    (hvalue : ∀ tail, Stops tail → ∀ p x, readValue (maxDepth - 1) ⟨m.value ++ tail, p⟩ ≠ .ok x)
    (v : Value) : parse text ≠ .ok v := by
  intro h
  obtain ⟨c, hc, -⟩ := parse_eq_ok_iff.1 h
  obtain ⟨front, inside, back, hfront, hinside, -, htext⟩ := htext
  have hlen : l.length ≤ (joined (before ++ m :: after)).length := by
    rw [← hbefore.length_eq]
    exact Nat.le_trans (List.Sublist.length_le (List.sublist_append_left _ _)) (length_le_joined _)
  let tail := following after ++ '\x7d' :: back
  have htail : Stops tail := stops_following after (stops_cons (.inr (.inr rfl)) _)
  have hmembers : inside ++ joined (before ++ m :: after) ++ '\x7d' :: back
      = inside ++ joined (before ++ [m]) ++ tail := by
    rw [joined_append_cons]
    simp [tail]
  -- The reader gets as far as the value in question.
  obtain ⟨q, hq⟩ := readValueWith_blanks (readContainer (readValue (maxDepth - 1))) hfront
    ('\x7b' :: (inside ++ joined (before ++ [m]) ++ tail)) ⟨1, 0⟩
  have hbrace : readContainer (readValue (maxDepth - 1))
      ⟨'\x7b' :: (inside ++ joined (before ++ [m]) ++ tail), q⟩ = .ok (v, c) := by
    rw [htext, readValue_maxDepth] at hc
    simp only [List.append_assoc, List.cons_append] at hc hmembers hq ⊢
    rw [hmembers, hq] at hc
    exact hc
  rw [readContainer_brace] at hbrace
  obtain ⟨r, hr, -⟩ := of_bind_eq_ok hbrace
  obtain ⟨n, hn⟩ := Nat.exists_eq_add_of_le (show l.length
      ≤ (inside ++ joined (before ++ [m]) ++ tail).length + 1 + 1 by
    rw [← hmembers]
    simp only [List.length_append]
    omega)
  obtain ⟨first, lead, q', hlead, hupTo⟩ :=
    readMembers_upTo hbefore n hinside m tail (q.past '\x7b')
  rw [hn, hupTo] at hr
  obtain ⟨r', hr', -⟩ := of_bind_eq_ok hr
  obtain ⟨bs, cs, bs', hb, hb', hchars, htakes⟩ := hname.exists_quoted
  cases n with
  | zero => cases hr'
  | succ n =>
    obtain ⟨q₁, h₁⟩ := readMembers_lead (readValue (maxDepth - 1)) n (hlead.append hb)
      (cs ++ (bs' ++ ':' :: (m.value ++ tail))) q'
    obtain ⟨q₂, h₂⟩ := htakes (bs' ++ ':' :: (m.value ++ tail)) (q₁.past '"')
    obtain ⟨q₃, h₃⟩ := exists_readColon hb' (m.value ++ tail) q₂
    simp only [MemberText.chars, hchars, List.append_assoc, List.cons_append] at hr' h₁
    rw [h₁, readMembersFrom, Cursor.skip_cons, h₂] at hr'
    change (readColon ⟨bs' ++ ':' :: (m.value ++ tail), q₂⟩ >>= _) = _ at hr'
    rw [h₃] at hr'
    change (readValue (maxDepth - 1) ⟨m.value ++ tail, q₃⟩ >>= _) = _ at hr'
    obtain ⟨x, hx, -⟩ := of_bind_eq_ok hr'
    exact hvalue tail htail q₃ x hx

/-- **A text is an object exactly if it lists members**, and of those with one name the last
counts. -/
theorem parse_eq_object_iff {text : String} {m : Object} :
    parse text = .ok (.object m) ↔ ∃ l, Lists text l ∧ m = Members.ofList l := by
  constructor
  · exact lists_of_parse
  · rintro ⟨l, hl, rfl⟩
    exact parse_of_lists hl

end Json
end RemoteModels

import RemoteModels.Envelope.Decoder
import RemoteModels.Proofs.Json.Strings

/-!
# Envelopes read back

The decoder of envelopes reads the members of an object one after the other into the slots they
belong to.  What is sent has each member once and no other, so every slot is filled once, and the
envelope that comes out is the one that was sent, whatever its texts are.

The decoder is written by hand and reads its text once, without an object in between, and it accepts
the members in any order and with any spacing.  Reading back is about one text only, the one that is
sent; but every reader has to be followed through it character by character, because what a reader
leaves is where the next one begins.

* `Envelope.Reader.Takes` — what it means that a part of an envelope reads back.
* `Envelope.fill_takes` — a member fills its slot.
* `Envelope.decode_compact` — an envelope reads back.
-/

set_option autoImplicit false

namespace RemoteModels
namespace Envelope

open Json (Value Cursor Position quoted escape)

/-- In front of `rest`, the reader takes exactly `text`, and gives `a` for it. -/
def Reader.Takes {α : Type} (r : Reader α) (a : α) (text rest : List Char) : Prop :=
  ∀ q, ∃ q', r ⟨text ++ rest, q⟩ = .ok (a, ⟨rest, q'⟩)

/-! ## Parts

Every part of an envelope is a string or null, so the parts read back by what is known of strings,
in front of anything that may follow. -/

/-- A text reads back, whatever kind of thing it is wanted for. -/
theorem readText_takes (wanted : Wanted) (s : String) (rest : List Char) :
    Reader.Takes (readText wanted) s (quoted s) rest := by
  intro q
  obtain ⟨q', h⟩ := Json.readString_takes s rest (q.past '"')
  refine ⟨q', ?_⟩
  show fromJson (Json.readString ⟨escape s.toList ++ ['"'] ++ rest, q.past '"'⟩) = _
  rw [h]
  rfl

/-- The value of an identity that may be lacking. -/
def idValue : Option String → Value
  | some id => .string id
  | none => .null

/-- An identity reads back, and so does a lacking one. -/
theorem readOptionalText_takes (id : Option String) (rest : List Char) :
    Reader.Takes readOptionalText id (idValue id).chars rest := by
  intro q
  cases id with
  | none => exact ⟨_, rfl⟩
  | some s =>
    obtain ⟨q', h⟩ := readText_takes .string s rest q
    refine ⟨q', ?_⟩
    show readText .string ⟨quoted s ++ rest, q⟩ >>= _ = _
    rw [h]
    rfl

theorem ofWire?_wire (verb : Verb) : Verb.ofWire? verb.wire = some verb := by
  cases verb <;> decide

/-- A verb reads back from its word. -/
theorem readVerb_takes (verb : Verb) (rest : List Char) :
    Reader.Takes readVerb verb (quoted verb.wire) rest := by
  intro q
  obtain ⟨q', h⟩ := readText_takes .variant verb.wire rest q
  refine ⟨q', ?_⟩
  show readText .variant ⟨quoted verb.wire ++ rest, q⟩ >>= _ = _
  rw [h]
  simp only [bind, Except.bind, ofWire?_wire]

/-! ## Slots

A member is a name and a value.  The name decides which slot is filled, and a slot that is filled
already is a fault; so each lemma about a member is about a slot that is still empty. -/

/-- The value that a slot of an envelope carries. -/
def slotValue (e : Envelope) : Slot → Value
  | .instid => idValue e.instid
  | .method => .string e.verb.wire
  | .payload => .string e.payload

/-- What has been read once a slot is filled as in the envelope. -/
def Partial.filled (p : Partial) (e : Envelope) : Slot → Partial
  | .instid => { p with instid := some e.instid }
  | .method => { p with verb := some e.verb }
  | .payload => { p with payload := some e.payload }

/-- The value of a slot fills it, and the others stay as they are. -/
theorem fill_takes (e : Envelope) (p : Partial) (slot : Slot) (rest : List Char) :
    Reader.Takes (p.fill slot) (p.filled e slot) (e.slotValue slot).chars rest := by
  intro q
  cases slot with
  | instid =>
    obtain ⟨q', h⟩ := readOptionalText_takes e.instid rest q
    refine ⟨q', ?_⟩
    show readOptionalText ⟨(idValue e.instid).chars ++ rest, q⟩ >>= _ = _
    rw [h]
    rfl
  | method =>
    obtain ⟨q', h⟩ := readVerb_takes e.verb rest q
    refine ⟨q', ?_⟩
    show readVerb ⟨quoted e.verb.wire ++ rest, q⟩ >>= _ = _
    rw [h]
    rfl
  | payload =>
    obtain ⟨q', h⟩ := readText_takes .string e.payload rest q
    refine ⟨q', ?_⟩
    show readText .string ⟨quoted e.payload ++ rest, q⟩ >>= _ = _
    rw [h]
    rfl

theorem ofName?_name (slot : Slot) : Slot.ofName? slot.name = some slot := by
  cases slot <;> decide

/-- The text of a member. -/
def slotChars (e : Envelope) (slot : Slot) : List Char :=
  quoted slot.name ++ ':' :: (e.slotValue slot).chars

/-! ## Members one by one

A member that is filled in leaves the others open, so that each of the three is met once. -/

/-- **A member fills its slot**, whatever introduces it, and the reader goes on behind it. -/
theorem readSlots_member (e : Envelope) (p : Partial) {slot : Slot} (hp : p.has slot = false)
    {first : Bool} {c : Cursor} {q : Position} {rest : List Char}
    (hc : Json.nextName first c = .ok (some ⟨e.slotChars slot ++ rest, q⟩)) (n : Nat) :
    ∃ q', readSlots (n + 1) first p c = readSlots n false (p.filled e slot) ⟨rest, q'⟩ := by
  obtain ⟨q₁, h₁⟩ := Json.readString_takes slot.name
    (':' :: (e.slotValue slot).chars ++ rest) (q.past '"')
  obtain ⟨q₂, h₂⟩ := fill_takes e p slot rest (q₁.past ':')
  have hskip : Cursor.skip ⟨e.slotChars slot ++ rest, q⟩
      = ⟨escape slot.name.toList ++ ['"'] ++ (':' :: (e.slotValue slot).chars ++ rest),
          q.past '"'⟩ := by
    simp [slotChars, quoted, Cursor.skip_cons]
  have hcolon : Json.readColon ⟨':' :: (e.slotValue slot).chars ++ rest, q₁⟩
      = .ok ⟨(e.slotValue slot).chars ++ rest, q₁.past ':'⟩ := rfl
  refine ⟨q₂, ?_⟩
  rw [readSlots, hc]
  simp only [fromJson, bind, Except.bind, hskip, h₁, ofName?_name, hp, Bool.false_eq_true, if_false,
    hcolon, h₂]

/-- The first member follows the brace. -/
theorem nextName_first (e : Envelope) (slot : Slot) (rest : List Char) (q : Position) :
    Json.nextName true ⟨e.slotChars slot ++ rest, q⟩ = .ok (some ⟨e.slotChars slot ++ rest, q⟩) :=
  rfl

/-- Every other member follows a comma. -/
theorem nextName_comma (e : Envelope) (slot : Slot) (rest : List Char) (q : Position) :
    Json.nextName false ⟨',' :: e.slotChars slot ++ rest, q⟩
      = .ok (some ⟨e.slotChars slot ++ rest, q.past ','⟩) :=
  rfl

/-- The members of an envelope, in the order in which they are sent. -/
theorem readSlots_takes (e : Envelope) (n : Nat) (rest : List Char) (q : Position) :
    ∃ q', readSlots (n + 1 + 1 + 1 + 1) true {}
        ⟨e.slotChars .instid ++ (',' :: e.slotChars .method ++
          (',' :: e.slotChars .payload ++ '\x7d' :: rest)), q⟩
      = .ok (⟨some e.instid, some e.verb, some e.payload⟩, ⟨'\x7d' :: rest, q'⟩) := by
  let p₁ := Partial.filled {} e .instid
  let p₂ := p₁.filled e .method
  obtain ⟨q₁, h₁⟩ := readSlots_member e {} rfl (nextName_first e .instid
    (',' :: e.slotChars .method ++ (',' :: e.slotChars .payload ++ '\x7d' :: rest)) q)
    (n + 1 + 1 + 1)
  obtain ⟨q₂, h₂⟩ := readSlots_member e p₁ rfl (nextName_comma e .method
    (',' :: e.slotChars .payload ++ '\x7d' :: rest) q₁) (n + 1 + 1)
  obtain ⟨q₃, h₃⟩ := readSlots_member e p₂ rfl (nextName_comma e .payload
    ('\x7d' :: rest) q₂) (n + 1)
  exact ⟨q₃, h₁.trans (h₂.trans h₃)⟩

/-- The text of an envelope, member by member. -/
theorem chars_toValue (e : Envelope) :
    e.toValue.chars = '\x7b' :: (e.slotChars .instid ++ (',' :: e.slotChars .method ++
      (',' :: e.slotChars .payload ++ ['\x7d']))) := by
  obtain ⟨instid, verb, payload⟩ := e
  cases instid <;>
    simp [toValue, Value.chars, Value.memberChars, slotChars, slotValue, idValue, Slot.name]

/-- An envelope behind its opening brace. -/
theorem readObject_takes (e : Envelope) (rest : List Char) :
    Reader.Takes readObject e (e.slotChars .instid ++ (',' :: e.slotChars .method ++
      (',' :: e.slotChars .payload ++ ['\x7d']))) rest := by
  intro q
  simp only [List.append_assoc, List.cons_append, List.nil_append]
  obtain ⟨n, hn⟩ : ∃ n, (e.slotChars .instid ++ ',' :: (e.slotChars .method ++
      ',' :: (e.slotChars .payload ++ '\x7d' :: rest))).length + 1 = n + 1 + 1 + 1 + 1 := by
    refine ⟨(e.slotChars .instid).length + (e.slotChars .method).length +
      (e.slotChars .payload).length + rest.length, ?_⟩
    simp only [List.length_append, List.length_cons]
    omega
  obtain ⟨q', hq'⟩ := readSlots_takes e n rest q
  refine ⟨q'.past '\x7d', ?_⟩
  rw [readObject, hn]
  show readSlots (n + 1 + 1 + 1 + 1) true {} ⟨e.slotChars .instid ++ (',' :: e.slotChars .method ++
    (',' :: e.slotChars .payload ++ '\x7d' :: rest)), q⟩ >>= _ = _
  rw [hq']
  rfl

/-- **An envelope reads back from the object that is sent.** -/
theorem decode_compact (e : Envelope) : decode e.toValue.compact = .ok e := by
  obtain ⟨q, hq⟩ := readObject_takes e [] (Position.past ⟨1, 0⟩ '\x7b')
  rw [List.append_nil] at hq
  rw [decode, Value.compact, Cursor.ofText, String.toList_ofList, chars_toValue]
  show readObject ⟨_, Position.past ⟨1, 0⟩ '\x7b'⟩ >>= _ = _
  rw [hq]
  rfl

end Envelope
end RemoteModels

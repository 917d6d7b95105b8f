import Mathlib.Tactic.SplitIfs

/-!
# The order of texts by their bytes

Names are sorted by the bytes of their UTF-8 encoding.  That is the order of texts by characters:
the encoding keeps the order of characters, and no encoding of a character is the beginning of that
of another one, so that the first character in which two texts differ decides about their bytes too.

* `Text.Bytewise` — in front by the order of bytes.
* `Text.utf8EncodeChar_append_lt` — a smaller character has smaller bytes, whatever follows.
* `Text.bytewise_iff_lt` — the order by bytes is the order by characters.
-/

set_option autoImplicit false

namespace RemoteModels
namespace Text

/-- The bytes of a text in UTF-8. -/
def bytes (s : String) : List UInt8 := s.toUTF8.data.toList

/-- The bytes of `a` are in front of those of `b`, compared one after the other. -/
def Bytewise (a b : String) : Prop := bytes a < bytes b

instance (a b : String) : Decidable (Bytewise a b) :=
  inferInstanceAs (Decidable (bytes a < bytes b))

/-- The bytes are those of the characters, one after the other. -/
theorem bytes_eq_flatMap (s : String) : bytes s = s.toList.flatMap String.utf8EncodeChar := by
  have h : bytes (String.ofList s.toList) = s.toList.flatMap String.utf8EncodeChar := by
    rw [bytes, String.toUTF8_eq_toByteArray, String.toByteArray_ofList, List.utf8Encode,
      List.toList_data_toByteArray]
  rwa [String.ofList_toList] at h

/-! ## Characters

An encoding has one to four bytes.  Where two have the same length, they are compared like numbers
in base 64, digit by digit; where they have not, the first byte of the longer one is greater. -/

/-- Lists of bytes are compared from the front. -/
theorem ofNat_cons_lt_iff {a b : Nat} {l m : List UInt8} (ha : a < 256) (hb : b < 256) :
    UInt8.ofNat a :: l < UInt8.ofNat b :: m ↔ a < b ∨ a = b ∧ l < m := by
  rw [List.cons_lt_cons_iff, UInt8.lt_iff_toNat_lt, ← UInt8.toNat_inj,
    UInt8.toNat_ofNat_of_lt' ha, UInt8.toNat_ofNat_of_lt' hb]

theorem toNat_val_lt (c : Char) : c.val.toNat < 1114112 := by
  rcases c.valid with h | h <;> omega

/-- Of two numbers in base 64 the smaller one is smaller in front of the last digit, or only in
it. -/
theorem div_lt_or_mod_lt {a b : Nat} (h : a < b) :
    a / 64 < b / 64 ∨ a / 64 = b / 64 ∧ a % 64 < b % 64 := by omega

/-- **A smaller character has smaller bytes, whatever follows.** -/
theorem utf8EncodeChar_append_lt {c d : Char} (h : c < d) (l m : List UInt8) :
    String.utf8EncodeChar c ++ l < String.utf8EncodeChar d ++ m := by
  have hlt : c.val.toNat < d.val.toNat := h
  have hd := toNat_val_lt d
  simp only [String.utf8EncodeChar]
  generalize c.val.toNat = a at hlt ⊢
  generalize d.val.toNat = b at hlt hd ⊢
  -- Each byte but the first carries one digit in base 64; compare them from the last one on.
  have hlast := div_lt_or_mod_lt hlt
  have hmiddle := fun h => div_lt_or_mod_lt (a := a / 64) (b := b / 64) h
  have hfirst := fun h => div_lt_or_mod_lt (a := a / 4096) (b := b / 4096) h
  simp only [Nat.div_div_eq_div_mul, Nat.reduceMul] at hmiddle hfirst
  have ha8 : a / 262144 % 8 = a / 262144 := Nat.mod_eq_of_lt (by omega)
  have hb8 : b / 262144 % 8 = b / 262144 := Nat.mod_eq_of_lt (by omega)
  split_ifs <;> simp (disch := omega) only [List.cons_append, ofNat_cons_lt_iff] <;> omega

/-! ## Texts

The order of texts is total, so that one direction gives the other. -/

/-- Texts in order have bytes in order. -/
theorem flatMap_utf8EncodeChar_lt {cs ds : List Char} (h : cs < ds) :
    cs.flatMap String.utf8EncodeChar < ds.flatMap String.utf8EncodeChar := by
  induction h with
  | @nil d ds =>
    have hne : (d :: ds).flatMap String.utf8EncodeChar ≠ [] := by simp
    exact List.not_le.1 fun hle => hne (List.le_nil.1 hle)
  | @rel c cs d ds hcd =>
    rw [List.flatMap_cons, List.flatMap_cons]
    exact utf8EncodeChar_append_lt hcd _ _
  | cons _ ih =>
    rw [List.flatMap_cons, List.flatMap_cons]
    exact List.append_left_lt ih

/-- **The order by bytes is the order by characters.** -/
theorem bytewise_iff_lt {a b : String} : Bytewise a b ↔ a < b := by
  have hmono : ∀ {a b : String}, a < b → bytes a < bytes b := by
    intro a b h
    rw [bytes_eq_flatMap, bytes_eq_flatMap]
    exact flatMap_utf8EncodeChar_lt (String.lt_iff.1 h)
  constructor
  · intro h
    -- Otherwise `b` is `a` or in front of it, and so are its bytes.
    refine String.not_le.1 fun hle => ?_
    by_cases hab : b = a
    · exact List.lt_irrefl _ (hab ▸ h)
    · have hba : b < a := String.not_le.1 fun hab' => hab (String.le_antisymm hle hab')
      exact List.lt_asymm h (hmono hba)
  · exact hmono

end Text
end RemoteModels

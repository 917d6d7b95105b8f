import RemoteModels.Proofs.Text.Bytewise
import RemoteModels.Text.Utf8

/-!
# Decoding is the inverse of encoding

Bytes are decoded piece by piece: the first byte of a piece says how many follow and in which bounds
the next one lies, and these bounds keep out encodings that are too long, halves of surrogate pairs
and numbers beyond the last character.  What is left are exactly the encodings of characters, so
that a text is decoded from its own bytes and from no others.

* `Text.lead?_eq_some_iff`, `Text.gather_succ_eq_some_iff` — what first bytes say, and what may
  follow them.
* `Text.nextPiece_eq_some_iff` — a piece is a character exactly if it is its encoding.
* `Text.strict_eq_some_iff` — bytes are decoded to the text of which they are the encoding.
-/

set_option autoImplicit false

namespace RemoteModels
namespace Text

/-! ## Pieces

Four readings of the first byte are possible, and each of them says what comes next.  The lemmas
turn the tests of the reader into inequalities. -/

/-- What each first byte says. -/
theorem lead?_eq_some_iff {b : Nat} {l : Lead} :
    lead? b = some l ↔
      b < 0x80 ∧ l = ⟨0, 0x80, 0xBF, b⟩ ∨
      (0xC2 ≤ b ∧ b < 0xE0) ∧ l = ⟨1, 0x80, 0xBF, b - 0xC0⟩ ∨
      (0xE0 ≤ b ∧ b < 0xF0) ∧
        l = ⟨2, if b = 0xE0 then 0xA0 else 0x80, if b = 0xED then 0x9F else 0xBF, b - 0xE0⟩ ∨
      (0xF0 ≤ b ∧ b < 0xF5) ∧
        l = ⟨3, if b = 0xF0 then 0x90 else 0x80, if b = 0xF4 then 0x8F else 0xBF, b - 0xF0⟩ := by
  unfold lead?
  grind

/-- Nothing more is to come. -/
theorem gather_zero_eq_some_iff {low high bits r : Nat} {bs rest : List UInt8} :
    gather 0 low high bits bs = (some r, rest) ↔ r = bits ∧ rest = bs := by
  simp [gather, eq_comm]

/-- The next byte lies in its bounds and brings six bits. -/
theorem gather_succ_eq_some_iff {n low high bits r : Nat} {bs rest : List UInt8} :
    gather (n + 1) low high bits bs = (some r, rest) ↔
      ∃ b more, bs = b :: more ∧ (low ≤ b.toNat ∧ b.toNat ≤ high) ∧
        gather n 0x80 0xBF (bits * 64 + (b.toNat - 0x80)) more = (some r, rest) := by
  cases bs with
  | nil => simp [gather]
  | cons b more =>
    rw [gather]
    constructor
    · intro h
      split at h
      · next hb => exact ⟨b, more, rfl, hb, h⟩
      · cases h
    · rintro ⟨b', more', ⟨⟩, hb, h⟩
      rwa [if_pos hb]

/-- A piece is a first byte with those that it asks for. -/
theorem nextPiece_eq_some {b : UInt8} {bs rest : List UInt8} {c : Char} :
    nextPiece b bs = (some c, rest) ↔
      ∃ l r, lead? b.toNat = some l ∧ gather l.count l.low l.high l.bits bs = (some r, rest) ∧
        Char.ofNat r = c := by
  rw [nextPiece]
  cases lead? b.toNat with
  | none => simp
  | some l =>
    simp only [Option.some.injEq, Prod.ext_iff, Option.map_eq_some_iff]
    constructor
    · rintro ⟨⟨r, hr, hc⟩, hrest⟩
      exact ⟨l, r, rfl, ⟨hr, hrest⟩, hc⟩
    · rintro ⟨_, r, rfl, ⟨hr, hrest⟩, hc⟩
      exact ⟨⟨r, hr, hc⟩, hrest⟩

/-! ## Encodings

The encoder of the library, by the number of bytes and with its shifts and masks as quotients and
remainders.  In this form both directions are arithmetic. -/

section Encodings

variable {c : Char} {n : Nat}

theorem utf8EncodeChar_one (hc : c.val.toNat = n) (h : n < 0x80) :
    String.utf8EncodeChar c = [UInt8.ofNat n] := by
  have h₁ : n ≤ 127 := by omega
  simp only [String.utf8EncodeChar, hc, h₁, if_true]

theorem utf8EncodeChar_two (hc : c.val.toNat = n) (h : 0x80 ≤ n ∧ n < 0x800) :
    String.utf8EncodeChar c = [UInt8.ofNat (n / 64 % 32 + 192), UInt8.ofNat (n % 64 + 128)] := by
  have h₁ : ¬ n ≤ 127 := by omega
  have h₂ : n ≤ 2047 := by omega
  simp only [String.utf8EncodeChar, hc, h₁, h₂, if_true, if_false]

theorem utf8EncodeChar_three (hc : c.val.toNat = n) (h : 0x800 ≤ n ∧ n < 0x10000) :
    String.utf8EncodeChar c = [UInt8.ofNat (n / 4096 % 16 + 224), UInt8.ofNat (n / 64 % 64 + 128),
      UInt8.ofNat (n % 64 + 128)] := by
  have h₁ : ¬ n ≤ 127 := by omega
  have h₂ : ¬ n ≤ 2047 := by omega
  have h₃ : n ≤ 65535 := by omega
  simp only [String.utf8EncodeChar, hc, h₁, h₂, h₃, if_true, if_false]

theorem utf8EncodeChar_four (hc : c.val.toNat = n) (h : 0x10000 ≤ n) :
    String.utf8EncodeChar c = [UInt8.ofNat (n / 262144 % 8 + 240),
      UInt8.ofNat (n / 4096 % 64 + 128), UInt8.ofNat (n / 64 % 64 + 128),
      UInt8.ofNat (n % 64 + 128)] := by
  have h₁ : ¬ n ≤ 127 := by omega
  have h₂ : ¬ n ≤ 2047 := by omega
  have h₃ : ¬ n ≤ 65535 := by omega
  simp only [String.utf8EncodeChar, hc, h₁, h₂, h₃, if_false]

end Encodings

/-! ## Characters

Decoding and encoding are compared length by length: four cases for each direction, of which the
bounds of the first byte pick one. -/

/-- The number of the character with a number. -/
theorem toNat_val_ofNat {n : Nat} (h : n.isValidChar) : (Char.ofNat n).val.toNat = n := by
  rw [Char.ofNat, dif_pos h]
  rfl

theorem eq_ofNat_of_toNat {b : UInt8} {n : Nat} (h : b.toNat = n) : b = UInt8.ofNat n := by
  rw [← h, UInt8.ofNat_toNat]

/-- A piece that is decoded to a character is the encoding of the character. -/
theorem encode_of_nextPiece {b : UInt8} {bs rest : List UInt8} {c : Char}
    (h : nextPiece b bs = (some c, rest)) : b :: bs = String.utf8EncodeChar c ++ rest := by
  obtain ⟨l, n, hl, hbs, rfl⟩ := nextPiece_eq_some.1 h
  rcases lead?_eq_some_iff.1 hl with ⟨hb, rfl⟩ | ⟨hb, rfl⟩ | ⟨hb, rfl⟩ | ⟨hb, rfl⟩ <;>
    dsimp only at hbs
  · obtain ⟨hn, rfl⟩ := gather_zero_eq_some_iff.1 hbs
    have hvalid : n.isValidChar := .inl (by omega)
    rw [utf8EncodeChar_one (toNat_val_ofNat hvalid) (by omega), ← eq_ofNat_of_toNat hn.symm]
    rfl
  · obtain ⟨b₁, _, rfl, hb₁, hbs⟩ := gather_succ_eq_some_iff.1 hbs
    obtain ⟨hn, rfl⟩ := gather_zero_eq_some_iff.1 hbs
    have hvalid : n.isValidChar := .inl (by omega)
    have h₀ : b = UInt8.ofNat (n / 64 % 32 + 192) := eq_ofNat_of_toNat (by omega)
    have h₁ : b₁ = UInt8.ofNat (n % 64 + 128) := eq_ofNat_of_toNat (by omega)
    rw [utf8EncodeChar_two (toNat_val_ofNat hvalid) (by omega), ← h₀, ← h₁]
    rfl
  · obtain ⟨b₁, _, rfl, hb₁, hbs⟩ := gather_succ_eq_some_iff.1 hbs
    obtain ⟨b₂, _, rfl, hb₂, hbs⟩ := gather_succ_eq_some_iff.1 hbs
    obtain ⟨hn, rfl⟩ := gather_zero_eq_some_iff.1 hbs
    -- The bounds of the second byte keep out shorter encodings and surrogates.
    have hrange : 0x800 ≤ n ∧ n < 0xD800 ∨ 0xDFFF < n ∧ n < 0x10000 := by
      split at hb₁ <;> split at hb₁ <;> omega
    have hvalid : n.isValidChar := hrange.imp And.right fun h => ⟨h.1, by omega⟩
    have hb₁ : 0x80 ≤ b₁.toNat ∧ b₁.toNat ≤ 0xBF := by
      split at hb₁ <;> split at hb₁ <;> omega
    have h₀ : b = UInt8.ofNat (n / 4096 % 16 + 224) := eq_ofNat_of_toNat (by omega)
    have h₁ : b₁ = UInt8.ofNat (n / 64 % 64 + 128) := eq_ofNat_of_toNat (by omega)
    have h₂ : b₂ = UInt8.ofNat (n % 64 + 128) := eq_ofNat_of_toNat (by omega)
    rw [utf8EncodeChar_three (toNat_val_ofNat hvalid) (by omega), ← h₀, ← h₁, ← h₂]
    rfl
  · obtain ⟨b₁, _, rfl, hb₁, hbs⟩ := gather_succ_eq_some_iff.1 hbs
    obtain ⟨b₂, _, rfl, hb₂, hbs⟩ := gather_succ_eq_some_iff.1 hbs
    obtain ⟨b₃, _, rfl, hb₃, hbs⟩ := gather_succ_eq_some_iff.1 hbs
    obtain ⟨hn, rfl⟩ := gather_zero_eq_some_iff.1 hbs
    -- Here they keep out shorter encodings and what is beyond the last character.
    have hrange : 0x10000 ≤ n ∧ n < 0x110000 := by
      split at hb₁ <;> split at hb₁ <;> omega
    have hvalid : n.isValidChar := .inr ⟨by omega, hrange.2⟩
    have hb₁ : 0x80 ≤ b₁.toNat ∧ b₁.toNat ≤ 0xBF := by
      split at hb₁ <;> split at hb₁ <;> omega
    have h₀ : b = UInt8.ofNat (n / 262144 % 8 + 240) := eq_ofNat_of_toNat (by omega)
    have h₁ : b₁ = UInt8.ofNat (n / 4096 % 64 + 128) := eq_ofNat_of_toNat (by omega)
    have h₂ : b₂ = UInt8.ofNat (n / 64 % 64 + 128) := eq_ofNat_of_toNat (by omega)
    have h₃ : b₃ = UInt8.ofNat (n % 64 + 128) := eq_ofNat_of_toNat (by omega)
    rw [utf8EncodeChar_four (toNat_val_ofNat hvalid) hrange.1, ← h₀, ← h₁, ← h₂, ← h₃]
    rfl

section Decoding

variable {n : Nat} (rest : List UInt8)

/-! ## From the number to the bytes

One lemma for each length: bytes that are built from a number by the rule of that length are decoded
to the number. -/

theorem toNat_ofNat_byte (h : n < 256) : (UInt8.ofNat n).toNat = n := UInt8.toNat_ofNat_of_lt' h

theorem nextPiece_one (h : n < 0x80) :
    nextPiece (UInt8.ofNat n) rest = (some (Char.ofNat n), rest) := by
  have hlead : lead? (UInt8.ofNat n).toNat = some ⟨0, 0x80, 0xBF, n⟩ := by
    rw [toNat_ofNat_byte (by omega)]
    exact lead?_eq_some_iff.2 (.inl ⟨h, rfl⟩)
  exact nextPiece_eq_some.2 ⟨_, n, hlead, gather_zero_eq_some_iff.2 ⟨rfl, rfl⟩, rfl⟩

theorem nextPiece_two (h : 0x80 ≤ n ∧ n < 0x800) :
    nextPiece (UInt8.ofNat (n / 64 % 32 + 192)) (UInt8.ofNat (n % 64 + 128) :: rest)
      = (some (Char.ofNat n), rest) := by
  have hlead : lead? (UInt8.ofNat (n / 64 % 32 + 192)).toNat
      = some ⟨1, 0x80, 0xBF, n / 64 % 32 + 192 - 0xC0⟩ := by
    rw [toNat_ofNat_byte (by omega)]
    exact lead?_eq_some_iff.2 (.inr (.inl ⟨by omega, rfl⟩))
  refine nextPiece_eq_some.2 ⟨_, n, hlead, ?_, rfl⟩
  refine gather_succ_eq_some_iff.2 ⟨_, _, rfl, ?_, gather_zero_eq_some_iff.2 ⟨?_, rfl⟩⟩ <;>
    rw [toNat_ofNat_byte (by omega)] <;> dsimp only <;> omega

theorem nextPiece_three (h : 0x800 ≤ n ∧ n < 0x10000) (hvalid : n.isValidChar) :
    nextPiece (UInt8.ofNat (n / 4096 % 16 + 224))
        (UInt8.ofNat (n / 64 % 64 + 128) :: UInt8.ofNat (n % 64 + 128) :: rest)
      = (some (Char.ofNat n), rest) := by
  have hscalar : n < 0xD800 ∨ 0xDFFF < n ∧ n < 0x110000 := hvalid
  refine nextPiece_eq_some.2 ⟨_, n, lead?_eq_some_iff.2 (.inr (.inr (.inl ⟨?_, rfl⟩))), ?_, rfl⟩
  · rw [toNat_ofNat_byte (by omega)]
    omega
  rw [toNat_ofNat_byte (by omega)]
  refine gather_succ_eq_some_iff.2 ⟨_, _, rfl, ?_, gather_succ_eq_some_iff.2 ⟨_, _, rfl, ?_,
    gather_zero_eq_some_iff.2 ⟨?_, rfl⟩⟩⟩
  · rw [toNat_ofNat_byte (by omega)]
    dsimp only
    split <;> split <;> omega
  · rw [toNat_ofNat_byte (by omega)]
    omega
  · rw [toNat_ofNat_byte (by omega), toNat_ofNat_byte (by omega)]
    dsimp only
    omega

theorem nextPiece_four (h : 0x10000 ≤ n) (hvalid : n.isValidChar) :
    nextPiece (UInt8.ofNat (n / 262144 % 8 + 240))
        (UInt8.ofNat (n / 4096 % 64 + 128) :: UInt8.ofNat (n / 64 % 64 + 128) ::
          UInt8.ofNat (n % 64 + 128) :: rest)
      = (some (Char.ofNat n), rest) := by
  have hscalar : n < 0xD800 ∨ 0xDFFF < n ∧ n < 0x110000 := hvalid
  refine nextPiece_eq_some.2 ⟨_, n, lead?_eq_some_iff.2 (.inr (.inr (.inr ⟨?_, rfl⟩))), ?_, rfl⟩
  · rw [toNat_ofNat_byte (by omega)]
    omega
  rw [toNat_ofNat_byte (by omega)]
  refine gather_succ_eq_some_iff.2 ⟨_, _, rfl, ?_, gather_succ_eq_some_iff.2 ⟨_, _, rfl, ?_,
    gather_succ_eq_some_iff.2 ⟨_, _, rfl, ?_, gather_zero_eq_some_iff.2 ⟨?_, rfl⟩⟩⟩⟩
  · rw [toNat_ofNat_byte (by omega)]
    dsimp only
    split <;> split <;> omega
  · rw [toNat_ofNat_byte (by omega)]
    omega
  · rw [toNat_ofNat_byte (by omega)]
    omega
  · rw [toNat_ofNat_byte (by omega), toNat_ofNat_byte (by omega), toNat_ofNat_byte (by omega)]
    dsimp only
    omega

end Decoding

/-- The encoding of a character is decoded to the character, whatever follows. -/
theorem nextPiece_of_encode {b : UInt8} {bs rest : List UInt8} {c : Char}
    (h : b :: bs = String.utf8EncodeChar c ++ rest) : nextPiece b bs = (some c, rest) := by
  obtain ⟨n, hn⟩ : ∃ n, c.val.toNat = n := ⟨_, rfl⟩
  have hvalid : n.isValidChar := hn ▸ c.valid
  rw [show c = Char.ofNat n from hn ▸ (Char.ofNat_toNat c).symm]
  rcases Nat.lt_or_ge n 0x80 with h₁ | h₁
  · rw [utf8EncodeChar_one hn h₁] at h
    cases h
    exact nextPiece_one rest h₁
  rcases Nat.lt_or_ge n 0x800 with h₂ | h₂
  · rw [utf8EncodeChar_two hn ⟨h₁, h₂⟩] at h
    cases h
    exact nextPiece_two rest ⟨h₁, h₂⟩
  rcases Nat.lt_or_ge n 0x10000 with h₃ | h₃
  · rw [utf8EncodeChar_three hn ⟨h₂, h₃⟩] at h
    cases h
    exact nextPiece_three rest ⟨h₂, h₃⟩ hvalid
  · rw [utf8EncodeChar_four hn h₃] at h
    cases h
    exact nextPiece_four rest h₃ hvalid

/-- **A piece is a character exactly if it is its encoding.** -/
theorem nextPiece_eq_some_iff {b : UInt8} {bs rest : List UInt8} {c : Char} :
    nextPiece b bs = (some c, rest) ↔ b :: bs = String.utf8EncodeChar c ++ rest :=
  ⟨encode_of_nextPiece, nextPiece_of_encode⟩

/-! ## Texts

A text is its pieces, one after the other, and a failed piece is no character. -/

theorem pieces_cons (b : UInt8) (bs : List UInt8) :
    pieces (b :: bs) = (nextPiece b bs).1 :: pieces (nextPiece b bs).2 := by
  rw [pieces]

/-- The encoding of a character is one piece. -/
theorem pieces_encode (c : Char) (rest : List UInt8) :
    pieces (String.utf8EncodeChar c ++ rest) = some c :: pieces rest := by
  cases h : String.utf8EncodeChar c ++ rest with
  | nil => simp at h
  | cons b bs => rw [pieces_cons, nextPiece_eq_some_iff.2 h.symm]

/-- Bytes fall into characters exactly if they are their encodings. -/
theorem pieces_eq_map_some_iff {bytes : List UInt8} {cs : List Char} :
    pieces bytes = cs.map some ↔ bytes = cs.flatMap String.utf8EncodeChar := by
  induction cs generalizing bytes with
  | nil =>
    cases bytes with
    | nil => simp [pieces]
    | cons b bs => simp [pieces_cons]
  | cons c cs ih =>
    rw [List.map_cons, List.flatMap_cons]
    constructor
    · intro h
      cases bytes with
      | nil => simp [pieces] at h
      | cons b bs =>
        rw [pieces_cons, List.cons.injEq] at h
        have hpiece : nextPiece b bs = (some c, (nextPiece b bs).2) := Prod.ext h.1 rfl
        rw [nextPiece_eq_some_iff.1 hpiece]
        exact congrArg _ (ih.1 h.2)
    · rintro rfl
      rw [pieces_encode, ih.2 rfl]

/-- A list of options is one of values if none is missing. -/
theorem mapM_id_eq_some_iff {α : Type} {l : List (Option α)} {xs : List α} :
    l.mapM id = some xs ↔ l = xs.map some := by
  induction l generalizing xs with
  | nil => cases xs <;> simp
  | cons x l ih =>
    cases x with
    | none => cases xs <;> simp
    | some x =>
      cases xs with
      | nil => simp [Option.bind_eq_some_iff]
      | cons y ys => simp [Option.bind_eq_some_iff, ih, and_left_comm]

/-- **Bytes are decoded to the text of which they are the encoding.** -/
theorem strict_eq_some_iff {encoded : List UInt8} {text : String} :
    strict encoded = some text ↔ encoded = bytes text := by
  rw [bytes_eq_flatMap, ← pieces_eq_map_some_iff, strict, Option.map_eq_some_iff]
  constructor
  · rintro ⟨cs, hcs, rfl⟩
    rw [String.toList_ofList]
    exact mapM_id_eq_some_iff.1 hcs
  · intro h
    exact ⟨text.toList, mapM_id_eq_some_iff.2 h, String.ofList_toList⟩

/-- Bytes that are no encoding are not decoded. -/
theorem strict_eq_none_iff {encoded : List UInt8} :
    strict encoded = none ↔ ∀ text, encoded ≠ bytes text := by
  rw [← Option.not_isSome_iff_eq_none, Option.isSome_iff_exists, not_exists]
  exact forall_congr' fun _ => not_congr strict_eq_some_iff

end Text
end RemoteModels

import Mathlib
import TreeDigest.Text.Utf8

/-!
Reading a text back from its bytes.

The bytes of a text are those of its characters one after another. What tells a reader how long a
character is are the bounds of its first byte, and after that of the second one, where the bounds
keep out overlong forms and surrogates; so each piece that is read is the next character.

* `nextPiece_encoded` reads one character, by the length of its encoding.
* `lossy_utf8` and `decode_utf8`: reading the bytes of a text gives the text.
-/

namespace TreeDigest

namespace Text

/-! ### Single bytes -/

/-- The number of a byte that is given by its number. -/
lemma toNat_byte {n : ℕ} (hn : n < 256) : (UInt8.ofNat n).toNat = n := UInt8.toNat_ofNat_of_lt hn

lemma within_ofNat {low high : UInt8} {n : ℕ} (hn : n < 256) :
    within low high (.ofNat n) = true ↔ low.toNat ≤ n ∧ n ≤ high.toNat := by
  rw [within, Bool.and_eq_true, decide_eq_true_iff, decide_eq_true_iff, UInt8.le_iff_toNat_le,
    UInt8.le_iff_toNat_le, toNat_byte hn]

/-- A byte for the lowest six bits of a number continues a character. -/
lemma isTail_ofNat (n : ℕ) : isTail (.ofNat (n % 64 + 128)) = true := by
  have hmod : n % 64 < 64 := Nat.mod_lt n (by decide)
  rw [isTail, within_ofNat (by omega)]
  change 128 ≤ n % 64 + 128 ∧ n % 64 + 128 ≤ 191
  omega

/-- Such a byte gives these bits back. -/
lemma addTail_ofNat (value n : ℕ) :
    addTail value (.ofNat (n % 64 + 128)) = value * 64 + n % 64 := by
  have hmod : n % 64 < 64 := Nat.mod_lt n (by decide)
  have hbyte : (UInt8.ofNat (n % 64 + 128)).toNat = n % 64 + 128 := toNat_byte (by omega)
  unfold addTail
  rw [hbyte, Nat.add_sub_cancel]

/-! ### Characters -/

variable {c : Char} (rest : Bytes)

/-- A character of one byte. -/
lemma nextPiece_one (hc : c.toNat ≤ 0x7F) :
    nextPiece (.ofNat c.toNat) rest = (.char c, rest) := by
  have hbyte : (UInt8.ofNat c.toNat).toNat = c.toNat := toNat_byte (by omega)
  have hlt : UInt8.ofNat c.toNat < 0x80 := by
    rw [UInt8.lt_iff_toNat_lt, hbyte]
    exact Nat.lt_succ_of_le hc
  rw [nextPiece, if_pos hlt, hbyte, Char.ofNat_toNat]

/-- A first byte of a longer character is none of one byte. -/
lemma not_lt_ofNat {n : ℕ} (hlow : 0x80 ≤ n) (hn : n < 256) : ¬ UInt8.ofNat n < 0x80 := by
  rw [UInt8.lt_iff_toNat_lt, toNat_byte hn]
  exact Nat.not_lt.mpr hlow

/-- A character of two bytes. -/
lemma nextPiece_two (hlow : 0x7F < c.toNat) (hhigh : c.toNat ≤ 0x7FF) :
    nextPiece (.ofNat (c.toNat / 64 % 0x20 + 0xC0)) (.ofNat (c.toNat % 64 + 0x80) :: rest)
      = (.char c, rest) := by
  have hfirst : c.toNat / 64 % 0x20 = c.toNat / 64 := by omega
  have hbyte : (UInt8.ofNat (c.toNat / 64 + 0xC0)).toNat = c.toNat / 64 + 0xC0 :=
    toNat_byte (by omega)
  have htwo : within 0xC2 0xDF (.ofNat (c.toNat / 64 + 0xC0)) = true := by
    rw [within_ofNat (by omega)]
    change 0xC2 ≤ c.toNat / 64 + 0xC0 ∧ c.toNat / 64 + 0xC0 ≤ 0xDF
    omega
  have hvalue : (c.toNat / 64 + 0xC0 - 0xC0) * 64 + c.toNat % 64 = c.toNat := by omega
  rw [hfirst, nextPiece, if_neg (not_lt_ofNat (by omega) (by omega)), if_pos htwo, twoBytes,
    if_pos (isTail_ofNat _), addTail_ofNat, hbyte, hvalue, Char.ofNat_toNat]

/-- A first byte of three or four is none of two. -/
lemma not_within_two {n : ℕ} (hlow : 0xE0 ≤ n) (hn : n < 256) :
    ¬ within 0xC2 0xDF (.ofNat n) = true := by
  rw [within_ofNat hn]
  change ¬ (0xC2 ≤ n ∧ n ≤ 0xDF)
  omega

/-- The bounds of a second byte in numbers: only after four of the first bytes they are not those
of every continuation. -/
lemma within_secondBounds {n m : ℕ} (hn : n < 256) (hm : m < 256) (hlow : 0x80 ≤ m)
    (hhigh : m ≤ 0xBF) (h₁ : n = 0xE0 → 0xA0 ≤ m) (h₂ : n = 0xED → m ≤ 0x9F)
    (h₃ : n = 0xF0 → 0x90 ≤ m) (h₄ : n = 0xF4 → m ≤ 0x8F) :
    within (secondBounds (.ofNat n)).1 (secondBounds (.ofNat n)).2 (.ofNat m) = true := by
  have hsame : ∀ k : ℕ, k < 256 → (UInt8.ofNat n = .ofNat k ↔ n = k) := by
    intro k hk
    rw [← UInt8.toNat_inj, toNat_byte hn, toNat_byte hk]
  rw [within_ofNat hm, secondBounds]
  split
  · next heq => exact ⟨h₁ ((hsame 0xE0 (by decide)).mp heq), hhigh⟩
  split
  · next heq => exact ⟨hlow, h₂ ((hsame 0xED (by decide)).mp heq)⟩
  split
  · next heq => exact ⟨h₃ ((hsame 0xF0 (by decide)).mp heq), hhigh⟩
  split
  · next heq => exact ⟨hlow, h₄ ((hsame 0xF4 (by decide)).mp heq)⟩
  · exact ⟨hlow, hhigh⟩

/-- A character of three bytes. -/
lemma nextPiece_three (hlow : 0x7FF < c.toNat) (hhigh : c.toNat ≤ 0xFFFF) :
    nextPiece (.ofNat (c.toNat / 4096 % 0x10 + 0xE0))
        (.ofNat (c.toNat / 64 % 64 + 0x80) :: .ofNat (c.toNat % 64 + 0x80) :: rest)
      = (.char c, rest) := by
  have hscalar : c.toNat < 0xD800 ∨ 0xDFFF < c.toNat ∧ c.toNat < 0x110000 := c.valid
  have hfirst : c.toNat / 4096 % 0x10 = c.toNat / 4096 := by omega
  have hbyte : (UInt8.ofNat (c.toNat / 4096 + 0xE0)).toNat = c.toNat / 4096 + 0xE0 :=
    toNat_byte (by omega)
  have hthree : within 0xE0 0xEF (.ofNat (c.toNat / 4096 + 0xE0)) = true := by
    rw [within_ofNat (by omega)]
    change 0xE0 ≤ c.toNat / 4096 + 0xE0 ∧ c.toNat / 4096 + 0xE0 ≤ 0xEF
    omega
  have hsecond := within_secondBounds (n := c.toNat / 4096 + 0xE0) (m := c.toNat / 64 % 64 + 0x80)
    (by omega) (by omega) (by omega) (by omega) (by omega) (by omega) (by omega) (by omega)
  have hvalue : ((c.toNat / 4096 + 0xE0 - 0xE0) * 64 + c.toNat / 64 % 64) * 64 + c.toNat % 64
      = c.toNat := by omega
  rw [hfirst, nextPiece, if_neg (not_lt_ofNat (by omega) (by omega)),
    if_neg (not_within_two (by omega) (by omega)), if_pos hthree, threeBytes, if_pos hsecond]
  simp only [isTail_ofNat, if_true, addTail_ofNat, hbyte, hvalue, Char.ofNat_toNat]

/-- A character of four bytes. -/
lemma nextPiece_four (hlow : 0xFFFF < c.toNat) :
    nextPiece (.ofNat (c.toNat / 262144 % 0x08 + 0xF0))
        (.ofNat (c.toNat / 4096 % 64 + 0x80) :: .ofNat (c.toNat / 64 % 64 + 0x80)
          :: .ofNat (c.toNat % 64 + 0x80) :: rest)
      = (.char c, rest) := by
  have hscalar : c.toNat < 0xD800 ∨ 0xDFFF < c.toNat ∧ c.toNat < 0x110000 := c.valid
  have hfirst : c.toNat / 262144 % 0x08 = c.toNat / 262144 := by omega
  have hbyte : (UInt8.ofNat (c.toNat / 262144 + 0xF0)).toNat = c.toNat / 262144 + 0xF0 :=
    toNat_byte (by omega)
  have hfour : within 0xF0 0xF4 (.ofNat (c.toNat / 262144 + 0xF0)) = true := by
    rw [within_ofNat (by omega)]
    change 0xF0 ≤ c.toNat / 262144 + 0xF0 ∧ c.toNat / 262144 + 0xF0 ≤ 0xF4
    omega
  have hthree : ¬ within 0xE0 0xEF (.ofNat (c.toNat / 262144 + 0xF0)) = true := by
    rw [within_ofNat (by omega)]
    change ¬ (0xE0 ≤ c.toNat / 262144 + 0xF0 ∧ c.toNat / 262144 + 0xF0 ≤ 0xEF)
    omega
  have hsecond := within_secondBounds (n := c.toNat / 262144 + 0xF0)
    (m := c.toNat / 4096 % 64 + 0x80)
    (by omega) (by omega) (by omega) (by omega) (by omega) (by omega) (by omega) (by omega)
  have hvalue : (((c.toNat / 262144 + 0xF0 - 0xF0) * 64 + c.toNat / 4096 % 64) * 64
      + c.toNat / 64 % 64) * 64 + c.toNat % 64 = c.toNat := by omega
  rw [hfirst, nextPiece, if_neg (not_lt_ofNat (by omega) (by omega)),
    if_neg (not_within_two (by omega) (by omega)), if_neg hthree, if_pos hfour, fourBytes,
    if_pos hsecond]
  simp only [isTail_ofNat, if_true, addTail_ofNat, hbyte, hvalue, Char.ofNat_toNat]

/-- **The first piece of an encoded character is the character.** -/
lemma nextPiece_encoded (c : Char) (rest : Bytes) :
    ∃ a tail, String.utf8EncodeChar c = a :: tail
      ∧ nextPiece a (tail ++ rest) = (.char c, rest) := by
  have hnat : c.val.toNat = c.toNat := rfl
  rw [String.utf8EncodeChar, hnat]
  split
  · next hone => exact ⟨_, _, rfl, nextPiece_one rest hone⟩
  split
  · next hone htwo => exact ⟨_, _, rfl, nextPiece_two rest (by omega) htwo⟩
  split
  · next hone htwo hthree => exact ⟨_, _, rfl, nextPiece_three rest (by omega) hthree⟩
  · next hone htwo hthree => exact ⟨_, _, rfl, nextPiece_four rest (by omega)⟩

/-- A byte below 0x80 stands in the encoding of one character only, the one it numbers. -/
lemma ofNat_eq_of_mem_encoded {b : UInt8} {c : Char} (hb : b ∈ String.utf8EncodeChar c)
    (hlow : b < 0x80) : Char.ofNat b.toNat = c := by
  have hhigh : ∀ n, 0x80 ≤ n → n < 256 → b ≠ UInt8.ofNat n := by
    rintro n hn hn' rfl
    exact not_lt_ofNat hn hn' hlow
  have hnat : c.val.toNat = c.toNat := rfl
  rw [String.utf8EncodeChar, hnat] at hb
  split at hb
  · next hone =>
      rw [List.mem_singleton] at hb
      rw [hb, toNat_byte (by omega), Char.ofNat_toNat]
  · exfalso
    split at hb
    · simp only [List.mem_cons, List.not_mem_nil, or_false] at hb
      rcases hb with hb | hb
      · exact hhigh _ (by omega) (by omega) hb
      · exact hhigh _ (by omega) (by omega) hb
    split at hb
    · simp only [List.mem_cons, List.not_mem_nil, or_false] at hb
      rcases hb with hb | hb | hb
      · exact hhigh _ (by omega) (by omega) hb
      · exact hhigh _ (by omega) (by omega) hb
      · exact hhigh _ (by omega) (by omega) hb
    · simp only [List.mem_cons, List.not_mem_nil, or_false] at hb
      rcases hb with hb | hb | hb | hb
      · exact hhigh _ (by omega) (by omega) hb
      · exact hhigh _ (by omega) (by omega) hb
      · exact hhigh _ (by omega) (by omega) hb
      · exact hhigh _ (by omega) (by omega) hb

/-! ### Texts -/

/-- The pieces of encoded characters are the characters. -/
lemma pieces_encoded (cs : List Char) :
    pieces (cs.flatMap String.utf8EncodeChar) = cs.map .char := by
  induction cs with
  | nil => rw [List.flatMap_nil, pieces, List.map_nil]
  | cons c cs ih =>
      obtain ⟨a, tail, hc, hnext⟩ := nextPiece_encoded c (cs.flatMap String.utf8EncodeChar)
      rw [List.flatMap_cons, hc, List.cons_append, pieces, hnext, List.map_cons, ih]

/-- The bytes of a text are those of its characters. -/
lemma utf8_eq (s : String) : utf8 s = s.toList.flatMap String.utf8EncodeChar := by
  have hs : s.toByteArray = s.toList.utf8Encode := by
    conv_lhs => rw [← String.ofList_toList (s := s), String.toByteArray_ofList]
  change s.toByteArray.data.toList = _
  rw [hs, List.utf8Encode, List.toList_data_toByteArray]

/-- A text has the characters that the bytes below 0x80 of its encoding number. -/
lemma ofNat_mem_of_mem_utf8 {b : UInt8} {s : String} (hb : b ∈ utf8 s) (hlow : b < 0x80) :
    Char.ofNat b.toNat ∈ s.toList := by
  rw [utf8_eq, List.mem_flatMap] at hb
  obtain ⟨c, hc, hb⟩ := hb
  rw [ofNat_eq_of_mem_encoded hb hlow]
  exact hc

/-- **Reading the bytes of a text gives the text.** -/
theorem lossy_utf8 (s : String) : lossy (utf8 s) = s := by
  have hshown : Piece.shown ∘ Piece.char = id := rfl
  rw [lossy, utf8_eq, pieces_encoded, List.map_map, hshown, List.map_id, String.ofList_toList]

/-- Characters are read as they are. -/
lemma characters_char (index : ℕ) (cs : List Char) :
    characters index (cs.map .char) = .ok cs := by
  induction cs generalizing index with
  | nil => rfl
  | cons c cs ih => rw [List.map_cons, characters, ih]; rfl

/-- **The bytes of a text are decoded to it.** -/
lemma decode_utf8 (s : String) : decode (utf8 s) = .ok s := by
  rw [decode, utf8_eq, pieces_encoded, characters_char, Except.map, String.ofList_toList]

/-- A character has at most four bytes. -/
lemma length_utf8_le (s : String) : (utf8 s).length ≤ 4 * s.toList.length := by
  rw [utf8_eq, List.length_flatMap]
  calc (s.toList.map fun c => (String.utf8EncodeChar c).length).sum
      ≤ (s.toList.map fun _ => 4).sum := List.sum_le_sum fun c _ => by
        rw [String.length_utf8EncodeChar]
        exact c.utf8Size_le_four
    _ = 4 * s.toList.length := by simp [mul_comm]

end Text

end TreeDigest

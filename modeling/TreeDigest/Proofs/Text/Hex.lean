import Mathlib
import TreeDigest.Digest
import TreeDigest.Proofs.Hashing.Encoding

/-!
Hexadecimal text names one byte string.

* `Hex.decode?_encode`: what is written is read back.
* `Digest.hex_injective` and `Digest.length_hex`: the digits of a digest determine it, and there are
  always sixty-four of them.
* `Hex.isSome_value?_of_mem_chars`: nothing but digits is written.
-/

namespace TreeDigest

namespace Text.Hex

/-- A digit has the value that it is written for. -/
lemma value?_digit {n : ℕ} (hn : n < 16) : value? (digit n) = some n := by
  interval_cases n <;> rfl

/-- So has the digit in upper case. -/
lemma value?_toUpper_digit {n : ℕ} (hn : n < 16) : value? (digit n).toUpper = some n := by
  interval_cases n <;> decide

lemma div_lt_sixteen (b : UInt8) : b.toNat / 16 < 16 := by
  have hb := b.toNat_lt
  omega

/-- **Bytes that are written in digits are read back.** -/
lemma decodeChars_chars (bytes : Bytes) : decodeChars (chars bytes) = some bytes := by
  induction bytes with
  | nil => rfl
  | cons b bytes ih =>
      have hbyte : UInt8.ofNat (b.toNat / 16 * 16 + b.toNat % 16) = b := by
        rw [Nat.div_add_mod', UInt8.ofNat_toNat]
      have hchars : chars (b :: bytes)
          = digit (b.toNat / 16) :: digit (b.toNat % 16) :: chars bytes := rfl
      rw [hchars, decodeChars, value?_digit (div_lt_sixteen b),
        value?_digit (Nat.mod_lt _ (by decide)), ih]
      exact congrArg (fun b => some (b :: bytes)) hbyte

lemma decode?_encode (bytes : Bytes) : decode? (encode bytes) = some bytes := by
  rw [decode?, encode, String.toList_ofList, decodeChars_chars]

lemma encode_injective : Function.Injective encode := by
  intro a b hab
  have hread := congrArg decode? hab
  rwa [decode?_encode, decode?_encode, Option.some.injEq] at hread

lemma length_chars (bytes : Bytes) : (chars bytes).length = 2 * bytes.length := by
  induction bytes with
  | nil => rfl
  | cons b bytes ih =>
      rw [chars, List.flatMap_cons, List.length_append, ← chars, ih, List.length_cons]
      simp only [ofByte, List.length_cons, List.length_nil]
      omega

/-- Nothing but digits is written. -/
lemma isSome_value?_of_mem_chars {bytes : Bytes} {c : Char} (hc : c ∈ chars bytes) :
    (value? c).isSome := by
  obtain ⟨b, -, hc⟩ := List.mem_flatMap.mp hc
  simp only [ofByte, List.mem_cons, List.not_mem_nil, or_false] at hc
  rcases hc with rfl | rfl
  · rw [value?_digit (div_lt_sixteen b)]
    rfl
  · rw [value?_digit (Nat.mod_lt _ (by decide))]
    rfl

end Text.Hex

namespace Digest

lemma toList_hex (d : Digest) : d.hex.toList = Text.Hex.chars d.toBytes := String.toList_ofList

lemma length_hex (d : Digest) : d.hex.toList.length = 64 := by
  rw [toList_hex, Text.Hex.length_chars, length_toBytes]

lemma hex_injective : Function.Injective hex :=
  Text.Hex.encode_injective.comp toBytes_injective

end Digest

end TreeDigest

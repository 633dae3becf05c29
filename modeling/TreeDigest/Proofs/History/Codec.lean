import TreeDigest.History.Codec
import TreeDigest.Proofs.Hashing.Encoding
import TreeDigest.Proofs.Instant.Rfc3339
import TreeDigest.Proofs.Text.Utf8

/-!
Records are read back from their stored form.

Each field is read back whatever follows it, so the fields can be read one after the other. The
time is a text behind its length; the text of an instant is short, so its length fits the eight
bytes.

* `fromLittleEndian_littleEndian64`, `decodeDigest_encodeDigest` and `decodeText_encodeText`: the
  fields.
* `decode_encode`: the record.
* `told` is the record that the stored form of any record tells.
-/

namespace TreeDigest

namespace Instant

/-- A number below a power of ten has few digits. -/
lemma length_padded_le (width : ℕ) {n k : ℕ} (hk : 0 < k) (hn : n < 10 ^ k) :
    (padded width n).length ≤ max width k := by
  have hle := (Nat.length_toDigits_le_iff (b := 10) (by decide) hk).mpr hn
  simp only [padded, List.length_append, List.length_replicate]
  omega

lemma length_fractionChars_le {nanos : ℕ} (hnanos : nanos < billion) :
    (fractionChars nanos).length ≤ 10 := by
  have hwidth : ∀ width ≤ 9, ∀ n ≤ nanos, ('.' :: padded width n).length ≤ 10 := by
    intro width hwidth n hn
    have := length_padded_le width (k := 9) (by decide) (hn.trans_lt hnanos)
    rw [List.length_cons]
    omega
  rw [fractionChars]
  split_ifs
  · exact Nat.zero_le _
  · exact hwidth 3 (by decide) _ (Nat.div_le_self _ _)
  · exact hwidth 6 (by decide) _ (Nat.div_le_self _ _)
  · exact hwidth 9 (by decide) _ le_rfl

lemma length_yearChars_le {y : ℤ} (hlow : Date.minYear ≤ y) (hhigh : y ≤ Date.maxYear) :
    (yearChars y).length ≤ 7 := by
  have hmin : Date.minYear = -262143 := rfl
  have hmax : Date.maxYear = 262142 := rfl
  have := length_padded_le 4 (n := y.natAbs) (k := 6) (by decide) (by omega)
  rw [yearChars]
  split <;> simp <;> omega

/-- The text of an instant is short. -/
lemma length_storedText_le {t : Instant} (ht : t.isValid = true) :
    t.storedText.toList.length ≤ 40 := by
  have hdate := isValid_date ht
  have hsecond := t.secondOfDay_lt
  have hfraction := length_fractionChars_le (fraction_lt ht)
  have hdays := daysIn_le t.date.year t.date.month
  simp only [Date.isValid, Bool.and_eq_true, decide_eq_true_eq] at hdate
  obtain ⟨⟨⟨⟨⟨hlow, hhigh⟩, -⟩, hmonth⟩, -⟩, hday⟩ := hdate
  have hyear := length_yearChars_le hlow hhigh
  have hfield : ∀ n < 100, (padded 2 n).length ≤ 2 := fun n hn =>
    length_padded_le 2 (k := 2) (by decide) hn
  have hmonth := hfield t.date.month (by omega)
  have hday := hfield t.date.day (by omega)
  have hhour := hfield (t.secondOfDay / 3600) (by omega)
  have hminute := hfield (t.secondOfDay / 60 % 60) (by omega)
  have hlast := hfield (t.secondOfDay % 60 + if billion ≤ t.nanos then 1 else 0)
    (by split <;> omega)
  rw [storedText, String.toList_ofList, localChars_append]
  simp only [List.length_append, List.length_cons, List.length_nil]
  omega

/-- The length of the text of an instant fits eight bytes. -/
lemma byteLength_storedText_lt {t : Instant} (ht : t.isValid = true) :
    Text.byteLength t.storedText < 2 ^ 64 := by
  have hshort : t.storedText.toList.length ≤ 40 := length_storedText_le ht
  have hbytes := Text.length_utf8_le t.storedText
  rw [Text.length_utf8] at hbytes
  omega

end Instant

namespace Record

variable {rest : Bytes}

lemma length_littleEndian64 (n : ℕ) : (littleEndian64 n).length = 8 := rfl

/-- A number is read back from its eight bytes. -/
lemma fromLittleEndian_littleEndian64 {n : ℕ} (hn : n < 2 ^ 64) :
    fromLittleEndian (littleEndian64 n) = n := by
  simp only [littleEndian64, bigEndian64, fromLittleEndian, List.map_cons, List.map_nil,
    List.reverse_cons, List.reverse_nil, List.nil_append, List.cons_append, List.foldr_cons,
    List.foldr_nil, UInt8.toNat_ofNat', Nat.shiftRight_eq_div_pow]
  omega

lemma takeBytes_append {n : ℕ} {bytes : Bytes} (hn : bytes.length = n) (rest : Bytes) :
    takeBytes n (bytes ++ rest) = .ok (bytes, rest) := by
  subst hn
  simp [takeBytes]

lemma ofBytes?_toBytes (d : Digest) : Digest.ofBytes? d.toBytes = some d := by
  obtain ⟨⟨bytes, hbytes⟩⟩ := d
  simp [Digest.ofBytes?, Digest.toBytes, hbytes]

/-- A digest is read back, and so is its absence. -/
lemma decodeDigest_encodeDigest (d : Option Digest) (rest : Bytes) :
    decodeDigest (encodeDigest d ++ rest) = .ok (d, rest) := by
  cases d with
  | none => rfl
  | some d =>
      have htake := takeBytes_append d.length_toBytes rest
      simp [encodeDigest, decodeDigest, htake, ofBytes?_toBytes, bind, Except.bind, pure,
        Except.pure]

/-- A text is read back. -/
lemma decodeText_encodeText {s : String} (hs : Text.byteLength s < 2 ^ 64) (rest : Bytes) :
    decodeText (encodeText s ++ rest) = .ok (s, rest) := by
  have hsize := takeBytes_append (length_littleEndian64 (Text.byteLength s))
    (Text.utf8 s ++ rest)
  have henough : ¬ (Text.utf8 s ++ rest).length < Text.byteLength s := by simp
  have htake : (Text.utf8 s ++ rest).take (Text.byteLength s) = Text.utf8 s :=
    List.take_left' (Text.length_utf8 s)
  have hdrop : (Text.utf8 s ++ rest).drop (Text.byteLength s) = rest :=
    List.drop_left' (Text.length_utf8 s)
  rw [encodeText, List.append_assoc, decodeText, hsize]
  simp only [bind, Except.bind, fromLittleEndian_littleEndian64 hs, if_neg henough, htake, hdrop,
    Text.decode_utf8]
  rfl

/-- A truth value is read back. -/
lemma decodeTruth_encodeTruth (b : Bool) (rest : Bytes) :
    decodeTruth (encodeTruth b ++ rest) = .ok (b, rest) := by
  cases b <;> rfl

/-- **A record is read back from its stored form**, whatever follows it. -/
theorem decode_encode {r : Record} (hr : r.recordedAt.isValid = true) (rest : Bytes) :
    decode (r.encode ++ rest) = .ok r := by
  have hdigest := decodeDigest_encodeDigest r.digest
  have htext := decodeText_encodeText (Instant.byteLength_storedText_lt hr)
  have htime : decodeTime r.recordedAt.storedText = .ok r.recordedAt := by
    rw [decodeTime, Instant.parse_storedText hr]
  have htruth := decodeTruth_encodeTruth r.successful rest
  simp only [encode, decode, List.append_assoc, hdigest, htext, htime, htruth, bind, Except.bind,
    pure, Except.pure]

/-- The record with the instant that its text tells. -/
def told (r : Record) : Record := { r with recordedAt := r.recordedAt.told }

variable {r : Record}

end Record

end TreeDigest

import TreeDigest.Proofs.Builder.NameOrder

/-!
The bytes of a directory's message can be read in one way only.

A text is preceded by its length in eight bytes and a digest always has thirty-two, so
the message of a directory is a row of fields whose ends are known from what came
before them, whatever bytes the names are made of.

* `bigEndian64_inj`: the eight bytes of a number below 2⁶⁴ determine it.
* `encode_text_append_inj`: the bytes of a text determine the text and what follows.
* `directoryBytes_inj`: the bytes of a directory's message determine the names and digests
  of its children, in order.
-/

namespace TreeDigest

/-! ### The fields -/

@[simp] lemma length_bigEndian64 (n : ℕ) : (bigEndian64 n).length = 8 := rfl

/-- Two numbers that agree above a byte and in it agree from that byte on. -/
lemma div_two_pow_eq {m n k : ℕ} (habove : m / 2 ^ (k + 8) = n / 2 ^ (k + 8))
    (hbyte : m / 2 ^ k % 256 = n / 2 ^ k % 256) : m / 2 ^ k = n / 2 ^ k := by
  rw [Nat.pow_add, ← Nat.div_div_eq_div_mul, ← Nat.div_div_eq_div_mul] at habove
  omega

/-- The eight bytes of a number below 2⁶⁴ determine it. -/
lemma bigEndian64_inj {m n : ℕ} (hm : m < 2 ^ 64) (hn : n < 2 ^ 64)
    (h : bigEndian64 m = bigEndian64 n) : m = n := by
  simp only [bigEndian64, List.map_cons, List.map_nil, List.cons.injEq, and_true,
    ← UInt8.toNat_inj, UInt8.toNat_ofNat', Nat.shiftRight_eq_div_pow] at h
  obtain ⟨h7, h6, h5, h4, h3, h2, h1, h0⟩ := h
  have habove : m / 2 ^ 64 = n / 2 ^ 64 := by rw [Nat.div_eq_of_lt hm, Nat.div_eq_of_lt hn]
  -- from the highest byte down, each byte extends the agreement
  have hall := div_two_pow_eq (k := 0) (div_two_pow_eq (div_two_pow_eq (div_two_pow_eq
    (div_two_pow_eq (div_two_pow_eq (div_two_pow_eq (div_two_pow_eq
      (k := 56) habove h7) h6) h5) h4) h3) h2) h1) h0
  simpa using hall

lemma Digest.toBytes_injective : Function.Injective Digest.toBytes := fun d e h => by
  obtain ⟨d⟩ := d
  obtain ⟨e⟩ := e
  exact congrArg Digest.mk (Vector.toList_inj.mp h)

@[simp] lemma Text.length_utf8 (s : String) : (Text.utf8 s).length = Text.byteLength s := by
  simp [Text.utf8, Text.byteLength]

namespace Part

/-- The bytes of a text determine the text and what follows it. -/
lemma encode_text_append_inj {s t : String} {u v : Bytes} (hs : Text.byteLength s < 2 ^ 64)
    (ht : Text.byteLength t < 2 ^ 64)
    (h : (Part.text s).encode ++ u = (Part.text t).encode ++ v) : s = t ∧ u = v := by
  simp only [encode, List.append_assoc] at h
  obtain ⟨hlength, hrest⟩ := List.append_inj h (by simp)
  have hbytes : Text.byteLength s = Text.byteLength t := bigEndian64_inj hs ht hlength
  obtain ⟨hname, huv⟩ := List.append_inj hrest (by simp [hbytes])
  exact ⟨Text.utf8_injective hname, huv⟩

/-- The bytes of a digest determine the digest and what follows it. -/
lemma encode_digest_append_inj {d e : Digest} {u v : Bytes}
    (h : (Part.digest d).encode ++ u = (Part.digest e).encode ++ v) : d = e ∧ u = v := by
  obtain ⟨hd, huv⟩ := List.append_inj h (by simp [encode, Digest.length_toBytes])
  exact ⟨Digest.toBytes_injective hd, huv⟩

end Part

/-! ### Directories -/

namespace HashFunction

/-- The bytes that are hashed for a directory with the given children. -/
def directoryBytes (signature : Digest) (children : List (String × Digest)) : Bytes :=
  Part.encodeAll (directoryParts signature children)

/-- The bytes of the children follow those of the signature. -/
lemma directoryBytes_eq (signature : Digest) (children : List (String × Digest)) :
    directoryBytes signature children = (Part.digest signature).encode
      ++ children.flatMap fun c => (Part.text c.1).encode ++ (Part.digest c.2).encode := by
  simp [directoryBytes, directoryParts, Part.encodeAll, List.flatMap_assoc]

/-- The bytes of a row of children determine their names and digests. -/
lemma childBytes_inj {cs ds : List (String × Digest)}
    (hcs : ∀ c ∈ cs, Text.byteLength c.1 < 2 ^ 64) (hds : ∀ d ∈ ds, Text.byteLength d.1 < 2 ^ 64)
    (h : (cs.flatMap fun c => (Part.text c.1).encode ++ (Part.digest c.2).encode)
      = ds.flatMap fun d => (Part.text d.1).encode ++ (Part.digest d.2).encode) : cs = ds := by
  induction cs generalizing ds with
  | nil =>
      cases ds with
      | nil => rfl
      | cons d ds => simp [Part.encode, bigEndian64] at h
  | cons c cs ih =>
      cases ds with
      | nil => simp [Part.encode, bigEndian64] at h
      | cons d ds =>
          simp only [List.flatMap_cons, List.append_assoc] at h
          obtain ⟨hname, h⟩ := Part.encode_text_append_inj (hcs c (by simp)) (hds d (by simp)) h
          obtain ⟨hdigest, h⟩ := Part.encode_digest_append_inj h
          rw [ih (fun c' hc => hcs c' (by simp [hc])) (fun d' hd => hds d' (by simp [hd])) h,
            Prod.ext hname hdigest]

/-- The bytes of a directory's message determine the names and digests of its children, in
order. -/
lemma directoryBytes_inj {signature : Digest} {cs ds : List (String × Digest)}
    (hcs : ∀ c ∈ cs, Text.byteLength c.1 < 2 ^ 64) (hds : ∀ d ∈ ds, Text.byteLength d.1 < 2 ^ 64)
    (h : directoryBytes signature cs = directoryBytes signature ds) : cs = ds := by
  rw [directoryBytes_eq, directoryBytes_eq] at h
  exact childBytes_inj hcs hds (List.append_cancel_left h)

end HashFunction

end TreeDigest

import TreeDigest.Proofs.Hashing.Encoding

/-!
Which nodes of different kinds are hashed alike.

The bytes of a directory begin with a digest and those of a missing location with the length of
a word, and both are rows of framed fields. The bytes of a file are its bare content, with no
frame around it.

* `directoryBytes_ne_missingBytes`: a directory is never hashed as a missing location is; the
  two strings have different lengths.
* `kinds_apart`: a file is hashed as a directory or as a missing location just when its content
  is the very string that is hashed for that one, and apart from such contents two nodes of
  different kinds have one digest only where the hash function collides.
* `kinds_alike_blake3`: such contents exist.
-/

namespace TreeDigest

namespace HashFunction

/-- The bytes that are hashed for the content of a file. -/
def contentBytes (content : Bytes) : Bytes := Part.encodeAll (contentParts content)

/-- The bytes that are hashed for a location that does not exist. -/
def missingBytes : Bytes := Part.encodeAll (signatureParts "MISSING_FILE")

/-- Two different byte strings with one digest. -/
def Collision (f : Bytes → Digest) (x y : Bytes) : Prop := x ≠ y ∧ f x = f y

/-- The content of a file is hashed without a frame. -/
lemma contentBytes_eq (content : Bytes) : contentBytes content = content := by
  simp [contentBytes, contentParts, Part.encodeAll, Part.encode]

lemma missingBytes_eq : missingBytes = bigEndian64 9 ++ Text.utf8 "SIGNATURE"
    ++ bigEndian64 12 ++ Text.utf8 "MISSING_FILE" := by
  decide +kernel

lemma length_missingBytes : missingBytes.length = 37 := by decide +kernel

/-- Every child adds forty bytes and its name to the thirty-two bytes of the signature. -/
lemma length_directoryBytes (signature : Digest) (children : List (String × Digest)) :
    (directoryBytes signature children).length
      = 32 + (children.map fun c => 40 + Text.byteLength c.1).sum := by
  have hchild : ∀ c : String × Digest,
      ((Part.text c.1).encode ++ (Part.digest c.2).encode).length = 40 + Text.byteLength c.1 := by
    intro c
    simp only [Part.encode, List.length_append, length_bigEndian64, Text.length_utf8,
      Digest.length_toBytes]
    omega
  have hsignature : (Part.digest signature).encode.length = 32 := Digest.length_toBytes signature
  rw [directoryBytes_eq, List.length_append, List.length_flatMap, hsignature]
  simp only [hchild]

/-- **A directory is never hashed as a missing location is**: thirty-seven bytes are too many
for a directory without children and too few for any other. -/
lemma directoryBytes_ne_missingBytes (signature : Digest) (children : List (String × Digest)) :
    directoryBytes signature children ≠ missingBytes := by
  intro heq
  have hlength := congrArg List.length heq
  rw [length_directoryBytes, length_missingBytes] at hlength
  cases children with
  | nil => simp at hlength
  | cons c children =>
      rw [List.map_cons, List.sum_cons] at hlength
      omega

section OfBytes

variable (f : Bytes → Digest)

lemma content_ofBytes (content : Bytes) : (ofBytes f).content content = f (contentBytes content) :=
  rfl

lemma directory_ofBytes (signature : Digest) (children : List (String × Digest)) :
    (ofBytes f).directory signature children = f (directoryBytes signature children) := rfl

lemma missing_ofBytes : (ofBytes f).missing = f missingBytes := rfl

/-- Equal digests come from equal bytes or from a collision. -/
lemma digest_eq_iff (x y : Bytes) : f x = f y ↔ x = y ∨ Collision f x y := by
  constructor
  · intro heq
    by_cases hxy : x = y
    · exact .inl hxy
    · exact .inr ⟨hxy, heq⟩
  · rintro (rfl | ⟨-, heq⟩)
    · rfl
    · exact heq

end OfBytes

/-- **What keeps the kinds of nodes apart.** Over every hash function that digests bytes, a
directory and a missing location are hashed from different strings, whatever the children are.
The string of a file is its content, so it is that of a directory just when the content is the
thirty-two bytes of the signature and then the framed name and the digest of each child, and
that of a missing location just when the content is the one string of the latter. Hence a
directory has the digest of a missing location only where the hash function collides, and a file
has the digest of either only if it does, or if the content is the string of that one. -/
theorem kinds_apart (f : Bytes → Digest) (content : Bytes) (children : List (String × Digest)) :
    let h := ofBytes f
    let directory := directoryBytes (h.signature "DIR") children
    directory ≠ missingBytes
      ∧ (contentBytes content = directory ↔ content = (h.signature "DIR").toBytes
          ++ children.flatMap fun c =>
            bigEndian64 (Text.byteLength c.1) ++ Text.utf8 c.1 ++ c.2.toBytes)
      ∧ (contentBytes content = missingBytes ↔ content = bigEndian64 9 ++ Text.utf8 "SIGNATURE"
          ++ bigEndian64 12 ++ Text.utf8 "MISSING_FILE")
      ∧ (h.directory (h.signature "DIR") children = h.missing
          ↔ Collision f directory missingBytes)
      ∧ (h.content content = h.directory (h.signature "DIR") children
          ↔ content = directory ∨ Collision f content directory)
      ∧ (h.content content = h.missing
          ↔ content = missingBytes ∨ Collision f content missingBytes) := by
  intro h directory
  have hapart : directory ≠ missingBytes := directoryBytes_ne_missingBytes _ _
  have hcontent : h.content content = f content := by
    rw [content_ofBytes, contentBytes_eq]
  have hdirectory : h.directory (h.signature "DIR") children = f directory :=
    directory_ofBytes f _ _
  have hmissing : h.missing = f missingBytes := missing_ofBytes f
  refine ⟨hapart, ?_, ?_, ?_, ?_, ?_⟩
  · rw [contentBytes_eq]
    exact Iff.of_eq (congrArg (content = ·) (directoryBytes_eq _ _))
  · rw [contentBytes_eq, missingBytes_eq]
  · rw [hdirectory, hmissing, digest_eq_iff]
    exact or_iff_right hapart
  · rw [hcontent, hdirectory, digest_eq_iff]
  · rw [hcontent, hmissing, digest_eq_iff]

/-- Under BLAKE3, a file with the thirty-two bytes of the signature of directories is hashed as
the empty directory, and there is a file of thirty-seven bytes that is hashed as a missing
location. So the bytes of a file are not kept apart from those of the other kinds. -/
theorem kinds_alike_blake3 :
    let asDirectory : Bytes :=
      [0xa8, 0xc9, 0x2f, 0x16, 0xff, 0x87, 0xfd, 0x49, 0x29, 0xf0, 0x7d, 0x76, 0x80, 0xc4, 0x44,
        0x07, 0xf8, 0xef, 0xc3, 0xb9, 0xae, 0xe8, 0xe8, 0xac, 0x2d, 0x02, 0xf2, 0xdf, 0xf4, 0xaa,
        0xd3, 0xf6]
    let asMissing : Bytes :=
      [0, 0, 0, 0, 0, 0, 0, 9, 83, 73, 71, 78, 65, 84, 85, 82, 69,
        0, 0, 0, 0, 0, 0, 0, 12, 77, 73, 83, 83, 73, 78, 71, 95, 70, 73, 76, 69]
    contentBytes asDirectory = directoryBytes (blake3.signature "DIR") []
      ∧ blake3.content asDirectory = blake3.directory (blake3.signature "DIR") []
      ∧ contentBytes asMissing = missingBytes
      ∧ blake3.content asMissing = blake3.missing
      ∧ ¬ ∀ content children,
          contentBytes content ≠ directoryBytes (blake3.signature "DIR") children
            ∧ contentBytes content ≠ missingBytes
            ∧ directoryBytes (blake3.signature "DIR") children ≠ missingBytes := by
  intro asDirectory asMissing
  have hdirectory : contentBytes asDirectory = directoryBytes (blake3.signature "DIR") [] := by
    decide +kernel
  have hmissing : contentBytes asMissing = missingBytes := by decide +kernel
  have hfirst : blake3.content asDirectory = blake3.directory (blake3.signature "DIR") [] := by
    rw [blake3, content_ofBytes, directory_ofBytes, ← blake3, hdirectory]
  have hsecond : blake3.content asMissing = blake3.missing := by
    rw [blake3, content_ofBytes, missing_ofBytes, hmissing]
  exact ⟨hdirectory, hfirst, hmissing, hsecond,
    fun happart => (happart asDirectory []).1 hdirectory⟩

end HashFunction

end TreeDigest

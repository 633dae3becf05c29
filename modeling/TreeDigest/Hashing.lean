import TreeDigest.Blake3

/-!
What is hashed for each kind of node.

A hash function finishes a list of parts: digests as they are, texts framed by
their length, and raw bytes. A directory is hashed as the signature of `DIR`
followed by the name and digest of each child in order; a file as its bare
content; and a missing location always has the signature of `MISSING_FILE`.

* `Part.encode` is the byte string that a part stands for.
* `HashFunction.ofBytes` is the hash function that digests the joined bytes of
  the parts; `HashFunction.blake3` is the one in use.
-/

namespace TreeDigest

/-- A part of a message. -/
inductive Part where
  | digest (d : Digest)
  | text (s : String)
  | bytes (b : Bytes)
  deriving DecidableEq

/-- The eight bytes of a number modulo 2⁶⁴, the highest first. -/
def bigEndian64 (n : Nat) : Bytes :=
  [56, 48, 40, 32, 24, 16, 8, 0].map fun shift => UInt8.ofNat (n >>> shift)

/-- The bytes of a part: a text is preceded by its length in eight bytes. -/
def Part.encode : Part → Bytes
  | .digest d => d.toBytes
  | .text s => bigEndian64 (Text.byteLength s) ++ Text.utf8 s
  | .bytes b => b

/-- The bytes of a message. -/
def Part.encodeAll (parts : List Part) : Bytes := parts.flatMap Part.encode

/-- A hash function on messages made of parts. -/
structure HashFunction where
  finish : List Part → Digest

namespace HashFunction

/-- The hash function that digests the bytes of a message. -/
def ofBytes (digest : Bytes → Digest) : HashFunction := ⟨fun parts => digest (Part.encodeAll parts)⟩

/-- BLAKE3 over the bytes of a message. -/
def blake3 : HashFunction := ofBytes Blake3.hash

/-- The message whose digest is the signature of a kind of node. -/
def signatureParts (thing : String) : List Part := [.text "SIGNATURE", .text thing]

/-- The signature of a kind of node. -/
def signature (h : HashFunction) (thing : String) : Digest := h.finish (signatureParts thing)

/-- The signature that opens every directory's message. -/
def directorySignature (h : HashFunction) : Digest := h.signature "DIR"

/-- The digest of every location that does not exist. -/
def missing (h : HashFunction) : Digest := h.signature "MISSING_FILE"

/-- The message of a file's content. -/
def contentParts (content : Bytes) : List Part := [.bytes content]

/-- The digest of a file's content. -/
def content (h : HashFunction) (bytes : Bytes) : Digest := h.finish (contentParts bytes)

/-- The message of a directory with the given children, in the order given. -/
def directoryParts (signature : Digest) (children : List (String × Digest)) : List Part :=
  .digest signature :: children.flatMap fun child => [.text child.1, .digest child.2]

/-- The digest of a directory with the given children, in the order given. -/
def directory (h : HashFunction) (signature : Digest) (children : List (String × Digest)) : Digest :=
  h.finish (directoryParts signature children)

end HashFunction

end TreeDigest

import TreeDigest.History.Record
import TreeDigest.Instant.Rfc3339
import TreeDigest.Hashing

/-!
The stored form of records.

A record is a tag byte, the thirty-two digest bytes if the tag is one, the length
of the time's text in eight bytes, lowest first, that text, and a byte for
success. Bytes after it do not matter.

* `Record.encode` writes a record and `Record.decode` reads one.
* `DecodeError` lists every way in which reading fails.
-/

namespace TreeDigest

/-- Why bytes are no record. -/
inductive DecodeError where
  /-- The bytes end inside a field of fixed size. -/
  | endOfInput
  /-- The announced text is longer than what is left. -/
  | shortText
  | badTag (tag : UInt8)
  | badTruth (byte : UInt8)
  | badText (at_ : Text.Malformed)
  | badTime (reason : Instant.ParseError)
  deriving DecidableEq

/-- The wording of a refusal. -/
def DecodeError.message : DecodeError → String
  | .endOfInput => "io error: unexpected end of file"
  | .shortText => "io error: "
  | .badTag tag => s!"tag for enum is not valid, found {tag.toNat}"
  | .badTruth byte => s!"invalid u8 while decoding bool, expected 0 or 1, found {byte.toNat}"
  | .badText at_ => "string is not valid utf8: " ++ at_.message
  | .badTime reason => reason.message

namespace Record

/-- The eight bytes of a number, the lowest first. -/
def littleEndian64 (n : Nat) : Bytes := (bigEndian64 n).reverse

/-- The number that bytes spell, the lowest first. -/
def fromLittleEndian (bytes : Bytes) : Nat := bytes.foldr (fun b n => b.toNat + 256 * n) 0

/-- The stored form of a digest that may be absent. -/
def encodeDigest : Option Digest → Bytes
  | none => [0]
  | some d => 1 :: d.toBytes

/-- The stored form of a text. -/
def encodeText (s : String) : Bytes := littleEndian64 (Text.byteLength s) ++ Text.utf8 s

/-- The stored form of a truth value. -/
def encodeTruth (b : Bool) : Bytes := [if b then 1 else 0]

/-- The stored form of a record. -/
def encode (r : Record) : Bytes :=
  encodeDigest r.digest ++ (encodeText r.recordedAt.storedText ++ encodeTruth r.successful)

/-! ### Reading -/

/-- The next bytes, as many as given. -/
def takeBytes (n : Nat) (bytes : Bytes) : Except DecodeError (Bytes × Bytes) :=
  if bytes.length < n then .error .endOfInput else .ok (bytes.take n, bytes.drop n)

/-- Reads a digest that may be absent. -/
def decodeDigest : Bytes → Except DecodeError (Option Digest × Bytes)
  | [] => .error .endOfInput
  | tag :: rest =>
    if tag = 0 then .ok (none, rest)
    else if tag = 1 then do
      let (bytes, rest) ← takeBytes 32 rest
      match Digest.ofBytes? bytes with
      | some d => return (some d, rest)
      | none => throw .endOfInput
    else .error (.badTag tag)

/-- Reads a text. -/
def decodeText (bytes : Bytes) : Except DecodeError (String × Bytes) := do
  let (size, rest) ← takeBytes 8 bytes
  let n := fromLittleEndian size
  if rest.length < n then throw .shortText
  match Text.decode (rest.take n) with
  | .ok s => return (s, rest.drop n)
  | .error at_ => throw (.badText at_)

/-- Reads a truth value. -/
def decodeTruth : Bytes → Except DecodeError (Bool × Bytes)
  | [] => .error .endOfInput
  | b :: rest =>
    if b = 0 then .ok (false, rest) else if b = 1 then .ok (true, rest) else .error (.badTruth b)

/-- Reads a time. -/
def decodeTime (s : String) : Except DecodeError Instant :=
  match Instant.parse s with
  | .ok t => .ok t
  | .error reason => .error (.badTime reason)

/-- The record that bytes hold. -/
def decode (bytes : Bytes) : Except DecodeError Record := do
  let (digest, rest) ← decodeDigest bytes
  let (text, rest) ← decodeText rest
  let time ← decodeTime text
  let (successful, _) ← decodeTruth rest
  return ⟨digest, time, successful⟩

end Record

end TreeDigest

import TreeDigest.Text.Hex

/-!
Digests: strings of exactly thirty-two bytes, written in hexadecimal.
-/

namespace TreeDigest

/-- A fixed-width digest of 256 bits. -/
structure Digest where
  bytes : Vector UInt8 32
  deriving DecidableEq

namespace Digest

/-- The bytes of a digest in order. -/
def toBytes (d : Digest) : Bytes := d.bytes.toList

theorem length_toBytes (d : Digest) : d.toBytes.length = 32 := by simp [toBytes]

/-- The digest with the given bytes, if there are thirty-two. -/
def ofBytes? (bytes : Bytes) : Option Digest :=
  if h : bytes.length = 32 then some ⟨⟨bytes.toArray, by simpa using h⟩⟩ else none

/-- The digest whose bytes all are the given one. -/
def replicate (b : UInt8) : Digest := ⟨.replicate 32 b⟩

instance : Inhabited Digest := ⟨replicate 0⟩

/-- The sixty-four hexadecimal digits of a digest. -/
def hex (d : Digest) : String := Text.Hex.encode d.toBytes

/-- The first sixteen hexadecimal digits, as listings show them. -/
def shortHex (d : Digest) : String := Text.Hex.encode (d.toBytes.take 8)

/-- The digest that a hexadecimal text names. -/
def ofHex? (s : String) : Option Digest := (Text.Hex.decode? s).bind ofBytes?

end Digest

end TreeDigest

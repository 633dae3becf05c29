/-!
Bytes and the texts they spell.

* `Text.utf8` gives the bytes of a text, and `Text.bytesLe` is the order of
  two byte strings, byte by byte; names are sorted by it everywhere.
* `Text.pieces` cuts a byte string into the characters it spells and the
  stretches that spell none. A broken stretch is as long as it can be while
  still being the start of some character, so its length and position are
  fixed by the bytes alone.
* `Text.lossy` writes U+FFFD for each broken stretch, and `Text.decode` refuses
  at the first one, saying where it is.
-/

namespace TreeDigest

/-- A string of bytes. -/
abbrev Bytes := List UInt8

namespace Text

/-- The UTF-8 bytes of a text. -/
def utf8 (s : String) : Bytes := s.toUTF8.data.toList

/-- The number of UTF-8 bytes of a text. -/
def byteLength (s : String) : Nat := s.utf8ByteSize

/-- Byte strings are ordered byte by byte, a proper start coming first. -/
def bytesLe (a b : Bytes) : Bool := decide (a ≤ b)

/-- Texts are ordered by their bytes, which is also the order of their code points. -/
def nameLe (a b : String) : Bool := bytesLe (utf8 a) (utf8 b)

/-! ### Reading -/

/-- A part of a byte string: a character, or a stretch that spells none. The
stretch is `cut` when the input ends before it is decided. -/
inductive Piece where
  | char (c : Char)
  | broken (bytes : Bytes) (cut : Bool)
  deriving DecidableEq

/-- The byte is between the two bounds. -/
def within (low high b : UInt8) : Bool := low ≤ b && b ≤ high

/-- A continuation byte. -/
def isTail (b : UInt8) : Bool := within 0x80 0xBF b

/-- The payload of a continuation byte, below the bits already read. -/
def addTail (value : Nat) (b : UInt8) : Nat := value * 64 + (b.toNat - 0x80)

/-- A character of two bytes, of which the first is read. -/
def twoBytes (a : UInt8) : Bytes → Piece × Bytes
  | [] => (.broken [a] true, [])
  | b :: rest =>
    if isTail b then (.char (.ofNat (addTail (a.toNat - 0xC0) b)), rest)
    else (.broken [a] false, b :: rest)

/-- The bounds of the second byte after a first byte of a longer character:
they keep out overlong forms, surrogates and values past U+10FFFF. -/
def secondBounds (a : UInt8) : UInt8 × UInt8 :=
  if a = 0xE0 then (0xA0, 0xBF)
  else if a = 0xED then (0x80, 0x9F)
  else if a = 0xF0 then (0x90, 0xBF)
  else if a = 0xF4 then (0x80, 0x8F)
  else (0x80, 0xBF)

/-- A character of three bytes, of which the first is read. -/
def threeBytes (a : UInt8) : Bytes → Piece × Bytes
  | [] => (.broken [a] true, [])
  | b :: rest =>
    if within (secondBounds a).1 (secondBounds a).2 b then
      match rest with
      | [] => (.broken [a, b] true, [])
      | c :: rest =>
        if isTail c then (.char (.ofNat (addTail (addTail (a.toNat - 0xE0) b) c)), rest)
        else (.broken [a, b] false, c :: rest)
    else (.broken [a] false, b :: rest)

/-- A character of four bytes, of which the first is read. -/
def fourBytes (a : UInt8) : Bytes → Piece × Bytes
  | [] => (.broken [a] true, [])
  | b :: rest =>
    if within (secondBounds a).1 (secondBounds a).2 b then
      match rest with
      | [] => (.broken [a, b] true, [])
      | c :: rest =>
        if isTail c then
          match rest with
          | [] => (.broken [a, b, c] true, [])
          | d :: rest =>
            if isTail d then
              (.char (.ofNat (addTail (addTail (addTail (a.toNat - 0xF0) b) c) d)), rest)
            else (.broken [a, b, c] false, d :: rest)
        else (.broken [a, b] false, c :: rest)
    else (.broken [a] false, b :: rest)

/-- The piece that starts with the given byte, and what follows it. -/
def nextPiece (a : UInt8) (rest : Bytes) : Piece × Bytes :=
  if a < 0x80 then (.char (.ofNat a.toNat), rest)
  else if within 0xC2 0xDF a then twoBytes a rest
  else if within 0xE0 0xEF a then threeBytes a rest
  else if within 0xF0 0xF4 a then fourBytes a rest
  else (.broken [a] false, rest)

theorem length_twoBytes_le (a : UInt8) (rest : Bytes) :
    (twoBytes a rest).2.length ≤ rest.length := by
  unfold twoBytes
  split
  · simp
  · split <;> simp

theorem length_threeBytes_le (a : UInt8) (rest : Bytes) :
    (threeBytes a rest).2.length ≤ rest.length := by
  unfold threeBytes
  split
  · simp
  · split
    · split
      · simp
      · split
        · simp
          omega
        · simp
    · simp

theorem length_fourBytes_le (a : UInt8) (rest : Bytes) :
    (fourBytes a rest).2.length ≤ rest.length := by
  unfold fourBytes
  split
  · simp
  · split
    · split
      · simp
      · split
        · split
          · simp
          · split
            · simp
              omega
            · simp
        · simp
    · simp

/-- Reading a piece never gives back more than was there. -/
theorem length_nextPiece_le (a : UInt8) (rest : Bytes) :
    (nextPiece a rest).2.length ≤ rest.length := by
  unfold nextPiece
  split
  · simp
  · split
    · exact length_twoBytes_le a rest
    · split
      · exact length_threeBytes_le a rest
      · split
        · exact length_fourBytes_le a rest
        · simp

/-- The pieces of a byte string, in order. -/
def pieces : Bytes → List Piece
  | [] => []
  | a :: rest => (nextPiece a rest).1 :: pieces (nextPiece a rest).2
termination_by bytes => bytes.length
decreasing_by
  have := length_nextPiece_le a rest
  simp only [List.length_cons]
  omega

/-- The character that stands for a piece: U+FFFD for a broken one. -/
def Piece.shown : Piece → Char
  | .char c => c
  | .broken _ _ => '\ufffd'

/-- The text a byte string spells, with U+FFFD for each broken stretch. -/
def lossy (bytes : Bytes) : String := .ofList ((pieces bytes).map Piece.shown)

/-- Where a byte string stops being a text: the index of the first broken
stretch, and its width unless the input merely ends too early. -/
structure Malformed where
  index : Nat
  width : Option Nat
  deriving DecidableEq, Repr

/-- The characters of a list of pieces that starts at the given index, or the
place of the first broken one. -/
def characters (index : Nat) : List Piece → Except Malformed (List Char)
  | [] => .ok []
  | .char c :: rest => (characters (index + c.utf8Size) rest).map (c :: ·)
  | .broken bytes cut :: _ => .error ⟨index, if cut then none else some bytes.length⟩

/-- The text that a byte string spells. -/
def decode (bytes : Bytes) : Except Malformed String :=
  (characters 0 (pieces bytes)).map String.ofList

/-- The wording of a refusal. -/
def Malformed.message : Malformed → String
  | ⟨index, some width⟩ => s!"invalid utf-8 sequence of {width} bytes from index {index}"
  | ⟨index, none⟩ => s!"incomplete utf-8 byte sequence from index {index}"

end Text

end TreeDigest

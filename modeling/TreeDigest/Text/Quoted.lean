import TreeDigest.Text.Classes

/-!
Quoted text, as messages show what they were given.

A text stands between double quotes. Quotes and backslashes in it are marked
with a backslash, line ends and the like have their letters, and whatever has no
shape of its own is given by number. Quoted paths mark single quotes as well and
give bytes that spell no character in hexadecimal.
-/

namespace TreeDigest.Text.Quoted

/-- The number of a character between braces. -/
def numbered (c : Char) : List Char := '\\' :: 'u' :: '\x7b' :: (Nat.toDigits 16 c.toNat ++ ['\x7d'])

/-- A character between the quotes. -/
def escape (c : Char) : List Char :=
  if c = '\x00' then ['\\', '0']
  else if c = '\t' then ['\\', 't']
  else if c = '\r' then ['\\', 'r']
  else if c = '\n' then ['\\', 'n']
  else if c = '"' then ['\\', '"']
  else if c = '\\' then ['\\', '\\']
  else if isPrintable c then [c]
  else numbered c

/-- A text with its quotes. -/
def text (s : String) : String := .ofList ('"' :: (s.toList.flatMap escape ++ ['"']))

/-- The upper-case hexadecimal form of a byte that spells no character. -/
def escapeByte (b : UInt8) : List Char := '\\' :: 'x' :: (Hex.ofByte b).map Char.toUpper

/-- A piece of a byte string between the quotes. -/
def escapePiece : Piece → List Char
  | .char c => if c = '\x27' then ['\\', '\x27'] else escape c
  | .broken bytes _ => bytes.flatMap escapeByte

/-- A byte string with its quotes. -/
def bytes (b : Bytes) : String := .ofList ('"' :: ((pieces b).flatMap escapePiece ++ ['"']))

end TreeDigest.Text.Quoted

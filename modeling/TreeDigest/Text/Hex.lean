import TreeDigest.Text.Utf8

/-!
Hexadecimal text of byte strings: two lower-case digits a byte when written,
either case when read.
-/

namespace TreeDigest.Text.Hex

/-- The digit of a value below sixteen. -/
def digit (n : Nat) : Char :=
  if n < 10 then .ofNat (48 + n) else .ofNat (87 + n)

/-- The value of a digit of either case. -/
def value? (c : Char) : Option Nat :=
  if '0' ≤ c ∧ c ≤ '9' then some (c.toNat - 48)
  else if 'a' ≤ c ∧ c ≤ 'f' then some (c.toNat - 87)
  else if 'A' ≤ c ∧ c ≤ 'F' then some (c.toNat - 55)
  else none

/-- The two digits of a byte. -/
def ofByte (b : UInt8) : List Char := [digit (b.toNat / 16), digit (b.toNat % 16)]

/-- The digits of a byte string. -/
def chars (bytes : Bytes) : List Char := bytes.flatMap ofByte

/-- The hexadecimal text of a byte string. -/
def encode (bytes : Bytes) : String := .ofList (chars bytes)

/-- Reads pairs of digits. -/
def decodeChars : List Char → Option Bytes
  | [] => some []
  | [_] => none
  | a :: b :: rest => do
    let high ← value? a
    let low ← value? b
    let tail ← decodeChars rest
    return UInt8.ofNat (high * 16 + low) :: tail

/-- The byte string that a hexadecimal text names. -/
def decode? (s : String) : Option Bytes := decodeChars s.toList

/-- The digits of a number, the highest first and none in front that is zero. -/
def ofNat (n : Nat) : String := .ofList (Nat.toDigits 16 n)

end TreeDigest.Text.Hex

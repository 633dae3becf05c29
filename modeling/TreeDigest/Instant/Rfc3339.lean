import TreeDigest.Decimal.Signed64
import TreeDigest.Instant.Calendar
import TreeDigest.Json.Reader
import TreeDigest.Text.Classes

/-!
The text of an instant, as date, `T`, time of day and offset.

Written, the second has no fraction or one of three, six or nine digits, years
outside 0 to 9999 have a sign, and the sixtieth second is a leap second. The
offset is `+00:00` for readers and `Z` in stored records.

Reading is more generous: blanks may stand before numbers, separators and the
offset, `t` or a blank may part date from time, a fraction may have any number of
digits, of which nine count, and the offset may be `UTC`, `Z` or hours and minutes.
-/

namespace TreeDigest.Instant

/-! ### Writing -/

/-- The digits of a number, filled up with zeros to a width. -/
def padded (width n : Nat) : List Char :=
  let ds := Nat.toDigits 10 n
  List.replicate (width - ds.length) '0' ++ ds

/-- The text of a year. -/
def yearChars (year : Int) : List Char :=
  if 0 ≤ year ∧ year ≤ 9999 then padded 4 year.natAbs
  else (if year < 0 then '-' else '+') :: padded 4 year.natAbs

/-- The fraction of a second. -/
def fractionChars (nanos : Nat) : List Char :=
  if nanos = 0 then []
  else if nanos % 1000000 = 0 then '.' :: padded 3 (nanos / 1000000)
  else if nanos % 1000 = 0 then '.' :: padded 6 (nanos / 1000)
  else '.' :: padded 9 nanos

/-- The text of an instant up to the offset. -/
def localChars (t : Instant) : List Char :=
  let d := t.date
  let s := t.secondOfDay
  let leap := billion ≤ t.nanos
  yearChars d.year ++ '-' :: padded 2 d.month ++ '-' :: padded 2 d.day
    ++ 'T' :: padded 2 (s / 3600) ++ ':' :: padded 2 (s / 60 % 60)
    ++ ':' :: padded 2 (s % 60 + if leap then 1 else 0)
    ++ fractionChars (if leap then t.nanos - billion else t.nanos)

/-- The text of an instant for readers. -/
def text (t : Instant) : String := .ofList (localChars t ++ ['+', '0', '0', ':', '0', '0'])

/-- The text of an instant in stored records. -/
def storedText (t : Instant) : String := .ofList (localChars t ++ ['Z'])

/-! ### Reading -/

/-- Why a text is no instant. -/
inductive ParseError where
  | outOfRange
  | impossible
  | tooShort
  | invalid
  | tooLong
  deriving DecidableEq, Repr

/-- The wording of a refusal. -/
def ParseError.message : ParseError → String
  | .outOfRange => "input is out of range"
  | .impossible => "no possible date and time matching input"
  | .tooShort => "premature end of input"
  | .invalid => "input contains invalid characters"
  | .tooLong => "trailing input"

/-- A reader gives a value and what follows it. -/
abbrev Reader (α : Type) := List Char → Except ParseError (α × List Char)

/-- What follows the blanks. -/
def skipBlanks (cs : List Char) : List Char := cs.dropWhile Text.isBlank

/-- A number of at least one digit, of which at most `width` are taken. -/
def number (width : Option Nat) : Reader Nat := fun cs =>
  let ds := match width with
    | some w => (cs.take w).takeWhile Char.isDigit
    | none => cs.takeWhile Char.isDigit
  if cs.isEmpty then .error .tooShort
  else if ds.isEmpty then .error .invalid
  else if !Signed64.fits (Json.digitsValue ds) then .error .outOfRange
  else .ok (Json.digitsValue ds, cs.drop ds.length)

/-- A number, blanks before it allowed, between two bounds. -/
def bounded (low high : Nat) : Reader Nat := fun cs => do
  let (n, rest) ← number (some 2) (skipBlanks cs)
  if low ≤ n ∧ n ≤ high then return (n, rest) else throw .outOfRange

/-- A year: any number of digits after a sign, and at most four without one. -/
def year : Reader Int := fun cs => do
  let (n, rest) : Int × List Char ← match skipBlanks cs with
    | '-' :: rest => do
      let (n, rest) ← number none rest
      pure (-(n : Int), rest)
    | '+' :: rest => do
      let (n, rest) ← number none rest
      pure ((n : Int), rest)
    | rest => do
      let (n, rest) ← number (some 4) rest
      pure ((n : Int), rest)
  if -2147483648 ≤ n ∧ n ≤ 2147483647 then return (n, rest) else throw .outOfRange

/-- A separator, blanks before it allowed. -/
def separator (c : Char) : Reader Unit := fun cs =>
  match skipBlanks cs with
  | [] => .error .tooShort
  | d :: rest => if d = c then .ok ((), rest) else .error .invalid

/-- What parts the date from the time of day. -/
def middle : Reader Unit
  | [] => .error .tooShort
  | c :: rest => if c = 't' ∨ c = 'T' ∨ c = ' ' then .ok ((), rest) else .error .invalid

/-- The nanoseconds of a fraction, if there is one. -/
def fraction : Reader Nat
  | '.' :: cs => do
    let (n, rest) ← number (some 9) cs
    let taken := cs.length - rest.length
    return (n * Nat.pow 10 (9 - taken), rest.dropWhile Char.isDigit)
  | cs => .ok (0, cs)

/-- Two digits of an offset. -/
def offsetPair : Reader (Nat × Nat)
  | [] => .error .tooShort
  | [c] => if c.utf8Size = 1 then .error .tooShort else .error .invalid
  | a :: b :: rest =>
    if a.isDigit ∧ b.isDigit then .ok ((a.toNat - 48, b.toNat - 48), rest) else .error .invalid

/-- Hours and minutes of an offset, in seconds. -/
def offsetSeconds : Reader Nat := fun cs => do
  let ((a, b), rest) ← offsetPair cs
  let ((c, d), rest) ← offsetPair (rest.dropWhile fun c => c = ':' || Text.isBlank c)
  if 5 < c then throw .outOfRange
  return ((a * 10 + b) * 3600 + (c * 10 + d) * 60, rest)

/-- The offset of an instant in seconds. -/
def offset : Reader Int
  | [] => .error .tooShort
  | c :: rest =>
    if ((c :: rest).take 3).map Char.toUpper = ['U', 'T', 'C'] then .ok (0, (c :: rest).drop 3)
    else if c = 'Z' ∨ c = 'z' then .ok (0, rest)
    else if c = '+' then do
      let (n, rest) ← offsetSeconds rest
      return (n, rest)
    else if c = '-' ∨ c = '−' then do
      let (n, rest) ← offsetSeconds rest
      return (-(n : Int), rest)
    else .error .invalid

/-- The instant of a date, a time of day and an offset. -/
def assemble (date : Date) (hour minute second nanos : Nat) (offset : Int) : Except ParseError Instant :=
  if date.isValid = false then .error .outOfRange
  else if 86400 ≤ offset.natAbs then .error .outOfRange
  else
    let leap := second = 60
    let seconds := date.toDays * 86400 + (hour * 3600 + minute * 60 + if leap then 59 else second) - offset
    let t : Instant := ⟨seconds, nanos + if leap then billion else 0⟩
    if Date.minYear ≤ t.date.year ∧ t.date.year ≤ Date.maxYear then .ok t else .error .impossible

/-- The instant that a text spells. -/
def parseChars (cs : List Char) : Except ParseError Instant := do
  let (year, cs) ← year cs
  let ((), cs) ← separator '-' cs
  let (month, cs) ← bounded 1 12 cs
  let ((), cs) ← separator '-' cs
  let (day, cs) ← bounded 1 31 cs
  let ((), cs) ← middle cs
  let (hour, cs) ← bounded 0 23 cs
  let ((), cs) ← separator ':' cs
  let (minute, cs) ← bounded 0 59 cs
  let ((), cs) ← separator ':' cs
  let (second, cs) ← bounded 0 60 cs
  let (nanos, cs) ← fraction cs
  let (offset, cs) ← offset (skipBlanks cs)
  if (skipBlanks cs).isEmpty then assemble ⟨year, month, day⟩ hour minute second nanos offset
  else throw .tooLong

/-- The instant that a text spells. -/
def parse (s : String) : Except ParseError Instant := parseChars s.toList

end TreeDigest.Instant

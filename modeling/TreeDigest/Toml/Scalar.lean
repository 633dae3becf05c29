import TreeDigest.Decimal.Signed64
import TreeDigest.Toml.Value

/-!
Reading the scalar values of TOML: strings in their four kinds of quotes, numbers, truth
values, and dates and times.

Each reader gives a value with what follows it, or nothing. Texts in which a number
or a date merely starts are refused later, because something is left over.
-/

namespace TreeDigest.Toml

/-- A reader gives a value and what follows it. -/
abbrev Reader (α : Type) := List Char → Option (α × List Char)

/-- A character that may stand in a comment or between the quotes of a string: no
control but the tabulator. -/
def isPlain (c : Char) : Bool := c = '\t' || (0x20 ≤ c.toNat && c.toNat != 0x7F)

/-- A blank within a line. -/
def isSpace (c : Char) : Bool := c = ' ' || c = '\t'

/-- What follows the blanks of a line. -/
def skipSpaces (cs : List Char) : List Char := cs.dropWhile isSpace

/-- What follows a line end. -/
def lineEnd? : List Char → Option (List Char)
  | '\n' :: rest => some rest
  | '\r' :: '\n' :: rest => some rest
  | _ => none

/-! ### Strings -/

/-- The character with the number that the given count of hexadecimal digits spells. -/
def numbered? (count : Nat) (cs : List Char) : Option (Char × List Char) := do
  let digits ← (cs.take count).mapM Text.Hex.value?
  let n := digits.foldl (fun n d => n * 16 + d) 0
  if digits.length = count ∧ (n < 0xD800 ∨ (0xE000 ≤ n ∧ n < 0x110000)) then
    return (.ofNat n, cs.drop count)
  else none

/-- The character of an escape, after the backslash. -/
def escape? : List Char → Option (Char × List Char)
  | 'b' :: rest => some ('\x08', rest)
  | 't' :: rest => some ('\t', rest)
  | 'n' :: rest => some ('\n', rest)
  | 'f' :: rest => some ('\x0c', rest)
  | 'r' :: rest => some ('\r', rest)
  | '"' :: rest => some ('"', rest)
  | '\\' :: rest => some ('\\', rest)
  | 'u' :: rest => numbered? 4 rest
  | 'U' :: rest => numbered? 8 rest
  | _ => none

/-- The rest of a string of one line with escapes; what was read so far is given
backwards. -/
def basicBody : Nat → List Char → Reader String
  | 0, _, _ => none
  | _, _, [] => none
  | n + 1, done, c :: rest =>
    if c = '"' then some (.ofList done.reverse, rest)
    else if c = '\\' then do
      let (d, rest) ← escape? rest
      basicBody n (d :: done) rest
    else if isPlain c then basicBody n (c :: done) rest
    else none

/-- The rest of a string of one line without escapes. -/
def literalBody (done : List Char) : Reader String
  | [] => none
  | c :: rest =>
    if c = '\x27' then some (.ofList done.reverse, rest)
    else if isPlain c then literalBody (c :: done) rest
    else none

/-- Three quotes end a string of many lines; up to two more before them belong to
it. Gives the quotes that belong to the string and what follows, if the text starts
with at least three. -/
def closing? (quote : Char) (cs : List Char) : Option (List Char × List Char) :=
  let count := (cs.takeWhile (· = quote)).length
  if count < 3 then none
  else if count ≤ 5 then some (List.replicate (count - 3) quote, cs.drop count)
  else some ([quote, quote], cs.drop 5)

/-- A line end, or a blank, in the gap that a backslash at the end of a line opens. -/
def skipGap (cs : List Char) : List Char :=
  cs.dropWhile fun c => isSpace c || c = '\n' || c = '\r'

/-- A carriage return stands before every line feed or not at all. -/
def gapIsSound : List Char → Bool
  | '\r' :: '\n' :: rest => gapIsSound rest
  | '\r' :: _ => false
  | _ :: rest => gapIsSound rest
  | [] => true

/-- The rest of a string of many lines with escapes. -/
def basicLines : Nat → List Char → Reader String
  | 0, _, _ => none
  | _, _, [] => none
  | n + 1, done, c :: rest =>
    if c = '"' then
      match closing? '"' (c :: rest) with
      | some (quotes, rest) => some (.ofList (quotes ++ done).reverse, rest)
      | none => basicLines n (c :: done) rest
    else if c = '\\' then
      match lineEnd? (skipSpaces rest) with
      | some after =>
        let gap := after.takeWhile fun c => isSpace c || c = '\n' || c = '\r'
        if gapIsSound gap then basicLines n done (skipGap after) else none
      | none => do
        let (d, rest) ← escape? rest
        basicLines n (d :: done) rest
    else match lineEnd? (c :: rest) with
      | some rest => basicLines n ('\n' :: done) rest
      | none => if isPlain c then basicLines n (c :: done) rest else none

/-- The rest of a string of many lines without escapes. -/
def literalLines : Nat → List Char → Reader String
  | 0, _, _ => none
  | _, _, [] => none
  | n + 1, done, c :: rest =>
    if c = '\x27' then
      match closing? '\x27' (c :: rest) with
      | some (quotes, rest) => some (.ofList (quotes ++ done).reverse, rest)
      | none => literalLines n (c :: done) rest
    else match lineEnd? (c :: rest) with
      | some rest => literalLines n ('\n' :: done) rest
      | none => if isPlain c then literalLines n (c :: done) rest else none

/-- What follows a line end right after the opening quotes, which does not count. -/
def skipFirstLineEnd (cs : List Char) : List Char := (lineEnd? cs).getD cs

/-- A string of one line. -/
def lineString? : Reader String
  | '"' :: rest => basicBody (rest.length + 1) [] rest
  | '\x27' :: rest => literalBody [] rest
  | _ => none

/-- A string in any quotes. -/
def string? : Reader String
  | '"' :: '"' :: '"' :: rest => basicLines (rest.length + 1) [] (skipFirstLineEnd rest)
  | '\x27' :: '\x27' :: '\x27' :: rest => literalLines (rest.length + 1) [] (skipFirstLineEnd rest)
  | cs => lineString? cs

/-! ### Numbers -/

/-- The rest of a row of digits, single underscores between them allowed; what was
read so far is given backwards. -/
def digitsRest (isDigit : Char → Bool) (done : List Char) : List Char → List Char × List Char
  | '_' :: c :: rest =>
    if isDigit c then digitsRest isDigit (c :: done) rest else (done.reverse, '_' :: c :: rest)
  | c :: rest =>
    if isDigit c then digitsRest isDigit (c :: done) rest else (done.reverse, c :: rest)
  | [] => (done.reverse, [])

/-- A row of digits, single underscores between them allowed. -/
def digits? (isDigit : Char → Bool) : Reader (List Char)
  | c :: rest => if isDigit c then some (digitsRest isDigit [c] rest) else none
  | [] => none

/-- The whole number of a row of digits that does not start with an idle zero. -/
def whole? (cs : List Char) : Option (List Char × List Char) :=
  match cs with
  | '0' :: rest => some (['0'], rest)
  | cs => digits? Char.isDigit cs

/-- A whole number in base two, eight or sixteen, after its mark. -/
def based? (base : Nat) (cs : List Char) : Option (Value × List Char) := do
  let isDigit (c : Char) : Bool := match Text.Hex.value? c with
    | some v => v < base
    | none => false
  let (ds, rest) ← digits? isDigit cs
  let n := ds.foldl (fun n c => n * base + (Text.Hex.value? c).getD 0) 0
  return (.integer (← Signed64.check? n), rest)

/-- The sign in front of a number. -/
def sign : List Char → Bool × List Char
  | '-' :: rest => (true, rest)
  | '+' :: rest => (false, rest)
  | cs => (false, cs)

/-- The exponent of a number, if there is one. -/
def exponent? (cs : List Char) : Option (Option Int × List Char) :=
  match cs with
  | c :: rest =>
    if c = 'e' ∨ c = 'E' then do
      let (negative, rest) := sign rest
      let (ds, rest) ← digits? Char.isDigit rest
      let n : Int := Json.digitsValue ds
      return (some (if negative then -n else n), rest)
    else some (none, cs)
  | [] => some (none, [])

/-- The fraction digits of a number, if it has a point. -/
def fraction? : List Char → Option (Option (List Char) × List Char)
  | '.' :: rest => (digits? Char.isDigit rest).map fun (ds, rest) => (some ds, rest)
  | cs => some (none, cs)

/-- A number in base ten. One past the largest is refused, one past the least is
infinite. -/
def decimal? (cs : List Char) : Option (Value × List Char) := do
  let (negative, rest) := sign cs
  let (whole, rest) ← whole? rest
  let (fraction, rest) ← fraction? rest
  let (exponent, rest) ← exponent? rest
  match fraction, exponent with
  | none, none =>
    let n : Int := Json.digitsValue whole
    return (.integer (← Signed64.check? (if negative then -n else n)), rest)
  | _, _ =>
    let after := fraction.getD []
    let x := Binary64.ofDecimal negative (Json.digitsValue (whole ++ after))
      (exponent.getD 0 - after.length)
    if x.isFinite ∨ negative then return (.float x, rest) else none

/-- A number. -/
def number? (cs : List Char) : Option (Value × List Char) :=
  match cs with
  | '0' :: 'x' :: rest => based? 16 rest
  | '0' :: 'o' :: rest => based? 8 rest
  | '0' :: 'b' :: rest => based? 2 rest
  | _ =>
    match sign cs with
    | (negative, 'i' :: 'n' :: 'f' :: rest) =>
      some (.float ⟨if negative then 0xFFF0000000000000 else 0x7FF0000000000000⟩, rest)
    | (negative, 'n' :: 'a' :: 'n' :: rest) =>
      some (.float ⟨if negative then 0xFFF8000000000000 else 0x7FF8000000000000⟩, rest)
    | _ => decimal? cs

/-! ### Dates and times -/

/-- A number of exactly the given count of digits. -/
def fixed? (count : Nat) (cs : List Char) : Option (Nat × List Char) :=
  let ds := (cs.take count).takeWhile Char.isDigit
  if ds.length = count then some (Json.digitsValue ds, cs.drop count) else none

/-- What follows the given character. -/
def after? (c : Char) : List Char → Option (List Char)
  | d :: rest => if d = c then some rest else none
  | [] => none

/-- The number with at least the given count of digits. -/
def padded (count n : Nat) : String :=
  let ds := Nat.toDigits 10 n
  .ofList (List.replicate (count - ds.length) '0' ++ ds)

/-- The number of days of a month. -/
def daysIn (year month : Nat) : Nat :=
  if month = 2 then (if year % 4 = 0 ∧ (year % 100 ≠ 0 ∨ year % 400 = 0) then 29 else 28)
  else if month = 4 ∨ month = 6 ∨ month = 9 ∨ month = 11 then 30
  else 31

/-- A date. -/
def date? (cs : List Char) : Option (String × List Char) := do
  let (year, rest) ← fixed? 4 cs
  let (month, rest) ← fixed? 2 (← after? '-' rest)
  let (day, rest) ← fixed? 2 (← after? '-' rest)
  if 1 ≤ month ∧ month ≤ 12 ∧ 1 ≤ day ∧ day ≤ daysIn year month then
    return (padded 4 year ++ "-" ++ padded 2 month ++ "-" ++ padded 2 day, rest)
  else none

/-- The fraction of a second: nine digits count, and zeros at their end do not. -/
def secondFraction? : List Char → Option (String × List Char)
  | '.' :: rest =>
    let ds := rest.takeWhile Char.isDigit
    let nine := (ds ++ List.replicate 9 '0').take 9
    let shown := (nine.reverse.dropWhile (· = '0')).reverse
    if ds.isEmpty then none
    else some (if shown.isEmpty then "" else .ofList ('.' :: shown), rest.drop ds.length)
  | cs => some ("", cs)

/-- A time of day. -/
def time? (cs : List Char) : Option (String × List Char) := do
  let (hour, rest) ← fixed? 2 cs
  let (minute, rest) ← fixed? 2 (← after? ':' rest)
  let (second, rest) ← fixed? 2 (← after? ':' rest)
  let (fraction, rest) ← secondFraction? rest
  if hour ≤ 23 ∧ minute ≤ 59 ∧ second ≤ 60 then
    return (padded 2 hour ++ ":" ++ padded 2 minute ++ ":" ++ padded 2 second ++ fraction, rest)
  else none

/-- The offset of a time, if there is one. -/
def offset? (cs : List Char) : Option (String × List Char) :=
  match cs with
  | c :: rest =>
    if c = 'Z' ∨ c = 'z' then some ("Z", rest)
    else if c = '+' ∨ c = '-' then do
      let (hour, rest) ← fixed? 2 rest
      let (minute, rest) ← fixed? 2 (← after? ':' rest)
      if hour ≤ 23 ∧ minute ≤ 59 then
        return (String.singleton c ++ padded 2 hour ++ ":" ++ padded 2 minute, rest)
      else none
    else some ("", cs)
  | [] => some ("", [])

/-- A time of day with its offset, after what parts it from the date. -/
def timeAfterDate? (cs : List Char) : Option (String × List Char) :=
  match cs with
  | c :: rest =>
    if c = 'T' ∨ c = 't' ∨ c = ' ' then do
      let (time, rest) ← time? rest
      let (offset, rest) ← offset? rest
      return ("T" ++ time ++ offset, rest)
    else none
  | [] => none

/-- A date, a time of day, or both. -/
def moment? (cs : List Char) : Option (Value × List Char) :=
  match date? cs with
  | some (date, rest) =>
    match timeAfterDate? rest with
    | some (time, rest) => some (.moment (date ++ time), rest)
    | none => some (.moment date, rest)
  | none => (time? cs).map fun (time, rest) => (.moment time, rest)

/-! ### Any scalar -/

/-- A scalar value. -/
def scalar? (cs : List Char) : Option (Value × List Char) :=
  match cs with
  | 't' :: 'r' :: 'u' :: 'e' :: rest => some (.boolean true, rest)
  | 'f' :: 'a' :: 'l' :: 's' :: 'e' :: rest => some (.boolean false, rest)
  | '"' :: _ => (string? cs).map fun (s, rest) => (.text s, rest)
  | '\x27' :: _ => (string? cs).map fun (s, rest) => (.text s, rest)
  | _ => match moment? cs with
    | some found => some found
    | none => number? cs

end TreeDigest.Toml

import TreeDigest.Json.Basic

/-!
Reading JSON.

The readers work on a list of characters and return the value with what
follows it. A value is read with a budget that falls by one at each step into
it, so reading always ends; `Json.parse?` gives a budget that no text can use up.
Blanks are allowed around every token, an object may repeat a key, and a string
may hold no bare control character and no half of a surrogate pair.
-/

namespace TreeDigest.Json

/-- The four characters that may stand between tokens. -/
def isBlank (c : Char) : Bool := c = ' ' || c = '\t' || c = '\n' || c = '\r'

/-- What follows the blanks. -/
def skipBlanks (cs : List Char) : List Char := cs.dropWhile isBlank

/-- The value of four hexadecimal digits. -/
def hexWord? : List Char → Option (Nat × List Char)
  | a :: b :: c :: d :: rest => do
    let a ← Text.Hex.value? a
    let b ← Text.Hex.value? b
    let c ← Text.Hex.value? c
    let d ← Text.Hex.value? d
    return (((a * 16 + b) * 16 + c) * 16 + d, rest)
  | _ => none

/-- The character that a short escape names. -/
def shortEscape? (c : Char) : Option Char :=
  if c = '"' ∨ c = '\\' ∨ c = '/' then some c
  else if c = 'n' then some '\n'
  else if c = 'r' then some '\r'
  else if c = 't' then some '\t'
  else if c = 'b' then some '\x08'
  else if c = 'f' then some '\x0c'
  else none

/-- The character of an escape by number, whose first word stands after `\u`. -/
def numbered? (cs : List Char) : Option (Char × List Char) := do
  let (high, rest) ← hexWord? cs
  if high < 0xD800 ∨ 0xE000 ≤ high then return (.ofNat high, rest)
  else if 0xDC00 ≤ high then none
  else match rest with
    | '\\' :: 'u' :: rest => do
      let (low, rest) ← hexWord? rest
      if 0xDC00 ≤ low ∧ low < 0xE000 then
        return (.ofNat (0x10000 + (high - 0xD800) * 0x400 + (low - 0xDC00)), rest)
      else none
    | _ => none

/-- The rest of a string after its opening quote; what was read so far is given
backwards. -/
def stringBody : Nat → List Char → List Char → Option (String × List Char)
  | 0, _, _ => none
  | _ + 1, _, [] => none
  | budget + 1, done, c :: rest =>
    if c = '"' then some (.ofList done.reverse, rest)
    else if c = '\\' then
      match rest with
      | [] => none
      | 'u' :: rest => match numbered? rest with
        | none => none
        | some (d, rest) => stringBody budget (d :: done) rest
      | e :: rest => match shortEscape? e with
        | none => none
        | some d => stringBody budget (d :: done) rest
    else if c.toNat < 0x20 then none
    else stringBody budget (c :: done) rest

/-- The string that starts with the first character, a quote. -/
def string? (cs : List Char) : Option (String × List Char) :=
  match cs with
  | '"' :: rest => stringBody (rest.length + 1) [] rest
  | _ => none

/-! ### Numbers -/

/-- The number that a row of digits spells. -/
def digitsValue (ds : List Char) : Nat := ds.foldl (fun n d => n * 10 + (d.toNat - 48)) 0

/-- The leading digits and what follows them. -/
def splitDigits (cs : List Char) : List Char × List Char :=
  (cs.takeWhile Char.isDigit, cs.dropWhile Char.isDigit)

/-- The exponent part, if there is one. -/
def exponent? (cs : List Char) : Option (Option Int × List Char) :=
  match cs with
  | c :: rest =>
    if c = 'e' ∨ c = 'E' then
      let (sign, rest) : Int × List Char := match rest with
        | '-' :: rest => (-1, rest)
        | '+' :: rest => (1, rest)
        | _ => (1, rest)
      let (digits, rest) := splitDigits rest
      if digits.isEmpty then none else some (some (sign * digitsValue digits), rest)
    else some (none, cs)
  | [] => some (none, [])

/-- The fraction digits, if there is a point. -/
def fraction? (cs : List Char) : Option (Option (List Char) × List Char) :=
  match cs with
  | '.' :: rest =>
    let (digits, rest) := splitDigits rest
    if digits.isEmpty then none else some (some digits, rest)
  | _ => some (none, cs)

/-- A number after its sign. -/
def unsigned? (negative : Bool) (cs : List Char) : Option (Json × List Char) := do
  let (whole, rest) := splitDigits cs
  if whole.isEmpty ∨ (1 < whole.length ∧ whole.head? = some '0') then none
  else
    let (fraction, rest) ← fraction? rest
    let (exponent, rest) ← exponent? rest
    match fraction, exponent with
    | none, none =>
      if negative ∧ digitsValue whole = 0 then return (.decimal true 0 0, rest)
      else
        let n : Int := digitsValue whole
        return (.integer (if negative then -n else n), rest)
    | _, _ =>
      let after := fraction.getD []
      return (.decimal negative (digitsValue (whole ++ after)) (exponent.getD 0 - after.length), rest)

/-- The number at the start. -/
def number? : List Char → Option (Json × List Char)
  | '-' :: rest => unsigned? true rest
  | cs => unsigned? false cs

/-! ### Values -/

mutual
/-- The value at the start, after blanks. -/
def value? : Nat → List Char → Option (Json × List Char)
  | 0, _ => none
  | budget + 1, cs =>
    match skipBlanks cs with
    | 'n' :: 'u' :: 'l' :: 'l' :: rest => some (.null, rest)
    | 't' :: 'r' :: 'u' :: 'e' :: rest => some (.boolean true, rest)
    | 'f' :: 'a' :: 'l' :: 's' :: 'e' :: rest => some (.boolean false, rest)
    | '"' :: rest => (string? ('"' :: rest)).map fun (s, rest) => (.string s, rest)
    | '[' :: rest => match skipBlanks rest with
      | ']' :: rest => some (.array [], rest)
      | rest => (items? budget rest).map fun (items, rest) => (.array items, rest)
    | '\x7b' :: rest => match skipBlanks rest with
      | '\x7d' :: rest => some (.object [], rest)
      | rest => (fields? budget rest).map fun (fields, rest) => (.object fields, rest)
    | rest => number? rest

/-- The items of a list up to its closing bracket. -/
def items? : Nat → List Char → Option (List Json × List Char)
  | 0, _ => none
  | budget + 1, cs =>
    match value? budget cs with
    | none => none
    | some (item, rest) => match skipBlanks rest with
      | ']' :: rest => some ([item], rest)
      | ',' :: rest => (items? budget rest).map fun (items, rest) => (item :: items, rest)
      | _ => none

/-- The fields of an object up to its closing brace. -/
def fields? : Nat → List Char → Option (List (String × Json) × List Char)
  | 0, _ => none
  | budget + 1, cs =>
    match string? (skipBlanks cs) with
    | none => none
    | some (key, rest) => match skipBlanks rest with
      | ':' :: rest => match value? budget rest with
        | none => none
        | some (value, rest) => match skipBlanks rest with
          | '\x7d' :: rest => some ([(key, value)], rest)
          | ',' :: rest =>
            (fields? budget rest).map fun (fields, rest) => ((key, value) :: fields, rest)
          | _ => none
      | _ => none
end

/-- The value that a text spells, blanks around it allowed. -/
def parse? (s : String) : Option Json :=
  match value? (2 * s.length + 2) s.toList with
  | some (json, rest) => if (skipBlanks rest).isEmpty then some json else none
  | none => none

end TreeDigest.Json

import TreeDigest.Toml.Reader

/-!
Writing TOML documents.

A table writes its plain values first, a line each, and then its tables, each under
a header of its own with a blank line before it. A list of more than one item has a
line for every item.

A string takes the first of these that fits: quotes without any escape; single
quotes; three quotes without any escape; three single quotes; and else quotes with
escapes, three of them if there is a line end in the string. A string of many lines
starts on a line of its own if there is a line end in it.
-/

namespace TreeDigest.Toml

/-! ### Strings -/

/-- What the quotes of a string depend on. -/
structure TextShape where
  hasControl : Bool
  hasBackslash : Bool
  hasLineEnd : Bool
  longestQuotes : Nat
  longestSingle : Nat
  deriving DecidableEq

/-- The length of the longest run of a character, the current one being given. -/
def longestRun (c : Char) (current : Nat) : List Char → Nat
  | [] => current
  | d :: rest => if d = c then longestRun c (current + 1) rest else max current (longestRun c 0 rest)

/-- A control that nothing holds as it is: neither tabulator nor line end. -/
def needsEscape (c : Char) : Bool := c != '\t' && c != '\n' && (c.toNat ≤ 0x1F || c.toNat = 0x7F)

/-- The shape of a string. -/
def TextShape.of (cs : List Char) : TextShape :=
  ⟨cs.any needsEscape, cs.contains '\\', cs.contains '\n', longestRun '"' 0 cs, longestRun '\x27' 0 cs⟩

/-- The ways to put a string between quotes. -/
inductive Quoting where
  | basic
  | literal
  | basicLines
  | literalLines
  deriving DecidableEq

/-- The way that a string takes. -/
def TextShape.quoting (t : TextShape) : Quoting :=
  if !t.hasControl && !t.hasBackslash && t.longestQuotes = 0 && !t.hasLineEnd then .basic
  else if !t.hasControl && t.longestSingle = 0 && !t.hasLineEnd then .literal
  else if !t.hasControl && !t.hasBackslash && t.longestQuotes ≤ 2 then .basicLines
  else if !t.hasControl && t.longestSingle ≤ 2 then .literalLines
  else if t.hasLineEnd then .basicLines
  else .basic

/-- The upper-case hexadecimal digits of a control. -/
def controlDigits (c : Char) : List Char :=
  ['0', '0', (Text.Hex.digit (c.toNat / 16)).toUpper, (Text.Hex.digit (c.toNat % 16)).toUpper]

/-- The characters of a string between quotes of which so many in a row may stand
unmarked; the number of quotes just before is given. -/
def escapeChars (allowed : Nat) (lines : Bool) (run : Nat) : List Char → List Char
  | [] => []
  | c :: rest =>
    if c = '"' then
      if allowed ≤ run then '\\' :: '"' :: escapeChars allowed lines 0 rest
      else '"' :: escapeChars allowed lines (run + 1) rest
    else if c = '\\' then '\\' :: '\\' :: escapeChars allowed lines 0 rest
    else if c = '\x08' then '\\' :: 'b' :: escapeChars allowed lines 0 rest
    else if c = '\t' then '\\' :: 't' :: escapeChars allowed lines 0 rest
    else if c = '\n' then
      if lines then '\n' :: escapeChars allowed lines 0 rest
      else '\\' :: 'n' :: escapeChars allowed lines 0 rest
    else if c = '\x0c' then '\\' :: 'f' :: escapeChars allowed lines 0 rest
    else if c = '\r' then '\\' :: 'r' :: escapeChars allowed lines 0 rest
    else if needsEscape c then '\\' :: 'u' :: controlDigits c ++ escapeChars allowed lines 0 rest
    else c :: escapeChars allowed lines 0 rest

/-- The line end that starts a string of many lines. -/
def firstLineEnd (t : TextShape) : List Char := if t.hasLineEnd then ['\n'] else []

/-- A string between its quotes. -/
def textChars (s : String) : List Char :=
  let cs := s.toList
  let shape := TextShape.of cs
  match shape.quoting with
  | .basic => '"' :: escapeChars 0 false 0 cs ++ ['"']
  | .literal => '\x27' :: cs ++ ['\x27']
  | .basicLines => ['"', '"', '"'] ++ firstLineEnd shape ++ escapeChars 2 true 0 cs ++ ['"', '"', '"']
  | .literalLines => ['\x27', '\x27', '\x27'] ++ firstLineEnd shape ++ cs ++ ['\x27', '\x27', '\x27']

/-- A key: bare, in quotes without any escape, in single quotes, or
in quotes with escapes. -/
def keyChars (s : String) : List Char :=
  let cs := s.toList
  let shape := TextShape.of cs
  let control := shape.hasControl || shape.hasLineEnd
  if cs ≠ [] ∧ cs.all isBare then cs
  else if !control && !shape.hasBackslash && shape.longestQuotes = 0 then '"' :: escapeChars 0 false 0 cs ++ ['"']
  else if !control && shape.longestSingle = 0 then '\x27' :: cs ++ ['\x27']
  else '"' :: escapeChars 0 false 0 cs ++ ['"']

/-! ### Values -/

/-- An item of a list on a line of its own. -/
def itemLine (item : List Char) : List Char := [' ', ' ', ' ', ' '] ++ item ++ [',', '\n']

mutual
/-- A value that stands after a key. -/
def valueChars : Value → List Char
  | .text s => textChars s
  | .integer n => Json.integerChars n
  | .float x => x.pointedText.toList
  | .boolean true => ['t', 'r', 'u', 'e']
  | .boolean false => ['f', 'a', 'l', 's', 'e']
  | .moment s => s.toList
  | .array [] => ['[', ']']
  | .array [item] => '[' :: valueChars item ++ [']']
  | .array (item :: rest) => '[' :: '\n' :: itemLine (valueChars item) ++ itemLines rest ++ [']']
  | .table fields => ['\x7b', ' '] ++ inlineFields fields ++ ['\x7d']

/-- The items of a list, a line each. -/
def itemLines : List Value → List Char
  | [] => []
  | item :: rest => itemLine (valueChars item) ++ itemLines rest

/-- The fields of a table in braces. -/
def inlineFields : List (String × Value) → List Char
  | [] => []
  | (key, value) :: rest =>
    keyChars key ++ [' ', '=', ' '] ++ valueChars value ++
      (if rest.isEmpty then [' '] else [',', ' ']) ++ inlineFields rest
end

/-- A line that sets a key. -/
def fieldLine (key : String) (value : Value) : List Char :=
  keyChars key ++ [' ', '=', ' '] ++ valueChars value ++ ['\n']

/-- The header of a table. -/
def headerLine (path : List String) : List Char :=
  '[' :: ['.'].intercalate (path.map keyChars) ++ [']', '\n']

/-- The lines of the fields that are no tables. -/
def plainLines (fields : Fields) : List Char :=
  fields.flatMap fun f => match f.2 with
    | .table _ => []
    | value => fieldLine f.1 value

mutual
/-- The tables below a path, each with the tables in it. -/
def tableParts (path : List String) : List (String × Value) → List (List Char)
  | [] => []
  | (key, value) :: rest => tablePart (path ++ [key]) value ++ tableParts path rest

/-- The part of a table and of the tables in it. -/
def tablePart (path : List String) : Value → List (List Char)
  | .table fields => (headerLine path ++ plainLines fields) :: tableParts path fields
  | _ => []
end

/-- The text of a document. -/
def documentChars (fields : Fields) : List Char :=
  let plain := plainLines fields
  ['\n'].intercalate ((if plain.isEmpty then [] else [plain]) ++ tableParts [] fields)

/-- The text of a document. -/
def render (fields : Fields) : String := .ofList (documentChars fields)

end TreeDigest.Toml

import TreeDigest.Text.Hex

/-!
JSON values and their two written forms.

* `Json.pretty` writes one item a line, two blanks for each level, and an empty
  list or object as its two brackets.
* `Json.compact` writes everything on one line without blanks.

Both write an object's fields in the order in which they stand;
`Json.sortedObject` puts them in the order of their keys first.
-/

namespace TreeDigest

/-- A JSON value. A number written with a fraction or an exponent is
`decimal negative digits exponent`, that is `± digits · 10 ^ exponent`. -/
inductive Json where
  | null
  | boolean (b : Bool)
  | integer (n : Int)
  | decimal (negative : Bool) (digits : Nat) (exponent : Int)
  | string (s : String)
  | array (items : List Json)
  | object (fields : List (String × Json))

namespace Json

instance : Inhabited Json := ⟨.null⟩

/-- The object with the given fields, ordered by their keys. -/
def sortedObject (fields : List (String × Json)) : Json :=
  .object (fields.mergeSort fun a b => Text.nameLe a.1 b.1)

/-- The value if there is one, and null otherwise. -/
def ofOption {α : Type} (f : α → Json) : Option α → Json
  | none => .null
  | some a => f a

/-- The integer of a natural number. -/
def ofNat (n : Nat) : Json := .integer n

/-- The value of a field; of two fields with one key the last counts. -/
def field? (key : String) : Json → Option Json
  | .object fields => (fields.reverse.find? fun f => f.1 == key).map (·.2)
  | _ => none

/-! ### Strings -/

/-- A character as it stands between the quotes. -/
def escape (c : Char) : List Char :=
  if c = '"' then ['\\', '"']
  else if c = '\\' then ['\\', '\\']
  else if c = '\n' then ['\\', 'n']
  else if c = '\r' then ['\\', 'r']
  else if c = '\t' then ['\\', 't']
  else if c = '\x08' then ['\\', 'b']
  else if c = '\x0c' then ['\\', 'f']
  else if c.toNat < 0x20 then
    ['\\', 'u', '0', '0', Text.Hex.digit (c.toNat / 16), Text.Hex.digit (c.toNat % 16)]
  else [c]

/-- A string with its quotes. -/
def quote (s : String) : List Char := '"' :: (s.toList.flatMap escape ++ ['"'])

/-! ### Numbers -/

/-- The digits of an integer. -/
def integerChars (n : Int) : List Char :=
  if n < 0 then '-' :: Nat.toDigits 10 n.natAbs else Nat.toDigits 10 n.natAbs

/-- A decimal with its exponent. -/
def decimalChars (negative : Bool) (digits : Nat) (exponent : Int) : List Char :=
  (if negative then ['-'] else []) ++ Nat.toDigits 10 digits ++ 'e' :: integerChars exponent

/-! ### Layouts -/

/-- A line break and the blanks that open a line at the given level. -/
def newline (level : Nat) : List Char := '\n' :: List.replicate (2 * level) ' '

mutual
/-- The written form of a value that starts at the given level. -/
def prettyChars (level : Nat) : Json → List Char
  | .null => ['n', 'u', 'l', 'l']
  | .boolean true => ['t', 'r', 'u', 'e']
  | .boolean false => ['f', 'a', 'l', 's', 'e']
  | .integer n => integerChars n
  | .decimal negative digits exponent => decimalChars negative digits exponent
  | .string s => quote s
  | .array [] => ['[', ']']
  | .array (item :: rest) =>
    '[' :: newline (level + 1) ++ prettyChars (level + 1) item ++ prettyItems (level + 1) rest
      ++ newline level ++ [']']
  | .object [] => ['\x7b', '\x7d']
  | .object ((key, value) :: rest) =>
    '\x7b' :: newline (level + 1) ++ quote key ++ [':', ' '] ++ prettyChars (level + 1) value
      ++ prettyFields (level + 1) rest ++ newline level ++ ['\x7d']

/-- The items of a list after the first. -/
def prettyItems (level : Nat) : List Json → List Char
  | [] => []
  | item :: rest => ',' :: newline level ++ prettyChars level item ++ prettyItems level rest

/-- The fields of an object after the first. -/
def prettyFields (level : Nat) : List (String × Json) → List Char
  | [] => []
  | (key, value) :: rest =>
    ',' :: newline level ++ quote key ++ [':', ' '] ++ prettyChars level value
      ++ prettyFields level rest
end

/-- The text of a value, one item a line. -/
def pretty (json : Json) : String := .ofList (prettyChars 0 json)

mutual
/-- The written form of a value on one line. -/
def compactChars : Json → List Char
  | .null => ['n', 'u', 'l', 'l']
  | .boolean true => ['t', 'r', 'u', 'e']
  | .boolean false => ['f', 'a', 'l', 's', 'e']
  | .integer n => integerChars n
  | .decimal negative digits exponent => decimalChars negative digits exponent
  | .string s => quote s
  | .array [] => ['[', ']']
  | .array (item :: rest) => '[' :: compactChars item ++ compactItems rest ++ [']']
  | .object [] => ['\x7b', '\x7d']
  | .object ((key, value) :: rest) =>
    '\x7b' :: quote key ++ ':' :: compactChars value ++ compactFields rest ++ ['\x7d']

/-- The items of a list after the first. -/
def compactItems : List Json → List Char
  | [] => []
  | item :: rest => ',' :: compactChars item ++ compactItems rest

/-- The fields of an object after the first. -/
def compactFields : List (String × Json) → List Char
  | [] => []
  | (key, value) :: rest => ',' :: quote key ++ ':' :: compactChars value ++ compactFields rest
end

/-- The text of a value on one line. -/
def compact (json : Json) : String := .ofList (compactChars json)

end Json

end TreeDigest

import TreeDigest.Toml.Document
import TreeDigest.Toml.Scalar

/-!
Reading TOML documents.

A document is a row of lines: blank ones, comments, headers, and keys with their
values. `Toml.parse?` gives the fields of the document, or nothing if any line is
malformed or sets what is already set. Lists and tables inside values may be nested
up to seventy-nine levels deep.
-/

namespace TreeDigest.Toml

/-! ### Keys -/

/-- A character of a key without quotes. -/
def isBare (c : Char) : Bool :=
  ('a' ≤ c && c ≤ 'z') || ('A' ≤ c && c ≤ 'Z') || ('0' ≤ c && c ≤ '9') || c = '-' || c = '_'

/-- One part of a key. -/
def keyPart? (cs : List Char) : Option (String × List Char) :=
  match cs with
  | '"' :: _ => lineString? cs
  | '\x27' :: _ => lineString? cs
  | _ =>
    let name := cs.takeWhile isBare
    if name.isEmpty then none else some (.ofList name, cs.dropWhile isBare)

/-- A key: parts with dots between them, blanks around the dots allowed. Gives the
parts before the last one, and the last one. -/
def key? : Nat → List Char → Option ((List String × String) × List Char)
  | 0, _ => none
  | n + 1, cs => do
    let (part, rest) ← keyPart? (skipSpaces cs)
    match skipSpaces rest with
    | '.' :: rest =>
      let ((path, last), rest) ← key? n rest
      return ((part :: path, last), rest)
    | rest => return (([], part), rest)

/-! ### Values -/

/-- The rest of a line after a comment mark, if every character may stand there. -/
def comment? (cs : List Char) : Option (List Char) :=
  match cs with
  | '#' :: rest => some (rest.dropWhile isPlain)
  | _ => none

/-- What follows the blanks, line ends and comments between the items of a list. -/
def skipBetween : Nat → List Char → List Char
  | 0, cs => cs
  | n + 1, cs =>
    let cs := skipSpaces cs
    match lineEnd? cs with
    | some rest => skipBetween n rest
    | none => match comment? cs with
      | some rest => match lineEnd? rest with
        | some rest => skipBetween n rest
        | none => rest
      | none => cs

/-- The items of a list up to its closing bracket, given a reader of values. -/
def arrayItems (value? : List Char → Option (Value × List Char)) :
    Nat → List Char → Option (List Value × List Char)
  | 0, _ => none
  | n + 1, cs =>
    match skipBetween cs.length cs with
    | ']' :: rest => some ([], rest)
    | cs => do
      let (item, rest) ← value? cs
      match skipBetween rest.length rest with
      | ',' :: rest =>
        let (items, rest) ← arrayItems value? n rest
        return (item :: items, rest)
      | ']' :: rest => return ([item], rest)
      | _ => none

/-- The entries of a table in braces up to the closing one, added to those before. -/
def inlineEntries (value? : List Char → Option (Value × List Char)) :
    Nat → Items → List Char → Option (Items × List Char)
  | 0, _, _ => none
  | n + 1, es, cs => do
    let ((path, key), rest) ← key? cs.length cs
    let rest ← after? '=' rest
    let (value, rest) ← value? (skipSpaces rest)
    let es ← es.assignIn path key value
    match skipSpaces rest with
    | ',' :: rest => inlineEntries value? n es rest
    | '\x7d' :: rest => return (es, rest)
    | _ => none

/-- A value. The number is the room for levels inside it, plus one. -/
def value? : Nat → List Char → Option (Value × List Char)
  | 0, _ => none
  | depth + 1, cs =>
    match cs with
    | '[' :: rest =>
      if depth = 0 then none
      else (arrayItems (value? depth) (rest.length + 1) rest).map fun (items, rest) => (.array items, rest)
    | '\x7b' :: rest =>
      if depth = 0 then none
      else match skipSpaces rest with
        | '\x7d' :: rest => some (.table [], rest)
        | rest => (inlineEntries (value? depth) (rest.length + 1) [] rest).map
            fun (es, rest) => (.table (finishFields es), rest)
    | _ => scalar? cs

/-- The number of levels that lists and tables may be nested, plus one. -/
def maxDepth : Nat := 80

/-! ### Lines -/

/-- What follows the end of a line, which may hold a comment before it. -/
def finishLine? (cs : List Char) : Option (List Char) :=
  let cs := skipSpaces cs
  let cs := (comment? cs).getD cs
  match cs with
  | [] => some []
  | _ => lineEnd? cs

/-- A document while it is read: what was found, and the table of the last header. -/
structure State where
  items : Items
  header : List String

/-- Takes in a line that sets a key. -/
def setLine? (s : State) (cs : List Char) : Option (State × List Char) := do
  let ((path, key), rest) ← key? (cs.length + 1) cs
  let rest ← after? '=' rest
  let (value, rest) ← value? maxDepth (skipSpaces rest)
  let rest ← finishLine? rest
  let items ← s.items.assign s.header path key value
  return ({ s with items := items }, rest)

/-- Takes in a line that names a table, after its first bracket. -/
def headerLine? (s : State) (cs : List Char) : Option (State × List Char) :=
  match cs with
  | '[' :: cs => do
    let ((path, key), rest) ← key? (cs.length + 1) cs
    let rest ← after? ']' (← after? ']' rest)
    let rest ← finishLine? rest
    let items ← s.items.openElement path key
    return (⟨items, path ++ [key]⟩, rest)
  | cs => do
    let ((path, key), rest) ← key? (cs.length + 1) cs
    let rest ← after? ']' rest
    let rest ← finishLine? rest
    let items ← s.items.openTable path key
    return (⟨items, path ++ [key]⟩, rest)

/-- Takes in a line. -/
def line? (s : State) (cs : List Char) : Option (State × List Char) :=
  match skipSpaces cs with
  | [] => some (s, [])
  | '[' :: rest => headerLine? s rest
  | '#' :: rest => (finishLine? ('#' :: rest)).map fun rest => (s, rest)
  | '\n' :: rest => some (s, rest)
  | '\r' :: '\n' :: rest => some (s, rest)
  | cs => setLine? s cs

/-- Takes in at most the given number of lines. -/
def lines? : Nat → State → List Char → Option State
  | _, s, [] => some s
  | 0, _, _ => none
  | n + 1, s, cs => do
    let (s, rest) ← line? s cs
    lines? n s rest

/-- The text without a byte order mark at its start. -/
def skipMark : List Char → List Char
  | '\ufeff' :: rest => rest
  | cs => cs

/-- The fields of a document. -/
def parseChars? (cs : List Char) : Option Fields :=
  (lines? (cs.length + 1) ⟨[], []⟩ (skipMark cs)).map fun s => finishFields s.items

/-- The fields of a document. -/
def parse? (s : String) : Option Fields := parseChars? s.toList

end TreeDigest.Toml

import TreeDigest.Text.Hex
import TreeDigest.Text.Split

/-!
Tables over code points.

A table is a row of ranges in ascending order, each with a value. It is written
as a text of entries `first-last:value` in hexadecimal, with `first` alone for a
range of one; a value is a list of numbers parted by commas. `find?` looks a
code point up by halving the rows.
-/

namespace TreeDigest.Text

/-- A row of a table: the bounds of its range, and its value. -/
structure CharacterRow where
  first : Nat
  last : Nat
  value : List Nat

/-- Ranges of code points in ascending order, each with a value. -/
abbrev CharacterTable := Array CharacterRow

namespace CharacterTable

/-- The number that a row of hexadecimal digits spells. -/
def number (cs : List Char) : Nat := cs.foldl (fun n c => n * 16 + (Hex.value? c).getD 0) 0

/-- The row that an entry describes. -/
def row (entry : List Char) : CharacterRow :=
  let (range, value) : List Char × List Char := match splitOn ':' entry with
    | range :: value :: _ => (range, value)
    | range :: _ => (range, [])
    | [] => ([], [])
  let value := if value.isEmpty then [] else (splitOn ',' value).map number
  match splitOn '-' range with
  | first :: last :: _ => ⟨number first, number last, value⟩
  | first :: _ => ⟨number first, number first, value⟩
  | [] => ⟨0, 0, value⟩

/-- The entries of a text, between blanks and line ends. -/
def entries (s : String) : List (List Char) :=
  (splitOn ' ' (s.toList.map fun c => if c = '\n' then ' ' else c)).filter fun e => !e.isEmpty

/-- The table that a text describes. -/
def ofText (s : String) : CharacterTable := ((entries s).map row).toArray

/-- Looks for the row of a number among the rows from `low` up to `high`. -/
def search (table : CharacterTable) (n : Nat) : Nat → Nat → Nat → Option CharacterRow
  | 0, _, _ => none
  | fuel + 1, low, high =>
    if low < high then
      let middle := (low + high) / 2
      match table[middle]? with
      | none => none
      | some row =>
        if n < row.first then search table n fuel low middle
        else if row.last < n then search table n fuel (middle + 1) high
        else some row
    else none

/-- The row whose range holds the given number. -/
def find? (table : CharacterTable) (n : Nat) : Option CharacterRow :=
  table.search n (table.size + 1) 0 table.size

/-- The character lies in one of the ranges. -/
def contains (table : CharacterTable) (c : Char) : Bool := (table.find? c.toNat).isSome

end CharacterTable

end TreeDigest.Text

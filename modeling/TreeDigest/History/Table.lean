import TreeDigest.History.Codec

/-!
Tables from byte strings to byte strings, ordered by key, and their stored form.
-/

namespace TreeDigest

/-- Rows in the order of their keys, which are all different. -/
structure HistoryTable where
  rows : List (Bytes × Bytes)
  deriving DecidableEq

namespace HistoryTable

/-- The table without rows. -/
def empty : HistoryTable := ⟨[]⟩

/-- The value of a key. -/
def find? (t : HistoryTable) (key : Bytes) : Option Bytes := t.rows.lookup key

/-- Puts a row among rows in the order of their keys. -/
def putRow (key value : Bytes) : List (Bytes × Bytes) → List (Bytes × Bytes)
  | [] => [(key, value)]
  | row :: rest =>
    if key = row.1 then (key, value) :: rest
    else if Text.bytesLe key row.1 then (key, value) :: row :: rest
    else row :: putRow key value rest

/-- Sets the value of a key. -/
def put (t : HistoryTable) (key value : Bytes) : HistoryTable := ⟨putRow key value t.rows⟩

/-- Takes a key away. -/
def erase (t : HistoryTable) (key : Bytes) : HistoryTable := ⟨t.rows.filter fun row => row.1 != key⟩

/-! ### Stored form -/

/-- A byte string behind its length. -/
def framed (b : Bytes) : Bytes := Record.littleEndian64 b.length ++ b

/-- The stored form of a table: keys and values in turn, each behind its length. -/
def encode (t : HistoryTable) : Bytes := t.rows.flatMap fun row => framed row.1 ++ framed row.2

/-- Reads a byte string behind its length. -/
def unframe? (bytes : Bytes) : Option (Bytes × Bytes) :=
  let rest := bytes.drop 8
  let n := Record.fromLittleEndian (bytes.take 8)
  if bytes.length < 8 ∨ rest.length < n then none else some (rest.take n, rest.drop n)

/-- Reads at most the given number of rows. -/
def decodeRows : Nat → Bytes → Option (List (Bytes × Bytes))
  | _, [] => some []
  | 0, _ => none
  | n + 1, bytes => do
    let (key, rest) ← unframe? bytes
    let (value, rest) ← unframe? rest
    let rows ← decodeRows n rest
    return (key, value) :: rows

/-- The table that bytes hold. -/
def decode? (bytes : Bytes) : Option HistoryTable := (decodeRows bytes.length bytes).map (⟨·⟩)

end HistoryTable

end TreeDigest

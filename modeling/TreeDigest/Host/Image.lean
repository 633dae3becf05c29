import TreeDigest.Host
import TreeDigest.Json.Reader

/-!
Machines described in JSON.

A machine is an object with the entries of its root, its current directory, its
environment and its clock:

* a file is an object with its content as text and the time of its last change in
  nanoseconds, and a text alone is a file changed at the start of 1970;
* a directory has its entries in the order of their listing, a link has its target, and
  `null` is a special file;
* whatever is missing is empty, and the current directory is then the root.
-/

namespace TreeDigest

mutual
/-- The node that a value describes. -/
def Node.ofJson? : Json → Option Node
  | .null => some .special
  | .string s => some (.file (Text.utf8 s) 0)
  | .object [("entries", .object fields)] => (Node.entriesOfJson? fields).map .directory
  | .object [("link", .string target)] => some (.link (Text.utf8 target))
  | .object [("content", .string s), ("modified", .integer n)] => some (.file (Text.utf8 s) n)
  | _ => none

/-- The entries that fields describe. -/
def Node.entriesOfJson? : List (String × Json) → Option Entries
  | [] => some []
  | (name, value) :: rest => do
    let node ← Node.ofJson? value
    return (Text.utf8 name, node) :: (← Node.entriesOfJson? rest)
end

namespace Host

/-- The entries of the root. -/
def rootOfJson? (json : Json) : Option Entries :=
  match json.field? "root" with
  | none => some []
  | some (.object fields) => Node.entriesOfJson? fields
  | some _ => none

/-- The names that lead to the current directory. -/
def currentOfJson? (json : Json) : Option (List Bytes) :=
  match json.field? "current" with
  | none => some []
  | some (.string s) => some ((Path.ofText s).segments.filter (· ≠ []))
  | some _ => none

/-- The environment. -/
def environmentOfJson? (json : Json) : Option (List (String × String)) :=
  match json.field? "environment" with
  | none => some []
  | some (.object fields) => fields.mapM fun f => match f.2 with
    | .string value => some (f.1, value)
    | _ => none
  | some _ => none

/-- The time in nanoseconds. -/
def nowOfJson? (json : Json) : Option Instant :=
  match json.field? "now" with
  | none => some ⟨0, 0⟩
  | some (.integer n) => some ⟨n / Instant.billion, (n % Instant.billion).toNat⟩
  | some _ => none

/-- The machine that a value describes. -/
def ofJson? (json : Json) : Option Host := do
  let files : FileSystem := ⟨← rootOfJson? json, ← currentOfJson? json⟩
  return ⟨files, ← environmentOfJson? json, ← nowOfJson? json, []⟩

end Host

end TreeDigest

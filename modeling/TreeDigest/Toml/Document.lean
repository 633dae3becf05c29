import TreeDigest.Toml.Value

/-!
The tables of a document while it is read.

A table can come into being by a header of its own, as a step on the way to the
table of another header, or by a key with dots. Headers and keys may add to a table
only where it is still open to them:

* a header may name a table that so far was only a step on the way of others;
* a key with dots may go through tables that no header has named, and its last
  table must have come into being by such keys;
* no key is set twice, and a table inside a value is closed.

`assign` sets a key, `openTable` and `openElement` take in headers.
-/

namespace TreeDigest.Toml

/-- What stands under a key while a document is read: a value, a table, or the
tables of repeated headers, the last of which is current. A table is `implicit`
until a header names it, and `dotted` if it came by keys with dots. -/
inductive Item where
  | value (v : Value)
  | table (implicit dotted : Bool) (entries : List (String × Item))
  | tables (elements : List (List (String × Item)))

/-- The entries of a table that is being read. -/
abbrev Items := List (String × Item)

namespace Items

/-- Puts an item in the place of the one with the same key. -/
def replace (es : Items) (key : String) (item : Item) : Items :=
  es.map fun e => if e.1 = key then (key, item) else e

/-- Goes down a row of keys and changes the table at the end of it; `step` tells
whether keys with dots go down or a header does. The change is told whether the
table came by keys with dots. -/
def descend (step : Bool) (change : Bool → Items → Option Items) :
    List String → Bool → Items → Option Items
  | [], dotted, es => change dotted es
  | key :: rest, _, es =>
    match es.lookup key with
    | none => do
      let inner ← descend step change rest step []
      return es ++ [(key, .table true step inner)]
    | some (.value _) => none
    | some (.table implicit dotted inner) =>
      if step && !implicit then none
      else do
        let inner ← descend step change rest dotted inner
        return es.replace key (.table implicit dotted inner)
    | some (.tables elements) =>
      match elements.reverse with
      | [] => none
      | last :: before => do
        let last ← descend step change rest false last
        return es.replace key (.tables (last :: before).reverse)

/-- Sets a key in a table, below the tables of its other parts. -/
def assignIn (path : List String) (key : String) (v : Value) (es : Items) : Option Items :=
  descend true (fun dotted es =>
    if dotted = path.isEmpty ∨ (es.lookup key).isSome then none else some (es ++ [(key, .value v)]))
    path false es

/-- Sets a key in the table that the last header named. -/
def assign (header path : List String) (key : String) (v : Value) (es : Items) : Option Items :=
  descend false (fun _ es => assignIn path key v es) header false es

/-- Takes in the header of a table. -/
def openTable (path : List String) (key : String) (es : Items) : Option Items :=
  descend false (fun _ es =>
    match es.lookup key with
    | none => some (es ++ [(key, .table false false [])])
    | some (.table true false inner) => some (es.replace key (.table false false inner))
    | some _ => none) path false es

/-- Takes in the header of a further element of a list of tables. -/
def openElement (path : List String) (key : String) (es : Items) : Option Items :=
  descend false (fun _ es =>
    match es.lookup key with
    | none => some (es ++ [(key, .tables [[]])])
    | some (.tables elements) => some (es.replace key (.tables (elements ++ [[]])))
    | some _ => none) path false es

end Items

mutual
/-- The value of a finished item. -/
def Item.finish : Item → Value
  | .value v => v
  | .table _ _ es => .table (finishFields es)
  | .tables elements => .array (finishTables elements)

/-- The fields of a finished table. -/
def finishFields : List (String × Item) → Fields
  | [] => []
  | (key, item) :: rest => (key, item.finish) :: finishFields rest

/-- The values of a finished list of tables. -/
def finishTables : List (List (String × Item)) → List Value
  | [] => []
  | es :: rest => .table (finishFields es) :: finishTables rest
end

end TreeDigest.Toml

import TreeDigest.Decimal.Binary64
import TreeDigest.Decimal.Signed64
import TreeDigest.Text.Lowercase

/-!
Layers of settings before they are given types.

Every layer sets some keys to values; the layers are laid one over the other, and
the last one that sets a key wins. Tables are merged key by key, and keys are told
apart without regard to case. A value remembers where it was set, except tables,
which may come from several places.

A key at the top of a layer may be a path such as `a.b[2]`. A position in a list may be
counted from its end, as in `a[-1]`; where the list is too short for that, nothing comes
of laying the layer.

The keys of a table stand in no order. They are set here in the order in which they are
given, and may be set in any other one.

* `LayerValue.set` sets a key of a table.
* `KeyPath.parse?` reads a path and `KeyPath.set` sets what it leads to.
* `LayerValue.cover` lays a layer over a table.
* `Layer.Reordered` relates a layer to the same one with its keys in another order.
-/

namespace TreeDigest

/-- A plain value of a layer. -/
inductive Scalar where
  | nil
  | boolean (b : Bool)
  | integer (n : Int)
  | float (x : Binary64)
  | text (s : String)
  deriving DecidableEq

/-- A value of a layer, with the place where it was set. -/
inductive LayerValue where
  | scalar (origin : Option String) (s : Scalar)
  | list (origin : Option String) (items : List LayerValue)
  | table (origin : Option String) (fields : List (String × LayerValue))

namespace LayerValue

instance : Inhabited LayerValue := ⟨.scalar none .nil⟩

/-- No value. -/
def nil : LayerValue := .scalar none .nil

/-- The table without fields. -/
def emptyTable : LayerValue := .table none []

/-- Where the value was set. -/
def origin : LayerValue → Option String
  | .scalar o _ => o
  | .list o _ => o
  | .table o _ => o

/-- The fields of a table; other values have none. -/
def fields : LayerValue → List (String × LayerValue)
  | .table _ fs => fs
  | _ => []

/-- The value of a field. -/
def field? (v : LayerValue) (key : String) : Option LayerValue := v.fields.lookup key

/-- Puts a value under a key of a table; anything else becomes a table first. -/
def put (v : LayerValue) (key : String) (value : LayerValue) : LayerValue :=
  let fs := v.fields
  let fs :=
    if (fs.lookup key).isSome then fs.map fun f => if f.1 = key then (key, value) else f
    else fs ++ [(key, value)]
  match v with
  | .table o _ => .table o fs
  | _ => .table none fs

mutual
/-- Sets a key: a table is merged into what is there, and any other value takes its
place. -/
def set (root : LayerValue) (key : String) : LayerValue → LayerValue
  | .table _ fs =>
    let key := Text.lowercase key
    root.put key (setAll ((root.field? key).getD emptyTable) fs)
  | .scalar o s => root.put (Text.lowercase key) (.scalar o s)
  | .list o items => root.put (Text.lowercase key) (.list o items)

/-- Sets keys in turn. -/
def setAll (root : LayerValue) : List (String × LayerValue) → LayerValue
  | [] => root
  | (key, value) :: rest => setAll (set root key value) rest
end

end LayerValue

/-! ### Paths of keys -/

/-- A step of a path: to a key of a table or to an item of a list. A negative position is
counted from the end of the list. -/
inductive KeyStep where
  | key (name : String)
  | item (position : Int)
  deriving DecidableEq

namespace KeyPath

/-- A character of a key in a path. -/
def isKeyChar (c : Char) : Bool :=
  ('a' ≤ c && c ≤ 'z') || ('A' ≤ c && c ≤ 'Z') || ('0' ≤ c && c ≤ '9') || c = '_' || c = '-' || c = ' '

/-- A key at the start. -/
def key? (cs : List Char) : Option (String × List Char) :=
  let name := cs.takeWhile isKeyChar
  if name.isEmpty then none else some (.ofList name, cs.dropWhile isKeyChar)

/-- A blank between brackets. -/
def isBlank (c : Char) : Bool := c = ' ' || c = '\t'

/-- A position in a list and the bracket after it: a whole number of sixty-four bits, which
may have a minus sign and stand between blanks. -/
def position? (cs : List Char) : Option (Int × List Char) :=
  let (negative, cs) : Bool × List Char := match cs.dropWhile isBlank with
    | '-' :: rest => (true, rest)
    | rest => (false, rest)
  let ds := cs.takeWhile Char.isDigit
  match ds, (cs.dropWhile Char.isDigit).dropWhile isBlank with
  | _ :: _, ']' :: rest => do
    let n : Int := Json.digitsValue ds
    return (← Signed64.check? (if negative then -n else n), rest)
  | _, _ => none

/-- The steps after the first key. -/
def steps? : Nat → List Char → Option (List KeyStep)
  | _, [] => some []
  | 0, _ => none
  | n + 1, '.' :: rest => do
    let (name, rest) ← key? rest
    return .key name :: (← steps? n rest)
  | n + 1, '[' :: rest => do
    let (position, rest) ← position? rest
    return .item position :: (← steps? n rest)
  | _ + 1, _ => none

/-- The path that a text spells. -/
def parse? (s : String) : Option (List KeyStep) := do
  let (name, rest) ← key? s.toList
  return .key name :: (← steps? rest.length rest)

/-- The index of a position in a list of some length. A position counted from the end has
none where the list is too short. -/
def index? (position : Int) (length : Nat) : Option Nat :=
  if 0 ≤ position then some position.toNat
  else if position.natAbs ≤ length then some (length - position.natAbs)
  else none

/-- Changes what a path leads to; whatever is in the way becomes a table or a list. -/
def change (f : LayerValue → LayerValue) : List KeyStep → LayerValue → Option LayerValue
  | [], v => some (f v)
  | .key name :: rest, v => (change f rest ((v.field? name).getD .nil)).map (v.put name)
  | .item position :: rest, v => do
    let (o, items) : Option String × List LayerValue := match v with
      | .list o items => (o, items)
      | _ => (none, [])
    let index ← index? position items.length
    let items := items ++ List.replicate (index + 1 - items.length) .nil
    return .list o (items.set index (← change f rest (items.getD index .nil)))

/-- Sets what a path leads to. -/
def set (root : LayerValue) (path : List KeyStep) (value : LayerValue) : Option LayerValue :=
  match path.reverse with
  | [] => some root
  | .key name :: before => change (fun v => v.set name value) before.reverse root
  | .item position :: before => change (fun _ => value) (before.reverse ++ [.item position]) root

/-- Sets a key of the top of a layer: a path if it spells one, and else the key as it
stands. -/
def setTop (root : LayerValue) (key : String) (value : LayerValue) : Option LayerValue :=
  match parse? key with
  | some path => set root path value
  | none => some (root.set key value)

end KeyPath

/-- Lays a layer over what is there. -/
def LayerValue.cover (root : LayerValue) (layer : List (String × LayerValue)) : Option LayerValue :=
  layer.foldlM (fun root f => KeyPath.setTop root f.1 f.2) root

/-! ### Orders of keys -/

mutual
/-- A value with the keys of its tables in another order. -/
inductive LayerValue.Reordered : LayerValue → LayerValue → Prop where
  | scalar (o : Option String) (s : Scalar) : Reordered (.scalar o s) (.scalar o s)
  | list (o : Option String) (items : List LayerValue) : Reordered (.list o items) (.list o items)
  | table (o : Option String) {fs gs fs' : List (String × LayerValue)} :
      LayerValue.EachReordered fs gs → gs.Perm fs' → Reordered (.table o fs) (.table o fs')

/-- Keys in the same order with values that have theirs in another one. -/
inductive LayerValue.EachReordered :
    List (String × LayerValue) → List (String × LayerValue) → Prop where
  | nil : EachReordered [] []
  | cons (key : String) {v v' : LayerValue} {fs fs' : List (String × LayerValue)} :
      LayerValue.Reordered v v' → EachReordered fs fs' →
      EachReordered ((key, v) :: fs) ((key, v') :: fs')
end

/-- A layer with its keys, and those of the tables in it, in another order. -/
def Layer.Reordered (layer layer' : List (String × LayerValue)) : Prop :=
  ∃ each, LayerValue.EachReordered layer each ∧ each.Perm layer'

end TreeDigest

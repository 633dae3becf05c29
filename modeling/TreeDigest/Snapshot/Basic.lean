import TreeDigest.Hashing
import TreeDigest.Text.Split

/-!
Snapshots: the finished image of one location.

A leaf is a file with its content digest, or a location that does not exist. A
directory has a digest made from its children, which stand in a fixed order.

* `Snapshot.find?` steps down by names.
* `Snapshot.decEq` decides whether two snapshots agree in every field at every
  depth.
-/

namespace TreeDigest

/-- How a location was reached. -/
inductive Access where
  | direct
  | viaSymlink
  deriving DecidableEq, Repr

/-- The access of something that is, or is not, reached through a link. -/
def Access.ofLink (isLink : Bool) : Access := if isLink then .viaSymlink else .direct

/-- What a node says about itself besides its digest. -/
structure Location where
  path : String
  name : String
  access : Access
  deriving DecidableEq

/-- Length in bytes, and time of the last change in milliseconds since 1970. -/
structure FileFacts where
  length : Nat
  modified : Int
  deriving DecidableEq

/-- The kinds of leaves. -/
inductive LeafKind where
  | file (facts : FileFacts)
  | missing
  deriving DecidableEq

/-- A terminal node. -/
structure Leaf where
  location : Location
  digest : Digest
  kind : LeafKind
  deriving DecidableEq

/-- The leaf of a location that does not exist. -/
def Leaf.missing (h : HashFunction) (location : Location) : Leaf := ⟨location, h.missing, .missing⟩

/-- The finished image of a location. -/
inductive Snapshot where
  | leaf (leaf : Leaf)
  | directory (location : Location) (digest : Digest) (children : List Snapshot)

namespace Snapshot

/-- Path, name and access of the topmost node. -/
def location : Snapshot → Location
  | .leaf l => l.location
  | .directory l _ _ => l

/-- The name of the topmost node. -/
def name (s : Snapshot) : String := s.location.name

/-- The digest of the topmost node. -/
def digest : Snapshot → Digest
  | .leaf l => l.digest
  | .directory _ d _ => d

/-- The children of the topmost node. -/
def children : Snapshot → List Snapshot
  | .leaf _ => []
  | .directory _ _ cs => cs

/-- The topmost node is a directory. -/
def isDirectory : Snapshot → Bool
  | .leaf _ => false
  | .directory _ _ _ => true

/-! ### Equality -/

mutual
/-- Decides equality in every field at every depth. -/
def decEq : (s t : Snapshot) → Decidable (s = t)
  | .leaf a, .leaf b => if h : a = b then isTrue (by rw [h]) else isFalse (by simpa using h)
  | .directory l d cs, .directory l' d' cs' =>
    if hl : l = l' ∧ d = d' then
      match decEqList cs cs' with
      | isTrue h => isTrue (by rw [hl.1, hl.2, h])
      | isFalse h => isFalse (by simp [h])
    else isFalse (by simp only [directory.injEq]; intro h; exact hl ⟨h.1, h.2.1⟩)
  | .leaf _, .directory _ _ _ => isFalse (by simp)
  | .directory _ _ _, .leaf _ => isFalse (by simp)

/-- Decides equality of lists of snapshots. -/
def decEqList : (ss ts : List Snapshot) → Decidable (ss = ts)
  | [], [] => isTrue rfl
  | [], _ :: _ => isFalse (by simp)
  | _ :: _, [] => isFalse (by simp)
  | s :: ss, t :: ts =>
    match decEq s t with
    | isTrue h => match decEqList ss ts with
      | isTrue h' => isTrue (by rw [h, h'])
      | isFalse h' => isFalse (by simp [h'])
    | isFalse h => isFalse (by simp [h])
end

instance : DecidableEq Snapshot := decEq

/-! ### Looking for nodes -/

/-- The first child of the given name. -/
def child? (s : Snapshot) (name : String) : Option Snapshot := s.children.find? fun c => c.name == name

/-- Steps from a node to the first child of each name in turn. -/
def follow? : Snapshot → List String → Option Snapshot
  | s, [] => some s
  | s, name :: names => (s.child? name).bind fun c => follow? c names

/-- The names in a path relative to a directory; slashes part them and empty
ones do not count. -/
def pathNames (path : String) : List String := (Text.split '/' path).filter (· ≠ "")

/-- The node below a directory that a relative path leads to. -/
def find? (s : Snapshot) (path : String) : Option Snapshot :=
  match pathNames path with
  | [] => none
  | names => s.follow? names

end Snapshot

end TreeDigest

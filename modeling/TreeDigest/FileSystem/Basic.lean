import TreeDigest.Path
import TreeDigest.IoError

/-!
A file system as a value: a tree of named nodes with links between them, and a
current directory.

* `FileSystem.resolve` follows a path to the place it names. Names are taken one
  by one; a link before the end of the path is always followed, one at the end
  only on demand or when a slash or dot after it asks for a directory. At most
  forty links are followed.
* A directory's entries stand in the order in which they are listed.
-/

namespace TreeDigest

/-- A node of a file system. Times are counted in nanoseconds since 1970. -/
inductive Node where
  | file (content : Bytes) (modified : Int)
  | directory (entries : List (Bytes × Node))
  | link (target : Bytes)
  | special
  deriving Inhabited

/-- The entries of a directory in listing order. -/
abbrev Entries := List (Bytes × Node)

/-- What a listing says about an entry. -/
inductive NodeKind where
  | file
  | directory
  | link
  | special
  deriving DecidableEq, Repr

namespace Node

/-- The kind of a node. -/
def kind : Node → NodeKind
  | .file _ _ => .file
  | .directory _ => .directory
  | .link _ => .link
  | .special => .special

/-- The node is a directory. -/
def isDirectory (n : Node) : Bool := n.kind == .directory

end Node

namespace Entries

/-- The node of the given name. -/
def find? (es : Entries) (name : Bytes) : Option Node := (List.find? (fun e => e.1 == name) es).map (·.2)

/-- Puts a node under a name, in the place of the one that was there. -/
def put (es : Entries) (name : Bytes) (node : Node) : Entries :=
  match es with
  | [] => [(name, node)]
  | e :: rest => if e.1 = name then (name, node) :: rest else e :: put rest name node

/-- Takes a name away. -/
def erase (es : Entries) (name : Bytes) : Entries := es.filter fun e => e.1 != name

/-- Changes the directory that a row of names leads to. -/
def changeAt : List Bytes → (Entries → Entries) → Entries → Entries
  | [], change, es => change es
  | name :: rest, change, es => es.map fun e =>
    if e.1 = name then
      match e.2 with
      | .directory inner => (e.1, .directory (changeAt rest change inner))
      | node => (e.1, node)
    else e

end Entries

/-- A file system: the entries of the root, and the names that lead from the
root to the current directory. -/
structure FileSystem where
  root : Entries
  current : List Bytes
  deriving Inhabited

namespace FileSystem

/-- The longest path that is looked up. -/
def maxPath : Nat := 4095

/-- The longest name of an entry. -/
def maxName : Nat := 255

/-- The number of links that one path may lead through. -/
def maxLinks : Nat := 40

/-- A directory and how it is reached from the root: the names that lead to it
and their directories, innermost first. -/
abbrev Trail := List (Bytes × Entries)

/-- The entries of the directory at the end of a trail. -/
def entriesAt (fs : FileSystem) : Trail → Entries
  | [] => fs.root
  | (_, es) :: _ => es

/-- The names that lead from the root along a trail. -/
def Trail.names (t : Trail) : List Bytes := (t.map (·.1)).reverse

/-- The trail that a row of names leads along, if they all are directories. -/
def trailOf? (fs : FileSystem) (names : List Bytes) : Option Trail :=
  names.foldl (fun trail name => do
    let trail ← trail
    match (fs.entriesAt trail).find? name with
    | some (.directory es) => some ((name, es) :: trail)
    | _ => none) (some [])

/-- Where the names of a path lead. -/
inductive Place where
  /-- A directory. -/
  | directory (trail : Trail)
  /-- A file, link or special node, with the directory that holds it. -/
  | other (trail : Trail) (name : Bytes) (node : Node)
  /-- Nothing yet: the directory exists and the name in it is free. -/
  | vacant (trail : Trail) (name : Bytes)

/-- What a row of names leads to before the next link is followed. -/
inductive Leg where
  | arrived (place : Place)
  | link (trail : Trail) (target : Bytes) (rest : List Bytes)

/-- Takes names up to the end or to a link that has to be followed. -/
def leg (fs : FileSystem) (follow : Bool) (trail : Trail) : List Bytes → Except IoError Leg
  | [] => .ok (.arrived (.directory trail))
  | name :: rest =>
    if name = [] ∨ name = [dot] then leg fs follow trail rest
    else if name = [dot, dot] then leg fs follow trail.tail rest
    else if maxName < name.length then .error .nameTooLong
    else match (fs.entriesAt trail).find? name with
      | some (.directory es) => leg fs follow ((name, es) :: trail) rest
      | some (.link target) =>
        if rest = [] ∧ follow = false then .ok (.arrived (.other trail name (.link target)))
        else .ok (.link trail target rest)
      | some node => if rest = [] then .ok (.arrived (.other trail name node)) else .error .notADirectory
      | none => if rest = [] then .ok (.arrived (.vacant trail name)) else .error .noEntry

/-- Takes the names of a path, following at most the given number of links. -/
def legs (fs : FileSystem) (follow : Bool) : Nat → Trail → List Bytes → Except IoError Place
  | links, trail, names => do
    match ← fs.leg follow trail names with
    | .arrived place => return place
    | .link trail target rest =>
      match links with
      | 0 => throw .tooManyLinks
      | links + 1 =>
        let path : Path := ⟨target⟩
        legs fs follow links (if path.isAbsolute then [] else trail) (path.segments ++ rest)

/-- The trail of the current directory. -/
def currentTrail (fs : FileSystem) : Except IoError Trail :=
  match fs.trailOf? fs.current with
  | some trail => .ok trail
  | none => .error .noEntry

/-- The path of the current directory. -/
def pathOf (names : List Bytes) : Path := ⟨slash :: [slash].intercalate names⟩

/-- The current directory, as long as it exists. -/
def currentPath (fs : FileSystem) : Except IoError Path :=
  fs.currentTrail.map fun trail => pathOf trail.names

/-- Where a path leads. A slash at its end asks for a directory, but the name
before it may be free. -/
def resolve (fs : FileSystem) (follow : Bool) (p : Path) : Except IoError Place := do
  if p.bytes.contains 0 then throw .nulByte
  if p.bytes = [] then throw .noEntry
  if maxPath < p.bytes.length then throw .nameTooLong
  let start ← if p.isAbsolute then pure [] else fs.currentTrail
  let closed := p.bytes.getLast? = some slash
  let names := p.segments.filter (· ≠ [])
  match ← fs.legs (follow || closed) maxLinks start names with
  | .other trail name node => if closed then throw .notADirectory else return .other trail name node
  | place => return place

/-! ### Looking -/

/-- The node at a place. -/
def Place.node? (fs : FileSystem) : Place → Option Node
  | .directory trail => some (.directory (fs.entriesAt trail))
  | .other _ _ node => some node
  | .vacant _ _ => none

/-- The names that lead to a place. -/
def Place.names : Place → List Bytes
  | .directory trail => trail.names
  | .other trail name _ => trail.names ++ [name]
  | .vacant trail name => trail.names ++ [name]

/-- The node that a path names. -/
def node (fs : FileSystem) (follow : Bool) (p : Path) : Except IoError Node := do
  match (← fs.resolve follow p).node? fs with
  | some node => return node
  | none => throw .noEntry

/-- The path leads to something, links followed. -/
def pathExists (fs : FileSystem) (p : Path) : Bool := (fs.node true p).isOk

/-- The path leads to a directory. -/
def isDirectory (fs : FileSystem) (p : Path) : Bool :=
  match fs.node true p with
  | .ok (.directory _) => true
  | _ => false

/-- The path leads to a regular file. -/
def isFile (fs : FileSystem) (p : Path) : Bool :=
  match fs.node true p with
  | .ok (.file _ _) => true
  | _ => false

/-- The path itself is a link. -/
def isLink (fs : FileSystem) (p : Path) : Bool :=
  match fs.node false p with
  | .ok (.link _) => true
  | _ => false

/-- The plain absolute path of what a path leads to. -/
def canonicalize (fs : FileSystem) (p : Path) : Except IoError Path := do
  match ← fs.resolve true p with
  | .vacant _ _ => throw .noEntry
  | place => return pathOf place.names

/-- The names and kinds of a directory's entries. -/
def list (fs : FileSystem) (p : Path) : Except IoError (List (Bytes × NodeKind)) := do
  match ← fs.node true p with
  | .directory es => return es.map fun e => (e.1, e.2.kind)
  | _ => throw .notADirectory

/-- The content of a file. -/
def read (fs : FileSystem) (p : Path) : Except IoError Bytes := do
  match ← fs.node true p with
  | .file content _ => return content
  | .directory _ => throw .isADirectory
  | _ => return []

end FileSystem

end TreeDigest

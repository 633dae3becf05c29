import TreeDigest.FileSystem.Change

/-!
Walking a directory tree.

A walk tells a visitor of every entry, a directory before its contents, together
with the depth at which it stands. The visitor's state holds the file system, so
what the visitor does to it is seen by the rest of the walk: a directory is listed
when it is entered, and links are looked at when their turn comes.

* With `followLinks`, a link counts as what it leads to, unless that is one of the
  directories around it, which is an error.
* Entries whose name is to be left out are skipped with everything below them; that
  is checked after errors of following, so those are always told.
* `room` bounds the depth. Every level adds two bytes to the path at least, so the
  longest path that can be looked up is reached before the room runs out.
-/

namespace TreeDigest

/-- Why a walk could not go on at some place. -/
inductive WalkError where
  | io (depth : Nat) (path : Option Path) (error : IoError)
  | loop (depth : Nat) (ancestor child : Path)
  deriving DecidableEq

/-- The wording of a walk error. -/
def WalkError.message : WalkError → String
  | .io _ (some path) error => s!"IO error for operation on {path.display}: {error.message}"
  | .io _ none error => error.message
  | .loop _ ancestor child =>
    s!"File system loop found: {child.display} points to an ancestor {ancestor.display}"

/-- An entry that a walk met. It was reached through a link if it is one or if a
link was followed to it. -/
structure WalkEntry where
  path : Path
  depth : Nat
  kind : NodeKind
  viaLink : Bool

/-- What a walk tells its visitor. -/
inductive WalkEvent where
  | entry (e : WalkEntry)
  | failure (e : WalkError)

/-- The depth at which an event stands. -/
def WalkEvent.depth : WalkEvent → Nat
  | .entry e => e.depth
  | .failure (.io depth _ _) => depth
  | .failure (.loop depth _ _) => depth

/-- How a tree is walked. `leavesOut` says which names are skipped below the root. -/
structure WalkOptions where
  followLinks : Bool
  byName : Bool
  leavesOut : Bytes → Bool

/-- A visitor of a walk: where its state keeps the file system, what it does at an
event, and how it notes an entry that was left out. -/
structure WalkVisitor (σ ε : Type) where
  files : σ → FileSystem
  visit : σ → WalkEvent → Except ε σ
  skip : σ → σ

namespace Walk

/-- Refuses a directory that is one of those around it, innermost first. -/
def checkLoop (fs : FileSystem) (depth : Nat) (child : Path) : List Path → Except WalkError Unit
  | [] => .ok ()
  | ancestor :: outer =>
    match fs.canonicalize child, fs.canonicalize ancestor with
    | .ok a, .ok b => if a = b then .error (.loop depth ancestor child) else checkLoop fs depth child outer
    | .error e, _ => .error (.io depth none e)
    | _, .error e => .error (.io depth none e)

/-- The entry that a listed link leads to. -/
def followed (fs : FileSystem) (ancestors : List Path) (depth : Nat) (path : Path) :
    Except WalkError WalkEntry :=
  match fs.node true path with
  | .error e => .error (.io depth (some path) e)
  | .ok node =>
    if node.isDirectory then
      (checkLoop fs depth path ancestors).map fun _ => ⟨path, depth, node.kind, true⟩
    else .ok ⟨path, depth, node.kind, true⟩

/-- A listed entry as it is told. -/
def entryOf (options : WalkOptions) (fs : FileSystem) (ancestors : List Path) (depth : Nat)
    (path : Path) (kind : NodeKind) : Except WalkError WalkEntry :=
  if options.followLinks && kind == .link then followed fs ancestors depth path
  else .ok ⟨path, depth, kind, kind == .link⟩

/-- A listing in the order of the walk. -/
def arrange (options : WalkOptions) (listing : List (Bytes × NodeKind)) : List (Bytes × NodeKind) :=
  if options.byName then listing.mergeSort fun a b => Text.bytesLe a.1 b.1 else listing

/-- Walks from a listed entry on. -/
def descend {σ ε : Type} (options : WalkOptions) (v : WalkVisitor σ ε) :
    Nat → List Path → Nat → Path → Bytes → NodeKind → σ → Except ε σ
  | 0, _, depth, path, _, _, s => v.visit s (.failure (.io depth (some path) .nameTooLong))
  | room + 1, ancestors, depth, path, name, kind, s =>
    match entryOf options (v.files s) ancestors depth path kind with
    | .error e => v.visit s (.failure e)
    | .ok e =>
      if 0 < depth && options.leavesOut name then .ok (v.skip s)
      else if e.kind = .directory then
        let listing := (v.files s).list path
        match v.visit s (.entry e) with
        | .error e => .error e
        | .ok s => match listing with
          | .error e => v.visit s (.failure (.io depth (some path) e))
          | .ok listing => (arrange options listing).foldlM (fun s item =>
              descend options v room (path :: ancestors) (depth + 1) (path.join ⟨item.1⟩) item.1 item.2 s) s
      else v.visit s (.entry e)

/-- Walks the tree at a root. A root that is a link leading nowhere is an error. -/
def run {σ ε : Type} (options : WalkOptions) (v : WalkVisitor σ ε) (root : Path) (s : σ) : Except ε σ :=
  match (v.files s).node false root with
  | .error e => v.visit s (.failure (.io 0 (some root) e))
  | .ok node =>
    match node.kind, (v.files s).node true root with
    | .link, .error e => v.visit s (.failure (.io 0 (some root) e))
    | kind, _ => descend options v FileSystem.maxPath [] 0 root [] kind s

end Walk

end TreeDigest

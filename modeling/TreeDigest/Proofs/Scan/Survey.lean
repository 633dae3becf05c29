import TreeDigest.Proofs.Scan.Root
import TreeDigest.Proofs.Scan.Visible

/-!
Exploring an unchanging file system.

A survey is what a scan goes by when nothing changes: what it was asked, its root, and a
file system that the leaf hasher leaves alone. Exploring it makes the visible tree by
recursion, in the order of the walk and with the same errors, but without a builder, open
directories or counters.

* `Survey.explore` explores from a listed entry on, and `Survey.view` from the root.
-/

namespace TreeDigest

/-- What a scan of an unchanging file system goes by. -/
structure Survey where
  options : ScanOptions
  hash : HashFunction
  hasher : LeafHasher
  root : RootLocation
  files : FileSystem
  still : ∀ p, (hasher p files).files = files

namespace Survey

variable (v : Survey)

/-- What is recorded of a place besides its digest. -/
def location (depth : Nat) (path : Path) (viaLink : Bool) : Location :=
  if depth = 0 then ⟨v.root.pathText path, v.root.name, v.root.access⟩
  else ⟨v.root.pathText path, path.entryName, .ofLink viaLink⟩

/-- A failed walk at some place: nothing is there, or the scan ends. -/
def failed (e : WalkError) : Except StorageError Visible :=
  match e with
  | .io depth (some path) error =>
    if error.isNotFound then .ok (.absent (v.location depth path (v.files.isLink path)))
    else .error (.io (.walking e))
  | _ => .error (.io (.walking e))

/-- What reading a file gives: its facts and its digest. -/
def read (e : WalkEntry) : Except FileFailure (FileFacts × Digest) :=
  match v.files.node e.viaLink e.path with
  | .error error => .error (.facts e.path error)
  | .ok node => match (v.hasher e.path v.files).result with
    | .error error => .error (.content error)
    | .ok digest => .ok (Scan.facts node, digest)

/-- A file, or a missing leaf where it is gone. -/
def file (e : WalkEntry) : Except StorageError Visible :=
  let location := v.location e.depth e.path e.viaLink
  match v.read e with
  | .ok (facts, digest) => .ok (.leaf ⟨location, digest, .file facts⟩)
  | .error failure =>
    if failure.isNotFound then .ok (.leaf (.missing v.hash location))
    else .error (.io (.hashing location.path failure))

/-- What is made of an entry, and for a directory of what its listing gives. -/
def make (e : WalkEntry) (name : Bytes)
    (below : List (Bytes × NodeKind) → Except StorageError (List Visible)) :
    Except StorageError Visible :=
  if 0 < e.depth && v.options.walk.leavesOut name then .ok .ignored
  else match e.kind with
  | .directory => match v.files.list e.path with
    | .error error => v.failed (.io e.depth (some e.path) error)
    | .ok listing => (below listing).map (.directory (v.location e.depth e.path e.viaLink))
  | .file => v.file e
  | .link => .ok .skippedLink
  | .special => .ok .skippedSpecial

/-- Explores from a listed entry on. -/
def explore : Nat → List Path → Nat → Path → Bytes → NodeKind → Except StorageError Visible
  | 0, _, depth, path, _, _ => v.failed (.io depth (some path) .nameTooLong)
  | room + 1, ancestors, depth, path, name, kind =>
    match Walk.entryOf v.options.walk v.files ancestors depth path kind with
    | .error e => v.failed e
    | .ok e => v.make e name fun listing => (Walk.arrange v.options.walk listing).mapM fun item =>
        explore room (path :: ancestors) (depth + 1) (path.join ⟨item.1⟩) item.1 item.2

/-- Explores the entries that a directory lists, in the order of the walk. -/
def below (room : Nat) (ancestors : List Path) (depth : Nat) (path : Path)
    (listing : List (Bytes × NodeKind)) : Except StorageError (List Visible) :=
  (Walk.arrange v.options.walk listing).mapM fun item =>
    v.explore room (path :: ancestors) (depth + 1) (path.join ⟨item.1⟩) item.1 item.2

lemma explore_succ (room : Nat) (ancestors : List Path) (depth : Nat) (path : Path) (name : Bytes)
    (kind : NodeKind) :
    v.explore (room + 1) ancestors depth path name kind
      = match Walk.entryOf v.options.walk v.files ancestors depth path kind with
        | .error e => v.failed e
        | .ok e => v.make e name (v.below room ancestors depth path) := rfl

/-- A root that is not there is a missing leaf. -/
def missingRoot (error : IoError) : Except StorageError Visible :=
  if error.isNotFound then .ok (.leaf (.missing v.hash (v.location 0 v.root.walked false)))
  else .error (.io (.walking (.io 0 (some v.root.walked) error)))

/-- Explores the tree at the root. -/
def view : Except StorageError Visible :=
  match v.files.node false v.root.walked with
  | .error e => v.missingRoot e
  | .ok node =>
    match node.kind, v.files.node true v.root.walked with
    | .link, .error e => v.missingRoot e
    | kind, _ => v.explore FileSystem.maxPath [] 0 v.root.walked [] kind

/-- The view is explored from the kind of the root on. -/
lemma view_eq_rootKind : v.view = match v.files.rootKind v.root.walked with
    | .error e => v.missingRoot e
    | .ok kind => v.explore FileSystem.maxPath [] 0 v.root.walked [] kind :=
  FileSystem.match_rootKind _ _ _ _

end Survey

end TreeDigest

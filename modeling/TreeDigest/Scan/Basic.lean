import TreeDigest.Decimal.Signed64
import TreeDigest.StorageError

/-!
Scanning: taking the snapshot of a tree on a file system.

A scan walks the tree and drives a builder with what it meets. Files are hashed by
a leaf hasher, which may itself change the file system; directories are closed as
soon as the walk leaves them; links that are not followed and special files are
only counted. Whatever is gone when its turn comes is recorded as missing: a root
that does not exist, a followed link that leads nowhere, a file removed before it
was read, and a directory removed before it was listed, whose opening is undone.

* `RootLocation.resolve` settles under which path and name the root is recorded.
* `Scan.visit` is what a scan does at one event of the walk.
* `scan` is the whole scan, with its counters and the messages that were hashed.
-/

namespace TreeDigest

/-- How a tree is scanned. Names in `ignore` are left out with what is below them;
a walk that is not sorted leaves the order of children to the builder. -/
structure ScanOptions where
  followLinks : Bool
  ignore : List String
  sorted : Bool
  emptyDirectories : EmptyDirectories
  deriving DecidableEq

namespace ScanOptions

/-- The options where nothing else is said. -/
def standard : ScanOptions := ⟨false, [".git"], true, .included⟩

/-- An entry of the given name is left out. -/
def ignores (o : ScanOptions) (name : Bytes) : Bool := o.ignore.contains (Text.lossy name)

/-- The walk of a scan. -/
def walk (o : ScanOptions) : WalkOptions := ⟨o.followLinks, o.sorted, o.ignores⟩

/-- The order of children in the builder. -/
def ordering (o : ScanOptions) : ChildOrdering := if o.sorted then .asVisited else .byName

end ScanOptions

/-- The counters of a scan. -/
structure ScanCounts where
  directories : Nat
  excludedDirectories : Nat
  files : Nat
  missing : Nat
  skippedLinks : Nat
  skippedSpecial : Nat
  ignored : Nat
  deriving DecidableEq

namespace ScanCounts

/-- All counters at zero. -/
def zero : ScanCounts := ⟨0, 0, 0, 0, 0, 0, 0⟩

end ScanCounts

/-- What reading a file gave: its digest or a failure, the file system afterwards,
and the messages that were hashed. -/
structure LeafReading where
  result : Except IoError Digest
  files : FileSystem
  messages : List (List Part)

/-- Supplies the digests of files. -/
abbrev LeafHasher := Path → FileSystem → LeafReading

/-- Hashes the whole content of a file. -/
def LeafHasher.content (h : HashFunction) : LeafHasher := fun path files =>
  match files.read path with
  | .ok bytes => ⟨.ok (h.content bytes), files, [HashFunction.contentParts bytes]⟩
  | .error e => ⟨.error e, files, []⟩

/-! ### The root -/

/-- The root as it was named, and the path that is walked. -/
structure RootLocation where
  walked : Path
  recorded : Path
  name : String
  access : Access

namespace RootLocation

/-- The absolute form of a path. -/
def absolute (fs : FileSystem) (p : Path) : Except IoError Path :=
  if p.isAbsolute then .ok p else fs.currentPath.map fun current => current.join p

/-- The plain form of a root. A root that does not exist is walked as it stands. A
root that climbs is recorded in its plain form, and any other as it was named. -/
def resolve (fs : FileSystem) (root : Path) : Except IoError RootLocation := do
  let absolute ← absolute fs root
  let walked := (fs.canonicalize absolute).toOption.getD absolute
  let recorded := if absolute.climbs then walked else absolute.plain
  return ⟨walked, recorded, recorded.entryName, .ofLink (fs.isLink absolute)⟩

/-- The text under which a walked path is recorded. -/
def pathText (r : RootLocation) (p : Path) : String :=
  match r.walked.relative? p with
  | some rest => if rest.bytes = [] then r.recorded.recorded else (r.recorded.join rest).recorded
  | none => p.recorded

end RootLocation

/-- A scan that could not be finished, and the file system it leaves. -/
structure ScanFailure where
  error : StorageError
  files : FileSystem

/-- A scan under way: what it was asked, and what it has done. -/
structure Scan where
  options : ScanOptions
  hash : HashFunction
  hasher : LeafHasher
  root : RootLocation
  files : FileSystem
  builder : Builder
  counts : ScanCounts
  messages : List (List Part)

namespace Scan

/-- Ends the scan with an error. -/
def fail {α : Type} (s : Scan) (e : StorageError) : Except ScanFailure α := .error ⟨e, s.files⟩

/-- Closes the given number of directories. -/
def close : Nat → Scan → Except ScanFailure Scan
  | 0, s => .ok s
  | n + 1, s =>
    let messages := s.messages ++ s.builder.exitMessages
    match s.builder.exit with
    | (.error e, _) => s.fail (.traversal e)
    | (.ok true, b) => close n { s with
        builder := b, messages := messages
        counts := { s.counts with directories := s.counts.directories + 1 } }
    | (.ok false, b) => close n { s with
        builder := b, messages := messages
        counts := { s.counts with excludedDirectories := s.counts.excludedDirectories + 1 } }

/-- Closes directories until at most the given number are open. -/
def closeTo (s : Scan) (depth : Nat) : Except ScanFailure Scan := s.close (s.builder.depth - depth)

/-- Hands a leaf at the given depth to the builder. -/
def collect (s : Scan) (depth : Nat) (leaf : Leaf) : Except ScanFailure Scan :=
  match if depth = 0 then s.builder.rootLeaf leaf else s.builder.leaf leaf with
  | .ok b => .ok { s with builder := b }
  | .error e => s.fail (.traversal e)

/-- Records that nothing is at a location. -/
def collectMissing (s : Scan) (depth : Nat) (location : Location) : Except ScanFailure Scan :=
  { s with
    messages := s.messages ++ [HashFunction.signatureParts "MISSING_FILE"]
    counts := { s.counts with missing := s.counts.missing + 1 }
  }.collect depth (.missing s.hash location)

/-- What is recorded of a walked entry besides its digest. -/
def location (s : Scan) (e : WalkEntry) : Location :=
  if e.depth = 0 then ⟨s.root.pathText e.path, s.root.name, s.root.access⟩
  else ⟨s.root.pathText e.path, e.path.entryName, .ofLink e.viaLink⟩

/-- Whole milliseconds since 1970, none before it. -/
def milliseconds (nanos : Int) : Int :=
  if nanos < 0 then 0 else Signed64.wrap (nanos / 1000000)

/-- Length and time of a node. -/
def facts : Node → FileFacts
  | .file content modified => ⟨content.length, milliseconds modified⟩
  | .link target => ⟨target.length, 0⟩
  | _ => ⟨0, 0⟩

/-- Reads a file: its facts first, then its content. -/
def readFile (s : Scan) (e : WalkEntry) : Except FileFailure (FileFacts × Digest) × Scan :=
  match s.files.node e.viaLink e.path with
  | .error error => (.error (.facts e.path error), s)
  | .ok node =>
    let reading := s.hasher e.path s.files
    let s := { s with files := reading.files, messages := s.messages ++ reading.messages }
    match reading.result with
    | .error error => (.error (.content error), s)
    | .ok digest => (.ok (facts node, digest), s)

/-- Takes in a file. -/
def visitFile (s : Scan) (e : WalkEntry) : Except ScanFailure Scan :=
  let location := s.location e
  match s.readFile e with
  | (.ok (facts, digest), s) =>
    { s with counts := { s.counts with files := s.counts.files + 1 } }.collect e.depth
      ⟨location, digest, .file facts⟩
  | (.error failure, s) =>
    if failure.isNotFound then s.collectMissing e.depth location
    else s.fail (.io (.hashing location.path failure))

/-- Takes in an entry. -/
def visitEntry (s : Scan) (e : WalkEntry) : Except ScanFailure Scan := do
  let s ← s.closeTo e.depth
  match e.kind with
  | .directory => return { s with builder := s.builder.enter (s.location e) s.options.emptyDirectories }
  | .file => s.visitFile e
  | .link => return { s with counts := { s.counts with skippedLinks := s.counts.skippedLinks + 1 } }
  | .special => return { s with counts := { s.counts with skippedSpecial := s.counts.skippedSpecial + 1 } }

/-- Undoes the opening of the directory with the given path, if it is the one open
just below the given depth. -/
def abandonAt (s : Scan) (depth : Nat) (path : String) : Except ScanFailure Scan :=
  if s.builder.depth = depth + 1 ∧ s.builder.currentPath? = some path then
    match s.builder.abandon with
    | .ok b => .ok { s with builder := b }
    | .error e => s.fail (.traversal e)
  else .ok s

/-- Records that a walked path leads nowhere. -/
def visitMissing (s : Scan) (depth : Nat) (path : Path) : Except ScanFailure Scan := do
  let text := s.root.pathText path
  let s ← s.closeTo (depth + 1)
  let s ← s.abandonAt depth text
  let s ← s.closeTo depth
  let location : Location :=
    if depth = 0 then ⟨text, s.root.name, s.root.access⟩
    else ⟨text, path.entryName, .ofLink (s.files.isLink path)⟩
  s.collectMissing depth location

/-- Takes in a walk error: a place that is gone is recorded, and any other error
ends the scan. -/
def visitFailure (s : Scan) (e : WalkError) : Except ScanFailure Scan :=
  match e with
  | .io depth (some path) error =>
    if error.isNotFound then s.visitMissing depth path else s.fail (.io (.walking e))
  | _ => s.fail (.io (.walking e))

/-- Takes in an event of the walk. -/
def visit (s : Scan) : WalkEvent → Except ScanFailure Scan
  | .entry e => s.visitEntry e
  | .failure e => s.visitFailure e

/-- Counts an entry that was left out. -/
def omitted (s : Scan) : Scan := { s with counts := { s.counts with ignored := s.counts.ignored + 1 } }

/-- The scan as a visitor of its walk. -/
def visitor : WalkVisitor Scan ScanFailure := ⟨files, visit, omitted⟩

/-- A scan that has not met anything. -/
def start (options : ScanOptions) (hash : HashFunction) (hasher : LeafHasher) (root : RootLocation)
    (files : FileSystem) : Scan :=
  ⟨options, hash, hasher, root, files, .new hash options.ordering, .zero, Builder.firstMessages⟩

end Scan

/-- The outcome of a scan: no snapshot when the root was left out. -/
structure ScanOutcome where
  snapshot : Option Snapshot
  counts : ScanCounts

/-- A finished scan: its outcome, the file system afterwards, and the messages that
were hashed, in order. -/
structure ScanResult where
  outcome : ScanOutcome
  files : FileSystem
  messages : List (List Part)

/-- Takes the snapshot of the tree at a root. -/
def scanWith (options : ScanOptions) (hash : HashFunction) (hasher : LeafHasher) (files : FileSystem)
    (root : Path) : Except ScanFailure ScanResult := do
  let location ← (RootLocation.resolve files root).mapError fun e => ⟨.io (.plain e), files⟩
  let s ← Walk.run options.walk Scan.visitor location.walked
    (Scan.start options hash hasher location files)
  let s ← s.closeTo 0
  match s.builder.result with
  | .ok snapshot => return ⟨⟨snapshot, s.counts⟩, s.files, s.messages⟩
  | .error e => s.fail (.traversal e)

/-- Takes the snapshot of the tree at a root with BLAKE3. -/
def scan (options : ScanOptions) (files : FileSystem) (root : Path) : Except StorageError ScanOutcome :=
  match scanWith options .blake3 (.content .blake3) files root with
  | .ok result => .ok result.outcome
  | .error failure => .error failure.error

end TreeDigest

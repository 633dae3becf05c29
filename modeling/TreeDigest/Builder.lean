import TreeDigest.Snapshot.Visit

/-!
Building a snapshot from a depth-first stream of calls.

A builder holds the directories that are open, innermost first, and the finished
root if there is one. Closing a directory computes its digest from the names and
digests of its children and hands it to the directory around it. A directory that
collected nothing can be left out, and one that vanished can be abandoned.

* `Level.close` is the snapshot of a directory once all children are there.
* `Builder.apply` makes one call; a refused call leaves the builder as it was,
  except that closing a second root directory drops that directory.
* `Builder.result` gives the root, and only when no directory is open.
* `Builder.messages` lists the messages that are hashed during a call.
-/

namespace TreeDigest

/-- What becomes of a directory that collected no children. -/
inductive EmptyDirectories where
  | included
  | excluded
  deriving DecidableEq, Repr

/-- The order of the children of a directory. -/
inductive ChildOrdering where
  | byName
  | asVisited
  deriving DecidableEq, Repr

/-- Why a builder refuses a call. -/
inductive BuilderError where
  | outsideOfRoot
  | unfinished (openDirectories : Nat)
  | multipleRoots
  | notAtRoot (openDirectories : Nat)
  deriving DecidableEq, Repr

/-- The wording of a refusal. -/
def BuilderError.message : BuilderError → String
  | .outsideOfRoot => "Outside of root: no directory is open to receive this entry"
  | .unfinished n => s!"Traversal unfinished: {n} directories still open"
  | .multipleRoots => "Root already holds a snapshot; a traversal yields a single root"
  | .notAtRoot n => s!"Root leaf visited while {n} directories are open"

/-- The names and digests of children, as they enter the digest of their parent. -/
def Snapshot.listing (children : List Snapshot) : List (String × Digest) :=
  children.map fun c => (c.name, c.digest)

/-- Children in the order in which a directory keeps them. -/
def ChildOrdering.arrange : ChildOrdering → List Snapshot → List Snapshot
  | .byName, cs => cs.mergeSort fun a b => Text.nameLe a.name b.name
  | .asVisited, cs => cs

/-- An open directory. -/
structure Level where
  location : Location
  handling : EmptyDirectories
  children : List Snapshot

namespace Level

/-- The directory is left out when it is closed. -/
def isDropped (l : Level) : Bool := l.handling == .excluded && l.children.isEmpty

/-- The snapshot of a directory with all its children, unless it is left out. -/
def close (h : HashFunction) (ordering : ChildOrdering) (l : Level) : Option Snapshot :=
  if l.isDropped then none
  else
    let children := ordering.arrange l.children
    some (.directory l.location (h.directory h.directorySignature (Snapshot.listing children)) children)

end Level

/-- A builder in the middle of its work. -/
structure Builder where
  hash : HashFunction
  ordering : ChildOrdering
  levels : List Level
  root : Option Snapshot

namespace Builder

/-- A builder with nothing in it. -/
def new (hash : HashFunction) (ordering : ChildOrdering) : Builder := ⟨hash, ordering, [], none⟩

/-- The number of open directories. -/
def depth (b : Builder) : Nat := b.levels.length

/-- No directory is open. -/
def isFinished (b : Builder) : Bool := b.levels.isEmpty

/-- The recorded path of the innermost open directory. -/
def currentPath? (b : Builder) : Option String := b.levels.head?.map fun l => l.location.path

/-- Opens a directory. -/
def enter (b : Builder) (location : Location) (handling : EmptyDirectories) : Builder :=
  { b with levels := ⟨location, handling, []⟩ :: b.levels }

/-- Opens a directory where a finished one is: only its location is taken over. -/
def enterLike (b : Builder) (directory : Snapshot) (handling : EmptyDirectories) : Builder :=
  b.enter directory.location handling

/-- Hands a finished snapshot to the innermost open directory or to the root. -/
def collect (b : Builder) (s : Snapshot) : Except BuilderError Builder :=
  match b.levels with
  | l :: rest => .ok { b with levels := { l with children := l.children ++ [s] } :: rest }
  | [] => match b.root with
    | some _ => .error .multipleRoots
    | none => .ok { b with root := some s }

/-- Adds a leaf to the innermost open directory. -/
def leaf (b : Builder) (l : Leaf) : Except BuilderError Builder :=
  match b.levels with
  | [] => .error .outsideOfRoot
  | _ :: _ => b.collect (.leaf l)

/-- Makes a leaf the whole result. -/
def rootLeaf (b : Builder) (l : Leaf) : Except BuilderError Builder :=
  match b.levels with
  | [] => b.collect (.leaf l)
  | _ :: _ => .error (.notAtRoot b.depth)

/-- Closes the innermost directory. The answer tells whether it was kept; the
builder that goes with a refusal is the one to go on with. -/
def exit (b : Builder) : Except BuilderError Bool × Builder :=
  match b.levels with
  | [] => (.error .outsideOfRoot, b)
  | l :: rest =>
    let outer := { b with levels := rest }
    match l.close b.hash b.ordering with
    | none => (.ok false, outer)
    | some s => match outer.collect s with
      | .ok b => (.ok true, b)
      | .error e => (.error e, outer)

/-- Closes the innermost directory and drops what it holds. -/
def abandon (b : Builder) : Except BuilderError Builder :=
  match b.levels with
  | [] => .error .outsideOfRoot
  | _ :: rest => .ok { b with levels := rest }

/-- The finished root, if there is one. -/
def result (b : Builder) : Except BuilderError (Option Snapshot) :=
  if b.levels.isEmpty then .ok b.root else .error (.unfinished b.depth)

/-! ### Calls as values -/

/-- A call of a builder. -/
inductive Call where
  | enter (location : Location) (handling : EmptyDirectories)
  | enterLike (directory : Snapshot) (handling : EmptyDirectories)
  | leaf (l : Leaf)
  | rootLeaf (l : Leaf)
  | exit
  | abandon

/-- What a call answers: whether a directory was kept, where it closes one. -/
inductive Answer where
  | done
  | kept (included : Bool)
  deriving DecidableEq

/-- The builder after a call that leaves it alone when refused. -/
def orSame (b : Builder) : Except BuilderError Builder → Except BuilderError Answer × Builder
  | .ok b => (.ok .done, b)
  | .error e => (.error e, b)

/-- Makes a call. -/
def apply (b : Builder) : Call → Except BuilderError Answer × Builder
  | .enter location handling => (.ok .done, b.enter location handling)
  | .enterLike directory handling => (.ok .done, b.enterLike directory handling)
  | .leaf l => b.orSame (b.leaf l)
  | .rootLeaf l => b.orSame (b.rootLeaf l)
  | .exit => (b.exit.1.map .kept, b.exit.2)
  | .abandon => b.orSame b.abandon

/-- Makes calls in turn and lists their answers. -/
def run (b : Builder) : List Call → List (Except BuilderError Answer) × Builder
  | [] => ([], b)
  | c :: cs =>
    let (answer, b) := b.apply c
    let (answers, b) := b.run cs
    (answer :: answers, b)

/-! ### Hashed messages -/

/-- The messages hashed when a builder is made. -/
def firstMessages : List (List Part) := [HashFunction.signatureParts "DIR"]

/-- The messages hashed when the innermost directory is closed. -/
def exitMessages (b : Builder) : List (List Part) :=
  match b.levels with
  | [] => []
  | l :: _ =>
    if l.isDropped then []
    else [HashFunction.directoryParts b.hash.directorySignature
      (Snapshot.listing (b.ordering.arrange l.children))]

/-- The messages hashed during a call. -/
def messages (b : Builder) : Call → List (List Part)
  | .exit => b.exitMessages
  | _ => []

end Builder

end TreeDigest

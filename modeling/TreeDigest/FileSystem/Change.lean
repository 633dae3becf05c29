import TreeDigest.FileSystem.Basic

/-!
Changing a file system.

Each single operation gives the changed file system or the reason why it was left as
it was. An operation of several steps is an `Attempt`: what the steps before a failure
changed stays changed.

* `createDirectories` makes the missing ones among the parents of a path first; it
  succeeds when the directory is there in the end.
-/

namespace TreeDigest

/-- The file system that some steps leave, and why they stopped if they did. -/
structure Attempt where
  files : FileSystem
  result : Except IoError Unit

namespace Attempt

/-- The attempt of a single operation. -/
def of (fs : FileSystem) (op : FileSystem → Except IoError FileSystem) : Attempt :=
  match op fs with
  | .ok fs => ⟨fs, .ok ()⟩
  | .error e => ⟨fs, .error e⟩

/-- Goes on with an operation unless the steps before it failed. -/
def andThen (a : Attempt) (op : FileSystem → Except IoError FileSystem) : Attempt :=
  match a.result with
  | .ok () => of a.files op
  | .error _ => a

end Attempt

namespace FileSystem

/-- Changes the directory at the end of a trail. -/
def changeAt (fs : FileSystem) (trail : Trail) (change : Entries → Entries) : FileSystem :=
  { fs with root := Entries.changeAt trail.names change fs.root }

/-- Makes one directory. -/
def createDirectory (fs : FileSystem) (p : Path) : Except IoError FileSystem := do
  -- a slash at the end does not make the name before it a link to follow
  let plain : Path := ⟨(p.bytes.reverse.dropWhile (· == slash)).reverse⟩
  let place ← if plain.bytes = [] then fs.resolve false p else do
    if maxPath < p.bytes.length then throw .nameTooLong
    fs.resolve false plain
  match place with
  | .vacant trail name => return fs.changeAt trail (·.put name (.directory []))
  | _ => throw .alreadyExists

/-- Makes one directory, or leaves the one that is there. -/
def ensureDirectory (fs : FileSystem) (p : Path) : Except IoError FileSystem :=
  match fs.createDirectory p with
  | .ok fs => .ok fs
  | .error e => if fs.isDirectory p then .ok fs else .error e

/-- Makes a directory and, as far as they are missing, the ones above it; the
first number bounds the names that are taken off the path. -/
def createDirectoriesUpTo : Nat → FileSystem → Path → Attempt
  | room, fs, p =>
    if p.bytes = [] then ⟨fs, .ok ()⟩
    else match fs.createDirectory p, room, p.parent? with
      | .error .noEntry, room + 1, some parent =>
        (createDirectoriesUpTo room fs parent).andThen (·.ensureDirectory p)
      | .error .noEntry, _, _ => ⟨fs, .error .noEntry⟩
      | _, _, _ => .of fs (·.ensureDirectory p)

/-- Makes a directory and the missing ones above it. -/
def createDirectories (fs : FileSystem) (p : Path) : Attempt :=
  createDirectoriesUpTo p.bytes.length fs p

/-- Writes a file at a path: what it holds is made from what it held before. -/
def writeWith (fs : FileSystem) (p : Path) (content : Option Bytes → Bytes) (modified : Int) :
    Except IoError FileSystem := do
  match ← fs.resolve true p with
  | .directory _ => throw .isADirectory
  | .vacant trail name =>
    if p.bytes.getLast? = some slash then throw .isADirectory
    else return fs.changeAt trail (·.put name (.file (content none) modified))
  | .other trail name (.file old _) =>
    return fs.changeAt trail (·.put name (.file (content (some old)) modified))
  | .other _ _ _ => return fs

/-- Writes a file, whatever was in it. -/
def write (fs : FileSystem) (p : Path) (content : Bytes) (modified : Int) : Except IoError FileSystem :=
  fs.writeWith p (fun _ => content) modified

/-- Makes sure that a file can be written to, and leaves what is in it. -/
def openForAppending (fs : FileSystem) (p : Path) (modified : Int) : Except IoError FileSystem := do
  match ← fs.resolve true p with
  | .other _ _ _ => return fs
  | _ => fs.writeWith p (·.getD []) modified

/-! ### Edits from outside -/

/-- Makes the directory in which a path names its last entry, with its parents. -/
def makeRoomFor (fs : FileSystem) (p : Path) : Attempt :=
  match p.parent? with
  | some parent => fs.createDirectories parent
  | none => ⟨fs, .ok ()⟩

/-- Puts a link or special node where a path names nothing yet. A slash at its end asks
for a directory, which such a node is not. -/
def put (fs : FileSystem) (p : Path) (node : Node) : Except IoError FileSystem := do
  match ← fs.resolve false p with
  | .vacant trail name =>
    if p.bytes.getLast? = some slash then throw .noEntry
    else return fs.changeAt trail (·.put name node)
  | _ => throw .alreadyExists

/-- Puts a node where a path names nothing yet, and makes its parents. -/
def putWithParents (fs : FileSystem) (p : Path) (node : Node) : Attempt :=
  (fs.makeRoomFor p).andThen (·.put p node)

/-- Writes a file and makes its parents. -/
def writeWithParents (fs : FileSystem) (p : Path) (content : Bytes) (modified : Int) : Attempt :=
  (fs.makeRoomFor p).andThen (·.write p content modified)

/-- Removes a path with all that is below it; a link is removed itself. -/
def remove (fs : FileSystem) (p : Path) : Except IoError FileSystem := do
  match ← fs.resolve false p with
  | .vacant _ _ => throw .noEntry
  | .other trail name _ => return fs.changeAt trail (·.erase name)
  | .directory [] => return { fs with root := [] }
  | .directory ((name, _) :: trail) => return fs.changeAt trail (·.erase name)

/-- The names that lead to a directory after the row `before` has become `after`. -/
def movedNames (before after names : List Bytes) : List Bytes :=
  if before.isPrefixOf names then after ++ names.drop before.length else names

/-- Whether a node may take a place: a directory one that is free or held by an empty
directory, and any other node one that no directory holds. -/
def admits (fs : FileSystem) (place : Place) (node : Node) : Except IoError Unit :=
  match node.isDirectory, place with
  | true, .other _ _ _ => .error .notADirectory
  | true, .directory trail => if (fs.entriesAt trail).isEmpty then .ok () else .error .alreadyExists
  | false, .directory _ => .error .isADirectory
  | _, .vacant _ _ => .ok ()
  | false, .other _ _ _ => .ok ()

/-- Moves what a path names to another path, which may not lie below it. A current
directory that is moved stays the current one. -/
def rename (fs : FileSystem) (p q : Path) : Except IoError FileSystem := do
  let node ← fs.node false p
  let before := (← fs.resolve false p).names
  let place ← fs.resolve false q
  let after := place.names
  if after = before then return fs
  if before.isPrefixOf after then throw .alreadyExists
  fs.admits place node
  match after.getLast? with
  | none => throw .alreadyExists
  | some name =>
    let removed ← fs.remove p
    return { removed with
      root := Entries.changeAt after.dropLast (·.put name node) removed.root
      current := movedNames before after fs.current }

/-- Makes a directory the current one. -/
def changeDirectory (fs : FileSystem) (p : Path) : Except IoError FileSystem := do
  match ← fs.resolve true p with
  | .directory trail => return { fs with current := trail.names }
  | .other _ _ _ => throw .notADirectory
  | .vacant _ _ => throw .noEntry

end FileSystem

end TreeDigest

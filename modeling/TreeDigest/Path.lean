import TreeDigest.Text.Split
import TreeDigest.Text.Composed

/-!
Paths as byte strings.

A path is read as a list of components: the root, a leading `.` of a relative
path, every `..`, and the names. Other dots and repeated slashes count for
nothing, so two spellings may name one path; `Path.same` compares the components.

* `fileName?`, `parent?` and `join` work on the spelling and keep what they do
  not touch as it was written.
* `relative?` says where a path lies below another one.
* `recorded` is the text under which a location is reported: composed, without
  slashes at its end.
-/

namespace TreeDigest

/-- A path, given by its bytes. -/
structure Path where
  bytes : Bytes
  deriving DecidableEq, Inhabited

/-- The slash. -/
def slash : UInt8 := 0x2F

/-- The byte of `.`. -/
def dot : UInt8 := 0x2E

namespace Path

/-- A component of a path. -/
inductive Component where
  | root
  | current
  | parent
  | name (bytes : Bytes)
  deriving DecidableEq

/-- The path that a text spells. -/
def ofText (s : String) : Path := ⟨Text.utf8 s⟩

/-- The text of a path, with U+FFFD for bytes that spell no character. -/
def display (p : Path) : String := Text.lossy p.bytes

/-- The path starts at the root. -/
def isAbsolute (p : Path) : Bool := p.bytes.head? == some slash

/-- What stands between the slashes. -/
def segments (p : Path) : List Bytes := Text.splitOn slash p.bytes

/-- The component that a segment spells, if it counts. -/
def component? (segment : Bytes) : Option Component :=
  if segment = [] ∨ segment = [dot] then none
  else if segment = [dot, dot] then some .parent
  else some (.name segment)

/-- The components of a path. -/
def components (p : Path) : List Component :=
  let start := if p.isAbsolute then [.root] else if p.segments.head? = some [dot] then [.current] else []
  start ++ p.segments.filterMap component?

/-- Two spellings of one path. -/
def same (p q : Path) : Bool := p.components == q.components

/-- Puts a path below another one; an absolute path stands alone. -/
def join (p q : Path) : Path :=
  if q.isAbsolute then q
  else if p.bytes = [] ∨ p.bytes.getLast? = some slash then ⟨p.bytes ++ q.bytes⟩
  else ⟨p.bytes ++ slash :: q.bytes⟩

/-- Puts a text below a path. -/
def child (p : Path) (s : String) : Path := p.join (ofText s)

/-- The segment that a component is written as. -/
def Component.toPath : Component → Path
  | .root => ⟨[slash]⟩
  | .current => ⟨[dot]⟩
  | .parent => ⟨[dot, dot]⟩
  | .name bytes => ⟨bytes⟩

/-- The plain spelling of a list of components. -/
def ofComponents (cs : List Component) : Path := cs.foldl (fun p c => p.join c.toPath) ⟨[]⟩

/-- The plain spelling of a path. -/
def plain (p : Path) : Path := ofComponents p.components

/-- The path climbs somewhere. -/
def climbs (p : Path) : Bool := p.components.contains .parent

/-- The last component, if it is a name. -/
def fileName? (p : Path) : Option Bytes :=
  match p.components.getLast? with
  | some (.name bytes) => some bytes
  | _ => none

/-- Takes away, from a spelling given backwards, the slashes and single dots it
ends with; at least `keep` bytes stay. -/
def trimEnd (keep : Nat) : Bytes → Bytes
  | a :: b :: rest =>
    if rest.length + 2 ≤ keep then a :: b :: rest
    else if a = slash then trimEnd keep (b :: rest)
    else if a = dot ∧ b = slash then trimEnd keep (b :: rest)
    else a :: b :: rest
  | [a] => if a = slash ∧ keep = 0 then [] else [a]
  | [] => []

/-- The number of leading bytes that trimming never takes: the root, or a
leading dot. -/
def fixedStart (p : Path) : Nat :=
  if p.isAbsolute ∨ p.segments.head? = some [dot] then 1 else 0

/-- The path without its last component; the root and the empty path have none. -/
def parent? (p : Path) : Option Path :=
  match p.components.getLast? with
  | none | some .root => none
  | some .current => some ⟨[]⟩
  | some last =>
    let trimmed := trimEnd p.fixedStart p.bytes.reverse
    some ⟨(trimEnd p.fixedStart (trimmed.drop last.toPath.bytes.length)).reverse⟩

/-- What follows the last dot of a file name that does not start with it. -/
def extension? (p : Path) : Option Bytes := do
  let name ← p.fileName?
  let (after, before) ← Text.splitOnce dot name.reverse
  if before = [] then none else some after.reverse

/-- The path with an extension put after its file name, and after the extension
it may have. -/
def addExtension (p : Path) (extension : String) : Path :=
  match p.fileName? with
  | none => p
  | some _ =>
    let trimmed := (trimEnd p.fixedStart p.bytes.reverse).reverse
    ⟨trimmed ++ dot :: Text.utf8 extension⟩

/-- The components below the given ones. -/
def Component.below? (base cs : List Component) : Option (List Component) := Text.dropStart? base cs

/-- The path by which `p` is reached from `base`, if it lies there. -/
def relative? (base p : Path) : Option Path :=
  (Component.below? base.components p.components).map ofComponents

/-- The path from one absolute path to another, which climbs as far as they
differ. -/
def fromTo (base p : List Component) : List Component :=
  match base, p with
  | b :: base, c :: p =>
    if b = c then fromTo base p else .parent :: (base.map fun _ => .parent) ++ c :: p
  | base, p => (base.map fun _ => .parent) ++ p

/-! ### Recorded forms -/

/-- Takes slashes and backslashes off the end of a text given backwards, down to
one byte. -/
def stripEnd : List Char → List Char
  | c :: rest =>
    if (c = '/' ∨ c = '\\') ∧ rest ≠ [] then stripEnd rest else c :: rest
  | [] => []

/-- The text of a path as it is reported: composed and without slashes at its
end, the root apart. -/
def normalize (s : String) : String := .ofList (stripEnd (Text.composed s).toList.reverse).reverse

/-- The text under which a location is recorded. -/
def recorded (p : Path) : String := normalize p.display

/-- The name that counts in the digest of the parent: the last name, or the whole
path where there is none. -/
def entryName (p : Path) : String :=
  match p.fileName? with
  | some name => Text.lossy name
  | none => p.display

end Path

end TreeDigest

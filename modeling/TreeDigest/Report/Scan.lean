import TreeDigest.Scan.Basic
import TreeDigest.Json.Basic

/-!
How the outcome of a scan is shown.

* `Report.tree` lists every node on a line of its own, two blanks further in at
  each level, with the first sixteen digits of its digest.
* `Report.scanText` is the summary for readers and `Report.scanJson` the one for
  programs, with the tree on demand.
* `Snapshot.toJson` tells everything about a node and those below it.
-/

namespace TreeDigest

/-! ### The tree -/

namespace Report

/-- What a line of the tree says about how the node was reached. -/
def accessSuffix : Access → String
  | .direct => ""
  | .viaSymlink => " (via symlink)"

/-- What a line of the tree says after the digest of a leaf. -/
def leafSuffix (l : Leaf) : String :=
  match l.kind with
  | .missing => " (missing)"
  | .file _ => accessSuffix l.location.access

/-- A line of the tree. -/
def treeLine (depth : Nat) (name : String) (digest : Digest) (suffix : String) : String :=
  .ofList (List.replicate (2 * depth) ' ') ++ name ++ "  " ++ digest.shortHex ++ suffix

/-- The lines so far, the last one first, and the depth of the next one. -/
structure TreeLines where
  lines : List String
  depth : Nat

/-- Lists nodes. -/
def treeVisitor : Visitor TreeLines where
  enter location digest _ t :=
    (.enter, ⟨treeLine t.depth (location.name ++ "/") digest (accessSuffix location.access) :: t.lines,
      t.depth + 1⟩)
  leaf l t := ⟨treeLine t.depth l.location.name l.digest (leafSuffix l) :: t.lines, t.depth⟩
  exit _ _ _ t := ⟨t.lines, t.depth - 1⟩

/-- The lines of the tree in order. -/
def treeLines (s : Snapshot) : List String := (s.accept treeVisitor ⟨[], 0⟩).lines.reverse

/-- The tree of a snapshot. -/
def tree (s : Snapshot) : String := "\n".intercalate (treeLines s)

/-- The word for the kind of a node. -/
def kindLabel : Snapshot → String
  | .directory _ _ _ => "directory"
  | .leaf l => match l.kind with
    | .file _ => "file"
    | .missing => "missing"

/-- The word for how a node was reached. -/
def accessLabel : Access → String
  | .direct => "direct"
  | .viaSymlink => "via_symlink"

end Report

/-! ### JSON -/

namespace Snapshot

/-- What every node tells: access, digest, name, path and kind. -/
def commonFields (s : Snapshot) : List (String × Json) :=
  [("access", .string (Report.accessLabel s.location.access)), ("hash", .string s.digest.hex),
    ("name", .string s.location.name), ("path", .string s.location.path),
    ("type", .string (Report.kindLabel s))]

/-- What a leaf tells besides. -/
def leafFields : LeafKind → List (String × Json)
  | .file facts => [("last_modified", .integer facts.modified), ("length", .ofNat facts.length)]
  | .missing => []

mutual
/-- Everything about a node and those below it. -/
def toJson : Snapshot → Json
  | .leaf l => .sortedObject (commonFields (.leaf l) ++ leafFields l.kind)
  | .directory l d cs =>
    .sortedObject (commonFields (.directory l d cs) ++ [("children", .array (toJsonAll cs))])

/-- Everything about a list of nodes. -/
def toJsonAll : List Snapshot → List Json
  | [] => []
  | c :: cs => toJson c :: toJsonAll cs
end

end Snapshot

/-- The counters as an object. -/
def ScanCounts.toJson (c : ScanCounts) : Json :=
  .sortedObject [("directories", .ofNat c.directories),
    ("excluded_directories", .ofNat c.excludedDirectories), ("files", .ofNat c.files),
    ("missing", .ofNat c.missing), ("ignored", .ofNat c.ignored),
    ("skipped_symlinks", .ofNat c.skippedLinks), ("skipped_special", .ofNat c.skippedSpecial)]

/-! ### Summaries -/

namespace Report

/-- The summary of a scan for readers. Counters that are often zero are shown only
when they are not. -/
def scanText (root : Path) (outcome : ScanOutcome) (withTree : Bool) : String :=
  let c := outcome.counts
  let title := s!"Snapshot of {root.display}\n"
  let head := match outcome.snapshot with
    | some s => title ++ s!"  Root hash: {s.digest.hex}\n  Kind: {kindLabel s}"
    | none => title ++ "  No result: the root is an empty directory and empty directories are excluded"
  let counts := s!"\n  Directories: {c.directories}\n  Files: {c.files}\n  Missing: {c.missing}"
  let excluded :=
    if 0 < c.excludedDirectories then s!"\n  Excluded empty directories: {c.excludedDirectories}" else ""
  let ignored := if 0 < c.ignored then s!"\n  Ignored entries: {c.ignored}" else ""
  let skipped :=
    if 0 < c.skippedLinks + c.skippedSpecial then
      s!"\n  Skipped: {c.skippedLinks} symlinks, {c.skippedSpecial} special files"
    else ""
  let listing := match withTree, outcome.snapshot with
    | true, some s => "\n\n" ++ tree s
    | _, _ => ""
  head ++ counts ++ excluded ++ ignored ++ skipped ++ listing

/-- The summary of a scan for programs, as a value. -/
def scanValue (root : Path) (outcome : ScanOutcome) (withTree : Bool) : Json :=
  .sortedObject ([("root", .string root.display),
    ("root_hash", .ofOption (fun s : Snapshot => .string s.digest.hex) outcome.snapshot),
    ("stats", outcome.counts.toJson)] ++
    match withTree, outcome.snapshot with
    | true, some s => [("tree", s.toJson)]
    | _, _ => [])

/-- The summary of a scan for programs. -/
def scanJson (root : Path) (outcome : ScanOutcome) (withTree : Bool) : String :=
  (scanValue root outcome withTree).pretty

end Report

end TreeDigest

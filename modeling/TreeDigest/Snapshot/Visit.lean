import TreeDigest.Snapshot.Basic

/-!
Walking over a finished snapshot.

A visitor carries a state through the nodes depth first, in the order of the
children. It is told of every leaf, of every directory before its children, and
of every directory it chose to enter once more after them.

* `Snapshot.accept` runs a visitor.
* `Snapshot.counts` counts the nodes by kind.
* `Snapshot.leaves` lists the leaves in visiting order.
-/

namespace TreeDigest

/-- Whether the nodes below a directory are visited. -/
inductive Descent where
  | enter
  | skip
  deriving DecidableEq

/-- What a visitor does with its state at each event. -/
structure Visitor (σ : Type) where
  enter : Location → Digest → List Snapshot → σ → Descent × σ
  leaf : Leaf → σ → σ
  exit : Location → Digest → List Snapshot → σ → σ

namespace Snapshot

mutual
/-- Runs a visitor over a snapshot. -/
def accept {σ : Type} (v : Visitor σ) : Snapshot → σ → σ
  | .leaf l, s => v.leaf l s
  | .directory l d cs, s =>
    match v.enter l d cs s with
    | (.skip, s) => s
    | (.enter, s) => v.exit l d cs (acceptAll v cs s)

/-- Runs a visitor over snapshots in order. -/
def acceptAll {σ : Type} (v : Visitor σ) : List Snapshot → σ → σ
  | [], s => s
  | c :: cs, s => acceptAll v cs (accept v c s)
end

end Snapshot

/-- How many nodes of each kind there are. -/
structure NodeCounts where
  directories : Nat
  files : Nat
  missing : Nat
  deriving DecidableEq, Repr

namespace NodeCounts

/-- No nodes. -/
def zero : NodeCounts := ⟨0, 0, 0⟩

/-- One leaf more. -/
def addLeaf (c : NodeCounts) (l : Leaf) : NodeCounts :=
  match l.kind with
  | .file _ => { c with files := c.files + 1 }
  | .missing => { c with missing := c.missing + 1 }

/-- Counts nodes. -/
def visitor : Visitor NodeCounts where
  enter _ _ _ c := (.enter, { c with directories := c.directories + 1 })
  leaf l c := c.addLeaf l
  exit _ _ _ c := c

end NodeCounts

namespace Snapshot

/-- How many nodes of each kind a snapshot has. -/
def counts (s : Snapshot) : NodeCounts := s.accept NodeCounts.visitor .zero

mutual
/-- The leaves of a snapshot, depth first. -/
def leaves : Snapshot → List Leaf
  | .leaf l => [l]
  | .directory _ _ cs => leavesOfAll cs

/-- The leaves of a list of snapshots. -/
def leavesOfAll : List Snapshot → List Leaf
  | [] => []
  | c :: cs => leaves c ++ leavesOfAll cs
end

end Snapshot

end TreeDigest

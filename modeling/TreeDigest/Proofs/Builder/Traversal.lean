import TreeDigest.Proofs.Builder.NameOrder

/-!
A builder computes a recursive fold.

A traversal is a finite tree of leaves and directories, some of which are abandoned
once they have been walked. Its fold is a structural recursion: a directory is
dropped when it asks for that and nothing is left of its children, and otherwise it
is a node over what is left of them. The builder is a stack machine that is driven by
the depth-first calls of the traversal.

* `Traversal.fold` is the recursion, `Traversal.calls` the stream of calls, and
  `Traversal.answers` says of every directory whether its fold is there.
* `run_calls` is the simulation over an arbitrary stack: below the top nothing
  changes, and the top gains the fold.
* `run_callsAt` adds the calls at the root, where a bare leaf is the whole result.
-/

namespace TreeDigest

/-- What a depth-first stream of calls walks over. An abandoned directory is one that
vanished after it was entered. -/
inductive Traversal where
  | leaf (l : Leaf)
  | directory (location : Location) (handling : EmptyDirectories) (children : List Traversal)
  | abandoned (location : Location) (handling : EmptyDirectories) (children : List Traversal)

/-- Children in the order in which a directory keeps them, written out. -/
def Snapshot.inOrder : ChildOrdering → List Snapshot → List Snapshot
  | .asVisited, children => children
  | .byName, children => Snapshot.inNameOrder children

/-- Keeping children neither adds nor loses one. -/
lemma Snapshot.inOrder_perm (o : ChildOrdering) (children : List Snapshot) :
    (inOrder o children).Perm children := by
  cases o with
  | asVisited => exact .refl children
  | byName => exact inNameOrder_perm children

/-- The node over the given children, in the order in which they came. A directory
without children is no node if empty directories are left out. -/
def Snapshot.node? (h : HashFunction) (o : ChildOrdering) (location : Location)
    (handling : EmptyDirectories) (children : List Snapshot) : Option Snapshot :=
  if handling = .excluded ∧ children = [] then none
  else
    let kept := Snapshot.inOrder o children
    some (.directory location (h.directory (h.signature "DIR") (Snapshot.listing kept)) kept)

namespace Traversal

mutual

/-- The recursive fold of a traversal. -/
def fold (h : HashFunction) (o : ChildOrdering) : Traversal → Option Snapshot
  | .leaf l => some (.leaf l)
  | .directory location handling ts => Snapshot.node? h o location handling (foldAll h o ts)
  | .abandoned _ _ _ => none

/-- What is left of some siblings once they are folded, in the order in which they came. -/
def foldAll (h : HashFunction) (o : ChildOrdering) : List Traversal → List Snapshot
  | [] => []
  | t :: ts => (fold h o t).toList ++ foldAll h o ts

end

mutual

/-- The calls that walk over a traversal inside an open directory. -/
def calls : Traversal → List Builder.Call
  | .leaf l => [.leaf l]
  | .directory location handling ts => .enter location handling :: (callsAll ts ++ [.exit])
  | .abandoned location handling ts => .enter location handling :: (callsAll ts ++ [.abandon])

/-- The calls that walk over siblings in turn. -/
def callsAll : List Traversal → List Builder.Call
  | [] => []
  | t :: ts => calls t ++ callsAll ts

end

/-- The calls that walk over a traversal from a builder in which a directory is open, or
from one at its root: there a leaf is the whole result. -/
def callsAt (finished : Bool) : Traversal → List Builder.Call
  | .leaf l => if finished then [.rootLeaf l] else [.leaf l]
  | t => t.calls

mutual

/-- The answers to the calls of a traversal: every directory that is closed is kept just
when its fold is there. -/
def answers (h : HashFunction) (o : ChildOrdering) : Traversal → List Builder.Answer
  | .leaf _ => [.done]
  | .directory location handling ts =>
    .done :: (answersAll h o ts ++ [.kept (fold h o (.directory location handling ts)).isSome])
  | .abandoned _ _ ts => .done :: (answersAll h o ts ++ [.done])

/-- The answers to the calls of siblings in turn. -/
def answersAll (h : HashFunction) (o : ChildOrdering) : List Traversal → List Builder.Answer
  | [] => []
  | t :: ts => answers h o t ++ answersAll h o ts

end

end Traversal

/-! ### The builder on the way -/

namespace Builder

/-- The builder after its top level has been handed what there is of a snapshot. -/
def receive (b : Builder) : Option Snapshot → Builder
  | none => b
  | some s => match b.levels with
    | [] => { b with root := some s }
    | l :: rest => { b with levels := { l with children := l.children ++ [s] } :: rest }

/-- An entry can be taken in: a directory is open, or there is no root yet. -/
def CanReceive (b : Builder) : Prop := b.levels ≠ [] ∨ b.root = none

lemma run_append (b : Builder) (cs ds : List Call) :
    b.run (cs ++ ds) = ((b.run cs).1 ++ ((b.run cs).2.run ds).1, ((b.run cs).2.run ds).2) := by
  induction cs generalizing b with
  | nil => rfl
  | cons c cs ih => simp [run, ih]

lemma run_singleton (b : Builder) (c : Call) : b.run [c] = ([(b.apply c).1], (b.apply c).2) := rfl

/-- A builder that can take an entry in does so. -/
lemma collect_eq {b : Builder} (hb : b.CanReceive) (s : Snapshot) :
    b.collect s = .ok (b.receive (some s)) := by
  obtain ⟨h, o, levels, root⟩ := b
  cases levels with
  | nil =>
      have hroot : root = none := by simpa [CanReceive] using hb
      subst hroot
      rfl
  | cons l rest => rfl

/-- A level closes to the node over its children. -/
lemma close_eq (h : HashFunction) (o : ChildOrdering) (location : Location)
    (handling : EmptyDirectories) (children : List Snapshot) :
    Level.close h o ⟨location, handling, children⟩
      = Snapshot.node? h o location handling children := by
  have harrange : o.arrange children = Snapshot.inOrder o children := by
    cases o with
    | byName => exact ChildOrdering.arrange_byName children
    | asVisited => rfl
  have hdrop : Level.isDropped ⟨location, handling, children⟩ = true
      ↔ handling = .excluded ∧ children = [] := by
    simp [Level.isDropped]
  rw [Level.close, Snapshot.node?, harrange]
  by_cases hd : handling = .excluded ∧ children = []
  · rw [if_pos (hdrop.mpr hd), if_pos hd]
  · rw [if_neg fun hc => hd (hdrop.mp hc), if_neg hd]
    rfl

/-- Closing the innermost directory hands its node to what is around it, if that can
take an entry in. -/
lemma exit_eq {h : HashFunction} {o : ChildOrdering} {levels : List Level} {root : Option Snapshot}
    (hb : CanReceive ⟨h, o, levels, root⟩) (location : Location) (handling : EmptyDirectories)
    (children : List Snapshot) :
    exit ⟨h, o, ⟨location, handling, children⟩ :: levels, root⟩
      = (.ok (Snapshot.node? h o location handling children).isSome,
          receive ⟨h, o, levels, root⟩ (Snapshot.node? h o location handling children)) := by
  simp only [exit, close_eq]
  cases hnode : Snapshot.node? h o location handling children with
  | none => rfl
  | some s =>
      simp only [collect_eq hb]
      rfl

end Builder

/-! ### The simulation -/

namespace Traversal

open Builder

variable (h : HashFunction) (o : ChildOrdering)

mutual

/-- **The simulation step**: inside an open directory, the calls of a traversal succeed,
answer which directories are kept, and add the fold to that directory alone. -/
lemma run_calls (t : Traversal) (l : Level) (rest : List Level) (root : Option Snapshot) :
    run ⟨h, o, l :: rest, root⟩ t.calls
      = ((t.answers h o).map .ok,
          ⟨h, o, { l with children := l.children ++ (t.fold h o).toList } :: rest, root⟩) := by
  match t with
  | .leaf _ => rfl
  | .directory location handling ts =>
      have hts := run_callsAll ts ⟨location, handling, []⟩ (l :: rest) root
      have hopen : CanReceive ⟨h, o, l :: rest, root⟩ := .inl (by simp)
      simp only [calls, run, apply, enter]
      rw [run_append, hts, run_singleton, apply, exit_eq hopen]
      simp only [answers, fold, List.nil_append]
      cases Snapshot.node? h o location handling (foldAll h o ts) <;> simp [receive, Except.map]
  | .abandoned location handling ts =>
      have hts := run_callsAll ts ⟨location, handling, []⟩ (l :: rest) root
      simp only [calls, run, apply, enter]
      rw [run_append, hts, run_singleton]
      simp [apply, abandon, orSame, answers, fold]

/-- The simulation of siblings in turn. -/
lemma run_callsAll (ts : List Traversal) (l : Level) (rest : List Level) (root : Option Snapshot) :
    run ⟨h, o, l :: rest, root⟩ (callsAll ts)
      = ((answersAll h o ts).map .ok,
          ⟨h, o, { l with children := l.children ++ foldAll h o ts } :: rest, root⟩) := by
  match ts with
  | [] => simp [callsAll, answersAll, foldAll, run]
  | t :: ts =>
      rw [callsAll, run_append, run_calls t, run_callsAll ts]
      simp [answersAll, foldAll]

end

/-- **A builder refines the recursive fold**: from any builder that can take an entry in,
the calls of a traversal all succeed, every directory is told to be kept just when its fold
is there, and all that changes is that the top level gains the fold of the traversal. -/
theorem run_callsAt (b : Builder) (t : Traversal) (hb : b.CanReceive) :
    b.run (t.callsAt b.isFinished)
      = ((t.answers b.hash b.ordering).map .ok, b.receive (t.fold b.hash b.ordering)) := by
  obtain ⟨h, o, levels, root⟩ := b
  cases levels with
  | cons l rest =>
      have hcalls : t.callsAt (isFinished ⟨h, o, l :: rest, root⟩) = t.calls := by
        cases t <;> rfl
      rw [hcalls, run_calls]
      cases hfold : t.fold h o <;> simp [receive]
  | nil =>
      have hroot : root = none := by simpa [CanReceive] using hb
      subst hroot
      cases t with
      | leaf _ => rfl
      | directory location handling ts =>
          simp only [callsAt, calls, run, apply, enter]
          rw [run_append, run_callsAll, run_singleton, apply, exit_eq hb]
          simp [answers, fold, Except.map]
      | abandoned location handling ts =>
          simp only [callsAt, calls, run, apply, enter]
          rw [run_append, run_callsAll, run_singleton]
          simp [apply, abandon, orSame, answers, fold, receive]

/-- Inside an open directory, a directory with an empty and an abandoned one in it: these
two leave nothing, and the directory is kept with its leaf alone. -/
theorem run_callsAt_mixed :
    let h := HashFunction.ofBytes fun bytes => .replicate (.ofNat bytes.length)
    let b := (Builder.new h .byName).enter ⟨"/r", "r", .direct⟩ .included
    let x := Leaf.missing h ⟨"/r/d/x", "x", .direct⟩
    let t := directory ⟨"/r/d", "d", .direct⟩ .excluded
      [leaf x, directory ⟨"/r/d/e", "e", .direct⟩ .excluded [],
        abandoned ⟨"/r/d/g", "g", .viaSymlink⟩ .included [leaf x]]
    b.CanReceive
      ∧ t.answers h .byName
          = [.done, .done, .done, .kept false, .done, .done, .done, .kept true]
      ∧ ((t.fold h .byName).map fun s => s.children) = some [.leaf x]
      ∧ b.run (t.callsAt b.isFinished)
          = ((t.answers h .byName).map .ok, b.receive (t.fold h .byName)) := by
  intro h b x t
  have hb : b.CanReceive := .inl (by simp [b, enter])
  exact ⟨hb, rfl, rfl, run_callsAt b t hb⟩

end Traversal

end TreeDigest

import TreeDigest.History.Database
import TreeDigest.Workspace.Identity
import TreeDigest.Workspace.Locks

/-!
Workspaces: a directory for each identity below a common one, with a common
execution history.

* `Workspaces.directoryOf` is the directory of an accepted identity.
* `Workspaces.within` runs a task in it under the identity's lock; the directory
  is made first, and the lock is handed back in any case.
-/

namespace TreeDigest

/-- The workspaces of a store directory. -/
structure Workspaces where
  directory : Path
  history : Database
  locks : LockTable

namespace Workspaces

/-- The workspaces below a directory. -/
def new (directory : Path) (history : Database) : Workspaces := ⟨directory, history, .empty⟩

/-- The directory of an identity. -/
def directoryOf (w : Workspaces) (identity : String) : Except StorageError Path := do
  Identity.validate identity
  return w.directory.child identity

/-- What runs in a workspace: it is given the directory, and goes on with the
workspaces and the machine. -/
abbrev Task (α : Type) :=
  Path → Workspaces → Host → Except StorageError α × Workspaces × Host

/-- Runs a task in a directory that is made first. -/
def inDirectory {α : Type} (w : Workspaces) (h : Host) (directory : Path) (task : Task α) :
    Except StorageError α × Workspaces × Host :=
  match h.makeDirectories directory with
  | (.error e, h) => (.error (.io (.makingWorkspace directory e)), w, h)
  | (.ok (), h) => task directory w h

/-- Runs a task in the directory of an identity, under its lock. -/
def within {α : Type} (w : Workspaces) (h : Host) (identity : String) (task : Task α) :
    Except StorageError α × Workspaces × Host :=
  match w.directoryOf identity with
  | .error e => (.error e, w, h)
  | .ok directory =>
    let (lock, locks) := w.locks.get identity
    let (result, w, h) := { w with locks := (locks.tryTake lock).2 }.inDirectory h directory task
    (result, { w with locks := (w.locks.free lock).release identity lock }, h)

/-- Looks for a kept result of an identity; none is ever kept. -/
def cachedResult (identity : String) : Except StorageError (Option Unit) := do
  Identity.validate identity
  return none

end Workspaces

end TreeDigest

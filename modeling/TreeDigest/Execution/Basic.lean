import TreeDigest.Execution.Decision
import TreeDigest.Workspace.Provider

/-!
Running work only when its input has changed.

* `Execution.check` compares an input with the history.
* `Execution.execute` runs an action in the identity's workspace unless it is up to
  date, and records how it went.
* `Execution.record` records a successful run without running anything.
-/

namespace TreeDigest.Execution

/-- What an action is given and what it gives back. It works on the directory of its
identity and may fail with a reason of its own. -/
abbrev Action (α ε : Type) := String → Path → Host → Except ε α × Host

/-- What executing did. -/
inductive Outcome (α ε : Type) where
  | upToDate (record : Record)
  | succeeded (value : α) (record : Record)
  | failed (error : ε) (record : Record)

/-- Decides whether work on an input is up to date. -/
def check (w : Workspaces) (identity : String) (input : Option Digest) : Except StorageError Decision := do
  Identity.validate identity
  match w.history.load identity with
  | .ok previous => return .of previous input
  | .error e => throw (.history e)

/-- Stores a record and writes the history out. -/
def remember (w : Workspaces) (h : Host) (identity : String) (r : Record) : Workspaces × Host :=
  let history := w.history.store identity r
  ({ w with history := history }, history.save h)

/-- Runs an action that is not up to date, and records its outcome. -/
def runAction {α ε : Type} (identity : String) (input : Option Digest) (action : Action α ε)
    (directory : Path) (w : Workspaces) (h : Host) : Outcome α ε × Workspaces × Host :=
  match action identity directory h with
  | (.ok value, h) =>
    let r : Record := ⟨input, h.now, true⟩
    (.succeeded value r, remember w h identity r)
  | (.error error, h) =>
    let r : Record := ⟨input, h.now, false⟩
    (.failed error r, remember w h identity r)

/-- Runs an action in its workspace unless the last record says that it is up to date. -/
def unlessUpToDate {α ε : Type} (identity : String) (input : Option Digest) (action : Action α ε) :
    Workspaces.Task (Outcome α ε) := fun directory w h =>
  match w.history.load identity with
  | .error e => (.error (.history e), w, h)
  | .ok previous => match Decision.of previous input with
    | .upToDate r => (.ok (.upToDate r), w, h)
    | _ =>
      let (outcome, w, h) := runAction identity input action directory w h
      (.ok outcome, w, h)

/-- Runs an action in the workspace of an identity unless it is up to date. -/
def execute {α ε : Type} (w : Workspaces) (h : Host) (identity : String) (input : Option Digest)
    (action : Action α ε) : Except StorageError (Outcome α ε) × Workspaces × Host :=
  w.within h identity (unlessUpToDate identity input action)

/-- Records an input as that of a successful run. -/
def record (w : Workspaces) (h : Host) (identity : String) (input : Option Digest) :
    Except StorageError (Record × Workspaces × Host) := do
  Identity.validate identity
  let r : Record := ⟨input, h.now, true⟩
  return (r, remember w h identity r)

end TreeDigest.Execution

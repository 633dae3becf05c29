import TreeDigest.Execution.Basic
import TreeDigest.Proofs.History.Database

/-!
What a single execution does.

A request to run work answers with what the last record of its identity decides, and it stores a
record exactly if its answer carries one that is new. So all that it does to the history can be
read off its answer, and its answer depends on the history only through the last record of its own
identity.

* `Request.answer` is the answer, given the last record, and `Outcome.stored?` the new record.
* `execute_of_accepted` and `execute_of_refused`: an execution answers just so, stores just that, and
  leaves the rest.
-/

namespace TreeDigest

namespace Execution

variable {α ε : Type}

/-- A request to run work: the identity, the digest of the input, the action, and the machine as
the request finds it. -/
structure Request (α ε : Type) where
  identity : String
  input : Option Digest
  action : Action α ε
  host : Host

/-- The record that an outcome adds to the history. -/
def Outcome.stored? : Outcome α ε → Option Record
  | .upToDate _ => none
  | .succeeded _ record => some record
  | .failed _ record => some record

/-- The record that an answer adds to the history. -/
def stored? (answer : Except StorageError (Outcome α ε)) : Option Record :=
  answer.toOption.bind Outcome.stored?

namespace Request

/-- The directory that a request works in, below a common one. -/
def workplace (q : Request α ε) (directory : Path) : Path := directory.child q.identity

/-- What the action comes to on a machine on which its directory has been made. -/
def carriedOut (q : Request α ε) (workplace : Path) (h : Host) : Outcome α ε :=
  match q.action q.identity workplace h with
  | (.ok value, h) => .succeeded value ⟨q.input, h.now, true⟩
  | (.error error, h) => .failed error ⟨q.input, h.now, false⟩

/-- The record that running the action leaves. -/
def newRecord (q : Request α ε) (workplace : Path) (h : Host) : Record :=
  let (result, h) := q.action q.identity workplace h
  ⟨q.input, h.now, result.toBool⟩

/-- What a request answers once its directory has been made: the action runs only if the last
record does not say that the work is up to date. -/
def judged (q : Request α ε) (loaded : Except HistoryError (Option Record)) (workplace : Path)
    (h : Host) : Except StorageError (Outcome α ε) :=
  match loaded with
  | .error e => .error (.history e)
  | .ok previous => match Decision.of previous q.input with
    | .upToDate r => .ok (.upToDate r)
    | _ => .ok (q.carriedOut workplace h)

/-- What a request answers, given the last record of its identity. -/
def answer (q : Request α ε) (directory : Path) (loaded : Except HistoryError (Option Record)) :
    Except StorageError (Outcome α ε) :=
  match q.host.makeDirectories (q.workplace directory) with
  | (.error e, _) => .error (.io (.makingWorkspace (q.workplace directory) e))
  | (.ok (), h) => q.judged loaded (q.workplace directory) h

/-- The execution of a request. -/
def execute (q : Request α ε) (w : Workspaces) :
    Except StorageError (Outcome α ε) × Workspaces :=
  let (answer, w, _) := Execution.execute w q.host q.identity q.input q.action
  (answer, w)

end Request

end Execution

/-- The history after an answer, given the record that it adds. -/
def Database.keep (d : Database) (identity : String) : Option Record → Database
  | none => d
  | some r => d.store identity r

namespace Workspaces

variable {α : Type} (w : Workspaces) (h : Host) (task : Task α) {identity : String}

/-- **The workspace of a refused identity**: the task does not run. -/
lemma within_of_refused {e : StorageError} (hname : Identity.validate identity = .error e) :
    w.within h identity task = (.error e, w, h) := by
  simp only [within, directoryOf, hname, bind, Except.bind]

/-- The workspaces as a task in the workspace of an identity finds them. -/
def entered (w : Workspaces) (identity : String) : Workspaces :=
  { w with locks := ((w.locks.get identity).2.tryTake (w.locks.get identity).1).2 }

/-- **The workspace of an accepted identity**: the task runs in its directory, and all but the locks
is as the task leaves it. -/
lemma within_of_accepted (hname : Identity.validate identity = .ok ()) :
    let ran := (w.entered identity).inDirectory h (w.directory.child identity) task
    (w.within h identity task).1 = ran.1
      ∧ (w.within h identity task).2.1.history = ran.2.1.history
      ∧ (w.within h identity task).2.1.directory = ran.2.1.directory := by
  simp only [within, directoryOf, hname, bind, Except.bind, pure, Except.pure]
  exact ⟨rfl, rfl, rfl⟩

end Workspaces

namespace Execution.Request

variable {α ε : Type} (q : Request α ε) (w : Workspaces)

/-- Running an action stores the record of its outcome. -/
lemma runAction_eq (workplace : Path) (h : Host) :
    (runAction q.identity q.input q.action workplace w h).1 = q.carriedOut workplace h
      ∧ (runAction q.identity q.input q.action workplace w h).2.1
        = ⟨w.directory, w.history.keep q.identity (q.carriedOut workplace h).stored?, w.locks⟩ := by
  rcases hran : q.action q.identity workplace h with ⟨_ | _, h'⟩ <;>
    · simp only [runAction, carriedOut, hran]
      exact ⟨trivial, rfl⟩

/-- What is done in the workspace once its directory has been made. -/
lemma unlessUpToDate_eq (workplace : Path) (h : Host) :
    let ran := unlessUpToDate q.identity q.input q.action workplace w h
    let answer := q.judged (w.history.load q.identity) workplace h
    ran.1 = answer
      ∧ ran.2.1 = ⟨w.directory, w.history.keep q.identity (stored? answer), w.locks⟩ := by
  obtain ⟨houtcome, hworkspaces⟩ := q.runAction_eq w workplace h
  cases hload : w.history.load q.identity with
  | error e =>
      simp only [unlessUpToDate, judged, hload]
      exact ⟨trivial, rfl⟩
  | ok previous =>
      cases hdecision : Decision.of previous q.input <;>
        simp only [unlessUpToDate, judged, hload, hdecision]
      case upToDate r => exact ⟨trivial, rfl⟩
      all_goals exact ⟨congrArg Except.ok houtcome, hworkspaces⟩

/-- Running the action leaves its new record. -/
lemma stored?_carriedOut (workplace : Path) (h : Host) :
    (q.carriedOut workplace h).stored? = some (q.newRecord workplace h) := by
  rcases hran : q.action q.identity workplace h with ⟨_ | _, h'⟩ <;>
    simp only [carriedOut, newRecord, hran, Outcome.stored?] <;> rfl

/-- In a workspace that can be made, a request that finds the last record is up to date, or its
action runs. -/
lemma answer_of_made {directory : Path}
    (hmade : (q.host.makeDirectories (q.workplace directory)).1 = .ok ())
    (previous : Option Record) :
    (∃ r, Decision.of previous q.input = .upToDate r
        ∧ q.answer directory (.ok previous) = .ok (.upToDate r))
      ∨ (Decision.of previous q.input).isUpToDate = false
        ∧ q.answer directory (.ok previous) = .ok (q.carriedOut (q.workplace directory)
            (q.host.makeDirectories (q.workplace directory)).2) := by
  rcases hmaking : q.host.makeDirectories (q.workplace directory) with ⟨_ | _, h⟩ <;>
    rw [hmaking] at hmade
  · cases hmade
  · simp only [answer, hmaking, judged]
    cases Decision.of previous q.input with
    | upToDate r => exact .inl ⟨r, rfl, rfl⟩
    | changed r => exact .inr ⟨rfl, rfl⟩
    | noHistory => exact .inr ⟨rfl, rfl⟩

lemma execute_of_refused {e : StorageError} (hname : Identity.validate q.identity = .error e) :
    q.execute w = (.error e, w) := by
  simp only [execute, Execution.execute, Workspaces.within_of_refused w q.host _ hname]

/-- **What an execution does**: it answers what the last record of its identity decides, keeps the
record that its answer carries, and leaves the directory. -/
lemma execute_of_accepted (hname : Identity.validate q.identity = .ok ()) :
    let answer := q.answer w.directory (w.history.load q.identity)
    (q.execute w).1 = answer
      ∧ (q.execute w).2.history = w.history.keep q.identity (stored? answer)
      ∧ (q.execute w).2.directory = w.directory := by
  intro answer
  obtain ⟨hanswer, hhistory, hdirectory⟩ := Workspaces.within_of_accepted w q.host
    (unlessUpToDate q.identity q.input q.action) hname
  simp only [execute, Execution.execute]
  rw [hanswer, hhistory, hdirectory, Workspaces.inDirectory]
  rcases hmade : q.host.makeDirectories (w.directory.child q.identity) with ⟨_ | _, h⟩
  · simp only [answer, Request.answer, workplace, hmade]
    exact ⟨trivial, rfl, rfl⟩
  · obtain ⟨hran, hleft⟩ := q.unlessUpToDate_eq (w.entered q.identity)
      (w.directory.child q.identity) h
    simp only [hran, hleft, answer, Request.answer, workplace, hmade]
    exact ⟨rfl, rfl, rfl⟩

end Execution.Request

namespace Execution

/-! ### A machine and workspaces of no content -/

/-- A machine without files at the start of 1970. -/
def bareHost : Host := ⟨⟨[], []⟩, [], ⟨0, 0⟩, []⟩

/-- Workspaces in which nothing has been done. -/
def sampleWorkspaces : Workspaces := .new ⟨[47, 119]⟩ .temporary

/-- The directory of an identity can be made on it. -/
lemma made_a :
    (bareHost.makeDirectories (sampleWorkspaces.directory.child "a")).1 = .ok () := by cbv

end Execution

end TreeDigest

import TreeDigest.Proofs.Execution.Serial
import TreeDigest.Proofs.Workspace.Callers

/-!
Executions at the same time.

Any number of requests are carried out on the same workspaces, each in steps of its own: it gets a
handle of the lock of its identity and takes it, makes its directory, loads the last record and
decides, runs its action, stores the record, frees the lock, drops its handle and prunes the table.
A schedule says whose turn it is.

* `Stage.next?` is a step inside the lock, and `Job.step?` one step of a request.
* `Crowd.run` is a run under a schedule, and `Crowd.IsOrder` an order that agrees with it.
* `Stage.Foretold` is what a request can rely on between two of its steps, as long as nobody else
  changes the last record of its identity.
* `Job.step_of_step?` says what a step can be.
-/

namespace TreeDigest.Execution

variable {α ε : Type}

/-! ### Steps of a request -/

/-- How far a request has come while its lock is taken. -/
inductive Stage (α ε : Type) where
  /-- It has not done anything. -/
  | entered
  /-- Its directory has been made. -/
  | prepared (h : Host)
  /-- It is not up to date, and is about to run its action. -/
  | decided (h : Host)
  /-- Its action has run, and it is about to store the record. -/
  | acted (outcome : Outcome α ε)
  /-- It has its answer. -/
  | settled (answer : Except StorageError (Outcome α ε))

namespace Stage

/-- The answer, if it is there. -/
def answer? : Stage α ε → Option (Except StorageError (Outcome α ε))
  | .settled answer => some answer
  | _ => none

/-- The action has run. -/
def hasActed : Stage α ε → Bool
  | .acted _ => true
  | .settled answer => (stored? answer).isSome
  | _ => false

/-- The next step is to run the action. -/
def actsNext : Stage α ε → Bool
  | .decided _ => true
  | _ => false

/-- The next step inside the lock, and the history after it. There is none once the answer is
there. -/
def next? (q : Request α ε) (w : Workspaces) : Stage α ε → Option (Stage α ε × Database)
  | .entered => match q.host.makeDirectories (q.workplace w.directory) with
    | (.error e, _) =>
      some (.settled (.error (.io (.makingWorkspace (q.workplace w.directory) e))), w.history)
    | (.ok (), h) => some (.prepared h, w.history)
  | .prepared h => match w.history.load q.identity with
    | .error e => some (.settled (.error (.history e)), w.history)
    | .ok previous => match Decision.of previous q.input with
      | .upToDate r => some (.settled (.ok (.upToDate r)), w.history)
      | _ => some (.decided h, w.history)
  | .decided h => some (.acted (q.carriedOut (q.workplace w.directory) h), w.history)
  | .acted outcome => some (.settled (.ok outcome), w.history.keep q.identity outcome.stored?)
  | .settled _ => none

end Stage

/-- A request that is being carried out: how far it has come with its lock, and inside it. -/
structure Job (α ε : Type) where
  request : Request α ε
  phase : Phase
  stage : Stage α ε

namespace Job

/-- What the job does with the lock of its identity. -/
def call (j : Job α ε) : Call := ⟨j.request.identity, j.phase⟩

/-- The next step of the job with its lock. -/
def moveOn (j : Job α ε) (w : Workspaces) : Option (Job α ε × Workspaces) :=
  (j.call.step? w.locks).map fun (c, locks) =>
    ({ j with phase := c.phase }, { w with locks := locks })

/-- The next step of a job, and the workspaces after it. A refused identity is told at once. There
is no step if the lock is taken by somebody else or if all is done. -/
def step? (j : Job α ε) (w : Workspaces) : Option (Job α ε × Workspaces) :=
  match j.phase with
  | .start => match Identity.validate j.request.identity with
    | .error e => some ({ j with phase := .done, stage := .settled (.error e) }, w)
    | .ok () => j.moveOn w
  | .locked _ => match j.stage.next? j.request w with
    | some (stage, history) => some ({ j with stage := stage }, { w with history := history })
    | none => j.moveOn w
  | _ => j.moveOn w

/-- The next step of the job, if it has one, is to take its lock. -/
def takesNext (j : Job α ε) : Bool :=
  match j.phase with
  | .waiting _ => true
  | _ => false

/-- The next step of the job is to run its action. -/
def actsNext (j : Job α ε) : Bool :=
  match j.phase with
  | .locked _ => j.stage.actsNext
  | _ => false

end Job

/-- Requests that are carried out at the same time. What has happened so far is written down: the
positions that took their lock, and those whose action ran, in order. -/
structure Crowd (α ε : Type) where
  workspaces : Workspaces
  jobs : List (Job α ε)
  taken : List ℕ
  acted : List ℕ

namespace Crowd

/-- Requests of which none has done anything. -/
def start (w : Workspaces) (requests : List (Request α ε)) : Crowd α ε :=
  ⟨w, requests.map fun q => ⟨q, .start, .entered⟩, [], []⟩

/-- A turn of the job at a position: it makes its next step if there is one. -/
def turn (s : Crowd α ε) (position : ℕ) : Crowd α ε :=
  match s.jobs[position]? with
  | none => s
  | some j => match j.step? s.workspaces with
    | none => s
    | some (j', w) =>
      ⟨w, s.jobs.set position j',
        if j.takesNext then s.taken ++ [position] else s.taken,
        if j.actsNext then s.acted ++ [position] else s.acted⟩

/-- A run under a schedule. -/
def run (s : Crowd α ε) (schedule : List ℕ) : Crowd α ε := schedule.foldl turn s

/-- The answer of the job at a position, if it is there. -/
def answer? (s : Crowd α ε) (position : ℕ) : Option (Except StorageError (Outcome α ε)) :=
  s.jobs[position]?.bind fun j => j.stage.answer?

/-- All jobs are done. -/
def IsDone (s : Crowd α ε) : Prop := ∀ j ∈ s.jobs, j.phase = .done

/-- An order of all requests in which those of each accepted identity stand as they took its
lock. -/
def IsOrder (s : Crowd α ε) (requests : List (Request α ε)) (order : List ℕ) : Prop :=
  order.Perm (List.range requests.length)
    ∧ ∀ identity, order.filter (lane requests · = .inl identity)
        = s.taken.filter (lane requests · = .inl identity)

end Crowd

/-! ### What one step can do -/

namespace Stage

variable {q : Request α ε} {w : Workspaces} {stage stage' : Stage α ε} {history : Database}

/-- What a stage says about the answer to come, as long as nobody else changes the last record of
the identity. -/
def Foretold (q : Request α ε) (w : Workspaces) : Stage α ε → Prop
  | .prepared h => q.host.makeDirectories (q.workplace w.directory) = (.ok (), h)
  | .decided h => q.host.makeDirectories (q.workplace w.directory) = (.ok (), h)
    ∧ ∃ previous, w.history.load q.identity = .ok previous
      ∧ (Decision.of previous q.input).isUpToDate = false
  | .acted outcome => outcome.stored?.isSome
    ∧ q.answer w.directory (w.history.load q.identity) = .ok outcome
  | _ => True

/-- The steps inside the lock, one by one. -/
inductive Step (q : Request α ε) (w : Workspaces) : Stage α ε → Stage α ε → Database → Prop
  | fail {e : IoError} {h : Host}
      (hmade : q.host.makeDirectories (q.workplace w.directory) = (.error e, h)) :
      Step q w .entered (.settled (.error (.io (.makingWorkspace (q.workplace w.directory) e))))
        w.history
  | prepare {h : Host} (hmade : q.host.makeDirectories (q.workplace w.directory) = (.ok (), h)) :
      Step q w .entered (.prepared h) w.history
  | misread {h : Host} {e : HistoryError} (hload : w.history.load q.identity = .error e) :
      Step q w (.prepared h) (.settled (.error (.history e))) w.history
  | skip {h : Host} {previous : Option Record} {r : Record}
      (hload : w.history.load q.identity = .ok previous)
      (hdecision : Decision.of previous q.input = .upToDate r) :
      Step q w (.prepared h) (.settled (.ok (.upToDate r))) w.history
  | decide {h : Host} {previous : Option Record} (hload : w.history.load q.identity = .ok previous)
      (hdecision : (Decision.of previous q.input).isUpToDate = false) :
      Step q w (.prepared h) (.decided h) w.history
  | act {h : Host} :
      Step q w (.decided h) (.acted (q.carriedOut (q.workplace w.directory) h)) w.history
  | store {outcome : Outcome α ε} :
      Step q w (.acted outcome) (.settled (.ok outcome)) (w.history.keep q.identity outcome.stored?)

/-- **The next step** is one of these, unless the answer is there. -/
lemma next?_eq (q : Request α ε) (w : Workspaces) (stage : Stage α ε) :
    (stage.next? q w = none ∧ stage.answer?.isSome)
      ∨ ∃ stage' history, stage.next? q w = some (stage', history)
        ∧ Step q w stage stage' history := by
  cases stage with
  | entered =>
      rcases hmade : q.host.makeDirectories (q.workplace w.directory) with ⟨_ | _, h⟩ <;>
        simp only [next?, hmade]
      · exact .inr ⟨_, _, rfl, .fail hmade⟩
      · exact .inr ⟨_, _, rfl, .prepare hmade⟩
  | prepared h =>
      cases hload : w.history.load q.identity with
      | error e =>
          simp only [next?, hload]
          exact .inr ⟨_, _, rfl, .misread hload⟩
      | ok previous =>
          cases hdecision : Decision.of previous q.input <;> simp only [next?, hload, hdecision]
          case upToDate r => exact .inr ⟨_, _, rfl, .skip hload hdecision⟩
          all_goals exact .inr ⟨_, _, rfl, .decide hload (by rw [hdecision]; rfl)⟩
  | decided h => exact .inr ⟨_, _, rfl, .act⟩
  | acted outcome => exact .inr ⟨_, _, rfl, .store⟩
  | settled answer => exact .inl ⟨rfl, rfl⟩

/-- **A step inside the lock** settles the request, with the answer that was foretold and its
record, or it goes on without touching the history. -/
lemma Step.foretold (hstep : Step q w stage stage' history) (hstage : stage.Foretold q w) :
    (∃ answer, stage' = .settled answer
        ∧ answer = q.answer w.directory (w.history.load q.identity)
        ∧ history = w.history.keep q.identity (stored? answer))
      ∨ stage'.answer? = none ∧ stage'.Foretold q w ∧ history = w.history := by
  cases hstep with
  | fail hmade => exact .inl ⟨_, rfl, by rw [Request.answer, hmade], rfl⟩
  | prepare hmade => exact .inr ⟨rfl, hmade, rfl⟩
  | misread hload =>
      have hmade := id hstage
      rw [Foretold] at hmade
      exact .inl ⟨_, rfl, by simp only [Request.answer, hmade, Request.judged, hload], rfl⟩
  | skip hload hdecision =>
      have hmade := id hstage
      rw [Foretold] at hmade
      exact .inl ⟨_, rfl,
        by simp only [Request.answer, hmade, Request.judged, hload, hdecision], rfl⟩
  | decide hload hdecision => exact .inr ⟨rfl, ⟨hstage, _, hload, hdecision⟩, rfl⟩
  | act =>
      obtain ⟨hmade, previous, hload, hprevious⟩ := hstage
      refine .inr ⟨rfl, ⟨by rw [q.stored?_carriedOut]; rfl, ?_⟩, rfl⟩
      obtain ⟨r, hdecision, -⟩ | ⟨-, hanswer⟩ :=
        q.answer_of_made (congrArg Prod.fst hmade) previous
      · rw [hdecision] at hprevious
        cases hprevious
      · rw [hload, hanswer, hmade]
  | store => exact .inl ⟨_, rfl, hstage.2.symm, rfl⟩

lemma hasActed_of_actsNext (hnext : stage.actsNext = true) : stage.hasActed = false := by
  cases stage <;> first | rfl | cases hnext

/-- Only one step makes the action run. -/
lemma Step.hasActed (hstep : Step q w stage stage' history) (hstage : stage.Foretold q w) :
    stage'.hasActed = (stage.hasActed || stage.actsNext) := by
  cases hstep with
  | store => exact hstage.1
  | _ => rfl

end Stage

/-! ### What a step of a job can do -/

namespace Job

variable {j j' : Job α ε} {w w' : Workspaces}

/-- The identity is not refused. -/
def IsAccepted (j : Job α ε) : Prop := Identity.validate j.request.identity = .ok ()

/-- The job has its lock and no answer yet. -/
def IsOpen (j : Job α ε) : Prop :=
  match j.phase with
  | .locked _ => j.stage.answer? = none
  | _ => False

/-- How far a job has come with its lock agrees with how far it has come inside: it does nothing
before it has the lock, and has its answer when it leaves. -/
def IsCoherent (j : Job α ε) : Prop :=
  match j.phase with
  | .start => j.stage = .entered
  | .absent | .waiting _ => j.stage = .entered ∧ j.IsAccepted
  | .locked _ => j.IsAccepted
  | _ => j.stage.answer?.isSome

/-- The steps of a job, by what they mean for the others. -/
inductive Step (j : Job α ε) (w : Workspaces) : Job α ε → Workspaces → Prop
  /-- The identity is refused. -/
  | refuse {e : StorageError} (hphase : j.phase = .start) (hstage : j.stage = .entered)
      (hname : Identity.validate j.request.identity = .error e) :
      Step j w { j with phase := .done, stage := .settled (.error e) } w
  /-- The job goes on with its lock without taking it. -/
  | move {c : Call} {locks : LockTable} (hstep : j.call.step? w.locks = some (c, locks))
      (htakes : j.takesNext = false) (hclosed : ¬ j.IsOpen)
      (hclosed' : ¬ IsOpen { j with phase := c.phase })
      (hcoherent : IsCoherent { j with phase := c.phase }) :
      Step j w { j with phase := c.phase } { w with locks := locks }
  /-- The job takes its lock. -/
  | take {lock : LockId} {locks : LockTable} (hphase : j.phase = .waiting lock)
      (hstage : j.stage = .entered) (haccepted : j.IsAccepted)
      (hstep : j.call.step? w.locks = some (⟨j.request.identity, .locked lock⟩, locks)) :
      Step j w { j with phase := .locked lock } { w with locks := locks }
  /-- The job works inside its lock. -/
  | work {lock : LockId} {stage : Stage α ε} {history : Database} (hphase : j.phase = .locked lock)
      (haccepted : j.IsAccepted) (hopen : j.IsOpen)
      (hstep : Stage.Step j.request w j.stage stage history) :
      Step j w { j with stage := stage } { w with history := history }

/-- Going on with the lock. -/
lemma step_of_moveOn (hmove : j.moveOn w = some (j', w')) (hcoherent : j.IsCoherent)
    (hstart : j.phase = .start → j.IsAccepted)
    (hlocked : ∀ lock, j.phase = .locked lock → j.stage.answer?.isSome) : Step j w j' w' := by
  obtain ⟨⟨c, locks⟩, hstep, heq⟩ := Option.map_eq_some_iff.mp hmove
  obtain ⟨rfl, rfl⟩ := Prod.mk.inj heq
  have hnext := Call.phase_of_step? hstep
  have hidentity := Call.identity_of_step? hstep
  obtain ⟨identity, phase'⟩ := c
  obtain ⟨request, phase, stage⟩ := j
  cases phase with
  | start =>
      have haccepted := hstart rfl
      obtain rfl | ⟨lock, rfl⟩ := hnext <;>
        exact .move hstep rfl id id ⟨hcoherent, haccepted⟩
  | absent =>
      obtain ⟨lock, rfl⟩ := hnext
      exact .move hstep rfl id id hcoherent
  | waiting lock =>
      obtain rfl : identity = request.identity := hidentity
      obtain rfl : phase' = .locked lock := hnext
      exact .take rfl hcoherent.1 hcoherent.2 hstep
  | locked lock =>
      obtain rfl : phase' = .acted lock := hnext
      have hanswered : stage.answer?.isSome := hlocked lock rfl
      have hclosed : ¬ IsOpen ⟨request, .locked lock, stage⟩ := by
        intro hopen
        have hnone : stage.answer? = none := hopen
        rw [hnone] at hanswered
        cases hanswered
      exact .move hstep rfl hclosed id hanswered
  | acted lock | freed lock | dropped =>
      obtain rfl := hnext
      exact .move hstep rfl id id hcoherent
  | done => exact hnext.elim

/-- **Every step of a job is one of these.** -/
theorem step_of_step? (hcoherent : j.IsCoherent) (hstep : j.step? w = some (j', w')) :
    Step j w j' w' := by
  obtain ⟨request, phase, stage⟩ := j
  cases phase with
  | start =>
      cases hname : Identity.validate request.identity with
      | error e =>
          simp only [step?, hname] at hstep
          obtain ⟨rfl, rfl⟩ := Prod.mk.inj (Option.some.inj hstep)
          exact .refuse rfl hcoherent hname
      | ok _ =>
          simp only [step?, hname] at hstep
          exact step_of_moveOn hstep hcoherent (fun _ => hname) fun _ h => nomatch h
  | locked lock =>
      obtain ⟨hnone, hanswered⟩ | ⟨stage', history, hsome, hnext⟩ := stage.next?_eq request w
      · simp only [step?, hnone] at hstep
        exact step_of_moveOn hstep hcoherent (fun h => nomatch h) fun _ _ => hanswered
      · simp only [step?, hsome] at hstep
        obtain ⟨rfl, rfl⟩ := Prod.mk.inj (Option.some.inj hstep)
        refine .work rfl hcoherent ?_ hnext
        cases hnext <;> rfl
  | _ => exact step_of_moveOn hstep hcoherent (fun h => nomatch h) fun _ h => nomatch h

end Job

end TreeDigest.Execution

import TreeDigest.CommandLine.Run
import TreeDigest.Proofs.History.Stored

/-!
Jobs that succeed.

A job gives an answer and leaves a machine, or it fails. What a job gives goes by its steps, so each
of them has its own lemma, and a job is taken apart and put together by rewriting with these.

* `Job.Gives` says that a job succeeds, with what it gives and leaves.
* `Context.Ready`: the directories of the workspaces and of the history are there, and the history
  keeps a table. So it is once the workspaces are open (`gives_openWorkspaces`), and where it is so
  they can be opened (`Ready.gives_openWorkspaces`).
* `gives_withWorkspaces` and `gives_decide`, the two parts of a check, make up `gives_runCheck`.
-/

namespace TreeDigest

/-- A check that says anything is about an accepted identity. -/
lemma Execution.accepted_of_check {w : Workspaces} {identity : String} {input : Option Digest}
    {decision : Decision} (hcheck : Execution.check w identity input = .ok decision) :
    Identity.validate identity = .ok () := by
  cases hname : Identity.validate identity with
  | ok u => rfl
  | error e => simp [Execution.check, hname, bind, Except.bind] at hcheck

namespace CommandLine

namespace Job

variable {α β : Type} {h h' : Host} {job : Job α} {a b : α}

/-- What a job comes to on a machine: its answer or a failure, and what it leaves. -/
def outcome (job : Job α) (h : Host) : Except Failure α × Host := job.run h

/-- The job succeeds, gives an answer and leaves a machine. -/
def Gives (job : Job α) (h : Host) (a : α) (h' : Host) : Prop := job.outcome h = (.ok a, h')

lemma gives_pure : (pure a : Job α).Gives h b h' ↔ a = b ∧ h = h' := by
  change (Except.ok a, h) = (Except.ok b, h') ↔ _
  rw [Prod.mk.injEq, Except.ok.injEq]

lemma gives_get {m : Host} : (get : Job Host).Gives h m h' ↔ h = m ∧ h = h' := by
  change (Except.ok h, h) = (Except.ok m, h') ↔ _
  rw [Prod.mk.injEq, Except.ok.injEq]

lemma gives_set {m : Host} {u : PUnit} : (set m : Job PUnit).Gives h u h' ↔ m = h' := by
  change (Except.ok PUnit.unit, m) = (Except.ok u, h') ↔ _
  simp

lemma not_gives_throw {e : Failure} : ¬ (throw e : Job α).Gives h a h' := by
  intro hthrow
  cases (Prod.mk.inj hthrow).1

/-- A job in two parts stops after the first one if it fails. -/
lemma outcome_bind {rest : α → Job β} : (job >>= rest).outcome h = match job.outcome h with
    | (.ok a, m) => (rest a).outcome m
    | (.error e, m) => (.error e, m) := by
  simp only [outcome, bind, ExceptT.bind, ExceptT.run, ExceptT.mk, StateT.bind]
  rcases job h with ⟨_ | _, _⟩ <;> rfl

/-- **A job in two parts** gives what the second part makes of what the first one gives. -/
lemma gives_bind {rest : α → Job β} {b : β} :
    (job >>= rest).Gives h b h' ↔ ∃ a m, job.Gives h a m ∧ (rest a).Gives m b h' := by
  simp only [Gives, outcome_bind]
  rcases job.outcome h with ⟨e | a, m⟩ <;> simp

lemma gives_storage {x : Except StorageError α} :
    (storage x).Gives h a h' ↔ x = .ok a ∧ h = h' := by
  cases x with
  | ok a => simp [storage, gives_pure]
  | error e => simp [storage, not_gives_throw]

lemma gives_makeDirectories {p : Path} {u : Unit} : (makeDirectories p).Gives h u h' ↔
    (h.files.createDirectories p).result = .ok ()
      ∧ h.withFiles (h.files.createDirectories p).files = h' := by
  simp only [makeDirectories, gives_bind, gives_get, gives_set, Host.makeDirectories]
  cases hmade : (h.files.createDirectories p).result with
  | ok u => simp [hmade, gives_pure]
  | error e => simp [hmade, not_gives_throw]

lemma gives_change {op : FileSystem → Except IoError FileSystem} {u : Unit} :
    (change op).Gives h u h' ↔ ∃ files, op h.files = .ok files ∧ h.withFiles files = h' := by
  simp only [change, gives_bind, gives_get, Host.change]
  cases hop : op h.files with
  | ok files => simp [hop, Except.map, gives_set]
  | error e => simp [hop, Except.map, not_gives_throw]

/-- Makes the directory above a path. -/
def makeParent (p : Path) : Job Unit :=
  match p.parent? with
  | some parent => makeDirectories parent
  | none => pure ()

/-- A job gives what it is seen to come to. -/
lemma gives_of_toOption (ha : (job.outcome h).1.toOption = some a) : job.Gives h a (job.outcome h).2 := by
  rw [Gives]
  rcases hjob : job.outcome h with ⟨e | b, m⟩
  · simp [hjob, Except.toOption] at ha
  · obtain rfl : b = a := by simpa [hjob, Except.toOption] using ha
    rfl

end Job

namespace Context

open Job

variable {c : Context} {h h' : Host} {files files' : FileSystem} {D : Path} {t t' : HistoryTable}
  {w : Workspaces}

/-! ### Opening -/

/-- **What a context is settled from**: the workspace is there, its settings are loaded and have no
problems, and they lead to places. -/
lemma open_ok_iff {workspace : Path} {config : Option Path} :
    Context.open h workspace config = .ok c ↔ h.files.pathExists workspace = true
      ∧ ∃ s places, loadSettings h workspace config = .ok s ∧ s.problems = []
        ∧ s.storage.places h workspace = .ok places ∧ ⟨workspace, config, s, places⟩ = c := by
  rw [Context.open]
  cases hthere : h.files.pathExists workspace with
  | false => simp [throw, throwThe, MonadExceptOf.throw, bind, Except.bind]
  | true =>
      cases hs : loadSettings h workspace config with
      | error e => simp [Except.mapError, bind, Except.bind]
      | ok s =>
          by_cases hproblems : s.problems = []
          swap
          · simp [hproblems, throw, throwThe, MonadExceptOf.throw, Except.mapError, bind,
              Except.bind]
          cases hp : s.storage.places h workspace with
          | error e => simp [hproblems, hp, Except.mapError, bind, Except.bind]
          | ok places =>
              simp [hproblems, hp, Except.mapError, bind, Except.bind, pure, Except.pure]

/-! ### The workspaces and the history -/

/-- The directories of the workspaces and of the history are there, and the history keeps a
table. -/
structure Ready (c : Context) (files : FileSystem) (D : Path) (t : HistoryTable) : Prop where
  workspaces : c.places.workspaces.bytes = [] ∨ files.isDirectory c.places.workspaces = true
  above : ∀ parent, c.places.history.parent? = some parent →
    parent.bytes = [] ∨ files.isDirectory parent = true
  history : c.places.history.bytes = [] ∨ files.isDirectory c.places.history = true
  directory : files.canonicalize c.places.history = .ok D
  keeps : Database.Keeps files D t

/-- What is ready stays so, with another table that is kept by then. -/
lemma Ready.of_grows (hready : c.Ready files D t) (hgrows : files.Grows files')
    (hkeeps : Database.Keeps files' D t') : c.Ready files' D t' where
  workspaces := hready.workspaces.imp_right (FileSystem.isDirectory_of_grows hgrows)
  above parent hparent := (hready.above parent hparent).imp_right
    (FileSystem.isDirectory_of_grows hgrows)
  history := hready.history.imp_right (FileSystem.isDirectory_of_grows hgrows)
  directory := FileSystem.canonicalize_of_grows hgrows hready.directory
  keeps := hkeeps

/-- What is ready stays so when a record is stored. -/
lemma Ready.store (hfs : h.files.root.Distinct) (hready : c.Ready h.files D t) {identity : String}
    {r : Record} (hkey : (Database.key identity).length < 2 ^ 64)
    (hr : r.recordedAt.isValid = true) :
    ∃ files, (Database.store ⟨some D, t⟩ identity r).save h = h.withFiles files
      ∧ h.files.Written (·.AtOrBelow D) files
      ∧ c.Ready files D (t.put (Database.key identity) r.encode) := by
  obtain ⟨files, hsave, hputs, hkeeps⟩ := hready.keeps.save hfs
    (hready.keeps.storable.put hkey (Record.length_encode_lt hr))
  exact ⟨files, hsave, .put .nothing (Database.fileIn_atOrBelow D) hputs,
    hready.of_grows hputs.grows hkeeps⟩

/-- Makes the directory above that of the history. -/
def makeAbove (c : Context) : Job Unit :=
  match c.places.history.parent? with
  | some parent => makeDirectories parent
  | none => pure ()

/-- Opens the history, whose directory stands where it is to be made. -/
def openHistory (c : Context) : Job Workspaces := do
  let (opened, h) := Database.openAt (← get) c.places.history
  set h
  match opened with
  | .ok history => return .new c.places.workspaces history
  | .error e => throw (.storage (.history e))

lemma gives_openHistory_iff : c.openHistory.Gives h w h' ↔ ∃ d,
    Database.openAt h c.places.history = (.ok d, h') ∧ .new c.places.workspaces d = w := by
  simp only [openHistory, gives_bind, gives_get, gives_set]
  rcases hd : Database.openAt h c.places.history with ⟨e | d, n⟩
  · simp [hd, not_gives_throw]
  · simp [hd, gives_pure, and_comm]

/-- The workspaces are opened in three steps: two rows of directories are made, and the history is
opened. -/
lemma openWorkspaces_eq :
    c.openWorkspaces = makeDirectories c.places.workspaces >>= fun _ =>
      c.makeAbove >>= fun _ => c.openHistory := by
  rw [openWorkspaces, makeAbove]
  cases c.places.history.parent? <;> rfl

lemma gives_openWorkspaces_iff : c.openWorkspaces.Gives h w h' ↔ ∃ m m' d,
    (makeDirectories c.places.workspaces).Gives h () m ∧ c.makeAbove.Gives m () m'
      ∧ Database.openAt m' c.places.history = (.ok d, h')
      ∧ .new c.places.workspaces d = w := by
  simp only [openWorkspaces_eq, gives_bind, gives_openHistory_iff]
  constructor
  · rintro ⟨⟨⟩, m, hmade, ⟨⟩, m', habove, d, hopen⟩
    exact ⟨m, m', d, hmade, habove, hopen⟩
  · rintro ⟨m, m', d, hmade, habove, hopen⟩
    exact ⟨(), m, hmade, (), m', habove, d, hopen⟩

/-- Directories that are made are there afterwards. -/
lemma grows_of_gives_makeDirectories {p : Path} (hfs : h.files.root.Distinct)
    (hmade : (makeDirectories p).Gives h () h') : h.files.Grows h'.files
      ∧ h.files.Written p.OnWay h'.files ∧ (p.bytes = [] ∨ h'.files.isDirectory p = true)
      ∧ h' = h.withFiles h'.files := by
  obtain ⟨hresult, rfl⟩ := gives_makeDirectories.mp hmade
  obtain ⟨hgrows, hthere, hwritten⟩ := FileSystem.createDirectories_spec hfs p
  exact ⟨hgrows, hwritten, hthere hresult, rfl⟩

/-- Directories that are there are not made again. -/
lemma gives_makeDirectories_of_isDirectory {p : Path}
    (hp : p.bytes = [] ∨ h.files.isDirectory p = true) : (makeDirectories p).Gives h () h := by
  rw [gives_makeDirectories, FileSystem.createDirectories_of_isDirectory hp]
  exact ⟨rfl, rfl⟩

/-- The directory above a path is there once it was made, if there is one. -/
lemma grows_of_gives_makeParent {p : Path} (hfs : h.files.root.Distinct)
    (hmade : (makeParent p).Gives h () h') : h.files.Grows h'.files
      ∧ h.files.Written p.OnWay h'.files
      ∧ (∀ parent, p.parent? = some parent → parent.bytes = [] ∨ h'.files.isDirectory parent = true)
      ∧ h' = h.withFiles h'.files := by
  rw [makeParent] at hmade
  cases hparent : p.parent? with
  | none =>
      rw [hparent] at hmade
      obtain ⟨-, rfl⟩ := gives_pure.mp hmade
      exact ⟨.refl hfs, .nothing, nofun, rfl⟩
  | some parent =>
      rw [hparent] at hmade
      obtain ⟨hgrows, hwritten, hthere, hfiles⟩ := grows_of_gives_makeDirectories hfs hmade
      refine ⟨hgrows, hwritten.mono fun a ha => .above hparent ha, ?_, hfiles⟩
      rintro _ ⟨⟩
      exact hthere

lemma gives_makeParent_of_isDirectory {p : Path}
    (hp : ∀ parent, p.parent? = some parent → parent.bytes = [] ∨ h.files.isDirectory parent = true) :
    (makeParent p).Gives h () h := by
  rw [makeParent]
  cases hparent : p.parent? with
  | none => exact gives_pure.mpr ⟨rfl, rfl⟩
  | some parent => exact gives_makeDirectories_of_isDirectory (hp parent hparent)

/-- The paths on the way to the directories of the storage. -/
inductive WayToStorage (c : Context) : Path → Prop where
  | workspaces {a : Path} : c.places.workspaces.OnWay a → WayToStorage c a
  | history {a : Path} : c.places.history.OnWay a → WayToStorage c a

/-- The paths at which storage is made or written: those on the way to the directories, and all that
is at or below the directory of the history. -/
inductive Stores (c : Context) (D : Path) : Path → Prop where
  | way {a : Path} : c.WayToStorage a → Stores c D a
  | within {a : Path} : a.AtOrBelow D → Stores c D a

/-- **What open workspaces are**: everything is ready, the history was free and is held now, and
nothing but the files has changed on the machine. -/
theorem gives_openWorkspaces (hfs : h.files.root.Distinct) (hopen : c.openWorkspaces.Gives h w h') :
    ∃ D t, D ∉ h.held ∧ w = .new c.places.workspaces ⟨some D, t⟩ ∧ h.files.Grows h'.files
      ∧ h.files.Written (c.Stores D) h'.files ∧ c.Ready h'.files D t
      ∧ h' = { h with files := h'.files, held := D :: h.held } := by
  obtain ⟨m, m', d, hmade, habove, hopened, rfl⟩ := gives_openWorkspaces_iff.mp hopen
  obtain ⟨hgrows, hwritten, hworkspaces, hm⟩ := grows_of_gives_makeDirectories hfs hmade
  obtain ⟨hgrows', hwritten', hparent, hm'⟩ := grows_of_gives_makeParent hgrows.distinct habove
  obtain ⟨D, t, hfree, rfl, hgrows'', hwritten'', hhistory, hD, hkeeps, hh'⟩ :=
    Database.openAt_ok hgrows'.distinct hopened
  have hlater := hgrows'.trans hgrows''
  have hstores : h.files.Written (c.Stores D) h'.files := by
    refine ((hwritten.mono fun a ha => .way (.workspaces ha)).trans
      (hwritten'.mono fun a ha => .way (.history ha))).trans (hwritten''.mono fun a ha => ?_)
    rcases ha with hway | rfl
    · exact .way (.history hway)
    · exact .within (Database.fileIn_atOrBelow D)
  rw [hm', hm] at hfree hh'
  refine ⟨D, t, hfree, rfl, hgrows.trans hlater, hstores, ⟨?_, ?_, hhistory, hD, hkeeps⟩, hh'⟩
  · exact hworkspaces.imp_right (FileSystem.isDirectory_of_grows hlater)
  · exact fun parent h => (hparent parent h).imp_right (FileSystem.isDirectory_of_grows hgrows'')

/-- **Where everything is ready the workspaces can be opened.** The history has the table that it
keeps, and nothing is written but at or below its directory. -/
theorem Ready.gives_openWorkspaces (hfs : h.files.root.Distinct) (hready : c.Ready h.files D t)
    (hfree : D ∉ h.held) : ∃ files, c.openWorkspaces.Gives h (.new c.places.workspaces ⟨some D, t⟩)
        { h with files := files, held := D :: h.held }
      ∧ h.files.Written (·.AtOrBelow D) files ∧ c.Ready files D t := by
  obtain ⟨files, hopen, hputs, hkeeps⟩ :=
    Database.openAt_of_keeps hfs hready.history hready.directory hfree hready.keeps
  have habove : c.makeAbove.Gives h () h := gives_makeParent_of_isDirectory hready.above
  exact ⟨files, gives_openWorkspaces_iff.mpr ⟨h, h, ⟨some D, t⟩,
    gives_makeDirectories_of_isDirectory hready.workspaces, habove, hopen, rfl⟩,
    .put .nothing (Database.fileIn_atOrBelow D) hputs, hready.of_grows hputs.grows hkeeps⟩

/-! ### Checks -/

/-- The history is let go of after the work, however that went. -/
lemma outcome_withWorkspaces {α : Type} {work : Workspaces → Job α} :
    (c.withWorkspaces work).outcome h = match c.openWorkspaces.outcome h with
      | (.ok w, m) => (((work w).outcome m).1, w.history.close ((work w).outcome m).2)
      | (.error e, m) => (.error e, m) := by
  rw [withWorkspaces, outcome_bind]
  rcases c.openWorkspaces.outcome h with ⟨e | w, m⟩
  · rfl
  simp only [outcome, bind, ExceptT.bind, ExceptT.run, ExceptT.mk, StateT.bind, tryCatch,
    tryCatchThe, MonadExceptOf.tryCatch, ExceptT.tryCatch]
  rcases (work w) m with ⟨e | b, m'⟩ <;> rfl

/-- **Work on the workspaces** is done on open ones, and the history is let go of after it. -/
lemma gives_withWorkspaces {α : Type} {work : Workspaces → Job α} {a : α} :
    (c.withWorkspaces work).Gives h a h' ↔ ∃ w m m', c.openWorkspaces.Gives h w m
      ∧ (work w).Gives m a m' ∧ w.history.close m' = h' := by
  simp only [Gives, outcome_withWorkspaces]
  rcases c.openWorkspaces.outcome h with ⟨e | w, m⟩
  · simp
  · rcases hwork : (work w).outcome m with ⟨e | b, m'⟩ <;> simp [hwork]

/-- **What a check says, and records if that is asked for.** -/
lemma gives_decide {request : CheckRequest} {input : Option Digest} {decision : Decision}
    {recorded : Option Record} : (decide request input w).Gives h (decision, recorded) h' ↔
      Execution.check w request.identity input = .ok decision
        ∧ if request.record then
            recorded = some ⟨input, h.now, true⟩
              ∧ h' = (w.history.store request.identity ⟨input, h.now, true⟩).save h
          else recorded = none ∧ h' = h := by
  rw [decide, gives_bind]
  cases hvalid : Identity.validate request.identity with
  | error e =>
      have hcheck : Execution.check w request.identity input = .error e := by
        rw [Execution.check, hvalid]
        rfl
      simp [gives_storage, hcheck]
  | ok u =>
      have hrecord : ∀ m, Execution.record w m request.identity input
          = .ok (⟨input, m.now, true⟩,
            Execution.remember w m request.identity ⟨input, m.now, true⟩) := by
        intro m
        rw [Execution.record, hvalid]
        rfl
      simp only [gives_storage]
      cases request.record with
      | false =>
          simp only [Bool.false_eq_true, if_false, gives_pure, Prod.mk.injEq]
          constructor
          · rintro ⟨d, _, ⟨hcheck, rfl⟩, ⟨rfl, rfl⟩, rfl⟩
            exact ⟨hcheck, rfl, rfl⟩
          · rintro ⟨hcheck, rfl, rfl⟩
            exact ⟨decision, _, ⟨hcheck, rfl⟩, ⟨rfl, rfl⟩, rfl⟩
      | true =>
          simp only [if_true, gives_bind, gives_get, gives_storage, gives_set, gives_pure, hrecord,
            Prod.mk.injEq, Execution.remember]
          constructor
          · rintro ⟨d, _, ⟨hcheck, rfl⟩, _, _, ⟨rfl, rfl⟩, _, _, ⟨⟨⟩, rfl⟩, _, _, rfl, ⟨rfl, rfl⟩, rfl⟩
            exact ⟨hcheck, rfl, rfl⟩
          · rintro ⟨hcheck, rfl, rfl⟩
            exact ⟨decision, _, ⟨hcheck, rfl⟩, _, _, ⟨rfl, rfl⟩, _, _, ⟨rfl, rfl⟩, (),
              _, rfl, ⟨rfl, rfl⟩, rfl⟩

/-- How the answer to a check is written. -/
def checkReport (request : CheckRequest) (decision : Decision) (recorded : Option Record) : String :=
  if request.format = jsonWord then Report.decisionJson request.identity decision recorded
  else Report.decisionText request.identity decision recorded

/-- The digest of the tree that a check is about, if there is any tree. -/
def inputOf (c : Context) (files : FileSystem) (request : CheckRequest) :
    Except StorageError (Option Digest) :=
  (scan c.settings.scan files (c.target request.path)).map fun o => o.snapshot.map Snapshot.digest

/-- **A whole check**: the tree is scanned before the workspaces are opened. -/
lemma gives_runCheck {request : CheckRequest} {answer : String} :
    (c.runCheck request).Gives h answer h' ↔ ∃ input decision recorded,
      c.inputOf h.files request = .ok input
        ∧ (c.withWorkspaces (decide request input)).Gives h (decision, recorded) h'
        ∧ checkReport request decision recorded = answer := by
  simp only [runCheck, gives_bind, gives_get, gives_storage, gives_pure, Prod.exists]
  constructor
  · rintro ⟨_, _, ⟨rfl, rfl⟩, o, _, ⟨hscan, rfl⟩, decision, recorded, _, hwork, hanswer, rfl⟩
    exact ⟨_, decision, recorded, by rw [inputOf, hscan]; rfl, hwork, hanswer⟩
  · rintro ⟨input, decision, recorded, hinput, hwork, hanswer⟩
    rw [inputOf] at hinput
    cases hscan : scan c.settings.scan h.files (c.target request.path) with
    | error e => simp [hscan, Except.map] at hinput
    | ok o =>
        obtain rfl : o.snapshot.map Snapshot.digest = input := by
          simpa [hscan, Except.map] using hinput
        exact ⟨h, h, ⟨rfl, rfl⟩, o, h, ⟨hscan, rfl⟩, decision, recorded, h', hwork, hanswer, rfl⟩

end Context

/-- A machine with an empty workspace `/w`. -/
def emptyWorkspace (environment : List (String × String)) : Host :=
  ⟨⟨[(Text.utf8 "w", .directory [])], []⟩, environment, ⟨0, 0⟩, []⟩

end CommandLine

end TreeDigest

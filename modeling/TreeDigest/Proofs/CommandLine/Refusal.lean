import TreeDigest.Proofs.CommandLine.Jobs

/-!
Identities that are refused.

The history commands look at the identity first, so one that is refused leaves the machine as it
was. A check looks at it last: the tree has been scanned by then and the storage has been opened,
which makes what is missing of it.

* `Job.Fails` says that a job fails, with its failure and what it leaves.
* `grownAt_of_fails_openWorkspaces`: storage that cannot be opened may have been made in part.
* `CheckRefused` says what a check comes to. It never succeeds, but where the tree can be scanned
  and the storage be opened, the storage is there afterwards, whether or not it was before.
* `Ready.fails_runCheck`: storage that was there keeps what it kept when it is opened and let go of.
* `run_refused` puts the three commands together.
-/

namespace TreeDigest

lemma Identity.validate_of_isRefused {identity : String} (hname : isRefused identity = true) :
    validate identity = .error (.invalidIdentity identity) := by
  rw [validate, if_pos hname]

/-- A database that cannot be opened may have left directories on the way to its own. -/
lemma Database.openAt_error {h h' : Host} {p : Path} {e : HistoryError}
    (hopen : openAt h p = (.error e, h')) : h' = h.withFiles (h.files.createDirectories p).files := by
  rw [openAt, Host.makeDirectories] at hopen
  cases hmade : (h.files.createDirectories p).result with
  | error e =>
      rw [hmade] at hopen
      exact (Prod.mk.inj hopen).2.symm
  | ok u =>
      simp only [hmade] at hopen
      cases hin : openIn (h.withFiles (h.files.createDirectories p).files) p with
      | error e =>
          rw [hin] at hopen
          exact (Prod.mk.inj hopen).2.symm
      | ok opened => simp [hin] at hopen

namespace CommandLine

namespace Job

variable {α β : Type} {h h' : Host} {job : Job α} {a : α} {e : Failure}

/-- The job fails and leaves a machine. -/
def Fails (job : Job α) (h : Host) (e : Failure) (h' : Host) : Prop :=
  job.outcome h = (.error e, h')

variable (job h) in
/-- A job succeeds or fails. -/
lemma gives_or_fails : (∃ a h', job.Gives h a h') ∨ ∃ e h', job.Fails h e h' := by
  simp only [Gives, Fails]
  rcases job.outcome h with ⟨e | a, m⟩
  · exact .inr ⟨e, m, rfl⟩
  · exact .inl ⟨a, m, rfl⟩

lemma not_fails_pure : ¬ (pure a : Job α).Fails h e h' := by
  intro hpure
  cases (Prod.mk.inj hpure).1

lemma not_fails_get : ¬ (get : Job Host).Fails h e h' := by
  intro hget
  cases (Prod.mk.inj hget).1

lemma not_fails_set {m : Host} : ¬ (set m : Job PUnit).Fails h e h' := by
  intro hset
  cases (Prod.mk.inj hset).1

lemma fails_throw {f : Failure} : (throw f : Job α).Fails h e h' ↔ f = e ∧ h = h' := by
  change ((Except.error f : Except Failure α), h) = (Except.error e, h') ↔ _
  rw [Prod.mk.injEq, Except.error.injEq]

/-- **A job in two parts** fails in one of them. -/
lemma fails_bind {rest : α → Job β} : (job >>= rest).Fails h e h' ↔
    job.Fails h e h' ∨ ∃ a m, job.Gives h a m ∧ (rest a).Fails m e h' := by
  simp only [Fails, Gives, outcome_bind]
  rcases job.outcome h with ⟨f | a, m⟩ <;> simp

lemma fails_storage {x : Except StorageError α} :
    (storage x).Fails h e h' ↔ ∃ s, x = .error s ∧ .storage s = e ∧ h = h' := by
  cases x with
  | ok a => simp [storage, not_fails_pure]
  | error s => simp [storage, fails_throw]

/-- Directories that cannot be made may have been made in part. -/
lemma left_of_fails_makeDirectories {p : Path} (hmade : (makeDirectories p).Fails h e h') :
    h' = h.withFiles (h.files.createDirectories p).files := by
  simp only [makeDirectories, fails_bind, gives_get, gives_set, not_fails_get, not_fails_set,
    Host.makeDirectories, false_or] at hmade
  obtain ⟨_, _, ⟨rfl, rfl⟩, _, _, rfl, hmade⟩ := hmade
  cases hresult : (h.files.createDirectories p).result with
  | ok u => simp [hresult, not_fails_pure] at hmade
  | error f =>
      rw [hresult] at hmade
      exact (fails_throw.mp hmade).2.symm

end Job

namespace Context

open Job

variable {c : Context} {h h' : Host} {D : Path} {t : HistoryTable} {w : Workspaces} {e : Failure}

/-! ### Storage that cannot be opened -/

/-- Nothing but the files of a machine has changed, and they only by what was put where some paths
lead to. -/
structure GrownAt (paths : Path → Prop) (h h' : Host) : Prop where
  grows : h.files.Grows h'.files
  written : h.files.Written paths h'.files
  host : h' = h.withFiles h'.files

lemma GrownAt.trans {paths : Path → Prop} {m : Host} (hgrown : GrownAt paths h m)
    (hgrown' : GrownAt paths m h') : GrownAt paths h h' where
  grows := hgrown.grows.trans hgrown'.grows
  written := hgrown.written.trans hgrown'.written
  host := by
    have hhost := hgrown'.host
    rw [hgrown.host] at hhost
    exact hhost

/-- Making directories leaves nothing else, be they made or not. -/
lemma grownAt_createDirectories {paths : Path → Prop} {p : Path} (hfs : h.files.root.Distinct)
    (hpaths : ∀ a, p.OnWay a → paths a) :
    GrownAt paths h (h.withFiles (h.files.createDirectories p).files) := by
  obtain ⟨hgrows, -, hwritten⟩ := FileSystem.createDirectories_spec hfs p
  exact ⟨hgrows, hwritten.mono hpaths, rfl⟩

lemma grownAt_of_fails_makeAbove (hfs : h.files.root.Distinct) (hmade : c.makeAbove.Fails h e h') :
    GrownAt c.WayToStorage h h' := by
  rw [makeAbove] at hmade
  cases hparent : c.places.history.parent? with
  | none => simp [hparent, not_fails_pure] at hmade
  | some parent =>
      rw [hparent] at hmade
      rw [left_of_fails_makeDirectories hmade]
      exact grownAt_createDirectories hfs fun a ha => .history (.above hparent ha)

lemma grownAt_of_fails_openHistory (hfs : h.files.root.Distinct)
    (hopen : c.openHistory.Fails h e h') : GrownAt c.WayToStorage h h' := by
  simp only [openHistory, fails_bind, gives_get, gives_set, not_fails_get, not_fails_set,
    false_or] at hopen
  obtain ⟨_, _, ⟨rfl, rfl⟩, _, m, rfl, hopen⟩ := hopen
  rcases hat : Database.openAt h c.places.history with ⟨f | d, m⟩
  · rw [hat] at hopen
    obtain ⟨-, rfl⟩ := fails_throw.mp hopen
    rw [Database.openAt_error hat]
    exact grownAt_createDirectories hfs fun a => .history
  · simp [hat, not_fails_pure] at hopen

/-- **Storage that cannot be opened** may have been made in part, and nothing else is touched. -/
lemma grownAt_of_fails_openWorkspaces (hfs : h.files.root.Distinct)
    (hopen : c.openWorkspaces.Fails h e h') : GrownAt c.WayToStorage h h' := by
  rw [openWorkspaces_eq, fails_bind] at hopen
  rcases hopen with hmade | ⟨⟨⟩, m, hmade, hopen⟩
  · rw [left_of_fails_makeDirectories hmade]
    exact grownAt_createDirectories hfs fun a => .workspaces
  obtain ⟨hgrows, hwritten, -, hm⟩ := grows_of_gives_makeDirectories hfs hmade
  have hfirst : GrownAt c.WayToStorage h m := ⟨hgrows, hwritten.mono fun a => .workspaces, hm⟩
  rw [fails_bind] at hopen
  rcases hopen with habove | ⟨⟨⟩, m', habove, hopen⟩
  · exact hfirst.trans (grownAt_of_fails_makeAbove hgrows.distinct habove)
  obtain ⟨hgrows', hwritten', -, hm'⟩ := grows_of_gives_makeParent hgrows.distinct habove
  have hsecond : GrownAt c.WayToStorage m m' := ⟨hgrows', hwritten'.mono fun a => .history, hm'⟩
  exact (hfirst.trans hsecond).trans (grownAt_of_fails_openHistory hgrows'.distinct hopen)

/-! ### Commands -/

/-- Work on the workspaces fails if they cannot be opened, or once they are open. -/
lemma fails_withWorkspaces {α : Type} {work : Workspaces → Job α} :
    (c.withWorkspaces work).Fails h e h' ↔ c.openWorkspaces.Fails h e h'
      ∨ ∃ w m m', c.openWorkspaces.Gives h w m ∧ (work w).Fails m e m'
        ∧ w.history.close m' = h' := by
  simp only [Fails, Gives, outcome_withWorkspaces]
  rcases c.openWorkspaces.outcome h with ⟨f | w, m⟩
  · simp
  · rcases hwork : (work w).outcome m with ⟨f | a, m'⟩ <;> simp [hwork]

/-- A check fails at the scan, or at the work that follows it. -/
lemma fails_runCheck {request : CheckRequest} : (c.runCheck request).Fails h e h' ↔
    (∃ s, c.inputOf h.files request = .error s ∧ .storage s = e ∧ h = h')
      ∨ ∃ input, c.inputOf h.files request = .ok input
        ∧ (c.withWorkspaces (decide request input)).Fails h e h' := by
  simp only [runCheck, fails_bind, gives_get, gives_storage, fails_storage,
    not_fails_get, not_fails_pure, false_or, inputOf]
  cases hscan : scan c.settings.scan h.files (c.target request.path) with
  | error s => simp [hscan, Except.map]
  | ok o => simp [hscan, Except.map]

/-- A refused identity is not decided on, and no record is made for it. -/
lemma fails_decide {request : CheckRequest} (hname : Identity.isRefused request.identity = true)
    (input : Option Digest) :
    (decide request input w).Fails h (.storage (.invalidIdentity request.identity)) h := by
  have hcheck : Execution.check w request.identity input
      = .error (.invalidIdentity request.identity) := by
    rw [Execution.check, Identity.validate_of_isRefused hname]
    rfl
  exact fails_bind.mpr (.inl (fails_storage.mpr ⟨_, hcheck, rfl, rfl⟩))

/-- What a check of a refused identity comes to. -/
inductive CheckRefused (c : Context) (request : CheckRequest) (h : Host) : Failure → Host → Prop where
  | unscanned {s : StorageError} : c.inputOf h.files request = .error s →
      CheckRefused c request h (.storage s) h
  | unopened {input : Option Digest} {e : Failure} {h' : Host} :
      c.inputOf h.files request = .ok input → c.openWorkspaces.Fails h e h' →
      GrownAt c.WayToStorage h h' → CheckRefused c request h e h'
  | opened {input : Option Digest} {w : Workspaces} {m h' : Host} {D : Path} {t : HistoryTable} :
      c.inputOf h.files request = .ok input → c.openWorkspaces.Gives h w m →
      GrownAt (c.Stores D) h h' → c.Ready h'.files D t →
      CheckRefused c request h (.storage (.invalidIdentity request.identity)) h'

/-- A check of a refused identity lets go of the storage that it has opened. -/
lemma fails_runCheck_of_gives {request : CheckRequest} {input : Option Digest}
    (hname : Identity.isRefused request.identity = true)
    (hinput : c.inputOf h.files request = .ok input) (hopen : c.openWorkspaces.Gives h w h') :
    (c.runCheck request).Fails h (.storage (.invalidIdentity request.identity))
      (w.history.close h') :=
  fails_runCheck.mpr (.inr ⟨input, hinput,
    fails_withWorkspaces.mpr (.inr ⟨w, h', h', hopen, fails_decide hname input, rfl⟩)⟩)

/-- Letting go of the history leaves the files of the machine on which it was opened. -/
lemma close_opened (files : FileSystem) :
    Database.close ⟨some D, t⟩ { h with files := files, held := D :: h.held } = h.withFiles files := by
  simp [Database.close, Host.withFiles]

/-- **A check of a refused identity** fails. -/
theorem exists_checkRefused (hfs : h.files.root.Distinct) {request : CheckRequest}
    (hname : Identity.isRefused request.identity = true) :
    ∃ e h', (c.runCheck request).Fails h e h' ∧ c.CheckRefused request h e h' := by
  cases hinput : c.inputOf h.files request with
  | error s => exact ⟨_, h, fails_runCheck.mpr (.inl ⟨s, hinput, rfl, rfl⟩), .unscanned hinput⟩
  | ok input =>
      rcases gives_or_fails h c.openWorkspaces with ⟨w, m, hopen⟩ | ⟨e, h', hopen⟩
      · obtain ⟨D, t, -, hw, hgrows, hwritten, hready, hm⟩ := gives_openWorkspaces hfs hopen
        have hclosed : w.history.close m = h.withFiles m.files := by
          rw [hw, hm]
          exact close_opened m.files
        refine ⟨_, _, fails_runCheck_of_gives hname hinput hopen, ?_⟩
        rw [hclosed]
        exact .opened hinput hopen ⟨hgrows, hwritten, rfl⟩ hready
      · exact ⟨e, h', fails_runCheck.mpr (.inr ⟨input, hinput, fails_withWorkspaces.mpr (.inl hopen)⟩),
          .unopened hinput hopen (grownAt_of_fails_openWorkspaces hfs hopen)⟩

/-- **Storage that is there** keeps what it kept when a check of a refused identity has opened it:
nothing is written but at or below the directory of the history. -/
theorem Ready.fails_runCheck (hfs : h.files.root.Distinct) (hready : c.Ready h.files D t)
    (hfree : D ∉ h.held) {request : CheckRequest} {input : Option Digest}
    (hname : Identity.isRefused request.identity = true)
    (hinput : c.inputOf h.files request = .ok input) :
    ∃ files, (c.runCheck request).Fails h (.storage (.invalidIdentity request.identity))
        (h.withFiles files)
      ∧ h.files.Written (·.AtOrBelow D) files ∧ c.Ready files D t := by
  obtain ⟨files, hopen, hwritten, hready'⟩ := hready.gives_openWorkspaces hfs hfree
  have hfails := fails_runCheck_of_gives hname hinput hopen
  simp only [Workspaces.new, close_opened] at hfails
  exact ⟨files, hfails, hwritten, hready'⟩

/-- **Commands with a refused identity fail.** Those on the history leave the machine as it was. A
check fails as the scan or the opening of the storage does, if one of them fails, and with the
refusal otherwise. By then the storage has been made where it was missing. Where it was there, it has
been written to at or below the directory of the history only, what was there has been kept, and no
record has been added to it. -/
theorem run_refused {identity : String} (hname : Identity.isRefused identity = true) (c : Context)
    {h : Host} (hfs : h.files.root.Distinct) :
    (∀ format, (c.run (.showHistory identity format)).Fails h
        (.storage (.invalidIdentity identity)) h)
      ∧ (c.run (.clearHistory identity)).Fails h (.storage (.invalidIdentity identity)) h
      ∧ ∀ request : CheckRequest, request.identity = identity →
        (∃ e h', (c.run (.check request)).Fails h e h' ∧ c.CheckRefused request h e h')
          ∧ ∀ D t input, c.Ready h.files D t → D ∉ h.held →
            c.inputOf h.files request = .ok input →
            ∃ files, (c.run (.check request)).Fails h (.storage (.invalidIdentity identity))
                (h.withFiles files)
              ∧ h.files.Written (·.AtOrBelow D) files ∧ c.Ready files D t := by
  have hrefused : ∀ {α : Type} (rest : Unit → Job α),
      (storage (Identity.validate identity) >>= rest).Fails h
        (.storage (.invalidIdentity identity)) h := fun rest =>
    fails_bind.mpr (.inl (fails_storage.mpr
      ⟨_, Identity.validate_of_isRefused hname, rfl, rfl⟩))
  refine ⟨fun format => hrefused _, hrefused _, ?_⟩
  rintro request rfl
  exact ⟨exists_checkRefused hfs hname, fun D t input hready hfree hinput =>
    hready.fails_runCheck hfs hfree hname hinput⟩

/-- A context in the workspace `/w` whose storage is kept in the directories `/s` and `/t`. -/
def besideStorage : Context := ⟨.ofText "/w", none, .standard, ⟨.ofText "/s", .ofText "/t"⟩⟩

/-- A check that records, for an identity with a slash in it. -/
def slashedCheck : CheckRequest := ⟨none, "a/b", true, "text"⟩

set_option maxRecDepth 10000 in
/-- The first check with the identity `a/b` makes the storage, and the second one keeps it. -/
theorem run_refused_slashed : ∃ h' D files,
    (besideStorage.run (.check slashedCheck)).Fails (emptyWorkspace [])
        (.storage (.invalidIdentity "a/b")) h'
      ∧ (emptyWorkspace []).files.isDirectory (.ofText "/s") = false
      ∧ h'.files.isDirectory (.ofText "/s") = true
      ∧ (besideStorage.run (.check slashedCheck)).Fails h' (.storage (.invalidIdentity "a/b"))
        (h'.withFiles files)
      ∧ h'.files.canonicalize (.ofText "/t") = .ok D
      ∧ h'.files.Written (·.AtOrBelow D) files := by
  have hname : Identity.isRefused "a/b" = true := by decide
  have hfs : (emptyWorkspace []).files.root.Distinct := by
    refine .intro (by decide) fun name inner hmem => ?_
    obtain ⟨-, rfl⟩ : name = Text.utf8 "w" ∧ inner = [] := by simpa [emptyWorkspace] using hmem
    exact .intro (by decide) (by simp)
  obtain ⟨⟨e, h', hfails, hcheck⟩, -⟩ := (run_refused hname besideStorage hfs).2.2 slashedCheck rfl
  have hscanned : (besideStorage.inputOf (emptyWorkspace []).files slashedCheck).isOk = true
      ∧ (besideStorage.inputOf ((besideStorage.run (.check slashedCheck)).outcome
        (emptyWorkspace [])).2.files slashedCheck).isOk = true := by
    decide +kernel
  have hopened : (besideStorage.openWorkspaces.outcome (emptyWorkspace [])).1.isOk = true := by
    decide +kernel
  rw [hfails] at hscanned
  cases hcheck with
  | unscanned hinput => simp [hinput, Except.isOk, Except.toBool] at hscanned
  | unopened _ hopen => simp [show _ = _ from hopen, Except.isOk, Except.toBool] at hopened
  | @opened _ _ _ h' D t _ _ hgrown hready =>
      have hmade : h'.files.isDirectory (.ofText "/s") = true :=
        hready.workspaces.resolve_left (by decide)
      have hfree : D ∉ h'.held := by
        rw [hgrown.host]
        exact List.not_mem_nil
      cases hinput : besideStorage.inputOf h'.files slashedCheck with
      | error s => simp [hinput, Except.isOk, Except.toBool] at hscanned
      | ok input =>
          obtain ⟨files, hagain, hwritten, -⟩ :=
            ((run_refused hname besideStorage hgrown.grows.distinct).2.2 slashedCheck rfl).2 D t
              input hready hfree hinput
          exact ⟨h', D, files, hfails, by decide +kernel, hmade, hagain, hready.directory,
            hwritten⟩

end Context

end CommandLine

end TreeDigest

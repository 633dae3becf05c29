import TreeDigest.Proofs.CommandLine.Jobs
import TreeDigest.Proofs.Execution.Decisions
import TreeDigest.Proofs.FileSystem.Aside
import TreeDigest.Proofs.Path.Components
import TreeDigest.Proofs.Scan.Spared

/-!
A tree that was recorded is up to date.

A check that records its result makes the directories of the workspaces and of the history after it
has scanned the tree, and keeps the record there. A check of the same tree after it finds the
record, and scans the tree with the storage of the first check next to it or in it. It says that the
tree is up to date if the storage is kept aside of the tree, or if it spares what the scan looks at.

The history may keep more in its directory than the file of its table, and remove some of it again.
So whatever is at or below that directory counts as written.

* `gives_recording`: what a check that records leaves. Nothing is lost, everything is ready for the
  next one, and nothing was made or written but the storage.
* `Lasting` are the files that stay while the history writes to its directory.
* `StorageSpared` says that the storage spares what a scan looks at, whatever the history writes.
  So it does where no storage leads into the tree (`StorageAside.spared`).
* `Ready.gives_recheck`: what a check says goes by the record that is kept and the digest of the
  tree as it is then.
* `Lasting.open_eq` and `Lasting.inputOf_eq`: the same settings open the same context, and the tree
  is seen as at first.
* `upToDate_after_recording` puts the two checks together, and
  `storage_in_tree_is_scanned` shows what comes of storage that a scan does look at.
-/

namespace TreeDigest

/-! ### Places -/

section Places

variable {h h' : Host} {workspace : Path}

/-- A workspace with the same plain path has the same place among the data. -/
lemma Host.workspaceData_congr
    (hplain : h'.files.canonicalize workspace = h.files.canonicalize workspace)
    (henv : h'.environment = h.environment) :
    h'.workspaceData workspace = h.workspaceData workspace := by
  have hhome : h'.dataHome? = h.dataHome? := by
    simp only [Host.dataHome?, Host.environmentValue?, henv]
  rw [Host.workspaceData, Host.workspaceData, hhome, hplain]

/-- The same settings lead to the same places. -/
lemma StorageSettings.places_congr (s : StorageSettings)
    (hplain : h'.files.canonicalize workspace = h.files.canonicalize workspace)
    (henv : h'.environment = h.environment) : s.places h' workspace = s.places h workspace := by
  have hplace : ∀ setting standard name,
      place h' workspace setting standard name = place h workspace setting standard name := by
    intro setting standard name
    rw [place, place, Host.workspaceData_congr hplain henv]
  rw [StorageSettings.places, StorageSettings.places, hplace, hplace]

end Places

namespace CommandLine

open Job

namespace Context

variable {c : Context} {h h' : Host}

/-- **The same settings open the same context** where the workspace has the same plain path. -/
lemma open_congr {workspace : Path} {config : Option Path}
    (hthere : h'.files.pathExists workspace = true)
    (hplain : h'.files.canonicalize workspace = h.files.canonicalize workspace)
    (henv : h'.environment = h.environment)
    (hsettings : loadSettings h' workspace config = loadSettings h workspace config)
    (hopen : Context.open h workspace config = .ok c) :
    Context.open h' workspace config = .ok c := by
  obtain ⟨-, s, places, hs, hproblems, hplaces, hc⟩ := open_ok_iff.mp hopen
  exact open_ok_iff.mpr ⟨hthere, s, places, hsettings ▸ hs, hproblems,
    (s.storage.places_congr hplain henv).trans hplaces, hc⟩

/-! ### Recording and checking again -/

variable {request : CheckRequest} {answer : String} {D : Path} {t : HistoryTable}
  {input : Option Digest}

/-- **What a check that records leaves**: the files have grown, everything is ready, and the history
keeps the record. -/
lemma gives_recording (hfs : h.files.root.Distinct) (hnow : h.now.isValid = true)
    (hkey : (Database.key request.identity).length < 2 ^ 64)
    (hrecord : request.record = true) (hrun : (c.runCheck request).Gives h answer h') :
    ∃ input D t, c.inputOf h.files request = .ok input
      ∧ Identity.validate request.identity = .ok () ∧ D ∉ h.held ∧ h.files.Grows h'.files
      ∧ h.files.Written (c.Stores D) h'.files ∧ c.Ready h'.files D t
      ∧ Database.load ⟨some D, t⟩ request.identity = .ok (some ⟨input, h.now, true⟩)
      ∧ h' = h.withFiles h'.files := by
  obtain ⟨input, decision, recorded, hinput, hwork, -⟩ := gives_runCheck.mp hrun
  obtain ⟨w, m, m', hopen, hdecide, hclose⟩ := gives_withWorkspaces.mp hwork
  obtain ⟨D, t, hfree, rfl, hgrows, hwritten, hready, hm⟩ := gives_openWorkspaces hfs hopen
  obtain ⟨hcheck, hrest⟩ := gives_decide.mp hdecide
  rw [if_pos hrecord] at hrest
  -- Opening does not turn the clock, so what is recorded is recorded at the start.
  have hclock : m.now = h.now := by rw [hm]
  let r : Record := ⟨input, h.now, true⟩
  obtain ⟨files, hsave, hstored, hready'⟩ :=
    hready.store (r := r) hgrows.distinct hkey hnow
  have hleft : h' = h.withFiles files := by
    simp only [Workspaces.new, hclock] at hrest hclose
    rw [← hclose, hrest.2, hsave, hm]
    simp [Database.close, Host.withFiles]
  subst hleft
  have hload : (Database.store ⟨some D, t⟩ request.identity r).load request.identity
      = .ok (some r) := Database.load_store_self (r := r) hnow _ _
  exact ⟨input, D, _, hinput, Execution.accepted_of_check hcheck, hfree,
    hgrows.trans (hstored.grows hgrows.distinct), hwritten.trans (hstored.mono fun a => .within),
    hready', hload, rfl⟩

/-- **What a check says** goes by the record that is kept and the digest of the tree. -/
lemma Ready.gives_recheck (hfs : h.files.root.Distinct) (hready : c.Ready h.files D t)
    (hfree : D ∉ h.held) {previous : Option Record}
    (hname : Identity.validate request.identity = .ok ())
    (hload : Database.load ⟨some D, t⟩ request.identity = .ok previous)
    (hrecord : request.record = false) (hinput : c.inputOf h.files request = .ok input) :
    ∃ h', (c.runCheck request).Gives h (checkReport request (.of previous input) none) h' := by
  obtain ⟨files, hopen, -, -⟩ := hready.gives_openWorkspaces hfs hfree
  let m : Host := { h with files := files, held := D :: h.held }
  have hcheck : Execution.check (.new c.places.workspaces ⟨some D, t⟩) request.identity input
      = .ok (.of previous input) :=
    Execution.check_eq hname hload input
  have hdecide : (decide request input (.new c.places.workspaces ⟨some D, t⟩)).Gives m
      (.of previous input, none) m :=
    gives_decide.mpr ⟨hcheck, by simp [hrecord]⟩
  exact ⟨_, gives_runCheck.mpr ⟨input, _, _, hinput,
    gives_withWorkspaces.mpr ⟨_, _, _, hopen, hdecide, rfl⟩, rfl⟩⟩

/-- **A tree that is as it was recorded is up to date.** -/
lemma Ready.gives_upToDate {m : Host} {time : Instant} (hfs : m.files.root.Distinct)
    (hready : c.Ready m.files D t) (hfree : D ∉ m.held)
    (hname : Identity.validate request.identity = .ok ())
    (hload : Database.load ⟨some D, t⟩ request.identity = .ok (some ⟨input, time, true⟩))
    (hinput : c.inputOf m.files request = .ok input) :
    ∃ m', (c.runCheck { request with record := false }).Gives m
      (checkReport request (.upToDate ⟨input, time, true⟩) none) m' := by
  have hdecision : Decision.of (some ⟨input, time, true⟩) input
      = .upToDate ⟨input, time, true⟩ := by
    simp [Decision.of]
  have hagain : ∃ m', (c.runCheck { request with record := false }).Gives m
      (checkReport request (.of (some ⟨input, time, true⟩) input) none) m' :=
    hready.gives_recheck hfs hfree hname hload rfl hinput
  rwa [hdecision] at hagain

/-! ### Storage aside of the tree -/

/-- Files that last while storage is made, written and opened again. Those that do not last were at or
below the directory of the history. So is all that has come, gone or changed since the storage was
left, but the table is still kept then. -/
structure Lasting (c : Context) (D : Path) (lasting before left later : FileSystem) : Prop where
  wellFormed : lasting.WellFormed
  growsBefore : lasting.Grows before
  growsLater : lasting.Grows later
  besideBefore : lasting.SameBeside D before
  besideLater : left.SameBeside D later
  workspace : lasting.pathExists c.workspace = true
  ready : ∀ t, c.Ready left D t → c.Ready later D t

/-- The storage of a context is kept aside of a tree that is there, from which no links are followed:
the directory of the history is neither in the tree nor around it, nothing at or below it leads into
the tree, and what was made on the way to the storage does not lead there either. -/
structure StorageAside (c : Context) (D : Path) (lasting before left : FileSystem)
    (root : RootLocation) : Prop where
  unfollowed : c.settings.scan.followLinks = false
  there : lasting.pathExists root.walked = true
  apart : root.walked.Apart D
  way : ∀ a, c.WayToStorage a → before.isDirectory a = true
    ∨ ∀ b, left.canonicalize a = .ok b → ¬ b.LiesIn root.walked
  within : ∀ a b, a.AtOrBelow D → left.canonicalize a = .ok b → ¬ b.LiesIn root.walked

/-- The storage of a context spares what a scan looks at, wherever it is kept: it did at first, and it
does whatever comes to be at or below the directory of the history. -/
structure StorageSpared (c : Context) (D : Path) (lasting before left : FileSystem) (p : Path) :
    Prop where
  atFirst : c.settings.scan.SparedAt lasting before p
  afterwards : ∀ later, c.Lasting D lasting before left later →
    c.settings.scan.SparedAt lasting later p

variable {lasting before left later : FileSystem} {root : RootLocation}

/-- All files last when one more is put below the directory of the history, next to its table. -/
lemma lasting_of_puts (hbefore : before.WellFormed) (hgrows : before.Grows left)
    (hworkspace : before.pathExists c.workspace = true) {p q : Path} (hputs : left.Puts p later)
    (hq : later.canonicalize p = .ok q) (hin : q.LiesIn D)
    (hread : later.read (Database.fileIn D) = left.read (Database.fileIn D)) :
    c.Lasting D before before left later where
  wellFormed := hbefore
  growsBefore := .refl hbefore.distinct
  growsLater := hgrows.trans hputs.grows
  besideBefore := .refl D before
  besideLater := hputs.sameBeside hq hin
  workspace := hworkspace
  ready t hready := by
    obtain ⟨modified, hnode⟩ := hready.keeps.file
    obtain ⟨n, hnode', hn⟩ := FileSystem.node_of_grows hputs.grows hnode
    refine hready.of_grows hputs.grows ⟨hready.keeps.storable, ?_⟩
    rw [FileSystem.read, FileSystem.read, hnode, hnode'] at hread
    cases n with
    | file content modified' =>
        obtain rfl : content = t.encode := Except.ok.inj hread
        exact ⟨modified', hnode'⟩
    | directory | link | special => cases hn.kind_eq

/-- A root that is there has a place, and is walked along the plain path of it. -/
lemma exists_place_walked {fs : FileSystem} {p : Path} (hroot : RootLocation.resolve fs p = .ok root)
    (hthere : fs.pathExists root.walked = true) :
    ∃ a found n, fs.resolve true a = .ok found ∧ found.node? fs = some n
      ∧ root.walked = FileSystem.pathOf found.names := by
  obtain ⟨a, -, hwalked⟩ := Survey.walked_of_resolve hroot
  cases hq : fs.canonicalize a with
  | error e =>
      rw [hwalked, hq] at hthere
      simp [Except.toOption, FileSystem.pathExists, FileSystem.node_of_canonicalize_error hq,
        Except.isOk, Except.toBool] at hthere
  | ok q =>
      obtain rfl : root.walked = q := by rw [hwalked, hq]; rfl
      obtain ⟨found, n, hfound, hnode, hplain⟩ := FileSystem.canonicalize_eq_ok_iff.mp hq
      exact ⟨a, found, n, hfound, hnode, hplain⟩

/-- **Storage that is kept aside of a tree spares it.** -/
lemma StorageAside.spared (haside : c.StorageAside D lasting before left root)
    (hlasting : c.Lasting D lasting before left later) {p : Path}
    (hroot : RootLocation.resolve lasting p = .ok root)
    (hwritten : before.Written (c.Stores D) left) : c.StorageSpared D lasting before left p := by
  obtain ⟨a, found, n, hfound, hnode, hplain⟩ := exists_place_walked hroot haside.there
  have hapart : (FileSystem.pathOf found.names).Apart D := hplain ▸ haside.apart
  have hbefore : before.at? found.names = lasting.at? found.names :=
    hlasting.besideBefore _ hapart
  have hleft : left.at? found.names = before.at? found.names := by
    have hdistinct := hlasting.growsBefore.distinct
    refine hwritten.at?_eq hdistinct (.refl (hwritten.grows hdistinct).distinct) ?_
      fun b hb => ?_
    · rw [hbefore, FileSystem.at?_of_resolve hfound hnode]
      rfl
    have hout : (∀ q, left.canonicalize b = .ok q → ¬ q.LiesIn root.walked) →
        ∀ names, left.canonicalize b = .ok (FileSystem.pathOf names) →
          ¬ found.names <+: names := by
      rintro hout names hnames ⟨more, rfl⟩
      exact hout _ hnames (hplain ▸ Path.pathOf_append_liesIn found.names more)
    cases hb with
    | way hway => exact (haside.way b hway).imp_right hout
    | within hb => exact .inr (hout fun q hq => haside.within b q hb hq)
  have hspared : ∀ fs, lasting.Grows fs → fs.at? found.names = lasting.at? found.names →
      c.settings.scan.SparedAt lasting fs p := by
    intro fs hgrows hsame
    refine ScanOptions.sparedAt_of_unchanged hlasting.wellFormed hgrows haside.unfollowed
      fun root' hroot' follow => ?_
    obtain rfl : root = root' := Except.ok.inj (hroot.symm.trans hroot')
    rw [hplain]
    exact FileSystem.node_pathOf_of_at?_eq hlasting.wellFormed hgrows hfound hnode hsame follow
  exact ⟨hspared before hlasting.growsBefore hbefore, fun later hlasting => hspared later
    hlasting.growsLater ((hlasting.besideLater _ hapart).trans (hleft.trans hbefore))⟩

/-- A check looks at the tree as before, if what has come since spares what the scan looks at. -/
lemma inputOf_of_spared {fs fs' : FileSystem} (hfs : fs.WellFormed) (hgrows : fs.Grows fs')
    (hroot : RootLocation.resolve fs (c.target request.path) = .ok root)
    (hspared : c.settings.scan.SparedAt fs fs' (c.target request.path)) :
    c.inputOf fs' request = c.inputOf fs request := by
  have hsame := snapshot_of_spared _ hfs hgrows hroot hspared
  have hmap : ∀ x : Except StorageError ScanOutcome,
      x.map (fun o => o.snapshot.map Snapshot.digest)
        = (x.map (·.snapshot)).map (Option.map Snapshot.digest) := by
    intro x
    cases x <;> rfl
  rw [inputOf, inputOf, hmap, hsame, ← hmap]

/-- **A check looks at the tree as at first**, whatever the history has written, if the storage spares
the tree. -/
lemma Lasting.inputOf_eq (hlasting : c.Lasting D lasting before left later)
    (hroot : RootLocation.resolve lasting (c.target request.path) = .ok root)
    (hspared : c.StorageSpared D lasting before left (c.target request.path)) :
    c.inputOf later request = c.inputOf before request :=
  calc c.inputOf later request
      = c.inputOf lasting request :=
        inputOf_of_spared hlasting.wellFormed hlasting.growsLater hroot
          (hspared.afterwards later hlasting)
    _ = c.inputOf before request :=
        (inputOf_of_spared hlasting.wellFormed hlasting.growsBefore hroot hspared.atFirst).symm

/-- **The same settings open the same context** once the history has written, for its workspace
lasts. -/
lemma Lasting.open_eq {workspace : Path} {config : Option Path}
    (hlasting : c.Lasting D lasting h.files left h'.files)
    (henv : h'.environment = h.environment)
    (hsettings : loadSettings h' workspace config = loadSettings h workspace config)
    (hopen : Context.open h workspace config = .ok c) :
    Context.open h' workspace config = .ok c := by
  have hworkspace : c.workspace = workspace := by
    obtain ⟨-, s, places, -, -, -, rfl⟩ := open_ok_iff.mp hopen
    rfl
  have hthere : lasting.pathExists workspace = true := hworkspace ▸ hlasting.workspace
  obtain ⟨n, hn⟩ := FileSystem.pathExists_iff.mp hthere
  obtain ⟨q, hq⟩ := FileSystem.canonicalize_ok_iff.mpr ⟨n, hn⟩
  have hplain : h'.files.canonicalize workspace = h.files.canonicalize workspace := by
    rw [FileSystem.canonicalize_of_grows hlasting.growsLater hq,
      FileSystem.canonicalize_of_grows hlasting.growsBefore hq]
  exact open_congr (FileSystem.pathExists_of_grows hlasting.growsLater hthere) hplain henv
    hsettings hopen

end Context

/-! ### Two checks -/

/-- A command is carried out in the context that the options settle. -/
lemma gives_invocation {i : Invocation} {h h' : Host} {answer : String} : i.run.Gives h answer h'
    ↔ ∃ c, Context.open h i.workspace i.config = .ok c ∧ (c.run i.command).Gives h answer h' := by
  simp only [Invocation.run, gives_bind, gives_get]
  cases hopen : Context.open h i.workspace i.config with
  | error e => simp [hopen, not_gives_throw]
  | ok c => simp [hopen]

/-- The invocation of a check with the same options. -/
def Invocation.withCheck (i : Invocation) (request : CheckRequest) : Invocation :=
  { i with command := .check request }

/-- **A tree that was recorded is up to date** at any later time, if the storage is kept aside of it
or spares what the checks look at, and the same settings are loaded. All that is at or below the
directory of the history may have come or changed by then, and all but what is `lasting` may have
gone. -/
theorem upToDate_after_recording {i : Invocation} {request : CheckRequest} {h h' : Host}
    {answer : String} {lasting later : FileSystem} (hfiles : h.files.WellFormed)
    (hnow : h.now.isValid = true) (hkey : (Database.key request.identity).length < 2 ^ 64)
    (hrecord : request.record = true) (hrun : (i.withCheck request).run.Gives h answer h')
    (hsettings : Context.loadSettings { h' with files := later } i.workspace i.config
      = Context.loadSettings h i.workspace i.config)
    (hstorage : ∀ c D, Context.open h i.workspace i.config = .ok c →
      h'.files.canonicalize c.places.history = .ok D →
      c.Lasting D lasting h.files h'.files later
        ∧ ∃ root, RootLocation.resolve lasting (c.target request.path) = .ok root
          ∧ (c.StorageAside D lasting h.files h'.files root
            ∨ c.StorageSpared D lasting h.files h'.files (c.target request.path)))
    (time : Instant) :
    ∃ r h'', (i.withCheck { request with record := false }).run.Gives
      { h' with files := later, now := time } (Context.checkReport request (.upToDate r) none)
      h'' := by
  obtain ⟨c, hopen, hcheck⟩ := gives_invocation.mp hrun
  obtain ⟨input, D, t, hinput, hname, hfree, hgrows, hwritten, hready, hload, hleft⟩ :=
    Context.gives_recording hfiles.distinct hnow hkey hrecord hcheck
  obtain ⟨hlasting, root, hroot, hstorage⟩ := hstorage c D hopen hready.directory
  let m : Host := { h' with files := later, now := time }
  have hheld : m.held = h.held := by rw [show m.held = h'.held from rfl, hleft, Host.withFiles]
  have henv : m.environment = h.environment := by
    rw [show m.environment = h'.environment from rfl, hleft, Host.withFiles]
  have hopen' : Context.open m i.workspace i.config = .ok c :=
    hlasting.open_eq henv hsettings hopen
  have hspared : c.StorageSpared D lasting h.files h'.files (c.target request.path) :=
    hstorage.elim (fun haside => haside.spared hlasting hroot hwritten) id
  have hagain : c.inputOf later request = .ok input :=
    (hlasting.inputOf_eq hroot hspared).trans hinput
  obtain ⟨h'', hgives⟩ := (hlasting.ready t hready).gives_upToDate (m := m)
    hlasting.growsLater.distinct (hheld ▸ hfree) hname hload hagain
  exact ⟨_, h'', gives_invocation.mpr ⟨c, hopen', hgives⟩⟩

/-! ### An empty workspace -/

/-- A check of the whole workspace for the identity `a`. -/
def wholeCheck (record : Bool) : CheckRequest := ⟨none, "a", record, "text"⟩

/-- An invocation in the workspace `/w`. -/
def inWorkspace : Invocation :=
  ⟨.ofText "/w", none, false, none, none, none, none, .showConfig⟩

/-- The machine that a check with a record leaves. -/
def afterRecording (environment : List (String × String)) : Host :=
  ((inWorkspace.withCheck (wholeCheck true)).run.outcome (emptyWorkspace environment)).2

/-- An environment by which the storage is kept in the directories `/s` and `/t`. -/
def besideWorkspace : List (String × String) :=
  [("SNAPSHOTS__STORAGE__WORKSPACES_PATH", "/s"), ("SNAPSHOTS__STORAGE__HISTORY_PATH", "/t")]

/-- An environment by which the directories of identities are kept in the workspace. -/
def insideWorkspace : List (String × String) :=
  [("HOME", "/h"), ("SNAPSHOTS__STORAGE__WORKSPACES_PATH", "out/ws")]

/-- What is on the way to an entry of the root. -/
lemma eq_or_eq_root_of_onWay {p a : Path} (hparent : p.parent? = some (.ofText "/")) (ha : p.OnWay a) :
    a = p ∨ a = .ofText "/" := by
  have hroot : (Path.ofText "/").parent? = none := by decide
  cases ha with
  | self => exact .inl rfl
  | above hp ha =>
      obtain rfl := Option.some.inj (hparent.symm.trans hp)
      cases ha with
      | self => exact .inr rfl
      | above hp => simp [hroot] at hp

/-- Some files with one more in the directory `/t`, if it can be written. -/
def withConf (files : FileSystem) : FileSystem :=
  (files.write (.ofText "/t/conf") (Text.utf8 "conf") 0).toOption.getD files

lemma write_conf {files : FileSystem}
    (hwritten : (files.write (.ofText "/t/conf") (Text.utf8 "conf") 0).toOption.isSome = true) :
    files.write (.ofText "/t/conf") (Text.utf8 "conf") 0 = .ok (withConf files) := by
  rw [withConf]
  cases hwrite : files.write (.ofText "/t/conf") (Text.utf8 "conf") 0 with
  | error e => simp [hwrite, Except.toOption] at hwritten
  | ok later => rfl

set_option maxRecDepth 10000 in
/-- The context that is settled for the workspace with the storage in `/s` and `/t`. -/
lemma settled_beside {c : Context}
    (hopen : Context.open (emptyWorkspace besideWorkspace) inWorkspace.workspace none = .ok c) :
    c.workspace = .ofText "/w" ∧ c.settings.scan.followLinks = false
      ∧ c.places = ⟨.ofText "/s", .ofText "/t"⟩ := by
  have hsettled : (Context.open (emptyWorkspace besideWorkspace) inWorkspace.workspace
      none).toOption.map (fun c => (c.workspace, c.settings.scan.followLinks, c.places))
        = some (.ofText "/w", false, ⟨.ofText "/s", .ofText "/t"⟩) := by
    decide +kernel
  rw [hopen] at hsettled
  simpa [Except.toOption] using hsettled

/-- The workspace is walked along its own path. -/
lemma exists_root_beside : ∃ root, RootLocation.resolve (emptyWorkspace besideWorkspace).files
    (.ofText "/w") = .ok root ∧ root.walked = .ofText "/w" := by
  have hwalked : (RootLocation.resolve (emptyWorkspace besideWorkspace).files
      (.ofText "/w")).toOption.map (·.walked) = some (.ofText "/w") := by
    decide +kernel
  cases hresolve : RootLocation.resolve (emptyWorkspace besideWorkspace).files (.ofText "/w") with
  | error e => simp [hresolve, Except.toOption] at hwalked
  | ok root => exact ⟨root, rfl, by simpa [hresolve, Except.toOption] using hwalked⟩

set_option maxRecDepth 10000 in
/-- The storage in `/s` and `/t` is aside of the workspace. -/
lemma storageAside_beside {c : Context}
    (hopen : Context.open (emptyWorkspace besideWorkspace) inWorkspace.workspace none = .ok c) :
    ∃ root, RootLocation.resolve (emptyWorkspace besideWorkspace).files (c.target none) = .ok root
      ∧ c.StorageAside (.ofText "/t") (emptyWorkspace besideWorkspace).files
        (emptyWorkspace besideWorkspace).files (afterRecording besideWorkspace).files root := by
  obtain ⟨hworkspace, hfollow, hplaces⟩ := settled_beside hopen
  obtain ⟨root, hresolve, hroot⟩ := exists_root_beside
  have hplain : ∀ a ∈ [Path.ofText "/s", .ofText "/t"],
      (afterRecording besideWorkspace).files.canonicalize a = .ok a
        ∧ a.Apart (.ofText "/w") := by
    decide +kernel
  have hlist : (afterRecording besideWorkspace).files.list (.ofText "/t")
      = .ok [(Text.utf8 "db", .file)] := by
    decide +kernel
  have htop : (emptyWorkspace besideWorkspace).files.isDirectory (.ofText "/") = true := by
    decide +kernel
  have hway : ∀ p ∈ [Path.ofText "/s", .ofText "/t"], ∀ a, p.OnWay a →
      (emptyWorkspace besideWorkspace).files.isDirectory a = true
        ∨ ∀ b, (afterRecording besideWorkspace).files.canonicalize a = .ok b →
          ¬ b.LiesIn root.walked := by
    intro p hp a ha
    have hparent : p.parent? = some (.ofText "/") := by
      fin_cases hp <;> decide
    rcases eq_or_eq_root_of_onWay hparent ha with rfl | rfl
    · refine .inr fun b hb => ?_
      obtain rfl := Except.ok.inj ((hplain a hp).1.symm.trans hb)
      exact hroot ▸ (hplain a hp).2.1
    · exact .inl htop
  have htarget : c.target none = .ofText "/w" := hworkspace
  refine ⟨root, htarget ▸ hresolve, hfollow, ?_, ?_, fun a ha => ?_, fun a b ha hb hlies => ?_⟩
  · rw [hroot]
    decide +kernel
  · rw [hroot]
    exact (hplain (.ofText "/t") (by simp)).2.symm
  · cases ha with
    | workspaces ha => exact hway (.ofText "/s") (by simp) a (by rwa [hplaces] at ha)
    | history ha => exact hway (.ofText "/t") (by simp) a (by rwa [hplaces] at ha)
  · obtain ⟨hplain, hapart⟩ := hplain (.ofText "/t") (by simp)
    have hin := FileSystem.liesIn_of_atOrBelow hplain hlist (by simp) ha hb
    rw [hroot] at hlies
    exact (hin.comparable hlies).elim hapart.1 hapart.2

set_option maxRecDepth 10000 in
/-- Another file can be written beside the table of the history, which stays as it is. -/
lemma conf_beside :
    let left := (afterRecording besideWorkspace).files
    (left.write (.ofText "/t/conf") (Text.utf8 "conf") 0).toOption.isSome = true
      ∧ (withConf left).isFile (.ofText "/t/conf") = true
      ∧ (withConf left).canonicalize (.ofText "/t/conf") = .ok (.ofText "/t/conf")
      ∧ (withConf left).read (Database.fileIn (.ofText "/t"))
        = left.read (Database.fileIn (.ofText "/t")) := by
  decide +kernel

/-- All files last when the history writes another one beside its table. -/
lemma lasting_beside {c : Context}
    (hopen : Context.open (emptyWorkspace besideWorkspace) inWorkspace.workspace none = .ok c)
    (hfiles : (emptyWorkspace besideWorkspace).files.WellFormed)
    (hgrows : (emptyWorkspace besideWorkspace).files.Grows (afterRecording besideWorkspace).files) :
    c.Lasting (.ofText "/t") (emptyWorkspace besideWorkspace).files
      (emptyWorkspace besideWorkspace).files (afterRecording besideWorkspace).files
      (withConf (afterRecording besideWorkspace).files) := by
  obtain ⟨hwritten, hfile, hplain, htable⟩ := conf_beside
  have hputs := (FileSystem.write_ok_of_isFile hgrows.distinct (write_conf hwritten) hfile).2
  have hthere : (emptyWorkspace besideWorkspace).files.pathExists c.workspace = true := by
    rw [(settled_beside hopen).1]
    decide +kernel
  have hin : (Path.ofText "/t/conf").LiesIn (.ofText "/t") := by decide +kernel
  exact Context.lasting_of_puts hfiles hgrows hthere hputs hplain hin htable

set_option maxRecDepth 10000 in
/-- The empty workspace is recorded, and the same settings are loaded after that. -/
lemma recorded_beside :
    let left := afterRecording besideWorkspace
    ((inWorkspace.withCheck (wholeCheck true)).run.outcome
        (emptyWorkspace besideWorkspace)).1.toOption.isSome = true
      ∧ left.files.canonicalize (.ofText "/t") = .ok (.ofText "/t")
      ∧ Context.loadSettings { left with files := withConf left.files } inWorkspace.workspace none
        = Context.loadSettings (emptyWorkspace besideWorkspace) inWorkspace.workspace none := by
  decide +kernel

/-- The empty workspace is up to date once it was recorded, with the storage next to it and another
file of the history next to its table. -/
theorem upToDate_beside_storage : ∃ answer r h'',
    (inWorkspace.withCheck (wholeCheck true)).run.Gives (emptyWorkspace besideWorkspace) answer
        (afterRecording besideWorkspace)
      ∧ (inWorkspace.withCheck (wholeCheck false)).run.Gives
        { afterRecording besideWorkspace with
          files := withConf (afterRecording besideWorkspace).files, now := ⟨60, 0⟩ }
        (Context.checkReport (wholeCheck true) (.upToDate r) none) h'' := by
  have hempty : Entries.WellFormed [] := .intro (by decide) (by decide) (by simp)
  have hfiles : (emptyWorkspace besideWorkspace).files.WellFormed := by
    refine .intro (by decide) (by decide) fun name inner hmem => ?_
    obtain ⟨-, rfl⟩ : name = Text.utf8 "w" ∧ inner = [] := by simpa [emptyWorkspace] using hmem
    exact hempty
  obtain ⟨hrecorded, hplain, hsettings⟩ := recorded_beside
  obtain ⟨answer, hanswer⟩ := Option.isSome_iff_exists.mp hrecorded
  have hrun : (inWorkspace.withCheck (wholeCheck true)).run.Gives (emptyWorkspace besideWorkspace)
      answer (afterRecording besideWorkspace) := gives_of_toOption hanswer
  have hnow : (emptyWorkspace besideWorkspace).now.isValid = true := by decide
  have hkey : (Database.key (wholeCheck true).identity).length < 2 ^ 64 := by decide
  have hgrows : (emptyWorkspace besideWorkspace).files.Grows
      (afterRecording besideWorkspace).files := by
    obtain ⟨c, -, hcheck⟩ := gives_invocation.mp hrun
    obtain ⟨-, -, -, -, -, -, hgrows, -⟩ :=
      Context.gives_recording hfiles.distinct hnow hkey rfl hcheck
    exact hgrows
  obtain ⟨r, h'', hcheck⟩ := upToDate_after_recording hfiles hnow hkey rfl hrun hsettings
    (fun c D hopen hD => by
      obtain ⟨-, -, hplaces⟩ := settled_beside hopen
      rw [hplaces] at hD
      obtain rfl := Except.ok.inj (hplain.symm.trans hD)
      obtain ⟨root, hroot, haside⟩ := storageAside_beside hopen
      exact ⟨lasting_beside hopen hfiles hgrows, root, hroot, .inl haside⟩)
    ⟨60, 0⟩
  exact ⟨answer, r, h'', hrun, hcheck⟩

set_option maxRecDepth 10000 in
/-- A workspace that is to hold the directories of identities is not up to date after it was
recorded: they were made in it. -/
theorem storage_in_tree_is_scanned : ∃ answer h' h'',
    (inWorkspace.withCheck (wholeCheck true)).run.Gives (emptyWorkspace insideWorkspace) answer h'
      ∧ (inWorkspace.withCheck (wholeCheck false)).run.Gives h'
        "a: out of date (inputs changed since 1970-01-01T00:00:00+00:00)" h'' := by
  have hrecorded : ((inWorkspace.withCheck (wholeCheck true)).run.outcome
      (emptyWorkspace insideWorkspace)).1.toOption.isSome = true := by
    decide +kernel
  have hchecked : ((inWorkspace.withCheck (wholeCheck false)).run.outcome
      (afterRecording insideWorkspace)).1.toOption
        = some "a: out of date (inputs changed since 1970-01-01T00:00:00+00:00)" := by
    decide +kernel
  obtain ⟨answer, hanswer⟩ := Option.isSome_iff_exists.mp hrecorded
  exact ⟨answer, _, _, gives_of_toOption hanswer, gives_of_toOption hchecked⟩

end CommandLine

end TreeDigest

import TreeDigest.Proofs.CommandLine.Refusal
import TreeDigest.Proofs.CommandLine.Recording
import TreeDigest.Proofs.FileSystem.FullPaths
import TreeDigest.Proofs.Settings.Rendering

/-!
A first file with settings.

The standard settings are written to any file that is named, as the text of a TOML document. Every
later command with that file reads it first, and the format it is read in goes by its name: the
settings are found again where the name has the extension of TOML, and where it has another one or
none, no command is carried out any more.

* `Host.Reloads` says where the settings are found again.
* `Settings.loadFile_standard_iff`: what is loaded of the file.
* `Context.open_standard_iff`: when a command is carried out at all.
* `Context.gives_runInitConfig`: what writing the file does.
* `config_after_init` is what becomes of all commands after the file was written.
-/

namespace TreeDigest

/-! ### Loading the standard settings -/

/-- Standard settings in a file are found again: its name has the extension of TOML, the current
directory is there and the full path can be looked up from the root, and there is a directory for
data. -/
structure Host.Reloads (h : Host) (file : Path) : Prop where
  toml : FileFormat.ofPath? file = some .toml
  current : ∃ current, h.files.currentPath = .ok current
    ∧ (current.join file).bytes.length ≤ FileSystem.maxPath
  data : h.dataHome?.isSome = true

/-- A header in brackets is no JSON list. -/
lemma Json.parse?_bracketed (rest : List Char) : parse? (.ofList ('[' :: 's' :: rest)) = none := by
  have hblanks : skipBlanks ('s' :: rest) = 's' :: rest := rfl
  have hitem : ∀ budget, value? (budget + 1) ('s' :: rest) = none := by
    intro budget
    simp [value?, hblanks, number?, unsigned?, splitDigits]
  have hitems : ∀ budget, items? (budget + 2) ('s' :: rest) = none := by
    intro budget
    rw [items?, hitem]
  have hlist : ∀ budget, value? (budget + 3) ('[' :: 's' :: rest) = none := by
    intro budget
    have hblanks' : skipBlanks ('[' :: 's' :: rest) = '[' :: 's' :: rest := rfl
    simp [value?, hblanks, hblanks', hitems]
  have hbudget : 2 * (String.ofList ('[' :: 's' :: rest)).length + 2 = 2 * rest.length + 3 + 3 := by
    rw [String.length_ofList, List.length_cons, List.length_cons]
    omega
  rw [parse?, String.toList_ofList, hbudget, hlist]

namespace Settings

lemma modulesDistinct_standard : standard.ModulesDistinct := List.nodup_nil

/-- The text of the standard settings is no JSON. -/
lemma parse?_json_standard : Json.parse? standard.toToml = none := by
  obtain ⟨rest, hrest⟩ : ∃ rest, Toml.documentChars standard.toFields = '[' :: 's' :: rest := ⟨_, rfl⟩
  rw [toToml, Toml.render, hrest, Json.parse?_bracketed]

lemma LoadedAs.eq_standard {s : Settings} (hloaded : standard.LoadedAs s) : s = standard :=
  hloaded.eq (List.perm_nil.mp (hloaded.perm modulesDistinct_standard (List.forall_mem_nil _)))

end Settings

namespace Layer

open FileSystem

variable {files : FileSystem} {file current path : Path} {format : FileFormat} {origin text : String}

/-- The file that a file's own name stands for is found under its full path. -/
lemma findFile_ok (hnames : files.CurrentNamed) (hfile : files.isFile file = true)
    (hcurrent : files.currentPath = .ok current)
    (hfind : findFile files current file = .ok (path, format)) :
    path = current.join file ∧ files.isFile (current.join file) = true
      ∧ FileFormat.ofPath? (current.join file) = some format := by
  rw [findFile] at hfind
  by_cases hthere : files.isFile (current.join file) = true
  · rw [if_pos hthere] at hfind
    cases hformat : FileFormat.ofPath? (current.join file) with
    | none => simp [hformat] at hfind
    | some f =>
        obtain ⟨rfl, rfl⟩ : current.join file = path ∧ f = format := by simpa [hformat] using hfind
        exact ⟨rfl, hthere, rfl⟩
  · rw [if_neg hthere] at hfind
    rw [isFile_join_current_iff hnames hcurrent hfile, Nat.not_le] at hthere
    obtain ⟨T, x, content, modified, hres⟩ := resolve_of_isFile hfile
    have hnone : (FileFormat.registered.map fun r => ((current.join file).addExtension r.1, r.2)).find?
        (fun c => files.isFile c.1) = none := by
      rw [List.find?_eq_none]
      intro c hc
      obtain ⟨r, -, rfl⟩ := List.mem_map.mp hc
      simp [isFile_addExtension hnames hcurrent hres hthere]
    simp only [hnone, reduceCtorEq] at hfind

/-- Text that is no JSON can be read as TOML only. -/
lemma format_of_parse {layer : Layer} (hjson : Json.parse? text = none)
    (hlayer : parse format origin text = .ok layer) : format = .toml := by
  cases format with
  | toml => rfl
  | json => simp [parse, hjson] at hlayer
  | other name => simp [parse] at hlayer

/-- What is read of a file is the text that it holds. -/
lemma resolveFile_ok (hnames : files.CurrentNamed) (hfile : files.isFile file = true)
    (hread : files.read file = .ok (Text.utf8 text)) {text' : String}
    (hresolve : resolveFile files file = .ok (format, origin, text')) :
    text = text' ∧ ∃ current, files.currentPath = .ok current
      ∧ files.isFile (current.join file) = true
      ∧ FileFormat.ofPath? (current.join file) = some format := by
  rw [resolveFile] at hresolve
  cases hcurrent : files.currentPath with
  | error e => simp [hcurrent, Except.mapError, bind, Except.bind] at hresolve
  | ok current =>
      cases hfind : findFile files current file with
      | error e => simp [hcurrent, hfind, Except.mapError, bind, Except.bind] at hresolve
      | ok found =>
          obtain ⟨path, format'⟩ := found
          obtain ⟨rfl, hthere, hformat⟩ := findFile_ok hnames hfile hcurrent hfind
          have hsame := (read_join_current hnames hcurrent hfile hthere).trans hread
          obtain ⟨rfl, -, rfl⟩ : format' = format ∧ _ ∧ text = text' := by
            simpa [hcurrent, hfind, hsame, Text.decode_utf8, Except.mapError, bind, Except.bind, pure,
              Except.pure] using hresolve
          exact ⟨rfl, current, rfl, hthere, hformat⟩

end Layer

namespace Settings

open FileSystem

variable {h : Host} {file : Path} {s : Settings}

/-- **A file with the text of the standard settings is loaded as those**, and only if its name asks
for TOML and its full path can be looked up. -/
theorem loadFile_standard_iff (hnames : h.files.CurrentNamed) (hnothing : h.SetsNothing)
    (hfile : h.files.isFile file = true)
    (hread : h.files.read file = .ok (Text.utf8 standard.toToml)) : loadFile h file = .ok s
      ↔ s = standard ∧ FileFormat.ofPath? file = some .toml ∧ ∃ current,
        h.files.currentPath = .ok current ∧ (current.join file).bytes.length ≤ maxPath := by
  obtain ⟨T, x, content, modified, hres⟩ := resolve_of_isFile hfile
  have hloaded : ∀ current, h.files.currentPath = .ok current →
      h.files.isFile (current.join file) = true →
      FileFormat.ofPath? (current.join file) = some .toml → loadFile h file = .ok standard := by
    intro current hcurrent hthere htoml
    have hfull := (read_join_current hnames hcurrent hfile hthere).trans hread
    obtain ⟨s, hload, hloaded⟩ := loadFile_of_holds modulesDistinct_standard hnothing
      (.intro hcurrent hthere htoml hfull)
    rw [hload, hloaded.eq_standard]
  have hextension : ∀ current, h.files.currentPath = .ok current →
      FileFormat.ofPath? (current.join file) = FileFormat.ofPath? file := by
    intro current hcurrent
    rw [FileFormat.ofPath?, FileFormat.ofPath?, extension?_join_current hnames hcurrent hres]
  constructor
  · intro hload
    obtain ⟨layer, hlayer⟩ : ∃ layer, Layer.ofFile h.files true file = .ok layer := by
      rw [loadFile] at hload
      cases hlayer : Layer.ofFile h.files true file with
      | error e => simp [hlayer, bind, Except.bind] at hload
      | ok layer => exact ⟨layer, rfl⟩
    rw [Layer.ofFile] at hlayer
    cases hresolve : Layer.resolveFile h.files file with
    | error e => simp [hresolve] at hlayer
    | ok found =>
        obtain ⟨format, origin, text⟩ := found
        obtain ⟨rfl, current, hcurrent, hthere, hformat⟩ :=
          Layer.resolveFile_ok hnames hfile hread hresolve
        rw [hresolve] at hlayer
        obtain rfl := Layer.format_of_parse parse?_json_standard hlayer
        have hstandard := hloaded current hcurrent hthere hformat
        exact ⟨Except.ok.inj (hload.symm.trans hstandard), hextension current hcurrent ▸ hformat,
          current, hcurrent, short_of_isFile hthere⟩
  · rintro ⟨rfl, htoml, current, hcurrent, hshort⟩
    refine hloaded current hcurrent ?_ (by rw [hextension current hcurrent, htoml])
    exact (isFile_join_current_iff hnames hcurrent hfile).mpr hshort

end Settings

/-- The places of the standard settings are known where there is a directory for data. -/
lemma StorageSettings.exists_places_standard_iff {h : Host} {workspace : Path}
    (hthere : h.files.pathExists workspace = true) :
    (∃ places, standard.places h workspace = .ok places) ↔ h.dataHome?.isSome = true := by
  have hsame : ∀ text, (Path.ofText text).same (.ofText text) = true := fun text =>
    Path.same_iff.mpr rfl
  rw [places]
  simp only [place, hsame, if_true]
  cases hhome : h.dataHome? with
  | none => simp [Host.workspaceData, hhome, throw, throwThe, MonadExceptOf.throw, Except.map, bind,
      Except.bind]
  | some home =>
      obtain ⟨plain, hplain⟩ :=
        FileSystem.canonicalize_ok_iff.mpr (FileSystem.pathExists_iff.mp hthere)
      simp [Host.workspaceData, hhome, hplain, Except.mapError, Except.map, bind, Except.bind, pure,
        Except.pure]

namespace CommandLine

open Job

namespace Context

variable {c : Context} {h h' : Host} {file workspace : Path}

/-- **When a command is carried out** with a file that has the text of the standard settings: it is
then in their context. -/
theorem open_standard_iff (hnames : h.files.CurrentNamed) (hnothing : h.SetsNothing)
    (hfile : h.files.isFile file = true)
    (hread : h.files.read file = .ok (Text.utf8 Settings.standard.toToml)) :
    Context.open h workspace (some file) = .ok c ↔ h.files.pathExists workspace = true
      ∧ h.Reloads file ∧ ∃ places, StorageSettings.standard.places h workspace = .ok places
        ∧ ⟨workspace, some file, .standard, places⟩ = c := by
  have hload := fun s => Settings.loadFile_standard_iff (s := s) hnames hnothing hfile hread
  have hproblems : Settings.standard.problems = [] := rfl
  rw [open_ok_iff, loadSettings, if_pos (FileSystem.pathExists_of_isFile hfile)]
  constructor
  · rintro ⟨hworkspace, s, places, hs, -, hplaces, rfl⟩
    obtain ⟨rfl, htoml, hcurrent⟩ := (hload s).mp hs
    have hdata := (StorageSettings.exists_places_standard_iff hworkspace).mp ⟨places, hplaces⟩
    exact ⟨hworkspace, ⟨htoml, hcurrent, hdata⟩, places, hplaces, rfl⟩
  · rintro ⟨hworkspace, hreloads, places, hplaces, rfl⟩
    exact ⟨hworkspace, .standard, places, (hload _).mpr ⟨rfl, hreloads.toml, hreloads.current⟩,
      hproblems, hplaces, rfl⟩

/-- Writes the text of the standard settings to a file whose directory is there. -/
def writeStandard (file : Path) : Job String := do
  let now := (← get).now.toNanos
  Job.change fun files => files.write file (Text.utf8 Settings.standard.toToml) now
  return s!"Wrote default configuration to {file.display}"

lemma gives_writeStandard {answer : String} : (writeStandard file).Gives h answer h' ↔ ∃ files,
    h.files.write file (Text.utf8 Settings.standard.toToml) h.now.toNanos = .ok files
      ∧ h.withFiles files = h' ∧ s!"Wrote default configuration to {file.display}" = answer := by
  simp only [writeStandard, gives_bind, gives_get, gives_change, gives_pure]
  constructor
  · rintro ⟨_, _, ⟨rfl, rfl⟩, _, _, ⟨files, hwritten, rfl⟩, rfl, rfl⟩
    exact ⟨files, hwritten, rfl, rfl⟩
  · rintro ⟨files, hwritten, rfl, rfl⟩
    exact ⟨h, h, ⟨rfl, rfl⟩, (), _, ⟨files, hwritten, rfl⟩, rfl, rfl⟩

/-- Writing the standard settings has three steps: the file is looked for, the directory above it is
made, and the text is written. -/
lemma runInitConfig_eq (c : Context) (force : Bool) :
    c.runInitConfig force = c.initTarget >>= fun file => get >>= fun h =>
      if h.files.pathExists file && !force then throw (.configuration (.fileExists file))
      else makeParent file >>= fun _ => writeStandard file := by
  refine congrArg (c.initTarget >>= ·) (funext fun file => congrArg (get >>= ·) (funext fun h => ?_))
  rw [makeParent]
  cases h.files.pathExists file && !force <;> cases file.parent? <;> rfl

/-- **What writing the standard settings takes**: the file may not be there unless that is forced. -/
lemma gives_runInitConfig (hconfig : c.configFile = some file) {force : Bool} {answer : String} :
    (c.runInitConfig force).Gives h answer h' ↔ (h.files.pathExists file = true → force = true)
      ∧ ∃ m, (makeParent file).Gives h () m ∧ (writeStandard file).Gives m answer h' := by
  have htarget : c.initTarget = get >>= fun _ => pure file := by
    rw [initTarget, hconfig]
  simp only [runInitConfig_eq, htarget, gives_bind, gives_get, gives_pure]
  constructor
  · rintro ⟨_, _, ⟨_, _, ⟨rfl, rfl⟩, rfl, rfl⟩, _, _, ⟨rfl, rfl⟩, hrun⟩
    split at hrun
    · exact absurd hrun not_gives_throw
    · next hallowed =>
        obtain ⟨⟨⟩, m, hmade, hwritten⟩ := gives_bind.mp hrun
        exact ⟨by simpa using hallowed, m, hmade, hwritten⟩
  · rintro ⟨hallowed, m, hmade, hwritten⟩
    refine ⟨file, h, ⟨h, h, ⟨rfl, rfl⟩, rfl, rfl⟩, h, h, ⟨rfl, rfl⟩, ?_⟩
    rw [if_neg (by simpa using hallowed)]
    exact gives_bind.mpr ⟨(), m, hmade, hwritten⟩

/-- What is left of a file that the standard settings were written to, unless the path leads to a
special node: the text is in it, its directory is there, and nothing else has changed. -/
lemma gives_init (hfs : h.files.root.Distinct) (hconfig : c.configFile = some file) {force : Bool}
    {answer : String} (hrun : (c.runInitConfig force).Gives h answer h')
    (hregular : h'.files.isFile file = true) : h.files.Grows h'.files
      ∧ h'.files.read file = .ok (Text.utf8 Settings.standard.toToml)
      ∧ (∀ parent, file.parent? = some parent →
        parent.bytes = [] ∨ h'.files.isDirectory parent = true)
      ∧ h' = h.withFiles h'.files
      ∧ s!"Wrote default configuration to {file.display}" = answer := by
  obtain ⟨-, m, hmade, hwrite⟩ := (gives_runInitConfig hconfig).mp hrun
  obtain ⟨hgrows, -, hparent, hm⟩ := grows_of_gives_makeParent hfs hmade
  obtain ⟨files, hwritten, rfl, hanswer⟩ := gives_writeStandard.mp hwrite
  obtain ⟨hnode, hputs⟩ := FileSystem.write_ok_of_isFile hgrows.distinct hwritten hregular
  have hread : files.read file = .ok (Text.utf8 Settings.standard.toToml) := by
    rw [FileSystem.read, hnode]
    rfl
  have hleft : m.withFiles files = h.withFiles files := by
    rw [hm]
    rfl
  exact ⟨hgrows.trans hputs.grows, hread, fun parent hp => (hparent parent hp).imp_right
    (FileSystem.isDirectory_of_grows hputs.grows), hleft, hanswer⟩

end Context

/-! ### Commands after it -/

/-- The invocation of another command with the same options. -/
def Invocation.asking (i : Invocation) (command : Command) : Invocation := { i with command := command }

/-- No command is carried out where there is no context for it. -/
lemma fails_invocation {i : Invocation} {h : Host} {e : Failure}
    (hopen : Context.open h i.workspace i.config = .error e) : i.run.Fails h e h := by
  rw [Invocation.run, fails_bind]
  refine .inr ⟨h, h, gives_get.mpr ⟨rfl, rfl⟩, ?_⟩
  rw [hopen]
  exact fails_throw.mpr ⟨rfl, rfl⟩

/-- **The settings that were written are shown again**, and can be written again, at any later time,
just where they can be found again. Where they cannot, no command with this file is carried out. -/
theorem config_after_init {i : Invocation} {file : Path} {force : Bool} {h h' : Host}
    {answer : String} (hfs : h.files.root.Distinct) (hnames : h.files.CurrentNamed)
    (hnothing : h.SetsNothing) (hconfig : i.config = some file)
    (hinit : (i.asking (.initConfig force)).run.Gives h answer h')
    (hregular : h'.files.isFile file = true) (later : Instant) :
    (h'.Reloads file →
      (i.asking .showConfig).run.Gives { h' with now := later } Settings.standard.toToml
          { h' with now := later }
        ∧ ∃ h'', (i.asking (.initConfig true)).run.Gives { h' with now := later } answer h'')
      ∧ (¬ h'.Reloads file → ∀ command, ∃ e,
        (i.asking command).run.Fails { h' with now := later } e { h' with now := later }) := by
  obtain ⟨c, hopen, hrun⟩ := gives_invocation.mp hinit
  obtain ⟨hworkspace, s, places, -, -, -, rfl⟩ := Context.open_ok_iff.mp hopen
  obtain ⟨hgrows, hread, hparent, hleft, rfl⟩ := Context.gives_init hfs hconfig hrun hregular
  have hnames' : h'.files.CurrentNamed := by
    rw [FileSystem.CurrentNamed, hgrows.current]
    exact hnames
  have hnothing' : h'.SetsNothing := by
    rw [hleft]
    exact hnothing
  have hworkspace' := FileSystem.pathExists_of_grows hgrows hworkspace
  let m : Host := { h' with now := later }
  have hopens : ∀ {c'}, Context.open m i.workspace (some file) = .ok c' ↔ _ :=
    Context.open_standard_iff (h := m) hnames' hnothing' hregular hread
  constructor
  · intro hreloads
    obtain ⟨places', hplaces'⟩ :=
      (StorageSettings.exists_places_standard_iff (h := m) hworkspace').mpr hreloads.data
    let c' : Context := ⟨i.workspace, some file, .standard, places'⟩
    have hopen' : Context.open m i.workspace i.config = .ok c' := by
      rw [hconfig]
      exact hopens.mpr ⟨hworkspace', ⟨hreloads.toml, hreloads.current, hreloads.data⟩, places',
        hplaces', rfl⟩
    have hshow : (c'.run .showConfig).Gives m Settings.standard.toToml m := gives_pure.mpr ⟨rfl, rfl⟩
    obtain ⟨files, hwritten⟩ := FileSystem.exists_write_of_isFile hregular
      (Text.utf8 Settings.standard.toToml) later.toNanos
    have hagain : (c'.runInitConfig true).Gives m _ (m.withFiles files) :=
      (Context.gives_runInitConfig rfl).mpr ⟨fun _ => rfl, m,
        Context.gives_makeParent_of_isDirectory hparent,
        Context.gives_writeStandard.mpr ⟨files, hwritten, rfl, rfl⟩⟩
    exact ⟨gives_invocation.mpr ⟨c', hopen', hshow⟩, _, gives_invocation.mpr ⟨c', hopen', hagain⟩⟩
  · intro hlost command
    cases hopen' : Context.open m i.workspace i.config with
    | error e => exact ⟨e, fails_invocation hopen'⟩
    | ok c' =>
        rw [hconfig] at hopen'
        obtain ⟨-, hreloads, -⟩ := hopens.mp hopen'
        exact absurd ⟨hreloads.toml, hreloads.current, hreloads.data⟩ hlost

/-- An invocation in the workspace `/w` with a file for the settings. -/
def withFile (file : String) : Invocation := { inWorkspace with config := some (.ofText file) }

/-- A machine with an empty workspace `/w` and a home directory. -/
def atHome : Host := emptyWorkspace [("HOME", "/h")]

set_option maxRecDepth 10000 in
/-- The settings in `/w/c.toml` are shown again. Those in `/w/c.conf` are not, nor can they be written
again. -/
theorem config_after_init_named : ∃ h' h'',
    ((withFile "/w/c.toml").asking (.initConfig false)).run.Gives atHome
        "Wrote default configuration to /w/c.toml" h'
      ∧ ((withFile "/w/c.toml").asking .showConfig).run.Gives h' Settings.standard.toToml h'
      ∧ ((withFile "/w/c.conf").asking (.initConfig false)).run.Gives atHome
        "Wrote default configuration to /w/c.conf" h''
      ∧ ∃ e, ((withFile "/w/c.conf").asking (.initConfig true)).run.Fails h'' e h'' := by
  have hfs : atHome.files.root.Distinct := by
    refine .intro (by decide) fun name inner hmem => ?_
    obtain ⟨-, rfl⟩ : name = Text.utf8 "w" ∧ inner = [] := by simpa [atHome, emptyWorkspace] using hmem
    exact .intro (by decide) (by simp)
  have hnames : atHome.files.CurrentNamed := by
    intro name hname
    cases hname
  have hnothing : atHome.SetsNothing := by
    intro v hv
    obtain rfl := List.mem_singleton.mp hv
    decide +kernel
  have hinit : ((withFile "/w/c.toml").asking (.initConfig false)).run.Gives atHome
      "Wrote default configuration to /w/c.toml" _ := gives_of_toOption (by decide +kernel)
  have hinit' : ((withFile "/w/c.conf").asking (.initConfig false)).run.Gives atHome
      "Wrote default configuration to /w/c.conf" _ := gives_of_toOption (by decide +kernel)
  obtain ⟨hshown, -⟩ := config_after_init hfs hnames hnothing rfl hinit (by decide +kernel) _
  obtain ⟨-, hlost⟩ := config_after_init hfs hnames hnothing rfl hinit' (by decide +kernel) _
  have htoml : FileFormat.ofPath? (.ofText "/w/c.toml") = some .toml := by decide +kernel
  have hconf : FileFormat.ofPath? (.ofText "/w/c.conf") = none := by decide +kernel
  refine ⟨_, _, hinit, (hshown ⟨htoml, ⟨.ofText "/", ?_, ?_⟩, ?_⟩).1, hinit', hlost ?_ _⟩
  · decide +kernel
  · decide +kernel
  · decide +kernel
  · intro hreloads
    cases hconf.symm.trans hreloads.toml

end CommandLine

end TreeDigest

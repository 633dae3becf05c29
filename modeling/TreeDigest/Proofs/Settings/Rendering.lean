import Mathlib
import TreeDigest.Settings.Render
import TreeDigest.Proofs.FileSystem.Making
import TreeDigest.Proofs.Settings.Layering
import TreeDigest.Proofs.Text.Utf8
import TreeDigest.Proofs.Toml.Documents

/-!
Rendered settings are loaded back.

The text of settings is an orderly document, so it is read back as the fields that it was written
from. As a layer these fields set every setting to what it was, and a module under its name in lower
case, where one of several with one such name counts: which one, hangs on the order of the keys.

* `parse?_toToml`: the text spells the fields.
* `fits_rendered` and `value?_rendered`: the layer of these fields, and what it sets with its keys in
  any order.
* `mayLoad_of_holds` loads any file with the text, and `loadFile_written` one that the text has been
  written to.
-/

namespace TreeDigest

/-! ### The text -/

namespace Settings

/-- No module is there twice. -/
def ModulesDistinct (s : Settings) : Prop := (s.logging.modules.map (·.1)).Nodup

/-- Settings are written in order: plain values before tables, each under a key of its own. -/
lemma orderly_toFields {s : Settings} (hs : s.ModulesDistinct) : Toml.Orderly s.toFields := by
  have hwords : Toml.Plain Toml.maxDepth (.array (s.scan.ignore.map .text)) := by
    refine .array fun item hitem => ?_
    obtain ⟨w, -, rfl⟩ := List.mem_map.mp hitem
    exact .text
  have hscan : Toml.Orderly s.scan.toFields := by
    refine .plain (by simp [ScanOptions.toFields]) ?_
    simp only [ScanOptions.toFields, List.forall_mem_cons]
    exact ⟨.boolean, hwords, .boolean, .text, nofun⟩
  have hstorage : Toml.Orderly s.storage.toFields := by
    refine .plain (by simp [StorageSettings.toFields]) ?_
    simp only [StorageSettings.toFields, List.forall_mem_cons]
    exact ⟨.text, .text, nofun⟩
  have hmodules : Toml.Orderly (s.logging.modules.map fun m => (m.1, .text m.2)) := by
    refine .plain (by simpa [ModulesDistinct, Function.comp_def] using hs) fun f hf => ?_
    obtain ⟨m, -, rfl⟩ := List.mem_map.mp hf
    exact .text
  have hlogging : Toml.Orderly s.logging.toFields := by
    refine .intro [("level", .text s.logging.level), ("format", .text s.logging.format),
        ("output", .text s.logging.output), ("file", .text s.logging.file),
        ("color", .boolean s.logging.color)]
      [("modules", s.logging.modules.map fun m => (m.1, .text m.2))] (by simp) ?_ ?_
    · simp only [List.forall_mem_cons]
      exact ⟨.text, .text, .text, .text, .boolean, nofun⟩
    · exact List.forall_mem_singleton.mpr hmodules
  refine .intro [] [("snapshot", s.scan.toFields), ("storage", s.storage.toFields),
    ("logging", s.logging.toFields)] (by simp) nofun ?_
  simp only [List.forall_mem_cons]
  exact ⟨hscan, hstorage, hlogging, nofun⟩

/-- **The text of settings spells their fields.** -/
theorem parse?_toToml {s : Settings} (hs : s.ModulesDistinct) :
    Toml.parse? s.toToml = some s.toFields :=
  Toml.parse?_render (orderly_toFields hs)

end Settings

/-! ### The layer -/

open Layer LayerValue Assignment

variable {s : Settings} {origin : String} {k : Setting}

/-- The layer of a file with the text of settings. -/
def Settings.rendered (s : Settings) (origin : String) : Layer := ofTomlFields origin s.toFields

/-- What the layer assigns, up to the levels of modules. -/
def Settings.fieldAssignments (s : Settings) (origin : String) : List Assignment :=
  [⟨["snapshot"], none⟩,
    ⟨Setting.followLinks.path, some (.scalar (some origin) (.boolean s.scan.followLinks))⟩,
    ⟨Setting.ignore.path, some (.list (some origin)
      (s.scan.ignore.map fun w => .scalar (some origin) (.text w)))⟩,
    ⟨Setting.sorted.path, some (.scalar (some origin) (.boolean s.scan.sorted))⟩,
    ⟨Setting.emptyDirectories.path,
      some (.scalar (some origin) (.text s.scan.emptyDirectories.word))⟩,
    ⟨["storage"], none⟩,
    ⟨Setting.workspacesPath.path, some (.scalar (some origin) (.text s.storage.workspacesPath))⟩,
    ⟨Setting.historyPath.path, some (.scalar (some origin) (.text s.storage.historyPath))⟩,
    ⟨["logging"], none⟩,
    ⟨Setting.level.path, some (.scalar (some origin) (.text s.logging.level))⟩,
    ⟨Setting.format.path, some (.scalar (some origin) (.text s.logging.format))⟩,
    ⟨Setting.output.path, some (.scalar (some origin) (.text s.logging.output))⟩,
    ⟨Setting.file.path, some (.scalar (some origin) (.text s.logging.file))⟩,
    ⟨Setting.color.path, some (.scalar (some origin) (.boolean s.logging.color))⟩,
    ⟨["logging", "modules"], none⟩]

/-- What it assigns to modules, each under its name in lower case. -/
def Assignment.ofModules (origin : String) (modules : List (String × String)) : List Assignment :=
  modules.map fun m => ⟨(Setting.moduleLevel (Text.lowercase m.1)).path,
    some (.scalar (some origin) (.text m.2))⟩

lemma assignmentsIn_modules (origin : String) (modules : List (String × String)) :
    assignmentsIn (ofTomlFields origin (modules.map fun m => (m.1, .text m.2)))
      = modules.map fun m => ⟨[Text.lowercase m.1], some (.scalar (some origin) (.text m.2))⟩ := by
  induction modules with
  | nil => rfl
  | cons m modules ih =>
      simp only [List.map_cons, ofTomlFields, ofToml, assignmentsIn, assignmentsAt, ih,
        List.singleton_append]

lemma ofTomlItems_text (origin : String) (words : List String) :
    ofTomlItems origin (words.map .text) = words.map fun w => .scalar (some origin) (.text w) := by
  induction words with
  | nil => rfl
  | cons w words ih => rw [List.map_cons, ofTomlItems, ih, ofToml, List.map_cons]

/-- The keys of settings are in lower case. -/
lemma lowercase_keys : ∀ key ∈ ["snapshot", "follow_symlinks", "ignore_patterns", "sorted_walk",
    "empty_directories", "storage", "workspaces_path", "history_path", "logging", "level", "format",
    "output", "file", "color", "modules"], Text.lowercase key = key := by
  decide +kernel

/-- **What the layer of rendered settings assigns.** -/
lemma assignments?_rendered (s : Settings) (origin : String) : assignments? (s.rendered origin)
    = some (s.fieldAssignments origin ++ ofModules origin s.logging.modules) := by
  have hsnapshot : KeyPath.parse? "snapshot" = some [.key "snapshot"] := by decide
  have hstorage : KeyPath.parse? "storage" = some [.key "storage"] := by decide
  have hlogging : KeyPath.parse? "logging" = some [.key "logging"] := by decide
  have hkeys := lowercase_keys
  simp only [List.forall_mem_cons] at hkeys
  have hmodules : (s.logging.modules.map fun m => (⟨[Text.lowercase m.1],
        some (.scalar (some origin) (.text m.2))⟩ : Assignment)).map
        (fun a => ⟨"logging" :: "modules" :: a.path, a.value?⟩)
      = ofModules origin s.logging.modules := by
    rw [List.map_map]
    rfl
  simp only [Settings.rendered, Settings.toFields, ScanOptions.toFields, StorageSettings.toFields,
    LoggingSettings.toFields, ofTomlFields, ofToml, ofTomlItems_text, assignments?,
    KeyPath.assignments?, hsnapshot, hstorage, hlogging, KeyPath.names?, Option.map_some,
    assignmentsBelow, assignmentsAt, assignmentsIn, assignmentsIn_modules, hkeys, within]
  rw [← hmodules]
  simp [Settings.fieldAssignments, Setting.path, Function.comp_def]

/-! ### What it sets -/

lemma textsFrom_text (origin : String) (words : List String) (index : ℕ) :
    textsFrom index (words.map fun w => .scalar (some origin) (.text w)) = .ok words := by
  induction words generalizing index with
  | nil => rfl
  | cons w words ih =>
      rw [List.map_cons, textsFrom, ih]
      rfl

/-- The word for a treatment of empty directories is read back. -/
lemma asEmptyDirectories_word (origin : String) (e : EmptyDirectories) :
    (LayerValue.scalar (some origin) (.text e.word)).asEmptyDirectories = .ok e := by
  have hlower : Text.lowercase e.word = e.word := by cases e <;> decide +kernel
  rw [asEmptyDirectories, emptyDirectoriesWord, hlower]
  cases e <;> rfl

lemma fits_ofModules (origin : String) (modules : List (String × String)) :
    ∀ a ∈ ofModules origin modules, a.Fits := by
  intro a ha
  obtain ⟨m, -, rfl⟩ := List.mem_map.mp ha
  exact .setting (y := .text m.2) rfl

/-- **The layer of rendered settings suits them.** -/
lemma fits_rendered (s : Settings) (origin : String) : (s.rendered origin).Fits := by
  refine ⟨_, assignments?_rendered s origin, fun a ha => ?_⟩
  rcases List.mem_append.mp ha with ha | ha
  swap
  · exact fits_ofModules origin _ a ha
  simp only [Settings.fieldAssignments, List.mem_cons, List.not_mem_nil, or_false] at ha
  rcases ha with rfl | rfl | rfl | rfl | rfl | rfl | rfl | rfl | rfl | rfl | rfl | rfl | rfl | rfl | rfl
  · exact fits_part _
  · exact .setting (y := .flag s.scan.followLinks) rfl
  · refine .setting (y := .words s.scan.ignore) ?_
    simp only [Setting.read, asTexts, textsFrom_text]
    rfl
  · exact .setting (y := .flag s.scan.sorted) rfl
  · refine .setting (y := .treatment s.scan.emptyDirectories) ?_
    simp only [Setting.read, asEmptyDirectories_word]
    rfl
  · exact fits_part _
  · exact .setting (y := .text s.storage.workspacesPath) rfl
  · exact .setting (y := .text s.storage.historyPath) rfl
  · exact fits_part _
  · exact .setting (y := .text s.logging.level) rfl
  · exact .setting (y := .text s.logging.format) rfl
  · exact .setting (y := .text s.logging.output) rfl
  · exact .setting (y := .text s.logging.file) rfl
  · exact .setting (y := .flag s.logging.color) rfl
  · exact fits_modules

/-- The levels of modules have nothing to do with anything else. -/
lemma not_sets_of_ofModules {modules : List (String × String)} (hk : ∀ name, k ≠ .moduleLevel name)
    {a : Assignment} (ha : a ∈ ofModules origin modules) : ¬ a.Sets k.path := by
  obtain ⟨m, -, rfl⟩ := List.mem_map.mp ha
  rintro ⟨hpath, -⟩
  have hsame : k = .moduleLevel (Text.lowercase m.1) :=
    Setting.eq_of_path_prefix (by rw [← hpath])
  exact hk _ hsame

/-- Every setting but the levels of modules is set once. -/
lemma setOnce_rendered (s : Settings) (origin : String) (hk : ∀ name, k ≠ .moduleLevel name) :
    SetOnce (s.fieldAssignments origin ++ ofModules origin s.logging.modules) k := by
  refine List.pairwise_append.mpr ⟨?_, ?_, fun a _ b hb h => not_sets_of_ofModules hk hb h.2⟩
  · exact setOnce_of_paths k (by simp [Settings.fieldAssignments, Setting.path])
  · exact List.pairwise_of_forall_mem_list fun a ha b _ h => not_sets_of_ofModules hk ha h.1

/-- **The layer of rendered settings sets everything to what it was**, but for modules, with its keys
in any order. -/
lemma value?_rendered {row : Layer} (hrow : Reordered (s.rendered origin) row)
    (hk : ∀ name, k ≠ .moduleLevel name) : row.value? k = s.value? k := by
  obtain ⟨bs, hbs, hperm⟩ := hrow.assignments? (assignments?_rendered s origin)
  obtain ⟨as, has, hfits⟩ := fits_rendered s origin
  obtain rfl := Option.some.inj ((assignments?_rendered s origin).symm.trans has)
  have hnone : setting? (ofModules origin s.logging.modules) k = none := by
    rw [Option.eq_none_iff_forall_ne_some]
    intro y hy
    obtain ⟨a, ha, x, hpath, hx, -⟩ := says_of_setting? hy
    exact not_sets_of_ofModules hk ha ⟨hpath, by simp [hx]⟩
  rw [Layer.value?, hbs, Option.bind_some, (setOnce_rendered s origin hk).setting?_perm hfits hperm,
    setting?_append (fits_ofModules origin _), hnone, Option.none_or]
  cases k with
  | ignore =>
      change ((asTexts (.list (some origin) (s.scan.ignore.map _))).map _).toOption = _
      rw [asTexts, textsFrom_text]
      rfl
  | emptyDirectories =>
      change ((LayerValue.scalar (some origin) _).asEmptyDirectories.map _).toOption = _
      rw [asEmptyDirectories_word]
      rfl
  | moduleLevel name => exact absurd rfl (hk name)
  | _ => rfl

/-- Modules are set under their names in lower case, and only those. -/
lemma says_rendered_module {name level : String} :
    Says (s.fieldAssignments origin ++ ofModules origin s.logging.modules) (.moduleLevel name)
      (.text level) ↔ ∃ m ∈ s.logging.modules, Text.lowercase m.1 = name ∧ m.2 = level := by
  constructor
  · rintro ⟨a, ha, x, hpath, hx, hread⟩
    rcases List.mem_append.mp ha with ha | ha
    · simp only [Settings.fieldAssignments, List.mem_cons, List.not_mem_nil, or_false] at ha
      rcases ha with rfl | rfl | rfl | rfl | rfl | rfl | rfl | rfl | rfl | rfl | rfl | rfl | rfl | rfl
        | rfl <;> simp [Setting.path] at hpath
    · obtain ⟨m, hm, rfl⟩ := List.mem_map.mp ha
      obtain rfl := Option.some.inj hx
      exact ⟨m, hm, by simpa [Setting.path] using hpath, SettingValue.text.inj (Except.ok.inj hread)⟩
  · rintro ⟨m, hm, rfl, rfl⟩
    exact ⟨_, List.mem_append_right _ (List.mem_map.mpr ⟨m, hm, rfl⟩), _, rfl, rfl, rfl⟩

/-- With the keys of the layer in any order, a module is set to the level of one of those with its
name in lower case. -/
lemma exists_of_value?_module {row : Layer} (hrow : Reordered (s.rendered origin) row)
    {name level : String} (hlevel : row.value? (.moduleLevel name) = some (.text level)) :
    ∃ m ∈ s.logging.modules, Text.lowercase m.1 = name ∧ m.2 = level := by
  obtain ⟨bs, hbs, hperm⟩ := hrow.assignments? (assignments?_rendered s origin)
  rw [Layer.value?, hbs, Option.bind_some] at hlevel
  exact says_rendered_module.mp ((says_of_setting? hlevel).perm hperm.symm)

/-- No module is forgotten. -/
lemma exists_value?_module {row : Layer} (hrow : Reordered (s.rendered origin) row)
    {m : String × String} (hm : m ∈ s.logging.modules) :
    ∃ y, row.value? (.moduleLevel (Text.lowercase m.1)) = some y := by
  obtain ⟨bs, hbs, hperm⟩ := hrow.assignments? (assignments?_rendered s origin)
  obtain ⟨bs', hbs', hfits⟩ := (fits_rendered s origin).reordered hrow
  obtain rfl := Option.some.inj (hbs.symm.trans hbs')
  rw [Layer.value?, hbs, Option.bind_some]
  exact exists_setting?_of_says hfits ((says_rendered_module.mpr ⟨m, hm, rfl, rfl⟩).perm hperm)

/-! ### Loading -/

/-- No variable of the environment sets a key. -/
def Host.SetsNothing (h : Host) : Prop :=
  ∀ v ∈ h.environment, Text.dropStart? variableStart.toList (Text.lowercase v.1).toList = none

lemma Host.SetsNothing.ofEnvironment_eq {h : Host} (hnothing : h.SetsNothing) :
    ofEnvironment h = [] := by
  rw [ofEnvironment, List.filterMap_eq_nil_iff]
  intro v hv
  rw [ofVariable?, hnothing v hv]
  rfl

namespace Settings

variable {s' : Settings} {h : Host} {file : Path}

/-- Settings are loaded as they were rendered: each module is under its name in lower case, with the
level of one of those with this name, and no name is there twice. -/
structure LoadedAs (s s' : Settings) : Prop where
  scan : s'.scan = s.scan
  storage : s'.storage = s.storage
  logging : s'.logging = { s.logging with modules := s'.logging.modules }
  distinct : s'.ModulesDistinct
  level : ∀ m' ∈ s'.logging.modules, ∃ m ∈ s.logging.modules,
    Text.lowercase m.1 = m'.1 ∧ m.2 = m'.2
  name : ∀ m ∈ s.logging.modules, ∃ m' ∈ s'.logging.modules, m'.1 = Text.lowercase m.1

/-- Settings are what they say about every setting, but for modules. -/
lemma eq_of_value?_eq (hsame : ∀ k, (∀ name, k ≠ .moduleLevel name) → s'.value? k = s.value? k) :
    s'.scan = s.scan ∧ s'.storage = s.storage
      ∧ s'.logging = { s.logging with modules := s'.logging.modules } := by
  obtain ⟨⟨follow, ignore, sorted, empty⟩, ⟨workspaces, history⟩,
    ⟨level, format, output, logFile, color, modules⟩⟩ := s'
  obtain rfl := SettingValue.flag.inj (Option.some.inj (hsame .followLinks nofun))
  obtain rfl := SettingValue.words.inj (Option.some.inj (hsame .ignore nofun))
  obtain rfl := SettingValue.flag.inj (Option.some.inj (hsame .sorted nofun))
  obtain rfl := SettingValue.treatment.inj (Option.some.inj (hsame .emptyDirectories nofun))
  obtain rfl := SettingValue.text.inj (Option.some.inj (hsame .workspacesPath nofun))
  obtain rfl := SettingValue.text.inj (Option.some.inj (hsame .historyPath nofun))
  obtain rfl := SettingValue.text.inj (Option.some.inj (hsame .level nofun))
  obtain rfl := SettingValue.text.inj (Option.some.inj (hsame .format nofun))
  obtain rfl := SettingValue.text.inj (Option.some.inj (hsame .output nofun))
  obtain rfl := SettingValue.text.inj (Option.some.inj (hsame .file nofun))
  obtain rfl := SettingValue.flag.inj (Option.some.inj (hsame .color nofun))
  exact ⟨rfl, rfl, rfl⟩

/-- Settings that come from the layer of rendered ones alone are loaded as those. -/
lemma ComeFrom.loadedAs {row : Layer} (hrow : Reordered (s.rendered origin) row)
    (hfrom : s'.ComeFrom [[], row]) : s.LoadedAs s' := by
  obtain ⟨hdistinct, hvalue⟩ := hfrom
  have hlayer : ∀ k, s'.value? k = (row.value? k).or (standard.value? k) := by
    intro k
    have hnone : Layer.value? [] k = none := rfl
    rw [hvalue k, List.findSome?_cons, hnone, List.findSome?_singleton]
  have hsame : ∀ k, (∀ name, k ≠ .moduleLevel name) → s'.value? k = s.value? k := by
    intro k hk
    rw [hlayer, value?_rendered hrow hk]
    cases k with
    | moduleLevel name => exact absurd rfl (hk name)
    | _ => rfl
  have hmodule : ∀ name, (s'.logging.modules.lookup name).map SettingValue.text
      = row.value? (.moduleLevel name) := by
    intro name
    have hstandard : standard.value? (.moduleLevel name) = none := rfl
    rw [← Option.or_none (o := Layer.value? _ _), ← hstandard]
    exact hlayer (.moduleLevel name)
  obtain ⟨hscan, hstorage, hlogging⟩ := eq_of_value?_eq hsame
  refine ⟨hscan, hstorage, hlogging, hdistinct, fun m' hm' => ?_, fun m hm => ?_⟩
  · have hlookup := (lookup_eq_some_iff_mem hdistinct).mpr hm'
    exact exists_of_value?_module hrow (by rw [← hmodule, hlookup, Option.map_some])
  · obtain ⟨y, hy⟩ := exists_value?_module hrow hm
    rw [← hmodule, Option.map_eq_some_iff] at hy
    obtain ⟨level, hlevel, -⟩ := hy
    exact ⟨_, (lookup_eq_some_iff_mem hdistinct).mp hlevel, rfl⟩

/-- **Names in lower case are kept**, and with them all modules. -/
lemma LoadedAs.perm (hloaded : s.LoadedAs s') (hs : s.ModulesDistinct)
    (hlower : ∀ m ∈ s.logging.modules, Text.lowercase m.1 = m.1) :
    s'.logging.modules.Perm s.logging.modules := by
  have hkept : ∀ m' ∈ s'.logging.modules, m' ∈ s.logging.modules := by
    intro m' hm'
    obtain ⟨m, hm, hname, hlevel⟩ := hloaded.level m' hm'
    rwa [← Prod.ext ((hlower m hm).symm.trans hname) hlevel]
  rw [List.perm_ext_iff_of_nodup (.of_map _ hloaded.distinct) (.of_map _ hs)]
  refine fun m => ⟨hkept m, fun hm => ?_⟩
  obtain ⟨m', hm', hname⟩ := hloaded.name m hm
  have hsame : m' = m :=
    List.inj_on_of_nodup_map hs (hkept m' hm') hm (hname.trans (hlower m hm))
  rwa [← hsame]

/-- Settings that were loaded are the rendered ones if the modules are. -/
lemma LoadedAs.eq (hloaded : s.LoadedAs s') (hmodules : s'.logging.modules = s.logging.modules) :
    s' = s := by
  have hlogging := hloaded.logging
  rw [hmodules] at hlogging
  obtain ⟨scan, storage, logging⟩ := s'
  obtain rfl : scan = _ := hloaded.scan
  obtain rfl : storage = _ := hloaded.storage
  obtain rfl : logging = _ := hlogging
  rfl

/-- A file that is found under its full path, with the extension of TOML, and holds a text. -/
inductive Holds (files : FileSystem) (file : Path) (text : String) : Prop where
  | intro {current : Path} : files.currentPath = .ok current →
      files.isFile (current.join file) = true →
      FileFormat.ofPath? (current.join file) = some .toml →
      files.read (current.join file) = .ok (Text.utf8 text) → Holds files file text

/-- **A file with the text of settings is loaded as those**, in whatever order the keys are taken. -/
theorem mayLoad_of_holds (hs : s.ModulesDistinct) (hnothing : h.SetsNothing)
    (hfile : Holds h.files file s.toToml) {r : Except LoadError Settings}
    (hr : (Source.file file).MayLoad h r) : ∃ s', r = .ok s' ∧ s.LoadedAs s' := by
  obtain ⟨hcurrent, hfile, hformat, hread⟩ := hfile
  have hlayer := InFile.intro hcurrent hfile hformat hread (Text.decode_utf8 _) (parse?_toToml hs)
  obtain ⟨s', files', environment', hload, hfiles', henvironment', hfrom⟩ :=
    Source.mayLoad_ok (Source.layers_file hlayer) (hnothing.ofEnvironment_eq ▸ fits_nil)
      (List.forall_mem_singleton.mpr (fits_rendered s _)) hr
  rw [hnothing.ofEnvironment_eq] at henvironment'
  obtain rfl := henvironment'.eq_nil
  cases hfiles' with
  | cons hrow hnone =>
      cases hnone
      exact ⟨s', hload, hfrom.loadedAs hrow⟩

lemma loadFile_of_holds (hs : s.ModulesDistinct) (hnothing : h.SetsNothing)
    (hfile : Holds h.files file s.toToml) : ∃ s', loadFile h file = .ok s' ∧ s.LoadedAs s' :=
  mayLoad_of_holds hs hnothing hfile (Source.mayLoad_load h (.file file))

/-- A file holds what was written to it under its full path. -/
lemma holds_of_write (hfs : h.files.root.Distinct) {files : FileSystem} {current : Path}
    {text : String} {modified : ℤ} (hcurrent : h.files.currentPath = .ok current)
    (hformat : FileFormat.ofPath? (current.join file) = some .toml)
    (hwritten : h.files.write (current.join file) (Text.utf8 text) modified = .ok files)
    (hfile : files.isFile (current.join file) = true) : Holds files file text := by
  obtain ⟨hnode, hputs⟩ := FileSystem.write_ok_of_isFile hfs hwritten hfile
  refine .intro (FileSystem.currentPath_of_grows hputs.grows hcurrent) hfile hformat ?_
  rw [FileSystem.read, hnode]
  rfl

/-- **Rendered settings are loaded back** from any file that they are written to, where no variable
sets a key, in whatever order the keys are taken: every setting is what it was, the names to leave
out are the same list, and every module is there under its name in lower case, with the level of one
of those with this name. Where all names are in lower case the modules are the same. -/
theorem loadFile_written (hs : s.ModulesDistinct) (hfs : h.files.root.Distinct)
    (hnothing : h.SetsNothing) {files : FileSystem} {current : Path} {modified : ℤ}
    (hcurrent : h.files.currentPath = .ok current)
    (hformat : FileFormat.ofPath? (current.join file) = some .toml)
    (hwritten : h.files.write (current.join file) (Text.utf8 s.toToml) modified = .ok files)
    (hfile : files.isFile (current.join file) = true) {r : Except LoadError Settings}
    (hr : (Source.file file).MayLoad (h.withFiles files) r) :
    ∃ s', r = .ok s' ∧ s.LoadedAs s'
      ∧ ((∀ m ∈ s.logging.modules, Text.lowercase m.1 = m.1) →
        s'.logging.modules.Perm s.logging.modules) := by
  obtain ⟨s', hload, hloaded⟩ := mayLoad_of_holds (h := h.withFiles files) hs hnothing
    (holds_of_write hfs hcurrent hformat hwritten hfile) hr
  exact ⟨s', hload, hloaded, hloaded.perm hs⟩

/-! ### A file with a module -/

/-- The standard settings with a level for one module. -/
def withModule (name : String) : Settings :=
  { standard with logging := { LoggingSettings.standard with modules := [(name, "debug")] } }

lemma modulesDistinct_withModule (name : String) : (withModule name).ModulesDistinct :=
  List.nodup_singleton name

/-- One level is loaded under the name in lower case. -/
lemma modules_of_withModule {name : String} (hloaded : (withModule name).LoadedAs s') :
    s'.logging.modules = [(Text.lowercase name, "debug")] := by
  have hall : ∀ m' ∈ s'.logging.modules, m' = (Text.lowercase name, "debug") := by
    intro m' hm'
    obtain ⟨m, hm, hlower, hlevel⟩ := hloaded.level m' hm'
    obtain rfl := List.mem_singleton.mp hm
    exact Prod.ext hlower.symm hlevel.symm
  obtain ⟨m', hm', -⟩ := hloaded.name (name, "debug") (List.mem_singleton_self _)
  refine List.perm_singleton.mp ((List.perm_ext_iff_of_nodup (.of_map _ hloaded.distinct)
    (List.nodup_singleton _)).mpr fun m => ?_)
  rw [List.mem_singleton]
  refine ⟨hall m, ?_⟩
  rintro rfl
  rwa [← hall m' hm']

/-- A text is written over the file with the settings of the workspace `/w`. -/
lemma write_configured (text : String) :
    (configured "" []).files.write ((Path.ofText "/").join configuredFile) (Text.utf8 text) 0
      = .ok (configured text []).files := by
  cbv

lemma withFiles_configured (text : String) :
    (configured "" []).withFiles (configured text []).files = configured text [] := rfl

lemma setsNothing_configured (text : String) : (configured text []).SetsNothing :=
  List.forall_mem_nil _

lemma isFile_configured (text : String) :
    (configured text []).files.isFile ((Path.ofText "/").join configuredFile) = true := by
  cbv

lemma formatOf_configuredFile :
    FileFormat.ofPath? ((Path.ofText "/").join configuredFile) = some .toml := by
  decide +kernel

lemma holds_configured (text : String) : Holds (configured text []).files configuredFile text :=
  have hread : (configured text []).files.read ((Path.ofText "/").join configuredFile)
      = .ok (Text.utf8 text) := by cbv
  .intro rfl (isFile_configured text) formatOf_configuredFile hread

/-- **A name in mixed case is not kept**: what was rendered with a level for `MyMod` is loaded with
one for `mymod`. -/
theorem mixed_case_not_kept : (configured "" []).files.write ((Path.ofText "/").join configuredFile)
      (Text.utf8 (withModule "MyMod").toToml) 0 = .ok (configured (withModule "MyMod").toToml []).files
    ∧ ∀ r, (Source.file configuredFile).MayLoad (configured (withModule "MyMod").toToml []) r →
      ∃ s', r = .ok s' ∧ s'.logging.modules = [("mymod", "debug")] ∧ s' ≠ withModule "MyMod" := by
  refine ⟨write_configured _, fun r hr => ?_⟩
  obtain ⟨s', hload, hloaded⟩ := mayLoad_of_holds (modulesDistinct_withModule "MyMod")
    (setsNothing_configured _) (holds_configured _) hr
  have hmodules := modules_of_withModule hloaded
  rw [show Text.lowercase "MyMod" = "mymod" by decide +kernel] at hmodules
  refine ⟨s', hload, hmodules, ?_⟩
  rintro rfl
  simp [withModule] at hmodules

/-- One in lower case is kept, and so are the settings, with the keys in the order of the text and in
any other one. -/
theorem loadFile_written_lower :
    loadFile (configured (withModule "mymod").toToml []) configuredFile = .ok (withModule "mymod") ∧
      ∀ r, (Source.file configuredFile).MayLoad (configured (withModule "mymod").toToml []) r →
        r = .ok (withModule "mymod") := by
  have hfs : (configured "" []).files.root.Distinct := by
    refine .intro (by simp [configured]) fun name inner hmem => ?_
    obtain ⟨-, rfl⟩ : name = Text.utf8 "w" ∧ _ := by simpa [configured] using hmem
    refine .intro (by simp) fun name inner hmem => ?_
    obtain ⟨-, rfl⟩ : name = Text.utf8 "config" ∧ _ := by simpa using hmem
    exact .intro (by simp) (by simp)
  have hcurrent : (configured "" []).files.currentPath = .ok (.ofText "/") := rfl
  have hany : ∀ r, (Source.file configuredFile).MayLoad
      (configured (withModule "mymod").toToml []) r → r = .ok (withModule "mymod") := by
    intro r hr
    obtain ⟨s', hload, hloaded, hperm⟩ := loadFile_written (modulesDistinct_withModule "mymod") hfs
      (setsNothing_configured _) hcurrent formatOf_configuredFile (write_configured _)
      (isFile_configured _) (withFiles_configured _ ▸ hr)
    have hmodules : s'.logging.modules = [("mymod", "debug")] :=
      List.perm_singleton.mp (hperm (by decide +kernel))
    rw [hload, hloaded.eq hmodules]
  exact ⟨hany _ (Source.mayLoad_load _ _), hany⟩

end Settings

end TreeDigest

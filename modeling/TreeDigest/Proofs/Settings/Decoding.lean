import Mathlib
import TreeDigest.Settings.Decode
import TreeDigest.Proofs.Settings.Assignments

/-!
Settings one by one.

A `Setting` is one thing that can be set: a field of a part, or the level of one module in the
log. Each has a path of names in a merged layer, a way to read the value there, and a place in the
finished settings. What stands under other keys is not looked at.

* `ofLayers_ok`: if the parts of a merged layer are tables and what stands on the paths of settings
  can be read, then the layer has settings, and each of them is what stands on its path, or the
  standard one where nothing does.
-/

namespace TreeDigest

/-! ### Settings and their values -/

/-- Something that can be set. -/
inductive Setting where
  | followLinks
  | ignore
  | sorted
  | emptyDirectories
  | workspacesPath
  | historyPath
  | level
  | format
  | output
  | file
  | color
  | moduleLevel (name : String)
  deriving DecidableEq

/-- A value that something can be set to. -/
inductive SettingValue where
  | flag (b : Bool)
  | words (ws : List String)
  | treatment (e : EmptyDirectories)
  | text (s : String)
  deriving DecidableEq

namespace Setting

/-- The names that lead to a setting in a merged layer. -/
def path : Setting → List String
  | followLinks => ["snapshot", "follow_symlinks"]
  | ignore => ["snapshot", "ignore_patterns"]
  | sorted => ["snapshot", "sorted_walk"]
  | emptyDirectories => ["snapshot", "empty_directories"]
  | workspacesPath => ["storage", "workspaces_path"]
  | historyPath => ["storage", "history_path"]
  | level => ["logging", "level"]
  | format => ["logging", "format"]
  | output => ["logging", "output"]
  | file => ["logging", "file"]
  | color => ["logging", "color"]
  | moduleLevel name => ["logging", "modules", name]

/-- The value that a setting is given by a value of a layer. -/
def read (k : Setting) (v : LayerValue) : Except LoadError SettingValue :=
  match k with
  | followLinks | sorted | color => v.asBoolean.map .flag
  | ignore => v.asTexts.map .words
  | emptyDirectories => v.asEmptyDirectories.map .treatment
  | _ => v.asText.map .text

/-- Paths of settings do not lead through each other. -/
lemma eq_of_path_prefix {k k' : Setting} (hstart : k.path <+: k'.path) : k = k' := by
  cases k <;> cases k' <;> simp_all [path]

end Setting

/-- What the settings say about a setting. Only modules may be without one. -/
def Settings.value? (s : Settings) : Setting → Option SettingValue
  | .followLinks => some (.flag s.scan.followLinks)
  | .ignore => some (.words s.scan.ignore)
  | .sorted => some (.flag s.scan.sorted)
  | .emptyDirectories => some (.treatment s.scan.emptyDirectories)
  | .workspacesPath => some (.text s.storage.workspacesPath)
  | .historyPath => some (.text s.storage.historyPath)
  | .level => some (.text s.logging.level)
  | .format => some (.text s.logging.format)
  | .output => some (.text s.logging.output)
  | .file => some (.text s.logging.file)
  | .color => some (.flag s.logging.color)
  | .moduleLevel name => (s.logging.modules.lookup name).map .text

/-! ### Fields and parts -/

namespace LayerValue

section Field

variable {α : Type} {read : LayerValue → Except LoadError α} {standard : α} {o : Option LayerValue}

/-- What is read where something stands, and the standard value where nothing does. -/
def readOr (read : LayerValue → Except LoadError α) (standard : α) (o : Option LayerValue) : α :=
  (o.bind fun v => (read v).toOption).getD standard

lemma fieldOr_ok (key : String) (hread : ∀ v, o = some v → ∃ x, read v = .ok x) :
    fieldOr read standard (o.map fun v => (key, v)) = .ok (readOr read standard o) := by
  cases o with
  | none => rfl
  | some v =>
      obtain ⟨x, hx⟩ := hread v rfl
      simp only [Option.map_some, fieldOr, hx, readOr, Option.bind_some]
      rfl

/-- A part that is missing counts as a table without fields. -/
lemma fieldOr_part (key : String) {x : α} (hstandard : read emptyTable = .ok standard)
    (hread : read (o.getD emptyTable) = .ok x) :
    fieldOr read standard (o.map fun v => (key, v)) = .ok x := by
  cases o with
  | none => exact hstandard.symm.trans hread
  | some v =>
      rw [Option.getD_some] at hread
      simp only [Option.map_some, fieldOr, hread]
      rfl

lemma readOr_value (f : α → SettingValue) :
    some (f (readOr read standard o))
      = (o.bind fun v => ((read v).map f).toOption).or (some (f standard)) := by
  cases o with
  | none => rfl
  | some v =>
      simp only [readOr, Option.bind_some]
      cases read v <;> rfl

end Field

lemma ok_of_map_ok {α β : Type} {f : α → β} {e : Except LoadError α} {y : β}
    (he : e.map f = .ok y) : ∃ x, e = .ok x := by
  cases e with
  | error e => cases he
  | ok x => exact ⟨x, rfl⟩

/-- The fields of a part that is a table. -/
lemma part_of_orderly {w : LayerValue} (hw : w.Orderly) (name : String) (keys : List String) :
    w.part name keys = .ok (keys.map fun key => (w.field? key).map fun v => (key, v)) := by
  obtain ⟨o, fs, rfl, -⟩ := hw
  rfl

/-- The strings of a table, by name. -/
lemma textFields_ok {fs : List (String × LayerValue)} (hfs : ∀ f ∈ fs, ∃ s, f.2.asText = .ok s) :
    ∃ texts, textFields fs = .ok texts ∧ texts.map (·.1) = fs.map (·.1) ∧
      ∀ name, texts.lookup name = (fs.lookup name).bind fun v => v.asText.toOption := by
  induction fs with
  | nil => exact ⟨[], rfl, rfl, fun _ => rfl⟩
  | cons f fs ih =>
      obtain ⟨key, v⟩ := f
      obtain ⟨text, htext⟩ := hfs (key, v) (by simp)
      obtain ⟨texts, hok, hkeys, hlookup⟩ := ih fun f hf => hfs f (by simp [hf])
      refine ⟨(key, text) :: texts, ?_, by rw [List.map_cons, List.map_cons, hkeys], fun name => ?_⟩
      · rw [textFields]
        simp only [htext, hok, Except.mapError, bind, Except.bind, pure, Except.pure]
      · by_cases hname : key = name
        · subst hname
          rw [List.lookup_cons_self, List.lookup_cons_self, Option.bind_some, htext]
          rfl
        · have hne : (name == key) = false := by simpa using Ne.symm hname
          rw [List.lookup_cons, List.lookup_cons, hne]
          exact hlookup name

end LayerValue

open LayerValue

/-! ### The parts of the settings -/

section Parts

variable {w : LayerValue}

/-- What stands on the paths of settings can be read. -/
def LayerValue.Readable (v : LayerValue) : Prop :=
  ∀ (k : Setting) (x : LayerValue), v.find? k.path = some x → ∃ y, k.read x = .ok y

lemma ScanOptions.ofLayers_ok (hw : w.Orderly)
    (hfollow : ∀ v, w.field? "follow_symlinks" = some v → ∃ b, v.asBoolean = .ok b)
    (hignore : ∀ v, w.field? "ignore_patterns" = some v → ∃ ws, v.asTexts = .ok ws)
    (hsorted : ∀ v, w.field? "sorted_walk" = some v → ∃ b, v.asBoolean = .ok b)
    (hempty : ∀ v, w.field? "empty_directories" = some v → ∃ e, v.asEmptyDirectories = .ok e) :
    ofLayers w = .ok ⟨readOr asBoolean false (w.field? "follow_symlinks"),
      readOr asTexts [".git"] (w.field? "ignore_patterns"),
      readOr asBoolean true (w.field? "sorted_walk"),
      readOr asEmptyDirectories .included (w.field? "empty_directories")⟩ := by
  simp only [ofLayers, part_of_orderly hw, List.map_cons, List.map_nil, bind, Except.bind, pure,
    Except.pure]
  rw [fieldOr_ok _ hfollow, fieldOr_ok _ hignore, fieldOr_ok _ hsorted, fieldOr_ok _ hempty]

lemma StorageSettings.ofLayers_ok (hw : w.Orderly)
    (hworkspaces : ∀ v, w.field? "workspaces_path" = some v → ∃ s, v.asText = .ok s)
    (hhistory : ∀ v, w.field? "history_path" = some v → ∃ s, v.asText = .ok s) :
    ofLayers w = .ok ⟨readOr asText standard.workspacesPath (w.field? "workspaces_path"),
      readOr asText standard.historyPath (w.field? "history_path")⟩ := by
  simp only [ofLayers, part_of_orderly hw, List.map_cons, List.map_nil, bind, Except.bind, pure,
    Except.pure]
  rw [fieldOr_ok _ hworkspaces, fieldOr_ok _ hhistory]

lemma LoggingSettings.ofLayers_ok {texts : List (String × String)} (hw : w.Orderly)
    (hlevel : ∀ v, w.field? "level" = some v → ∃ s, v.asText = .ok s)
    (hformat : ∀ v, w.field? "format" = some v → ∃ s, v.asText = .ok s)
    (houtput : ∀ v, w.field? "output" = some v → ∃ s, v.asText = .ok s)
    (hfile : ∀ v, w.field? "file" = some v → ∃ s, v.asText = .ok s)
    (hcolor : ∀ v, w.field? "color" = some v → ∃ b, v.asBoolean = .ok b)
    (hmodules : ((w.field? "modules").getD emptyTable).asTextTable = .ok texts) :
    ofLayers w = .ok ⟨readOr asText standard.level (w.field? "level"),
      readOr asText standard.format (w.field? "format"),
      readOr asText standard.output (w.field? "output"),
      readOr asText standard.file (w.field? "file"),
      readOr asBoolean standard.color (w.field? "color"), texts⟩ := by
  have hnone : emptyTable.asTextTable = .ok standard.modules := rfl
  simp only [ofLayers, part_of_orderly hw, List.map_cons, List.map_nil, bind, Except.bind, pure,
    Except.pure]
  rw [fieldOr_ok _ hlevel, fieldOr_ok _ hformat, fieldOr_ok _ houtput, fieldOr_ok _ hfile,
    fieldOr_ok _ hcolor, fieldOr_part _ hnone hmodules]

end Parts

/-! ### All settings -/

/-- The paths of the tables that hold settings. -/
def Setting.tables : List (List String) :=
  [[], ["snapshot"], ["storage"], ["logging"], ["logging", "modules"]]

/-- The part of a merged layer under a key; a missing part counts as a table without fields. -/
def LayerValue.partAt (v : LayerValue) (key : String) : LayerValue := (v.field? key).getD emptyTable

lemma LayerValue.find?_two (v : LayerValue) (key key' : String) :
    v.find? [key, key'] = (v.partAt key).field? key' := by
  cases hfield : v.field? key with
  | none => simp only [find?, partAt, hfield, Option.bind_none]; rfl
  | some w =>
      simp only [find?, partAt, hfield, Option.bind_some, Option.getD_some]
      exact Option.bind_fun_some (w.field? key')

lemma LayerValue.find?_three (v : LayerValue) (key key' key'' : String) :
    v.find? [key, key', key''] = ((v.partAt key).partAt key').field? key'' := by
  have hstep : v.find? [key, key', key''] = (v.partAt key).find? [key', key''] :=
    (find?_getD (v.field? key) (by simp)).symm
  rw [hstep, find?_two]

/-- Where keys are distinct a key finds its field and no other one. -/
lemma lookup_eq_some_iff_mem {α : Type} {fs : List (String × α)} (hfs : (fs.map (·.1)).Nodup)
    {key : String} {a : α} : fs.lookup key = some a ↔ (key, a) ∈ fs := by
  rw [List.lookup_eq_some_iff]
  constructor
  · rintro ⟨before, after, rfl, -⟩
    simp
  · intro hmem
    obtain ⟨before, after, rfl⟩ := List.append_of_mem hmem
    rw [List.map_append, List.nodup_append] at hfs
    refine ⟨before, after, rfl, fun f hf => ?_⟩
    have hne : f.1 ≠ key := hfs.2.2 _ (List.mem_map_of_mem hf) _ (by simp)
    simpa using hne.symm

section All

variable {v : LayerValue}

lemma LayerValue.orderly_partAt {key : String} (hv : v.OrderlyAt [key]) : (v.partAt key).Orderly :=
  hv.field _ rfl

/-- The levels of the modules can be read if each of them can. -/
lemma modules_ok (hmodules : v.OrderlyAt ["logging", "modules"]) (hread : v.Readable) :
    ∃ texts, ((v.partAt "logging").partAt "modules").asTextTable = .ok texts ∧
      (texts.map (·.1)).Nodup ∧ ∀ name, (texts.lookup name).map .text
        = (v.find? (Setting.moduleLevel name).path).bind fun x =>
          ((Setting.moduleLevel name).read x).toOption := by
  have hfind : ∀ name, v.find? (Setting.moduleLevel name).path
      = ((v.partAt "logging").partAt "modules").field? name := v.find?_three "logging" "modules"
  obtain ⟨o, fs, htable, hnodup⟩ := orderly_partAt hmodules.field
  have hfield : ∀ name, ((v.partAt "logging").partAt "modules").field? name = fs.lookup name := by
    intro name
    change (LayerValue.partAt ((v.field? "logging").getD emptyTable) "modules").field? name = _
    rw [htable]
    rfl
  have htexts : ∀ f ∈ fs, ∃ s, f.2.asText = .ok s := by
    intro f hf
    have hx := (hfind f.1).trans ((hfield f.1).trans ((lookup_eq_some_iff_mem hnodup).mpr hf))
    exact (hread (.moduleLevel f.1) f.2 hx).elim fun _ hy => ok_of_map_ok hy
  obtain ⟨texts, hok, hkeys, hlookup⟩ := textFields_ok htexts
  refine ⟨texts, ?_, by rwa [hkeys], fun name => ?_⟩
  · change asTextTable (LayerValue.partAt ((v.field? "logging").getD emptyTable) "modules") = _
    rw [htable]
    exact hok
  · rw [hlookup, hfind, hfield]
    cases fs.lookup name with
    | none => rfl
    | some x =>
        simp only [Option.bind_some, Setting.read]
        cases x.asText <;> rfl

/-- The settings of a merged layer are those of its parts. -/
lemma Settings.ofLayers_parts {scan : ScanOptions} {storage : StorageSettings}
    {logging : LoggingSettings} (hv : v.Orderly)
    (hscan : ScanOptions.ofLayers (v.partAt "snapshot") = .ok scan)
    (hstorage : StorageSettings.ofLayers (v.partAt "storage") = .ok storage)
    (hlogging : LoggingSettings.ofLayers (v.partAt "logging") = .ok logging) :
    ofLayers v = .ok ⟨scan, storage, logging⟩ := by
  have hscan' : ScanOptions.ofLayers emptyTable = .ok .standard := rfl
  have hstorage' : StorageSettings.ofLayers emptyTable = .ok .standard := rfl
  have hlogging' : LoggingSettings.ofLayers emptyTable = .ok .standard := rfl
  simp only [ofLayers, part_of_orderly hv, List.map_cons, List.map_nil, bind, Except.bind, pure,
    Except.pure]
  rw [fieldOr_part _ hscan' hscan, fieldOr_part _ hstorage' hstorage,
    fieldOr_part _ hlogging' hlogging]

/-- **A merged layer has settings if its parts are tables and what stands on the paths of settings
can be read.** Each setting is what stands on its path, or else the standard one. -/
theorem Settings.ofLayers_ok (htables : ∀ path ∈ Setting.tables, v.OrderlyAt path)
    (hread : v.Readable) :
    ∃ s, ofLayers v = .ok s ∧ (s.logging.modules.map (·.1)).Nodup ∧
      ∀ k : Setting, s.value? k
        = ((v.find? k.path).bind fun x => (k.read x).toOption).or (standard.value? k) := by
  have hreads : ∀ (k : Setting) key key', k.path = [key, key'] → ∀ x,
      (v.partAt key).field? key' = some x → ∃ y, k.read x = .ok y := by
    intro k key key' hpath x hx
    exact hread k x (by rw [hpath, find?_two, hx])
  have hscan := ScanOptions.ofLayers_ok
    (orderly_partAt (htables ["snapshot"] (by simp [Setting.tables])))
    (fun x hx => (hreads .followLinks _ _ rfl x hx).elim fun _ hy => ok_of_map_ok hy)
    (fun x hx => (hreads .ignore _ _ rfl x hx).elim fun _ hy => ok_of_map_ok hy)
    (fun x hx => (hreads .sorted _ _ rfl x hx).elim fun _ hy => ok_of_map_ok hy)
    (fun x hx => (hreads .emptyDirectories _ _ rfl x hx).elim fun _ hy => ok_of_map_ok hy)
  have hstorage := StorageSettings.ofLayers_ok
    (orderly_partAt (htables ["storage"] (by simp [Setting.tables])))
    (fun x hx => (hreads .workspacesPath _ _ rfl x hx).elim fun _ hy => ok_of_map_ok hy)
    (fun x hx => (hreads .historyPath _ _ rfl x hx).elim fun _ hy => ok_of_map_ok hy)
  obtain ⟨texts, hmodules, hnodup, hlevels⟩ :=
    modules_ok (htables ["logging", "modules"] (by simp [Setting.tables])) hread
  have hlogging := LoggingSettings.ofLayers_ok
    (orderly_partAt (htables ["logging"] (by simp [Setting.tables])))
    (fun x hx => (hreads .level _ _ rfl x hx).elim fun _ hy => ok_of_map_ok hy)
    (fun x hx => (hreads .format _ _ rfl x hx).elim fun _ hy => ok_of_map_ok hy)
    (fun x hx => (hreads .output _ _ rfl x hx).elim fun _ hy => ok_of_map_ok hy)
    (fun x hx => (hreads .file _ _ rfl x hx).elim fun _ hy => ok_of_map_ok hy)
    (fun x hx => (hreads .color _ _ rfl x hx).elim fun _ hy => ok_of_map_ok hy) hmodules
  have hv : v.Orderly := htables [] (by simp [Setting.tables]) v rfl
  refine ⟨_, ofLayers_parts hv hscan hstorage hlogging, hnodup, fun k => ?_⟩
  cases k with
  | moduleLevel name => exact (hlevels name).trans Option.or_none.symm
  | _ =>
      rw [Setting.path, find?_two]
      exact readOr_value _

end All

end TreeDigest

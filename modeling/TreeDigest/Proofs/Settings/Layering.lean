import Mathlib
import TreeDigest.Settings.Sources
import TreeDigest.Proofs.Settings.Decoding
import TreeDigest.Proofs.Settings.Orders
import TreeDigest.Proofs.Text.Utf8

/-!
Which layer a setting comes from.

Where every layer only sets settings to values that can be read, and each of them once, each setting
comes from the highest layer that sets it, whatever the layers say about others and in whatever order
the keys of a layer are taken: lists are taken whole, while modules in the log are settings one by
one. Keys are told apart without regard to case, and the names of modules come out in lower case.

* `Layer.Fits` says that a layer suits the settings, `Layer.SetsEachOnce` that no two of its keys
  reach one setting, and `Layer.value?` what it sets a setting to.
* `Layer.ofMerged_ok` is the law for any row of layers, and `SetsEachOnce.value?_eq` says that the
  order of the keys does not matter.
* `Layer.InFile` is the layer of a file that is there; `Layer.IfPresent` and `Host.GlobalLayer`
  count a file that is not there as a layer without keys.
* `Settings.Source.mayLoad_ok` is what loading may come to, and `Settings.layered` the law for the
  settings of a workspace and of a file.
-/

namespace TreeDigest

/-! ### Layers that suit the settings -/

/-- An assignment that suits the settings: it puts a value on a setting that can be read there, it
makes no table of a setting, or it has nothing to do with settings. -/
inductive Assignment.Fits : Assignment → Prop where
  | setting {k : Setting} {x : LayerValue} {y : SettingValue} : k.read x = .ok y → Fits ⟨k.path, some x⟩
  | table {path : List String} : (∀ k : Setting, ¬ k.path <+: path) → Fits ⟨path, none⟩
  | other {path : List String} {value? : Option LayerValue} :
      (∀ k : Setting, ¬ k.path <+: path ∧ ¬ path <+: k.path) → Fits ⟨path, value?⟩

namespace Assignment

variable {a : Assignment} {as : List Assignment}

lemma Fits.spares_or_sets (ha : a.Fits) (k : Setting) : a.Spares k.path ∨ a.Sets k.path := by
  cases ha with
  | @setting k' x y hread =>
      by_cases hk : k' = k
      · subst hk
        exact .inr ⟨rfl, rfl⟩
      · refine .inl ⟨fun h => hk (Setting.eq_of_path_prefix h).symm, .inr fun h => ?_⟩
        exact hk (Setting.eq_of_path_prefix h)
  | table hpath => exact .inl ⟨hpath k, .inl rfl⟩
  | other hpath => exact .inl ⟨(hpath k).1, .inr (hpath k).2⟩

/-- The tables that hold settings are on the way to some. -/
lemma exists_setting_below {path : List String} (hpath : path ∈ Setting.tables) :
    ∃ k : Setting, path <+: k.path ∧ ¬ k.path <+: path := by
  simp only [Setting.tables, List.mem_cons, List.not_mem_nil, or_false] at hpath
  rcases hpath with rfl | rfl | rfl | rfl | rfl
  · exact ⟨.level, by decide⟩
  · exact ⟨.sorted, by decide⟩
  · exact ⟨.historyPath, by decide⟩
  · exact ⟨.level, by decide⟩
  · exact ⟨.moduleLevel "", by decide⟩

lemma Fits.spares_tables (ha : a.Fits) {path : List String} (hpath : path ∈ Setting.tables) :
    a.value? = none ∨ ¬ a.path <+: path := by
  obtain ⟨k, hbelow, hne⟩ := exists_setting_below hpath
  cases ha with
  | @setting k' x y hread =>
      refine .inr fun h => hne ?_
      rwa [← Setting.eq_of_path_prefix (h.trans hbelow)]
  | table hother => exact .inl rfl
  | other hother => exact .inr fun h => (hother k).2 (h.trans hbelow)

lemma Fits.readable (ha : a.Fits) {k : Setting} {x : LayerValue} (hpath : a.path = k.path)
    (hx : a.value? = some x) : ∃ y, k.read x = .ok y := by
  cases ha with
  | @setting k' x' y hread =>
      obtain rfl : k' = k := Setting.eq_of_path_prefix (hpath ▸ List.prefix_rfl)
      obtain rfl : x' = x := Option.some.inj hx
      exact ⟨y, hread⟩
  | table hother => cases hx
  | other hother => exact absurd (hpath ▸ List.prefix_rfl) (hother k).1

/-- The last value on a path was put there by one of the assignments. -/
lemma exists_of_last? {path : List String} {x : LayerValue} (hx : last? path as = some x) :
    ∃ a ∈ as, a.path = path ∧ a.value? = some x := by
  induction as with
  | nil => cases hx
  | cons a as ih =>
      rw [last?, Option.or_eq_some_iff] at hx
      rcases hx with hx | ⟨-, hx⟩
      · obtain ⟨b, hb, hbx⟩ := ih hx
        exact ⟨b, by simp [hb], hbx⟩
      · by_cases hpath : a.path = path
        · rw [if_pos hpath] at hx
          exact ⟨a, by simp, hpath, hx⟩
        · rw [if_neg hpath] at hx
          cases hx

/-- What some assignments set a setting to. -/
def setting? (as : List Assignment) (k : Setting) : Option SettingValue :=
  (last? k.path as).bind fun x => (k.read x).toOption

/-- The later assignments count. -/
lemma setting?_append {bs : List Assignment} (hbs : ∀ b ∈ bs, b.Fits) (k : Setting) :
    setting? (as ++ bs) k = (setting? bs k).or (setting? as k) := by
  rw [setting?, setting?, last?_append]
  cases hlast : last? k.path bs with
  | none => rfl
  | some x =>
      obtain ⟨b, hb, hpath, hx⟩ := exists_of_last? hlast
      obtain ⟨y, hy⟩ := (hbs b hb).readable hpath hx
      simp only [Option.some_or, Option.bind_some, hy]
      rfl

/-- One of the assignments sets the setting to the value. -/
def Says (as : List Assignment) (k : Setting) (y : SettingValue) : Prop :=
  ∃ a ∈ as, ∃ x, a.path = k.path ∧ a.value? = some x ∧ k.read x = .ok y

lemma Says.perm {bs : List Assignment} {k : Setting} {y : SettingValue} (h : Says as k y)
    (hperm : as.Perm bs) : Says bs k y := by
  obtain ⟨a, ha, hmeans⟩ := h
  exact ⟨a, hperm.mem_iff.mp ha, hmeans⟩

/-- What some assignments set a setting to is what one of them says. -/
lemma says_of_setting? {k : Setting} {y : SettingValue} (hy : setting? as k = some y) :
    Says as k y := by
  rw [setting?, Option.bind_eq_some_iff] at hy
  obtain ⟨x, hlast, hx⟩ := hy
  obtain ⟨a, ha, hpath, hvalue⟩ := exists_of_last? hlast
  cases hread : k.read x with
  | error e => simp [hread, Except.toOption] at hx
  | ok z =>
      obtain rfl : z = y := by simpa [hread, Except.toOption] using hx
      exact ⟨a, ha, x, hpath, hvalue, hread⟩

/-- Where one of the assignments sets a setting, it is set. -/
lemma exists_setting?_of_says (has : ∀ a ∈ as, a.Fits) {k : Setting} {y : SettingValue}
    (hmeans : Says as k y) : ∃ z, setting? as k = some z := by
  induction as with
  | nil => exact absurd hmeans (by simp [Says])
  | cons b bs ih =>
      rw [List.forall_mem_cons] at has
      obtain ⟨a, ha, x, hpath, hvalue, hread⟩ := hmeans
      have hsplit : setting? (b :: bs) k = (setting? bs k).or (setting? [b] k) := by
        rw [← List.singleton_append, setting?_append has.2 k]
      rcases List.mem_cons.mp ha with rfl | ha
      · have hfirst : setting? [a] k = some y := by
          simp [setting?, last?, hpath, hvalue, hread, Except.toOption]
        rw [hsplit, hfirst]
        cases setting? bs k with
        | none => exact ⟨y, rfl⟩
        | some z => exact ⟨z, rfl⟩
      · obtain ⟨z, hz⟩ := ih has.2 ⟨a, ha, x, hpath, hvalue, hread⟩
        exact ⟨z, by rw [hsplit, hz, Option.some_or]⟩

/-- No two of the assignments put a value on a setting. -/
def SetOnce (as : List Assignment) (k : Setting) : Prop :=
  as.Pairwise fun a b => ¬ (a.Sets k.path ∧ b.Sets k.path)

/-- Where no path is given two values, no setting is. -/
lemma setOnce_of_paths (k : Setting)
    (has : as.Pairwise fun a b => a.path = b.path → a.value? = none ∨ b.value? = none) :
    SetOnce as k := by
  refine has.imp fun {a b} h => ?_
  rintro ⟨⟨ha, hasome⟩, hb, hbsome⟩
  rcases h (ha.trans hb.symm) with hnone | hnone
  · simp [hnone] at hasome
  · simp [hnone] at hbsome

/-- A setting that is not set twice is what any of the assignments says. -/
lemma SetOnce.setting?_eq_some_iff {k : Setting} (honce : SetOnce as k) (has : ∀ a ∈ as, a.Fits)
    {y : SettingValue} : setting? as k = some y ↔ Says as k y := by
  refine ⟨says_of_setting?, fun hmeans => ?_⟩
  obtain ⟨z, hz⟩ := exists_setting?_of_says has hmeans
  obtain ⟨a, ha, x, hpath, hvalue, hread⟩ := hmeans
  obtain ⟨b, hb, x', hpath', hvalue', hread'⟩ := says_of_setting? hz
  obtain rfl : a = b := by
    by_contra hne
    have : Std.Symm fun a b : Assignment => ¬ (a.Sets k.path ∧ b.Sets k.path) :=
      ⟨fun _ _ h h' => h h'.symm⟩
    exact honce.forall ha hb hne ⟨⟨hpath, by simp [hvalue]⟩, hpath', by simp [hvalue']⟩
  obtain rfl : x = x' := Option.some.inj (hvalue.symm.trans hvalue')
  rw [hz, Except.ok.inj (hread.symm.trans hread')]

/-- **The order of the assignments does not matter to a setting that is not set twice.** -/
theorem SetOnce.setting?_perm {bs : List Assignment} {k : Setting} (honce : SetOnce as k)
    (has : ∀ a ∈ as, a.Fits) (hperm : as.Perm bs) : setting? bs k = setting? as k := by
  have hbs : ∀ b ∈ bs, b.Fits := fun b hb => has b (hperm.mem_iff.mpr hb)
  have honce' : SetOnce bs k := (hperm.pairwise_iff fun h h' => h h'.symm).mp honce
  refine Option.ext fun y => ?_
  rw [honce'.setting?_eq_some_iff hbs, honce.setting?_eq_some_iff has]
  exact ⟨fun hy => hy.perm hperm.symm, fun hy => hy.perm hperm⟩

end Assignment

namespace Layer

open Assignment

/-- The layer suits the settings. -/
def Fits (layer : Layer) : Prop := ∃ as, assignments? layer = some as ∧ ∀ a ∈ as, a.Fits

/-- What a layer sets a setting to. -/
def value? (layer : Layer) (k : Setting) : Option SettingValue :=
  (assignments? layer).bind fun as => setting? as k

/-- The layer suits the settings, and no two of its keys reach one of them. -/
structure SetsEachOnce (layer : Layer) : Prop where
  fits : layer.Fits
  once : ∀ as, assignments? layer = some as → ∀ k, SetOnce as k

lemma fits_nil : Fits [] := ⟨[], rfl, by simp⟩

lemma setsEachOnce_nil : SetsEachOnce [] := by
  refine ⟨fits_nil, ?_⟩
  rintro _ ⟨⟩ k
  exact .nil

/-- A layer that suits the settings does so with its keys in any order. -/
lemma Fits.reordered {layer layer' : Layer} (hfits : layer.Fits) (h : Reordered layer layer') :
    layer'.Fits := by
  obtain ⟨as, has, hall⟩ := hfits
  obtain ⟨bs, hbs, hperm⟩ := h.assignments? has
  exact ⟨bs, hbs, fun b hb => hall b (hperm.mem_iff.mpr hb)⟩

/-- **What a layer that sets everything once sets a setting to** does not depend on the order of
its keys. -/
theorem SetsEachOnce.value?_eq {layer layer' : Layer} (honce : layer.SetsEachOnce)
    (h : Reordered layer layer') (k : Setting) : layer'.value? k = layer.value? k := by
  obtain ⟨as, has, hfits⟩ := honce.fits
  obtain ⟨bs, hbs, hperm⟩ := h.assignments? has
  rw [value?, value?, has, hbs, Option.bind_some, Option.bind_some]
  exact (honce.once as has k).setting?_perm hfits hperm

/-- The last one of some layers is laid over those before it. -/
lemma merge_append (layers : List Layer) (layer : Layer) :
    merge (layers ++ [layer]) = (merge layers).bind (·.cover layer) := by
  rw [merge, List.foldlM_append]
  refine congrArg (merge layers).bind (funext fun root => ?_)
  simp only [List.foldlM_cons, List.foldlM_nil, bind_pure]

/-- Suitable layers laid one over the other are a row of suitable assignments, and what those set
a setting to is what the highest layer says. -/
lemma merge_eq {layers : List Layer} (hfits : ∀ layer ∈ layers, layer.Fits) :
    ∃ as, merge layers = some (LayerValue.emptyTable.make as) ∧ (∀ a ∈ as, a.Fits) ∧
      ∀ k, setting? as k = layers.reverse.findSome? fun layer => layer.value? k := by
  induction layers using List.reverseRecOn with
  | nil => exact ⟨[], rfl, by simp, fun _ => rfl⟩
  | append_singleton layers layer ih =>
      obtain ⟨as, hmerge, has, hvalue⟩ := ih fun l hl => hfits l (by simp [hl])
      obtain ⟨bs, hlayer, hbs⟩ := hfits layer (by simp)
      refine ⟨as ++ bs, ?_, ?_, fun k => ?_⟩
      · rw [merge_append, hmerge, Option.bind_some, cover_eq hlayer, LayerValue.make_append]
      · intro a ha
        exact (List.mem_append.mp ha).elim (has a) (hbs a)
      · have hhigh : layer.value? k = setting? bs k := by rw [value?, hlayer, Option.bind_some]
        rw [setting?_append hbs, hvalue, List.reverse_append, List.reverse_singleton,
          List.singleton_append, List.findSome?_cons, hhigh]
        cases setting? bs k <;> rfl

/-- **Suitable layers laid one over the other have settings, and each setting is what the highest
layer says that sets it**, or the standard one. -/
theorem ofMerged_ok {layers : List Layer} (hfits : ∀ layer ∈ layers, layer.Fits) :
    ∃ s, Settings.ofMerged layers = .ok s ∧ (s.logging.modules.map (·.1)).Nodup ∧
      ∀ k, s.value? k
        = (layers.reverse.findSome? fun layer => layer.value? k).or (Settings.standard.value? k) := by
  obtain ⟨as, hmerge, has, hvalue⟩ := merge_eq hfits
  have hfind : ∀ k : Setting, (LayerValue.emptyTable.make as).find? k.path = last? k.path as := by
    intro k
    have hempty : LayerValue.emptyTable.find? k.path = none := by cases k <;> rfl
    rw [LayerValue.find?_make (fun a ha => (has a ha).spares_or_sets k), hempty, Option.or_none]
  have htables : ∀ path ∈ Setting.tables, (LayerValue.emptyTable.make as).OrderlyAt path := by
    intro path hpath
    exact LayerValue.orderlyAt_make (fun a ha => (has a ha).spares_tables hpath)
      (LayerValue.orderlyAt_emptyTable path)
  have hread : (LayerValue.emptyTable.make as).Readable := by
    intro k x hx
    rw [hfind] at hx
    obtain ⟨a, ha, hpath, hx⟩ := exists_of_last? hx
    exact (has a ha).readable hpath hx
  obtain ⟨s, hs, hnodup, hsettings⟩ := Settings.ofLayers_ok htables hread
  refine ⟨s, by rw [Settings.ofMerged, hmerge]; exact hs, hnodup, fun k => ?_⟩
  rw [hsettings, hfind, ← hvalue, setting?]

namespace AllReordered

variable {layers rows : List Layer}

lemma refl : ∀ layers : List Layer, AllReordered layers layers
  | [] => .nil
  | layer :: layers => .cons (.refl layer) (refl layers)

lemma concat_iff {layer : Layer} : AllReordered (layers ++ [layer]) rows ↔
    ∃ layers' layer', rows = layers' ++ [layer'] ∧ AllReordered layers layers'
      ∧ Reordered layer layer' := by
  constructor
  · intro h
    induction layers generalizing rows with
    | nil =>
        cases h with
        | cons hlayer hrest =>
            cases hrest
            exact ⟨[], _, rfl, .nil, hlayer⟩
    | cons first layers ih =>
        cases h with
        | cons hfirst hrest =>
            obtain ⟨layers', layer', rfl, hlayers, hlayer⟩ := ih hrest
            exact ⟨_ :: layers', layer', rfl, .cons hfirst hlayers, hlayer⟩
  · rintro ⟨layers', layer', rfl, hlayers, hlayer⟩
    induction hlayers with
    | nil => exact .cons hlayer .nil
    | cons hfirst _ ih => exact .cons hfirst ih

lemma fits (h : AllReordered layers rows) (hfits : ∀ layer ∈ layers, layer.Fits) :
    ∀ row ∈ rows, row.Fits := by
  induction h with
  | nil => exact hfits
  | cons hlayer _ ih =>
      rw [List.forall_mem_cons] at hfits ⊢
      exact ⟨hfits.1.reordered hlayer, ih hfits.2⟩

/-- Layers that set everything once say the same with their keys in any order. -/
lemma findSome?_value? (h : AllReordered layers rows)
    (honce : ∀ layer ∈ layers, layer.SetsEachOnce) (k : Setting) :
    (rows.reverse.findSome? fun row => row.value? k)
      = layers.reverse.findSome? fun layer => layer.value? k := by
  induction h with
  | nil => rfl
  | cons hlayer _ ih =>
      rw [List.forall_mem_cons] at honce
      rw [List.reverse_cons, List.reverse_cons, List.findSome?_append, List.findSome?_append,
        ih honce.2, List.findSome?_singleton, List.findSome?_singleton, honce.1.value?_eq hlayer]

end AllReordered

/-! ### The standard layer -/

section Standard

open LayerValue

/-- What a key of two parts assigns that spells the path of a setting. -/
lemma assignments?_dotted (key part name : String) (o : Option String) (s : Scalar)
    (hparse : KeyPath.parse? key = some [.key part, .key name])
    (hname : Text.lowercase name = name) :
    KeyPath.assignments? key (.scalar o s)
      = some [⟨[part], none⟩, ⟨[part, name], some (.scalar o s)⟩] := by
  rw [KeyPath.assignments?, hparse]
  simp only [KeyPath.names?, Option.map_some, assignmentsBelow, assignmentsAt, hname, within,
    List.map_cons, List.map_nil]

/-- What the standard layer assigns. -/
def standardAssignments : List Assignment := [⟨["snapshot"], none⟩,
  ⟨Setting.followLinks.path, some (.scalar none (.boolean false))⟩, ⟨["snapshot"], none⟩,
  ⟨Setting.sorted.path, some (.scalar none (.boolean true))⟩, ⟨["snapshot"], none⟩,
  ⟨Setting.emptyDirectories.path, some (.scalar none (.text "include_empty_dirs"))⟩,
  ⟨["storage"], none⟩,
  ⟨Setting.workspacesPath.path, some (.scalar none (.text ".snapshots/workspaces"))⟩,
  ⟨["storage"], none⟩,
  ⟨Setting.historyPath.path, some (.scalar none (.text ".snapshots/history"))⟩,
  ⟨["logging"], none⟩, ⟨Setting.level.path, some (.scalar none (.text "info"))⟩]

lemma assignments?_standard : assignments? standard = some standardAssignments := by
  have hfollow := assignments?_dotted "snapshot.follow_symlinks" "snapshot" "follow_symlinks" none
    (.boolean false) (by decide) (by decide +kernel)
  have hsorted := assignments?_dotted "snapshot.sorted_walk" "snapshot" "sorted_walk" none
    (.boolean true) (by decide) (by decide +kernel)
  have hempty := assignments?_dotted "snapshot.empty_directories" "snapshot" "empty_directories"
    none (.text "include_empty_dirs") (by decide) (by decide +kernel)
  have hworkspaces := assignments?_dotted "storage.workspaces_path" "storage" "workspaces_path"
    none (.text ".snapshots/workspaces") (by decide) (by decide +kernel)
  have hhistory := assignments?_dotted "storage.history_path" "storage" "history_path" none
    (.text ".snapshots/history") (by decide) (by decide +kernel)
  have hlevel := assignments?_dotted "logging.level" "logging" "level" none (.text "info")
    (by decide) (by decide +kernel)
  simp only [standard, assignments?]
  rw [hfollow, hsorted, hempty, hworkspaces, hhistory, hlevel]
  rfl

/-- A table for a part suits the settings. -/
lemma fits_part (part : String) : Assignment.Fits ⟨[part], none⟩ := by
  refine .table fun k h => ?_
  have hlength := h.length_le
  cases k <;> simp [Setting.path] at hlength

/-- So does one for the modules. -/
lemma fits_modules : Assignment.Fits ⟨["logging", "modules"], none⟩ := by
  refine .table fun k h => ?_
  cases k <;> simp [Setting.path] at h

lemma read_includedWord : Setting.emptyDirectories.read (.scalar none (.text "include_empty_dirs"))
    = .ok (.treatment .included) := by
  have hword : Text.lowercase "include_empty_dirs" = "include_empty_dirs" := by decide +kernel
  simp only [Setting.read, asEmptyDirectories, emptyDirectoriesWord, hword]
  rfl

lemma fits_standard : Fits standard := by
  refine ⟨_, assignments?_standard, ?_⟩
  simp only [standardAssignments, List.mem_cons, List.not_mem_nil, or_false]
  rintro a (rfl | rfl | rfl | rfl | rfl | rfl | rfl | rfl | rfl | rfl | rfl | rfl)
  · exact fits_part _
  · exact .setting rfl
  · exact fits_part _
  · exact .setting rfl
  · exact fits_part _
  · exact .setting read_includedWord
  · exact fits_part _
  · exact .setting rfl
  · exact fits_part _
  · exact .setting rfl
  · exact fits_part _
  · exact .setting rfl

lemma setsEachOnce_standard : SetsEachOnce standard := by
  refine ⟨fits_standard, fun as has => ?_⟩
  obtain rfl := Option.some.inj (assignments?_standard.symm.trans has)
  exact fun k => setOnce_of_paths k (by simp [standardAssignments, Setting.path])

/-- The standard layer says what the standard settings say, if anything. -/
lemma value?_standard (k : Setting) :
    (standard.value? k).or (Settings.standard.value? k) = Settings.standard.value? k := by
  rw [value?, assignments?_standard, Option.bind_some]
  cases k with
  | emptyDirectories =>
      have hlast : last? Setting.emptyDirectories.path standardAssignments
          = some (.scalar none (.text "include_empty_dirs")) := rfl
      rw [setting?, hlast, Option.bind_some, read_includedWord]
      rfl
  | _ => rfl

end Standard

/-! ### Files -/

variable {files : FileSystem} {name : Path} {layer : Layer}

/-- The layer that stands in a file: found under its full path, with the extension of TOML, it is
text that spells fields. -/
inductive InFile (files : FileSystem) (name : Path) : Layer → Prop where
  | intro {current : Path} {bytes : Bytes} {text : String} {fields : Toml.Fields} :
      files.currentPath = .ok current → files.isFile (current.join name) = true →
      FileFormat.ofPath? (current.join name) = some .toml →
      files.read (current.join name) = .ok bytes → Text.decode bytes = .ok text →
      Toml.parse? text = some fields →
      InFile files name (LayerValue.ofTomlFields (Path.ofComponents
        (Path.fromTo current.components (current.join name).components)).display fields)

/-- The layer of a file that may be absent. -/
inductive IfPresent (files : FileSystem) (name : Path) : Layer → Prop where
  | absent : files.pathExists name = false → IfPresent files name []
  | present {layer : Layer} : files.pathExists name = true → InFile files name layer →
      IfPresent files name layer

lemma InFile.ofFile_eq (hfile : InFile files name layer) (required : Bool) :
    ofFile files required name = .ok layer := by
  cases hfile with
  | @intro current bytes text fields hcurrent hisFile hformat hread hdecode hparse =>
      have hresolve : resolveFile files name = .ok (.toml, (Path.ofComponents
          (Path.fromTo current.components (current.join name).components)).display, text) := by
        simp only [resolveFile, hcurrent, findFile, hisFile, if_true, hformat, hread, hdecode,
          Except.mapError, bind, Except.bind, pure, Except.pure]
      rw [ofFile, hresolve]
      simp only [parse, hparse]

/-- A file that is absent is left out. -/
lemma IfPresent.mapM_eq (hfile : IfPresent files name layer) :
    ∃ layers, ([name].filter files.pathExists).mapM (ofFile files false) = .ok layers ∧
      (layers = [layer] ∨ layers = [] ∧ layer = []) := by
  cases hfile with
  | absent habsent => exact ⟨[], by simp [habsent, pure, Except.pure], .inr ⟨rfl, rfl⟩⟩
  | present hpresent hfile =>
      refine ⟨[layer], ?_, .inl rfl⟩
      simp [hpresent, hfile.ofFile_eq, bind, Except.bind, pure, Except.pure]

end Layer

/-- The layer of the file with the settings of all workspaces, which may be absent. -/
inductive Host.GlobalLayer (h : Host) : Layer → Prop where
  | nowhere : h.globalSettingsFile? = none → GlobalLayer h []
  | absent {p : Path} : h.globalSettingsFile? = some p → h.files.pathExists p = false →
      GlobalLayer h []
  | present {p plain : Path} {layer : Layer} : h.globalSettingsFile? = some p →
      h.files.pathExists p = true → h.files.canonicalize p = .ok plain →
      Layer.InFile h.files plain layer → GlobalLayer h layer

/-- A file that is absent is left out. -/
lemma Host.GlobalLayer.mapM_eq {h : Host} {layer : Layer} (hfile : h.GlobalLayer layer) :
    ∃ layers, (h.globalSettingsFile?.toList.filterMap fun p =>
        if h.files.pathExists p then some ((h.files.canonicalize p).toOption.getD p) else none).mapM
        (Layer.ofFile h.files false) = .ok layers ∧
      (layers = [layer] ∨ layers = [] ∧ layer = []) := by
  cases hfile with
  | nowhere hnone => exact ⟨[], by simp [hnone, pure, Except.pure], .inr ⟨rfl, rfl⟩⟩
  | absent hsome habsent =>
      exact ⟨[], by simp [hsome, habsent, pure, Except.pure], .inr ⟨rfl, rfl⟩⟩
  | present hsome hpresent hplain hfile =>
      refine ⟨[layer], ?_, .inl rfl⟩
      simp [hsome, hpresent, hplain, Except.toOption, hfile.ofFile_eq, bind, Except.bind, pure,
        Except.pure]

/-! ### The law -/

namespace Settings

variable {h : Host}

/-- The settings come from these layers, the highest one first: each setting is what the first of
them says that sets it, or the standard one. No module is there twice. -/
def ComeFrom (s : Settings) (layers : List Layer) : Prop :=
  (s.logging.modules.map (·.1)).Nodup ∧ ∀ k : Setting,
    s.value? k = (layers.findSome? fun layer => layer.value? k).or (standard.value? k)

namespace Source

variable {src : Source} {files : List Layer} {r : Except LoadError Settings}

/-- Taking all keys in the order in which they are given is one of the ways. -/
theorem mayLoad_load (h : Host) (src : Source) : src.MayLoad h (src.load h) := by
  have hload : src.load h = src.layers h >>= fun files => ofMerged (allLayers h files) := by
    cases src with
    | workspace path => rfl
    | file path =>
        simp only [load, layers, loadFile]
        cases Layer.ofFile h.files true path <;> rfl
  cases hfiles : src.layers h with
  | error e =>
      rw [hload, hfiles]
      exact .unread hfiles
  | ok files =>
      rw [hload, hfiles]
      exact .read hfiles (Layer.AllReordered.refl _)

/-- **What loading comes to where all layers suit the settings**: settings that come from the
environment and the files, each with its keys in some order. -/
theorem mayLoad_ok (hfiles : src.layers h = .ok files)
    (henvironment : (Layer.ofEnvironment h).Fits) (hfits : ∀ layer ∈ files, layer.Fits)
    (hr : src.MayLoad h r) : ∃ s files' environment', r = .ok s ∧
      Layer.AllReordered files files' ∧ Layer.Reordered (Layer.ofEnvironment h) environment' ∧
      s.ComeFrom (environment' :: files'.reverse) := by
  cases hr with
  | unread herror =>
      rw [hfiles] at herror
      cases herror
  | read hfiles' hrows =>
      obtain rfl := Except.ok.inj (hfiles.symm.trans hfiles')
      obtain ⟨below, environment', rfl, hbelow, henvironment'⟩ := Layer.AllReordered.concat_iff.mp hrows
      cases hbelow with
      | @cons _ low _ files' hlow hfiles' =>
          have hall : ∀ row ∈ low :: files' ++ [environment'], row.Fits := by
            refine List.forall_mem_append.mpr ⟨List.forall_mem_cons.mpr ⟨?_, ?_⟩, ?_⟩
            · exact Layer.fits_standard.reordered hlow
            · exact hfiles'.fits hfits
            · exact List.forall_mem_singleton.mpr (henvironment.reordered henvironment')
          obtain ⟨s, hs, hnodup, hvalue⟩ := Layer.ofMerged_ok hall
          refine ⟨s, files', environment', hs, hfiles', henvironment', hnodup, fun k => ?_⟩
          have hreverse : (low :: files' ++ [environment']).reverse
              = (environment' :: files'.reverse) ++ [low] := by simp
          have hstandard : ([low].findSome? fun layer => layer.value? k)
              = Layer.standard.value? k := by
            rw [List.findSome?_singleton, Layer.setsEachOnce_standard.value?_eq hlow]
          rw [hvalue, hreverse, List.findSome?_append, Option.or_assoc, hstandard,
            Layer.value?_standard]

/-- Where no setting is set twice in a layer, the order of its keys is no matter. -/
theorem mayLoad_comeFrom (hfiles : src.layers h = .ok files)
    (henvironment : (Layer.ofEnvironment h).SetsEachOnce)
    (honce : ∀ layer ∈ files, layer.SetsEachOnce) (hr : src.MayLoad h r) :
    ∃ s, r = .ok s ∧ s.ComeFrom (.ofEnvironment h :: files.reverse) := by
  obtain ⟨s, files', environment', hs, hfiles', henvironment', hnodup, hvalue⟩ :=
    mayLoad_ok hfiles henvironment.fits (fun layer hlayer => (honce layer hlayer).fits) hr
  refine ⟨s, hs, hnodup, fun k => ?_⟩
  rw [hvalue, List.findSome?_cons, List.findSome?_cons, henvironment.value?_eq henvironment',
    hfiles'.findSome?_value? honce]

end Source

/-- A layer without keys may be left out. -/
lemma findSome?_reverse {layers : List Layer} {layer : Layer}
    (hlayers : layers = [layer] ∨ layers = [] ∧ layer = []) (k : Setting) :
    (layers.reverse.findSome? fun layer => layer.value? k) = layer.value? k := by
  rcases hlayers with rfl | ⟨rfl, rfl⟩
  · rw [List.reverse_singleton, List.findSome?_singleton]
  · rfl

/-- The settings of a workspace come from the environment, the file of the workspace for the
environment it runs in, its file for all, and the file for all workspaces, in this order. -/
theorem workspace_ok {workspace : Path} {global general special : Layer}
    (henvironment : (Layer.ofEnvironment h).SetsEachOnce) (hglobal : h.GlobalLayer global)
    (hgeneral : Layer.IfPresent h.files ((workspace.child "config").child "config.toml") general)
    (hspecial : Layer.IfPresent h.files ((workspace.child "config").child
      ((h.environmentValue? "SNAPSHOTS_ENV").getD "development" ++ ".toml")) special)
    (hglobal' : global.SetsEachOnce) (hgeneral' : general.SetsEachOnce)
    (hspecial' : special.SetsEachOnce) {r : Except LoadError Settings}
    (hr : (Source.workspace workspace).MayLoad h r) :
    ∃ s, r = .ok s ∧ s.ComeFrom [.ofEnvironment h, special, general, global] := by
  obtain ⟨gs, hgs, hgs'⟩ := hglobal.mapM_eq
  obtain ⟨ws, hws, hws'⟩ := hgeneral.mapM_eq
  obtain ⟨es, hes, hes'⟩ := hspecial.mapM_eq
  have honce : ∀ {layer : Layer} {layers : List Layer}, layer.SetsEachOnce →
      (layers = [layer] ∨ layers = [] ∧ layer = []) → ∀ l ∈ layers, l.SetsEachOnce := by
    intro layer layers hlayer hlayers l hl
    rcases hlayers with rfl | ⟨rfl, -⟩
    · rwa [List.mem_singleton.mp hl]
    · cases hl
  have hall : ∀ layer ∈ gs ++ (ws ++ es), layer.SetsEachOnce := by
    intro layer hlayer
    rcases List.mem_append.mp hlayer with hlayer | hlayer
    · exact honce hglobal' hgs' layer hlayer
    rcases List.mem_append.mp hlayer with hlayer | hlayer
    · exact honce hgeneral' hws' layer hlayer
    · exact honce hspecial' hes' layer hlayer
  have hfiles : (Source.workspace workspace).layers h = .ok (gs ++ (ws ++ es)) := by
    rw [Source.layers, standardFiles, List.mapM_append, ← List.singleton_append,
      List.filter_append, List.mapM_append, hgs, hws, hes]
    rfl
  obtain ⟨s, hs, hfrom⟩ := Source.mayLoad_comeFrom hfiles henvironment hall hr
  refine ⟨s, hs, hfrom.1, fun k => ?_⟩
  have hlist : [Layer.ofEnvironment h, special, general, global]
      = [Layer.ofEnvironment h] ++ ([special] ++ [general] ++ [global]) := rfl
  rw [hfrom.2 k, hlist, List.reverse_append, List.reverse_append, ← List.singleton_append]
  simp only [List.findSome?_append, findSome?_reverse hgs', findSome?_reverse hws',
    findSome?_reverse hes', List.findSome?_singleton]

lemma Source.layers_file {file : Path} {layer : Layer} (hfile : Layer.InFile h.files file layer) :
    (Source.file file).layers h = .ok [layer] := by
  rw [Source.layers, hfile.ofFile_eq]
  rfl

/-- **Every setting comes from the highest layer that sets it**, whatever the layers say about
other settings and in whatever order their keys are taken, where no two keys of one layer reach the
same setting: for the settings of a workspace the environment, its file for the environment it runs
in, its file for all and the file for all workspaces, and for those of a file the environment and
the file. -/
theorem layered (henvironment : (Layer.ofEnvironment h).SetsEachOnce) :
    (∀ (workspace : Path) (global general special : Layer), h.GlobalLayer global →
      Layer.IfPresent h.files ((workspace.child "config").child "config.toml") general →
      Layer.IfPresent h.files ((workspace.child "config").child
        ((h.environmentValue? "SNAPSHOTS_ENV").getD "development" ++ ".toml")) special →
      global.SetsEachOnce → general.SetsEachOnce → special.SetsEachOnce →
      ∀ r, (Source.workspace workspace).MayLoad h r → ∃ s, r = .ok s ∧
        s.ComeFrom [.ofEnvironment h, special, general, global]) ∧
    ∀ (file : Path) (layer : Layer), Layer.InFile h.files file layer → layer.SetsEachOnce →
      ∀ r, (Source.file file).MayLoad h r → ∃ s, r = .ok s ∧
        s.ComeFrom [.ofEnvironment h, layer] := by
  refine ⟨fun workspace global general special hglobal hgeneral hspecial hglobal' hgeneral' hspecial'
    r hr => ?_, fun file layer hfile honce r hr => ?_⟩
  · exact workspace_ok henvironment hglobal hgeneral hspecial hglobal' hgeneral' hspecial' hr
  · exact Source.mayLoad_comeFrom (Source.layers_file hfile) henvironment
      (List.forall_mem_singleton.mpr honce) hr

/-! ### One file and one variable -/

open Layer LayerValue Assignment

/-- A machine with a workspace `/w` that has a file with settings. -/
def configured (text : String) (environment : List (String × String)) : Host :=
  ⟨⟨[(Text.utf8 "w", .directory [(Text.utf8 "config", .directory [(Text.utf8 "config.toml",
    .file (Text.utf8 text) 0)])])], []⟩, environment, ⟨0, 0⟩, []⟩

/-- The file with the settings. -/
def configuredFile : Path := ((Path.ofText "/w").child "config").child "config.toml"

lemma inFile_configured {text : String} (environment : List (String × String))
    {fields : Toml.Fields} (hparse : Toml.parse? text = some fields) :
    InFile (configured text environment).files configuredFile
      (ofTomlFields "w/config/config.toml" fields) := by
  have hcurrent : (configured text environment).files.currentPath = .ok (.ofText "/") := rfl
  have hfile : (configured text environment).files.isFile ((Path.ofText "/").join configuredFile)
      = true := by cbv
  have hformat : FileFormat.ofPath? ((Path.ofText "/").join configuredFile) = some .toml := by
    decide +kernel
  have hread : (configured text environment).files.read ((Path.ofText "/").join configuredFile)
      = .ok (Text.utf8 text) := by cbv
  have horigin : (Path.ofComponents (Path.fromTo (Path.ofText "/").components
      ((Path.ofText "/").join configuredFile).components)).display = "w/config/config.toml" := by
    decide +kernel
  have hlayer := InFile.intro hcurrent hfile hformat hread (Text.decode_utf8 text) hparse
  rwa [horigin] at hlayer

/-- Some settings, one of them for a module with a name in mixed case. -/
def mixedText : String := "[logging]\nlevel = \"error\"\n[logging.modules]\nMyMod = \"debug\"\n"

/-- The fields that the text spells. -/
def mixedFields : Toml.Fields :=
  [("logging", .table [("level", .text "error"), ("modules", .table [("MyMod", .text "debug")])])]

/-- The layer of the file with this text. -/
def mixedLayer : Layer := ofTomlFields "w/config/config.toml" mixedFields

lemma inFile_mixedLayer (environment : List (String × String)) :
    InFile (configured mixedText environment).files configuredFile mixedLayer :=
  have hparse : Toml.parse? mixedText = some mixedFields := by cbv
  inFile_configured environment hparse

/-- What the layer assigns. -/
def mixedAssignments : List Assignment :=
  [⟨["logging"], none⟩,
    ⟨Setting.level.path, some (.scalar (some "w/config/config.toml") (.text "error"))⟩,
    ⟨["logging", "modules"], none⟩,
    ⟨(Setting.moduleLevel "mymod").path,
      some (.scalar (some "w/config/config.toml") (.text "debug"))⟩]

lemma assignments?_mixedLayer : assignments? mixedLayer = some mixedAssignments := by
  have hparse : KeyPath.parse? "logging" = some [.key "logging"] := by decide
  have hlogging : Text.lowercase "logging" = "logging" := by decide +kernel
  have hlevel : Text.lowercase "level" = "level" := by decide +kernel
  have hmodules : Text.lowercase "modules" = "modules" := by decide +kernel
  have hname : Text.lowercase "MyMod" = "mymod" := by decide +kernel
  simp only [mixedLayer, mixedFields, ofTomlFields, ofToml, assignments?, KeyPath.assignments?,
    hparse, KeyPath.names?, Option.map_some, assignmentsBelow, assignmentsAt, assignmentsIn,
    hlogging, hlevel, hmodules, hname, within]
  rfl

lemma fits_mixedLayer : mixedLayer.Fits := by
  refine ⟨_, assignments?_mixedLayer, ?_⟩
  simp only [mixedAssignments, List.mem_cons, List.not_mem_nil, or_false]
  rintro a (rfl | rfl | rfl | rfl)
  · exact fits_part _
  · exact .setting rfl
  · exact fits_modules
  · exact .setting rfl

lemma setsEachOnce_mixedLayer : mixedLayer.SetsEachOnce := by
  refine ⟨fits_mixedLayer, fun as has => ?_⟩
  obtain rfl := Option.some.inj (assignments?_mixedLayer.symm.trans has)
  exact fun k => setOnce_of_paths k (by simp [mixedAssignments, Setting.path])

/-- The levels of modules that the layer sets. -/
lemma value?_mixedLayer (name : String) : mixedLayer.value? (.moduleLevel name)
    = if name = "mymod" then some (.text "debug") else none := by
  have hlast : last? (Setting.moduleLevel name).path mixedAssignments = if name = "mymod"
      then some (.scalar (some "w/config/config.toml") (.text "debug")) else none := by
    by_cases hname : name = "mymod"
    · subst hname
      rfl
    · simp [mixedAssignments, last?, Setting.path, hname, Ne.symm hname]
  rw [Layer.value?, assignments?_mixedLayer, Option.bind_some, setting?, hlast]
  by_cases hname : name = "mymod"
  · rw [if_pos hname, if_pos hname]
    rfl
  · rw [if_neg hname, if_neg hname]
    rfl

/-- The machine has the file, and no other ones. -/
lemma files_configured (environment : List (String × String))
    (hgeneral : (configured mixedText environment).globalSettingsFile? = none)
    (hname : (configured mixedText environment).environmentValue? "SNAPSHOTS_ENV" = none) :
    (configured mixedText environment).GlobalLayer [] ∧
      IfPresent (configured mixedText environment).files configuredFile mixedLayer ∧
      IfPresent (configured mixedText environment).files (((Path.ofText "/w").child "config").child
        (((configured mixedText environment).environmentValue? "SNAPSHOTS_ENV").getD "development"
          ++ ".toml")) [] := by
  refine ⟨.nowhere hgeneral, .present (by cbv) (inFile_mixedLayer environment), ?_⟩
  rw [hname, Option.getD_none]
  exact .absent (by cbv)

/-- **Names of modules are not told apart by case**: what the file says about `MyMod` comes out
as a level of `mymod`, and `MyMod` has none. -/
theorem module_names_lowered :
    InFile (configured mixedText []).files configuredFile mixedLayer ∧
      Toml.parse? mixedText = some [("logging", .table [("level", .text "error"),
        ("modules", .table [("MyMod", .text "debug")])])] ∧
      ∀ r, (Source.workspace (.ofText "/w")).MayLoad (configured mixedText []) r → ∃ s, r = .ok s ∧
        s.logging.modules.lookup "MyMod" = none ∧
        s.logging.modules.lookup "mymod" = some "debug" := by
  refine ⟨inFile_mixedLayer [], by cbv, fun r hr => ?_⟩
  obtain ⟨hglobal, hgeneral, hspecial⟩ := files_configured [] rfl rfl
  have henvironment : ofEnvironment (configured mixedText []) = [] := rfl
  obtain ⟨s, hs, -, hvalue⟩ := workspace_ok (henvironment ▸ setsEachOnce_nil) hglobal hgeneral
    hspecial setsEachOnce_nil setsEachOnce_mixedLayer setsEachOnce_nil hr
  have hmodule : ∀ name, (s.logging.modules.lookup name).map .text
      = if name = "mymod" then some (SettingValue.text "debug") else none := by
    intro name
    have hnone : Layer.value? [] (.moduleLevel name) = none := rfl
    have hstandard : standard.value? (.moduleLevel name) = none := rfl
    refine (hvalue (.moduleLevel name)).trans ?_
    rw [henvironment, hstandard]
    by_cases hname : name = "mymod"
    · subst hname
      simp [hnone, value?_mixedLayer]
    · simp [hnone, value?_mixedLayer, hname]
  refine ⟨s, hs, ?_, ?_⟩
  · have hupper := hmodule "MyMod"
    rwa [if_neg (by decide), Option.map_eq_none_iff] at hupper
  · obtain ⟨text, htext, hdebug⟩ := Option.map_eq_some_iff.mp (hmodule "mymod")
    rw [htext, SettingValue.text.inj hdebug]

/-- A machine with this file and with a variable that sets the level of the log. -/
def overridden : Host := configured mixedText [("SNAPSHOTS__LOGGING__LEVEL", "warn")]

lemma ofEnvironment_overridden : ofEnvironment overridden
    = [("logging.level", .scalar (some "the environment") (.text "warn"))] := by
  have hscalar : scalarOf "warn" = .text "warn" := by decide +kernel
  have hname : (Text.dropStart? variableStart.toList
      (Text.lowercase "SNAPSHOTS__LOGGING__LEVEL").toList).map (fun rest => String.ofList (dotted rest))
      = some "logging.level" := by decide +kernel
  obtain ⟨rest, hrest, hkey⟩ := Option.map_eq_some_iff.mp hname
  simp only [ofEnvironment, overridden, configured, List.filterMap_cons, ofVariable?, hrest,
    Option.map_some, hkey, hscalar, List.filterMap_nil]

lemma assignments?_overridden : assignments? (ofEnvironment overridden) = some [⟨["logging"], none⟩,
    ⟨Setting.level.path, some (.scalar (some "the environment") (.text "warn"))⟩] := by
  have hlevel := assignments?_dotted "logging.level" "logging" "level" (some "the environment")
    (.text "warn") (by decide) (by decide +kernel)
  rw [ofEnvironment_overridden, assignments?, hlevel]
  rfl

lemma fits_overridden : (ofEnvironment overridden).Fits := by
  refine ⟨_, assignments?_overridden, ?_⟩
  simp only [List.mem_cons, List.not_mem_nil, or_false]
  rintro a (rfl | rfl)
  · exact fits_part _
  · exact .setting rfl

lemma setsEachOnce_overridden : (ofEnvironment overridden).SetsEachOnce := by
  refine ⟨fits_overridden, fun as has => ?_⟩
  obtain rfl := Option.some.inj (assignments?_overridden.symm.trans has)
  exact fun k => setOnce_of_paths k (by simp [Setting.path])

/-- The variable decides on the level of the log, the file on that of the module, and neither on
the names to leave out. -/
theorem layered_overridden : ∃ s, load overridden (.ofText "/w") = .ok s ∧
    s.logging.level = "warn" ∧ s.logging.modules.lookup "mymod" = some "debug" ∧
    s.scan.ignore = [".git"] := by
  obtain ⟨hglobal, hgeneral, hspecial⟩ :=
    files_configured [("SNAPSHOTS__LOGGING__LEVEL", "warn")] rfl rfl
  obtain ⟨s, hs, -, hvalue⟩ := (layered setsEachOnce_overridden).1 (.ofText "/w") [] mixedLayer []
    hglobal hgeneral hspecial setsEachOnce_nil setsEachOnce_mixedLayer setsEachOnce_nil _
    (Source.mayLoad_load _ _)
  have henvironment : ∀ k, (ofEnvironment overridden).value? k
      = setting? [⟨["logging"], none⟩, ⟨Setting.level.path,
        some (.scalar (some "the environment") (.text "warn"))⟩] k := by
    intro k
    rw [Layer.value?, assignments?_overridden, Option.bind_some]
  have hlevel : s.value? .level = some (.text "warn") := by
    rw [hvalue .level, List.findSome?_cons, henvironment .level]
    rfl
  have hmodule : s.value? (.moduleLevel "mymod") = some (.text "debug") := by
    have hhigh : (ofEnvironment overridden).value? (.moduleLevel "mymod") = none :=
      (henvironment _).trans rfl
    have hnone : Layer.value? [] (.moduleLevel "mymod") = none := rfl
    rw [hvalue (.moduleLevel "mymod"), List.findSome?_cons, hhigh]
    simp [hnone, value?_mixedLayer]
  have hignore : s.value? .ignore = some (.words [".git"]) := by
    have hhigh : (ofEnvironment overridden).value? .ignore = none := (henvironment _).trans rfl
    have hlow : mixedLayer.value? .ignore = none := by
      rw [Layer.value?, assignments?_mixedLayer]
      rfl
    have hnone : Layer.value? [] .ignore = none := rfl
    rw [hvalue .ignore, List.findSome?_cons, hhigh]
    simp only [List.findSome?_cons, hnone, hlow]
    rfl
  refine ⟨s, hs, SettingValue.text.inj (Option.some.inj hlevel), ?_,
    SettingValue.words.inj (Option.some.inj hignore)⟩
  obtain ⟨text, htext, hdebug⟩ := Option.map_eq_some_iff.mp hmodule
  rw [htext, SettingValue.text.inj hdebug]

end Settings

end TreeDigest

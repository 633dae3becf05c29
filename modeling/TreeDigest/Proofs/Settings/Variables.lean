import Mathlib
import TreeDigest.Proofs.Settings.Layering
import TreeDigest.Proofs.Settings.Overriding
import TreeDigest.Proofs.Settings.VariableTexts

/-!
What a variable does to a setting that is a string.

The variables of the environment lie over all files. So where one sets a string, the setting is
what the text of the variable becomes, whatever the files say, and not always the text itself; a
file keeps every string that it sets. The keys of a layer are taken in any order, so this asks that
no other variable has to do with the setting, whether it stands before this one or after it.

* `TextSetting.SparedBy` are the variables that have nothing to do with a setting.
* `Settings.Source.Split` are the orders in which keys are taken, cut in two where the variable of the
  setting goes; `Split.overridden` compares what is merged with it and without.
* `Settings.text_of_variable` is the law.
-/

namespace TreeDigest

open LayerValue

/-! ### Variables -/

namespace TextSetting

/-- What its variable sets. -/
lemma ofVariable?_variableName (k : TextSetting) (v : String) :
    Layer.ofVariable? k.variableName v
      = some (k.key, .scalar (some "the environment") (Layer.scalarOf v)) := by
  have hname : (Text.dropStart? Layer.variableStart.toList
      (Text.lowercase k.variableName).toList).map (fun rest => String.ofList (Layer.dotted rest))
      = some k.key := by
    cases k <;> decide +kernel
  obtain ⟨rest, hrest, hkey⟩ := Option.map_eq_some_iff.mp hname
  rw [Layer.ofVariable?, hrest, Option.map_some, hkey]

/-- A variable has nothing to do with the setting. -/
def SparedBy (k : TextSetting) (variableName : String) : Prop :=
  ∀ text key x, Layer.ofVariable? variableName text = some (key, x) → k.Apart (KeyPath.target key)

/-- Those of other settings are such. -/
lemma sparedBy_variableName {j k : TextSetting} (hne : j ≠ k) : k.SparedBy j.variableName := by
  intro text key x hset
  rw [ofVariable?_variableName] at hset
  obtain ⟨rfl, -⟩ := Prod.mk.inj (Option.some.inj hset)
  rw [target_key]
  refine .inr fun hname => hne ?_
  cases j <;> cases k <;> first | rfl | exact absurd hname (by decide)

end TextSetting

namespace Layer

/-- The layer of some variables. -/
def ofVariables (row : List (String × String)) : Layer :=
  row.filterMap fun e => ofVariable? e.1 e.2

lemma ofVariables_append (before after : List (String × String)) :
    ofVariables (before ++ after) = ofVariables before ++ ofVariables after :=
  List.filterMap_append

lemma ofVariables_variable (k : TextSetting) (v : String) (row : List (String × String)) :
    ofVariables ((k.variableName, v) :: row)
      = (k.key, .scalar (some "the environment") (scalarOf v)) :: ofVariables row := by
  simp only [ofVariables, List.filterMap_cons, k.ofVariable?_variableName v]

/-- Variables only set plain values. -/
lemma exists_scalar_of_ofVariable? {name text key : String} {x : LayerValue}
    (hset : ofVariable? name text = some (key, x)) : ∃ o s, x = .scalar o s := by
  obtain ⟨rest, -, hf⟩ := Option.map_eq_some_iff.mp hset
  exact ⟨_, _, (Prod.mk.inj hf).2.symm⟩

/-- Variables that have nothing to do with a setting spare it. -/
lemma sparedIn_ofVariables {k : TextSetting} {row : List (String × String)}
    (hspared : ∀ e ∈ row, k.SparedBy e.1) : k.SparedIn (ofVariables row) := by
  intro f hf
  obtain ⟨e, he, hset⟩ := List.mem_filterMap.mp hf
  exact ⟨exists_scalar_of_ofVariable? hset, hspared e he _ _ _ hset⟩

end Layer

open Layer

/-! ### Loading -/

/-- The machine with other variables. -/
def Host.withEnvironment (h : Host) (environment : List (String × String)) : Host :=
  { h with environment := environment }

section Files

variable (h : Host) (k : TextSetting) (v : String) (before after : List (String × String))

/-- The variable of a setting has no other meaning. -/
lemma Host.environmentValue?_variable {name : String} (hname : name ≠ k.variableName) :
    (h.withEnvironment (before ++ (k.variableName, v) :: after)).environmentValue? name
      = (h.withEnvironment (before ++ after)).environmentValue? name := by
  have hkey : (name == k.variableName) = false := by simpa using hname
  simp only [environmentValue?, withEnvironment, List.lookup_append, List.lookup_cons, hkey]

/-- So the files that are read do not depend on it. -/
lemma Settings.Source.layers_variable (src : Source) :
    src.layers (h.withEnvironment (before ++ (k.variableName, v) :: after))
      = src.layers (h.withEnvironment (before ++ after)) := by
  have hvalue : ∀ name ∈ ["SNAPSHOTS_ENV", "XDG_CONFIG_HOME", "HOME"],
      (h.withEnvironment (before ++ (k.variableName, v) :: after)).environmentValue? name
        = (h.withEnvironment (before ++ after)).environmentValue? name := by
    intro name hname
    refine h.environmentValue?_variable k v before after ?_
    simp only [List.mem_cons, List.not_mem_nil, or_false] at hname
    rcases hname with rfl | rfl | rfl <;> cases k <;> decide
  simp only [List.forall_mem_cons] at hvalue
  obtain ⟨henvironment, hconfig, hhome, -⟩ := hvalue
  cases src with
  | file path => rfl
  | workspace path =>
      simp only [layers, standardFiles, Host.globalSettingsFile?, Host.configHome?, henvironment,
        hconfig, hhome]
      rfl

end Files

namespace Settings

variable {h : Host} {k : TextSetting} {v : String} {src : Source} {s : Settings}
  {r : Except LoadError Settings} {before after : List (String × String)} {below : List Layer}
  {front back : Layer}

lemma ofMerged_eq_ok_iff {layers : List Layer} : ofMerged layers = .ok s ↔
    ∃ root, merge layers = some root ∧ ofLayers root = .ok s := by
  rw [ofMerged]
  cases merge layers with
  | none => simp
  | some root => simp

namespace Source

/-- Loading succeeds, in whatever order the keys are taken. -/
def AlwaysLoads (h : Host) (src : Source) : Prop := ∀ r, src.MayLoad h r → ∃ s, r = .ok s

/-- An order of the keys in which loading may take them, with those of the environment cut in two:
the layers below the environment, and the two parts. -/
structure Split (src : Source) (h : Host) (below : List Layer) (front back : Layer) : Prop where
  files : ∃ files, src.layers h = .ok files ∧ AllReordered (.standard :: files) below
  environment : (ofEnvironment h).Perm (front ++ back)

/-- The parts may be put together again. -/
lemma Split.mayLoad (hsplit : src.Split h below front back) :
    src.MayLoad h (ofMerged (below ++ [front ++ back])) := by
  obtain ⟨⟨files, hfiles, hbelow⟩, henvironment⟩ := hsplit
  exact .read hfiles (AllReordered.concat_iff.mpr ⟨_, _, rfl, hbelow, .of_perm henvironment⟩)

/-- The variable of the setting may be taken between them. -/
lemma Split.mayLoad_variable (k : TextSetting) (v : String)
    (hsplit : src.Split (h.withEnvironment (before ++ after)) below front back) :
    src.MayLoad (h.withEnvironment (before ++ (k.variableName, v) :: after)) (ofMerged (below
      ++ [front ++ (k.key, .scalar (some "the environment") (scalarOf v)) :: back])) := by
  obtain ⟨⟨files, hfiles, hbelow⟩, henvironment⟩ := hsplit
  have hrow : (ofVariables before ++ ofVariables after).Perm (front ++ back) := by
    rw [← ofVariables_append]
    exact henvironment
  refine .read ((layers_variable h k v before after src).trans hfiles)
    (AllReordered.concat_iff.mpr ⟨_, _, rfl, hbelow, .of_perm ?_⟩)
  have hvariables : ofEnvironment (h.withEnvironment (before ++ (k.variableName, v) :: after))
      = ofVariables before ++ (k.key, .scalar (some "the environment") (scalarOf v))
        :: ofVariables after := by
    rw [← ofVariables_variable, ← ofVariables_append]
    rfl
  rw [hvariables]
  exact List.perm_middle.trans ((hrow.cons _).trans List.perm_middle.symm)

/-- **With the variable of a setting**, the files cannot be read without it either, or the variable
is taken somewhere in an order of the other keys. -/
theorem MayLoad.exists_split
    (hr : src.MayLoad (h.withEnvironment (before ++ (k.variableName, v) :: after)) r) :
    (∃ e, src.layers (h.withEnvironment (before ++ after)) = .error e ∧ r = .error e) ∨
    ∃ below front back, src.Split (h.withEnvironment (before ++ after)) below front back ∧
      r = ofMerged (below
        ++ [front ++ (k.key, .scalar (some "the environment") (scalarOf v)) :: back]) := by
  cases hr with
  | @unread e herror =>
      exact .inl ⟨e, (layers_variable h k v before after src).symm.trans herror, rfl⟩
  | read hfiles hrows =>
      obtain ⟨below, row, rfl, hbelow, hrow⟩ := AllReordered.concat_iff.mp hrows
      have hperm : (ofVariables (before ++ (k.variableName, v) :: after)).Perm row := by
        refine hrow.perm fun f hf => ?_
        obtain ⟨e, he, hset⟩ := List.mem_filterMap.mp hf
        exact exists_scalar_of_ofVariable? hset
      rw [ofVariables_append, ofVariables_variable] at hperm
      have hmem : (k.key, .scalar (some "the environment") (scalarOf v)) ∈ row :=
        hperm.mem_iff.mp (List.mem_append_right _ List.mem_cons_self)
      obtain ⟨front, back, rfl⟩ := List.append_of_mem hmem
      refine .inr ⟨below, front, back, ⟨⟨_, ?_, hbelow⟩, ?_⟩, rfl⟩
      · exact (layers_variable h k v before after src).symm.trans hfiles
      · have hothers := List.perm_middle.symm.trans (hperm.trans List.perm_middle)
        have hcons := (List.perm_cons _).mp hothers
        rw [← ofVariables_append] at hcons
        exact hcons

/-- **The variable of a setting decides on it**, wherever it is taken: nothing else of what is merged
depends on it. -/
theorem Split.overridden (hsplit : src.Split (h.withEnvironment (before ++ after)) below front back)
    (hspared : ∀ e ∈ before ++ after, k.SparedBy e.1) (v : String) :
    Option.Rel (Overridden k (.scalar (some "the environment") (scalarOf v)))
      (merge (below ++ [front ++ back])) (merge (below
        ++ [front ++ (k.key, .scalar (some "the environment") (scalarOf v)) :: back])) := by
  have hback : k.SparedIn back := by
    intro f hf
    refine sparedIn_ofVariables hspared f (hsplit.environment.mem_iff.mpr ?_)
    exact List.mem_append_right front hf
  rw [merge_append, merge_append]
  cases merge below with
  | none => exact .none
  | some root => exact overridden_cover k root _ _ front hback

end Source

/-! ### The law -/

/-- The variable of a setting decides on it. -/
lemma reads_of_variable (hspared : ∀ e ∈ before ++ after, k.SparedBy e.1)
    (hs : src.MayLoad (h.withEnvironment (before ++ (k.variableName, v) :: after)) (.ok s)) :
    Reads v (k.get s) := by
  obtain ⟨e, -, herror⟩ | ⟨below, front, back, hsplit, hmerged⟩ := hs.exists_split
  · cases herror
  · obtain ⟨root, hroot, hs⟩ := ofMerged_eq_ok_iff.mp hmerged.symm
    have hover := hsplit.overridden hspared v
    rw [hroot] at hover
    generalize merge (below ++ [front ++ back]) = without at hover
    cases hover with
    | some hover => exact (asText_scalarOf_iff _).mp (hover.get_eq hs)

/-- A string is no reason for settings not to load: they do with the variable if they do from what is
merged without it. -/
lemma exists_ofMerged_of_rel {layers layers' : List Layer}
    (hover : Option.Rel (Overridden k (.scalar (some "the environment") (scalarOf v)))
      (merge layers) (merge layers')) (hs : ofMerged layers = .ok s) :
    ∃ s', ofMerged layers' = .ok s' := by
  obtain ⟨root, hroot, hs⟩ := ofMerged_eq_ok_iff.mp hs
  rw [hroot] at hover
  obtain ⟨t, ht⟩ := exists_reads v
  cases hmerge : merge layers' with
  | none =>
      rw [hmerge] at hover
      cases hover
  | some root' =>
      rw [hmerge] at hover
      cases hover with
      | some hover =>
          obtain ⟨s', hs'⟩ := hover.exists_ofLayers (ht.asText _) hs
          exact ⟨s', ofMerged_eq_ok_iff.mpr ⟨root', hmerge, hs'⟩⟩

/-- Two texts of the variable are laid over the same. -/
lemma exchange_of_rel {w : String} {o o₁ o₂ : Option LayerValue}
    (hw : Option.Rel (Overridden k (.scalar (some "the environment") (scalarOf w))) o o₁)
    (hv : Option.Rel (Overridden k (.scalar (some "the environment") (scalarOf v))) o o₂) :
    Option.Rel (Overridden k (.scalar (some "the environment") (scalarOf v))) o₁ o₂ := by
  cases hw with
  | none => exact hv
  | some hw =>
      cases hv with
      | some hv => exact .some (hv.exchange hw)

/-- Settings always load with the variable if they do without it. -/
lemma alwaysLoads_variable (hspared : ∀ e ∈ before ++ after, k.SparedBy e.1) (v : String)
    (hloads : src.AlwaysLoads (h.withEnvironment (before ++ after))) :
    src.AlwaysLoads (h.withEnvironment (before ++ (k.variableName, v) :: after)) := by
  intro r hr
  obtain ⟨e, herror, rfl⟩ | ⟨below, front, back, hsplit, rfl⟩ := hr.exists_split
  · exact hloads _ (.unread herror)
  · obtain ⟨s, hs⟩ := hloads _ hsplit.mayLoad
    exact exists_ofMerged_of_rel (hsplit.overridden hspared v) hs

/-- So they do if they do with another text of it. -/
lemma alwaysLoads_of_variable (hspared : ∀ e ∈ before ++ after, k.SparedBy e.1) (v : String)
    {w : String}
    (hloads : src.AlwaysLoads (h.withEnvironment (before ++ (k.variableName, w) :: after))) :
    src.AlwaysLoads (h.withEnvironment (before ++ (k.variableName, v) :: after)) := by
  intro r hr
  obtain ⟨e, herror, rfl⟩ | ⟨below, front, back, hsplit, rfl⟩ := hr.exists_split
  · exact hloads _ (.unread ((Source.layers_variable h k w before after src).trans herror))
  · obtain ⟨s, hs⟩ := hloads _ (hsplit.mayLoad_variable k w)
    exact exists_ofMerged_of_rel
      (exchange_of_rel (hsplit.overridden hspared w) (hsplit.overridden hspared v)) hs

end Settings

/-- A layer sets a setting to a string: every value that it puts there is this string, one is, and it
does nothing else to the setting. -/
def Layer.SetsText (layer : Layer) (k : TextSetting) (v : String) : Prop :=
  ∃ as, assignments? layer = some as ∧
    (∀ a ∈ as, a.Spares [k.part, k.name] ∨
      ∃ o, a = ⟨[k.part, k.name], some (.scalar o (.text v))⟩) ∧
    ∃ o, ⟨[k.part, k.name], some (.scalar o (.text v))⟩ ∈ as

/-- It does so with its keys in any order. -/
lemma Layer.SetsText.reordered {layer layer' : Layer} {k : TextSetting} {v : String}
    (hsets : layer.SetsText k v) (h : Layer.Reordered layer layer') : layer'.SetsText k v := by
  obtain ⟨as, has, hall, o, ho⟩ := hsets
  obtain ⟨bs, hbs, hperm⟩ := h.assignments? has
  exact ⟨bs, hbs, fun b hb => hall b (hperm.mem_iff.mpr hb), o, hperm.mem_iff.mp ho⟩

namespace Settings

variable {h : Host} {k : TextSetting} {v : String} {src : Source} {s : Settings}
  {before after : List (String × String)}

/-- The last value on a path is there where one of the assignments puts a value on it. -/
lemma exists_last?_of_mem {as : List Assignment} {path : List String} {x : LayerValue}
    (ha : ⟨path, some x⟩ ∈ as) : ∃ y, Assignment.last? path as = some y := by
  induction as with
  | nil => cases ha
  | cons b as ih =>
      rw [Assignment.last?]
      rcases List.mem_cons.mp ha with rfl | ha
      · rw [if_pos rfl]
        cases Assignment.last? path as with
        | none => exact ⟨x, rfl⟩
        | some y => exact ⟨y, rfl⟩
      · obtain ⟨y, hy⟩ := ih ha
        exact ⟨y, by rw [hy, Option.some_or]⟩

/-- What a layer that sets a string puts there. -/
lemma find?_of_setsText {layer : Layer} (hsets : layer.SetsText k v) (root : LayerValue) :
    ∃ root' o, root.cover layer = some root' ∧
      (root'.partAt k.part).field? k.name = some (.scalar o (.text v)) := by
  obtain ⟨as, has, hall, o, ho⟩ := hsets
  have hpath : ∀ a ∈ as, a.Spares [k.part, k.name] ∨ a.Sets [k.part, k.name] := by
    intro a ha
    refine (hall a ha).imp_right ?_
    rintro ⟨o, rfl⟩
    exact ⟨rfl, rfl⟩
  obtain ⟨x, hlast⟩ := exists_last?_of_mem ho
  obtain ⟨a, ha, hapath, hx⟩ := Assignment.exists_of_last? hlast
  obtain hspares | ⟨o', rfl⟩ := hall a ha
  · exact absurd (hapath ▸ List.prefix_rfl) hspares.1
  · obtain rfl := Option.some.inj hx
    refine ⟨_, o', cover_eq has root, ?_⟩
    rw [← find?_two, find?_make hpath, hlast, Option.some_or]

/-- A file keeps the string that it sets. -/
lemma get_of_setsText {lower : List Layer} {layer : Layer}
    (hlayers : src.layers h = .ok (lower ++ [layer])) (hlayer : layer.SetsText k v)
    (hspared : ∀ e ∈ h.environment, k.SparedBy e.1) (hs : src.MayLoad h (.ok s)) : k.get s = v := by
  generalize hr : (Except.ok s : Except LoadError Settings) = r at hs
  cases hs with
  | unread herror => cases hr
  | read hfiles hrows =>
      obtain rfl := Except.ok.inj (hlayers.symm.trans hfiles)
      obtain ⟨below, row, rfl, hbelow, hrow⟩ := AllReordered.concat_iff.mp hrows
      rw [← List.cons_append] at hbelow
      obtain ⟨rows, last, rfl, -, hlast⟩ := AllReordered.concat_iff.mp hbelow
      obtain ⟨root, hroot, hs⟩ := ofMerged_eq_ok_iff.mp hr.symm
      have hperm : (ofVariables h.environment).Perm row :=
        hrow.perm fun f hf => (sparedIn_ofVariables hspared f hf).1
      have hspared' : k.SparedIn row := fun f hf =>
        sparedIn_ofVariables hspared f (hperm.mem_iff.mpr hf)
      rw [merge_append, merge_append, Option.bind_assoc] at hroot
      obtain ⟨first, -, hroot⟩ := Option.bind_eq_some_iff.mp hroot
      obtain ⟨second, o, hsecond, hfind⟩ := find?_of_setsText (hlayer.reordered hlast) first
      rw [hsecond, Option.bind_some] at hroot
      have hover : Overridden k (.scalar o (.text v)) second second :=
        ⟨fun _ _ => rfl, fun _ _ => rfl, hfind⟩
      have hcover := hover.cover hspared'
      rw [hroot] at hcover
      cases hcover with
      | some hover => exact (Except.ok.inj (hover.get_eq hs)).symm

/-- **A setting that is a string becomes what the text of its variable is read as**, whatever the
files contain and in whatever order the keys are taken, if no other variable has to do with the
setting: the text itself for the texts that are kept, and for no other ones. Settings with the
variable always load if they do without it or with another text. A string that the last of the files
sets is kept in any case. -/
theorem text_of_variable (k : TextSetting) (v : String) (src : Source) (h : Host)
    (before after : List (String × String)) (hspared : ∀ e ∈ before ++ after, k.SparedBy e.1) :
    (∀ s, src.MayLoad (h.withEnvironment (before ++ (k.variableName, v) :: after)) (.ok s) →
      Reads v (k.get s) ∧ (k.get s = v ↔ Kept v)) ∧
    (src.AlwaysLoads (h.withEnvironment (before ++ after)) →
      src.AlwaysLoads (h.withEnvironment (before ++ (k.variableName, v) :: after))) ∧
    (∀ w, src.AlwaysLoads (h.withEnvironment (before ++ (k.variableName, w) :: after)) →
      src.AlwaysLoads (h.withEnvironment (before ++ (k.variableName, v) :: after))) ∧
    ∀ (h' : Host) lower layer, src.layers h' = .ok (lower ++ [layer]) → layer.SetsText k v →
      (∀ e ∈ h'.environment, k.SparedBy e.1) → ∀ s, src.MayLoad h' (.ok s) → k.get s = v := by
  refine ⟨fun s hs => ?_, alwaysLoads_variable hspared v,
    fun w => alwaysLoads_of_variable hspared v, fun h' lower layer hlayers hlayer hnone s =>
      get_of_setsText hlayers hlayer hnone⟩
  have hreads := reads_of_variable hspared hs
  rw [← reads_self_iff]
  refine ⟨hreads, fun htext => ?_, fun hself => hreads.unique hself⟩
  rwa [htext] at hreads

/-! ### A number for a path -/

/-- A file that sets the place of the history. -/
def zerosText : String := "[storage]\nhistory_path = \"007\"\n"

/-- The fields that the text spells. -/
def zerosFields : Toml.Fields := [("storage", .table [("history_path", .text "007")])]

/-- The layer of the file with this text. -/
def zerosLayer : Layer := ofTomlFields "w/config/config.toml" zerosFields

/-- What the layer assigns. -/
def zerosAssignments : List Assignment :=
  [⟨["storage"], none⟩, ⟨Setting.historyPath.path,
    some (.scalar (some "w/config/config.toml") (.text "007"))⟩]

lemma assignments?_zerosLayer : assignments? zerosLayer = some zerosAssignments := by
  have hparse : KeyPath.parse? "storage" = some [.key "storage"] := by decide
  have hstorage : Text.lowercase "storage" = "storage" := by decide +kernel
  have hhistory : Text.lowercase "history_path" = "history_path" := by decide +kernel
  simp only [zerosLayer, zerosFields, ofTomlFields, ofToml, assignments?, KeyPath.assignments?,
    hparse, KeyPath.names?, Option.map_some, assignmentsBelow, assignmentsAt, assignmentsIn,
    hstorage, hhistory, Assignment.within]
  rfl

lemma fits_zerosLayer : zerosLayer.Fits := by
  refine ⟨_, assignments?_zerosLayer, ?_⟩
  simp only [zerosAssignments, List.mem_cons, List.not_mem_nil, or_false]
  rintro a (rfl | rfl)
  · exact fits_part _
  · exact .setting rfl

lemma setsText_zerosLayer : zerosLayer.SetsText .historyPath "007" := by
  refine ⟨_, assignments?_zerosLayer, ?_, _, List.mem_cons_of_mem _ (List.mem_singleton_self _)⟩
  simp only [zerosAssignments, List.mem_cons, List.not_mem_nil, or_false]
  rintro a (rfl | rfl)
  · exact .inl ⟨by decide, .inl rfl⟩
  · exact .inr ⟨_, rfl⟩

/-- A text of digits with zeros in front loses them. -/
lemma reads_zeros : Reads "007" "7" := by
  obtain ⟨hspells, hfits⟩ := wholeNumber?_eq_some_iff.mp
    (show wholeNumber? "007".toList = some 7 by decide)
  exact .whole hspells hfits

lemma kept_warn : Kept "warn" := by
  have hword : ∀ b : Bool, Text.lowercase "warn" ≠ toString b := by decide +kernel
  exact .plain hword (parse?_eq_none_iff.mp (by decide +kernel))

/-- As the text of a variable `007` makes the place of the history `7`, while another variable sets
the level as it stands; in a file the place stays `007`. -/
theorem text_of_variable_zeros :
    (∀ r, (Source.workspace (.ofText "/w")).MayLoad (configured mixedText
        [("SNAPSHOTS__STORAGE__HISTORY_PATH", "007"), ("SNAPSHOTS__LOGGING__LEVEL", "warn")]) r →
      ∃ s, r = .ok s ∧ s.storage.historyPath = "7" ∧ s.logging.level = "warn") ∧
    ∀ r, (Source.file configuredFile).MayLoad (configured zerosText []) r →
      ∃ s, r = .ok s ∧ s.storage.historyPath = "007" := by
  refine ⟨fun r hr => ?_, fun r hr => ?_⟩
  · have hspared : ∀ e ∈ [("SNAPSHOTS__LOGGING__LEVEL", "warn")],
        TextSetting.historyPath.SparedBy e.1 :=
      List.forall_mem_singleton.mpr (TextSetting.sparedBy_variableName (j := .level) (by decide))
    have hspared' : ∀ e ∈ [("SNAPSHOTS__STORAGE__HISTORY_PATH", "007")] ++ [],
        TextSetting.level.SparedBy e.1 :=
      List.forall_mem_singleton.mpr
        (TextSetting.sparedBy_variableName (j := .historyPath) (by decide))
    obtain ⟨hglobal, hgeneral, hspecial⟩ :=
      files_configured [("SNAPSHOTS__LOGGING__LEVEL", "warn")] rfl rfl
    have hwithout : (Source.workspace (.ofText "/w")).AlwaysLoads overridden := by
      intro r hr
      obtain ⟨s, hs, -⟩ := workspace_ok setsEachOnce_overridden hglobal hgeneral hspecial
        setsEachOnce_nil setsEachOnce_mixedLayer setsEachOnce_nil hr
      exact ⟨s, hs⟩
    obtain ⟨hpath, hloads, -⟩ := text_of_variable .historyPath "007" (.workspace (.ofText "/w"))
      overridden [] [("SNAPSHOTS__LOGGING__LEVEL", "warn")] hspared
    obtain ⟨hlevel, -⟩ := text_of_variable .level "warn" (.workspace (.ofText "/w")) overridden
      [("SNAPSHOTS__STORAGE__HISTORY_PATH", "007")] [] hspared'
    obtain ⟨s, rfl⟩ := hloads hwithout r hr
    exact ⟨s, rfl, (hpath s hr).1.unique reads_zeros, (hlevel s hr).2.mpr kept_warn⟩
  · have hparse : Toml.parse? zerosText = some zerosFields := by cbv
    have hlayer : InFile (configured zerosText []).files configuredFile zerosLayer :=
      inFile_configured [] hparse
    have henvironment : (ofEnvironment (configured zerosText [])).Fits := fits_nil
    obtain ⟨s, -, -, rfl, -⟩ := Source.mayLoad_ok (Source.layers_file hlayer) henvironment
      (List.forall_mem_singleton.mpr fits_zerosLayer) hr
    obtain ⟨-, -, -, hfile⟩ := text_of_variable .historyPath "007" (.file configuredFile) overridden
      [] [] (by simp)
    exact ⟨s, rfl, hfile (configured zerosText []) [] zerosLayer (Source.layers_file hlayer)
      setsText_zerosLayer (List.forall_mem_nil _) s hr⟩

end Settings

end TreeDigest

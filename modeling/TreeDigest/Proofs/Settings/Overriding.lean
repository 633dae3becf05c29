import Mathlib
import TreeDigest.Settings.Sources
import TreeDigest.Proofs.Settings.Decoding

/-!
A string of the settings laid over another one.

Settings are read from merged layers, and a key at the top of a layer sets one value in them. So
where two merged layers differ in nothing but a setting that is a string, they still do after the
same key is set in both, unless that key has to do with the setting. Their settings come from the
same values but for this one, and a string is no reason for settings not to load.

* `KeyPath.target` is the path that setting a key at the top of a layer changes.
* `LayerValue.Overridden` relates two merged layers that differ in a setting; `Overridden.change` and
  `Overridden.cover` keep the relation.
* `Overridden.get_eq` and `Overridden.exists_ofLayers` are what it says about the settings.
-/

namespace TreeDigest

/-! ### Keys and what they change -/

namespace KeyPath

/-- A plain value is set under a name by changing what is there. -/
lemma change_set_scalar (steps : List KeyStep) (name : String) (o : Option String) (s : Scalar)
    (v : LayerValue) : change (fun w => w.set name (.scalar o s)) steps v
      = change (fun _ => .scalar o s) (steps ++ [.key (Text.lowercase name)]) v := by
  induction steps generalizing v with
  | nil => simp only [List.nil_append, change, LayerValue.set, Option.map_some]
  | cons step steps ih => cases step <;> simp only [List.cons_append, change, ih]

/-- The path with the name at its end in lower case. -/
def lowered : List KeyStep → List KeyStep
  | [] => []
  | [.key name] => [.key (Text.lowercase name)]
  | step :: rest => step :: lowered rest

lemma lowered_append (steps : List KeyStep) (last : KeyStep) :
    lowered (steps ++ [last]) = steps ++ lowered [last] := by
  induction steps with
  | nil => rfl
  | cons step steps ih =>
      have hne : steps ++ [last] ≠ [] := by simp
      rw [List.cons_append, List.cons_append, ← ih]
      cases step with
      | key name => rw [lowered.eq_3 _ _ (fun _ _ h => hne h)]
      | item index => rfl

/-- The path that setting a key at the top of a layer changes, if the value is no table. -/
def target (key : String) : List KeyStep :=
  match parse? key with
  | some path => lowered path
  | none => [.key (Text.lowercase key)]

lemma parse?_ne_nil (key : String) : parse? key ≠ some [] := by
  rw [parse?]
  intro hnil
  obtain ⟨first, -, hnil⟩ := Option.bind_eq_some_iff.mp hnil
  obtain ⟨rest, -, hnil⟩ := Option.bind_eq_some_iff.mp hnil
  cases Option.some.inj hnil

/-- **Setting a key to a plain value changes what its path leads to.** -/
lemma setTop_scalar (root : LayerValue) (key : String) (o : Option String) (s : Scalar) :
    setTop root key (.scalar o s) = change (fun _ => .scalar o s) (target key) root := by
  rw [setTop, target]
  cases hparse : parse? key with
  | none => simp only [LayerValue.set, change, Option.map_some]
  | some path =>
      rcases List.eq_nil_or_concat' path with rfl | ⟨steps, last, rfl⟩
      · exact absurd hparse (parse?_ne_nil key)
      · simp only [lowered_append]
        cases last with
        | key name =>
            simp only [set, List.reverse_append, List.reverse_singleton, List.singleton_append,
              List.reverse_reverse, lowered, change_set_scalar]
        | item position =>
            simp only [set, List.reverse_append, List.reverse_singleton, List.singleton_append,
              List.reverse_reverse, lowered]

end KeyPath

/-! ### Settings that are strings -/

/-- A setting that is a string. -/
inductive TextSetting where
  | workspacesPath
  | historyPath
  | level
  | format
  | output
  | file
  deriving DecidableEq

namespace TextSetting

/-- The part of the settings in which it stands. -/
def part : TextSetting → String
  | workspacesPath | historyPath => "storage"
  | level | format | output | file => "logging"

/-- Its name in that part. -/
def name : TextSetting → String
  | workspacesPath => "workspaces_path"
  | historyPath => "history_path"
  | level => "level"
  | format => "format"
  | output => "output"
  | file => "file"

/-- The variable that sets it. -/
def variableName : TextSetting → String
  | workspacesPath => "SNAPSHOTS__STORAGE__WORKSPACES_PATH"
  | historyPath => "SNAPSHOTS__STORAGE__HISTORY_PATH"
  | level => "SNAPSHOTS__LOGGING__LEVEL"
  | format => "SNAPSHOTS__LOGGING__FORMAT"
  | output => "SNAPSHOTS__LOGGING__OUTPUT"
  | file => "SNAPSHOTS__LOGGING__FILE"

/-- What settings say about it. -/
def get (s : Settings) : TextSetting → String
  | workspacesPath => s.storage.workspacesPath
  | historyPath => s.storage.historyPath
  | level => s.logging.level
  | format => s.logging.format
  | output => s.logging.output
  | file => s.logging.file

/-- A path does not lead to the setting, nor through it, nor to anything on the way. -/
def Apart (k : TextSetting) : List KeyStep → Prop
  | .key part :: .key name :: _ => part ≠ k.part ∨ name ≠ k.name
  | .key part :: _ => part ≠ k.part
  | _ => False

/-- The key that its variable sets. -/
def key (k : TextSetting) : String := k.part ++ "." ++ k.name

/-- A layer only sets plain values, and none of its keys has to do with the setting. -/
def SparedIn (k : TextSetting) (layer : List (String × LayerValue)) : Prop :=
  ∀ f ∈ layer, (∃ o s, f.2 = .scalar o s) ∧ k.Apart (KeyPath.target f.1)

lemma target_key (k : TextSetting) : KeyPath.target k.key = [.key k.part, .key k.name] := by
  have hparse : KeyPath.parse? k.key = some [.key k.part, .key k.name] := by
    cases k <;> decide +kernel
  have hname : Text.lowercase k.name = k.name := by cases k <;> decide +kernel
  rw [KeyPath.target, hparse]
  simp only [KeyPath.lowered, hname]

end TextSetting

/-! ### A value over another one -/

namespace LayerValue

variable {k : TextSetting} {x y root root' root'' : LayerValue} {key : String}

lemma cover_cons (root : LayerValue) (f : String × LayerValue) (layer : List (String × LayerValue)) :
    root.cover (f :: layer) = (KeyPath.setTop root f.1 f.2).bind (·.cover layer) := rfl

lemma cover_append (root : LayerValue) (layer layer' : List (String × LayerValue)) :
    root.cover (layer ++ layer') = (root.cover layer).bind (·.cover layer') :=
  List.foldlM_append ..

/-- The second of two values is as the first one, but that the setting is there and has the given
value. -/
structure Overridden (k : TextSetting) (x root root' : LayerValue) : Prop where
  others : ∀ key, key ≠ k.part → root'.field? key = root.field? key
  siblings : ∀ key, key ≠ k.name →
    (root'.partAt k.part).field? key = (root.partAt k.part).field? key
  here : (root'.partAt k.part).field? k.name = some x

/-- A value with the setting is as it is with another value of the setting. -/
lemma Overridden.exchange (hx : Overridden k x root root') (hy : Overridden k y root root'') :
    Overridden k x root'' root' where
  others key hkey := (hx.others key hkey).trans (hy.others key hkey).symm
  siblings key hkey := (hx.siblings key hkey).trans (hy.siblings key hkey).symm
  here := hx.here

/-- What is missing has no fields, whatever it counts as. -/
lemma field?_getD_nil (root : LayerValue) (part key : String) :
    ((root.field? part).getD .nil).field? key = (root.partAt part).field? key := by
  rw [partAt]
  cases root.field? part <;> rfl

@[simp] lemma partAt_put_self (v w : LayerValue) (key : String) : (v.put key w).partAt key = w := by
  rw [partAt, field?_put_self, Option.getD_some]

lemma partAt_put_other {key' : String} (v w : LayerValue) (hkey : key' ≠ key) :
    (v.put key w).partAt key' = v.partAt key' := by
  rw [partAt, field?_put_other v w hkey, partAt]

/-- A value put into the part of the setting, under its name, lies over what was there. -/
lemma overridden_put (k : TextSetting) {w : LayerValue} (x : LayerValue)
    (hw : ∀ key, w.field? key = (root.partAt k.part).field? key) :
    Overridden k x root (root.put k.part (w.put k.name x)) where
  others key hkey := field?_put_other _ _ hkey
  siblings key hkey := by rw [partAt_put_self, field?_put_other _ _ hkey, hw]
  here := by rw [partAt_put_self, field?_put_self]

/-- So does what the variable of the setting sets. -/
lemma overridden_setTop (k : TextSetting) (root : LayerValue) (o : Option String) (s : Scalar) :
    ∃ root', KeyPath.setTop root k.key (.scalar o s) = some root' ∧
      Overridden k (.scalar o s) root root' := by
  rw [KeyPath.setTop_scalar, TextSetting.target_key]
  exact ⟨_, rfl, overridden_put k _ (field?_getD_nil root k.part)⟩

lemma Overridden.put_other (hroot : Overridden k x root root') {part : String}
    (hpart : part ≠ k.part) (w : LayerValue) :
    Overridden k x (root.put part w) (root'.put part w) := by
  refine ⟨fun key hkey => ?_, ?_, ?_⟩
  · by_cases hsame : key = part
    · rw [hsame, field?_put_self, field?_put_self]
    · rw [field?_put_other _ _ hsame, field?_put_other _ _ hsame, hroot.others key hkey]
  · rw [partAt_put_other _ _ hpart.symm, partAt_put_other _ _ hpart.symm]
    exact hroot.siblings
  · rw [partAt_put_other _ _ hpart.symm]
    exact hroot.here

lemma Overridden.put_sibling (hroot : Overridden k x root root') {u u' : LayerValue}
    (hu : ∀ key, u.field? key = (root.partAt k.part).field? key)
    (hu' : ∀ key, u'.field? key = (root'.partAt k.part).field? key) {name : String}
    (hname : name ≠ k.name) (w : LayerValue) :
    Overridden k x (root.put k.part (u.put name w)) (root'.put k.part (u'.put name w)) := by
  refine ⟨fun key hkey => ?_, fun key hkey => ?_, ?_⟩
  · rw [field?_put_other _ _ hkey, field?_put_other _ _ hkey, hroot.others key hkey]
  · rw [partAt_put_self, partAt_put_self]
    by_cases hsame : key = name
    · rw [hsame, field?_put_self, field?_put_self]
    · rw [field?_put_other _ _ hsame, field?_put_other _ _ hsame, hu, hu', hroot.siblings key hkey]
  · rw [partAt_put_self, field?_put_other _ _ hname.symm, hu', hroot.here]

/-- **Changing in both values something apart from the setting keeps the relation**, and is possible
in both or in none. -/
lemma Overridden.change {path : List KeyStep} (hroot : Overridden k x root root')
    (f : LayerValue → LayerValue) (hpath : k.Apart path) :
    Option.Rel (Overridden k x) (KeyPath.change f path root) (KeyPath.change f path root') := by
  cases path with
  | nil => exact hpath.elim
  | cons step rest =>
      cases step with
      | item position => exact hpath.elim
      | key part =>
          by_cases hpart : part = k.part
          · subst hpart
            cases rest with
            | nil => exact absurd rfl hpath
            | cons step rest =>
                cases step with
                | item position => exact absurd rfl hpath
                | key name =>
                    have hname : name ≠ k.name := hpath.resolve_left (not_not_intro rfl)
                    -- Both changes start from one value below the name.
                    have hbelow := (field?_getD_nil root' k.part name).trans
                      ((hroot.siblings name hname).trans (field?_getD_nil root k.part name).symm)
                    simp only [KeyPath.change, hbelow]
                    cases KeyPath.change f rest _ with
                    | none => exact .none
                    | some w =>
                        exact .some (hroot.put_sibling (field?_getD_nil root k.part)
                          (field?_getD_nil root' k.part) hname w)
          · simp only [KeyPath.change, hroot.others part hpart]
            cases KeyPath.change f rest _ with
            | none => exact .none
            | some w => exact .some (hroot.put_other hpart w)

/-- What is related goes through all steps before it. -/
lemma rel_bind {r : LayerValue → LayerValue → Prop} {a b : Option LayerValue}
    {f g : LayerValue → Option LayerValue} (hab : Option.Rel r a b)
    (hstep : ∀ v w, r v w → Option.Rel r (f v) (g w)) : Option.Rel r (a.bind f) (b.bind g) := by
  cases hab with
  | none => exact .none
  | some hvw => exact hstep _ _ hvw

/-- **So does laying over both a layer of plain values that are apart from the setting.** -/
theorem Overridden.cover {layer : List (String × LayerValue)} (hroot : Overridden k x root root')
    (hlayer : k.SparedIn layer) :
    Option.Rel (Overridden k x) (root.cover layer) (root'.cover layer) := by
  induction layer generalizing root root' with
  | nil => exact .some hroot
  | cons f layer ih =>
      obtain ⟨⟨⟨o, s, hscalar⟩, hkey⟩, hrest⟩ := List.forall_mem_cons.mp hlayer
      rw [cover_cons, cover_cons, hscalar, KeyPath.setTop_scalar, KeyPath.setTop_scalar]
      exact rel_bind (hroot.change _ hkey) fun _ _ hnext => ih hnext hrest

/-- **The value that the key of a setting gives it lies over all that is laid before**, and what is
laid after it leaves it alone. -/
theorem overridden_cover (k : TextSetting) (root : LayerValue) (o : Option String) (s : Scalar)
    (before : List (String × LayerValue)) {after : List (String × LayerValue)}
    (hafter : k.SparedIn after) : Option.Rel (Overridden k (.scalar o s))
      (root.cover (before ++ after)) (root.cover (before ++ (k.key, .scalar o s) :: after)) := by
  rw [cover_append, cover_append]
  cases root.cover before with
  | none => exact .none
  | some below =>
      obtain ⟨root', hset, hover⟩ := overridden_setTop k below o s
      rw [Option.bind_some, Option.bind_some, cover_cons, hset]
      exact hover.cover hafter

/-! ### Fields that are read -/

section Fields

variable {α : Type} {read : LayerValue → Except LoadError α} {standard : α} {o : Option LayerValue}
  {a : α} {v w : LayerValue}

/-- What a field that may be missing is read as. -/
def FieldReads (read : LayerValue → Except LoadError α) (standard : α) (o : Option LayerValue)
    (a : α) : Prop := o.elim (standard = a) fun v => read v = .ok a

/-- A field that may be missing can be read if it is there. -/
def Legible (read : LayerValue → Except LoadError α) (o : Option LayerValue) : Prop :=
  ∀ v, o = some v → ∃ a, read v = .ok a

lemma FieldReads.of_some (hread : FieldReads read standard o a) (ho : o = some v) :
    read v = .ok a := by
  subst ho
  exact hread

lemma fieldOr_eq_ok_iff (key : String) :
    fieldOr read standard (o.map fun v => (key, v)) = .ok a ↔ FieldReads read standard o a := by
  cases o with
  | none => simp [fieldOr, FieldReads]
  | some v =>
      simp only [Option.map_some, fieldOr, FieldReads, Option.elim_some]
      cases read v <;> simp [Except.mapError]

lemma exists_fieldReads_iff : (∃ a, FieldReads read standard o a) ↔ Legible read o := by
  cases o with
  | none => exact iff_of_true ⟨standard, rfl⟩ fun v hv => by cases hv
  | some v =>
      constructor
      · rintro ⟨a, ha⟩ w hw
        cases hw
        exact ⟨a, ha⟩
      · exact fun hlegible => hlegible v rfl

/-- A result goes through all steps before it. -/
lemma bind_eq_ok_iff {ε β : Type} {e : Except ε α} {f : α → Except ε β} {b : β} :
    (e >>= f) = .ok b ↔ ∃ a, e = .ok a ∧ f a = .ok b := by
  cases e with
  | error e => exact iff_of_false (fun h => by cases h) fun ⟨a, ha, _⟩ => by cases ha
  | ok a => exact ⟨fun h => ⟨a, rfl, h⟩, fun ⟨_, ha, h⟩ => by cases ha; exact h⟩

/-- The value is a table. -/
def IsTable (v : LayerValue) : Prop := ∃ o fs, v = .table o fs

lemma isTable_of_field? (hv : v.field? key = some w) : v.IsTable := by
  cases v with
  | table o fs => exact ⟨o, fs, rfl⟩
  | scalar o s => cases hv
  | list o items => cases hv

end Fields

end LayerValue

/-! ### What settings are read from -/

open LayerValue

variable {k : TextSetting} {v root root' x : LayerValue}

lemma StorageSettings.ofLayers_eq_ok_iff {s : StorageSettings} (hv : v.IsTable) :
    ofLayers v = .ok s ↔
      FieldReads asText standard.workspacesPath (v.field? "workspaces_path") s.workspacesPath ∧
      FieldReads asText standard.historyPath (v.field? "history_path") s.historyPath := by
  obtain ⟨o, fs, rfl⟩ := hv
  simp only [ofLayers, LayerValue.part, List.map_cons, List.map_nil, bind_eq_ok_iff,
    Except.ok.injEq, exists_eq_left', fieldOr_eq_ok_iff]
  constructor
  · rintro ⟨workspaces, hworkspaces, history, hhistory, ⟨⟩⟩
    exact ⟨hworkspaces, hhistory⟩
  · rintro ⟨hworkspaces, hhistory⟩
    exact ⟨_, hworkspaces, _, hhistory, rfl⟩

lemma LoggingSettings.ofLayers_eq_ok_iff {s : LoggingSettings} (hv : v.IsTable) :
    ofLayers v = .ok s ↔
      FieldReads asText standard.level (v.field? "level") s.level ∧
      FieldReads asText standard.format (v.field? "format") s.format ∧
      FieldReads asText standard.output (v.field? "output") s.output ∧
      FieldReads asText standard.file (v.field? "file") s.file ∧
      FieldReads asBoolean standard.color (v.field? "color") s.color ∧
      FieldReads asTextTable standard.modules (v.field? "modules") s.modules := by
  obtain ⟨o, fs, rfl⟩ := hv
  simp only [ofLayers, LayerValue.part, List.map_cons, List.map_nil, bind_eq_ok_iff,
    Except.ok.injEq, exists_eq_left', fieldOr_eq_ok_iff]
  constructor
  · rintro ⟨level, hlevel, format, hformat, output, houtput, file, hfile, color, hcolor, modules,
      hmodules, ⟨⟩⟩
    exact ⟨hlevel, hformat, houtput, hfile, hcolor, hmodules⟩
  · rintro ⟨hlevel, hformat, houtput, hfile, hcolor, hmodules⟩
    exact ⟨_, hlevel, _, hformat, _, houtput, _, hfile, _, hcolor, _, hmodules, rfl⟩

lemma Settings.ofLayers_eq_ok_iff {s : Settings} (hv : v.IsTable) :
    ofLayers v = .ok s ↔
      FieldReads ScanOptions.ofLayers .standard (v.field? "snapshot") s.scan ∧
      FieldReads StorageSettings.ofLayers .standard (v.field? "storage") s.storage ∧
      FieldReads LoggingSettings.ofLayers .standard (v.field? "logging") s.logging := by
  obtain ⟨o, fs, rfl⟩ := hv
  simp only [ofLayers, LayerValue.part, List.map_cons, List.map_nil, bind_eq_ok_iff,
    Except.ok.injEq, exists_eq_left', fieldOr_eq_ok_iff]
  constructor
  · rintro ⟨scan, hscan, storage, hstorage, logging, hlogging, ⟨⟩⟩
    exact ⟨hscan, hstorage, hlogging⟩
  · rintro ⟨hscan, hstorage, hlogging⟩
    exact ⟨_, hscan, _, hstorage, _, hlogging, rfl⟩

/-- What can be read of a value that has settings of a part; only a table has fields. -/
lemma StorageSettings.legible_of_ofLayers {s : StorageSettings} (hs : ofLayers v = .ok s) :
    ∀ key ∈ ["workspaces_path", "history_path"], Legible asText (v.field? key) := by
  intro key hkey w hw
  obtain ⟨hworkspaces, hhistory⟩ := (ofLayers_eq_ok_iff (isTable_of_field? hw)).mp hs
  simp only [List.mem_cons, List.not_mem_nil, or_false] at hkey
  rcases hkey with rfl | rfl
  · exact exists_fieldReads_iff.mp ⟨_, hworkspaces⟩ w hw
  · exact exists_fieldReads_iff.mp ⟨_, hhistory⟩ w hw

lemma StorageSettings.exists_ofLayers (hv : v.IsTable)
    (hlegible : ∀ key ∈ ["workspaces_path", "history_path"], Legible asText (v.field? key)) :
    ∃ s, ofLayers v = .ok s := by
  obtain ⟨workspaces, hworkspaces⟩ :=
    exists_fieldReads_iff.mpr (hlegible "workspaces_path" (by simp))
  obtain ⟨history, hhistory⟩ := exists_fieldReads_iff.mpr (hlegible "history_path" (by simp))
  exact ⟨⟨_, _⟩, (ofLayers_eq_ok_iff hv).mpr ⟨hworkspaces, hhistory⟩⟩

/-- What can be read of a value that has settings for the log. -/
structure LoggingSettings.FieldsLegible (v : LayerValue) : Prop where
  texts : ∀ key ∈ ["level", "format", "output", "file"], Legible asText (v.field? key)
  color : Legible asBoolean (v.field? "color")
  modules : Legible asTextTable (v.field? "modules")

lemma LoggingSettings.legible_of_ofLayers {s : LoggingSettings} (hs : ofLayers v = .ok s) :
    FieldsLegible v := by
  refine ⟨fun key hkey w hw => ?_, fun w hw => ?_, fun w hw => ?_⟩
  all_goals
    obtain ⟨hlevel, hformat, houtput, hfile, hcolor, hmodules⟩ :=
      (ofLayers_eq_ok_iff (isTable_of_field? hw)).mp hs
  · simp only [List.mem_cons, List.not_mem_nil, or_false] at hkey
    rcases hkey with rfl | rfl | rfl | rfl
    · exact exists_fieldReads_iff.mp ⟨_, hlevel⟩ w hw
    · exact exists_fieldReads_iff.mp ⟨_, hformat⟩ w hw
    · exact exists_fieldReads_iff.mp ⟨_, houtput⟩ w hw
    · exact exists_fieldReads_iff.mp ⟨_, hfile⟩ w hw
  · exact exists_fieldReads_iff.mp ⟨_, hcolor⟩ w hw
  · exact exists_fieldReads_iff.mp ⟨_, hmodules⟩ w hw

lemma LoggingSettings.exists_ofLayers (hv : v.IsTable) (hlegible : FieldsLegible v) :
    ∃ s, ofLayers v = .ok s := by
  obtain ⟨level, hlevel⟩ := exists_fieldReads_iff.mpr (hlegible.texts "level" (by simp))
  obtain ⟨format, hformat⟩ := exists_fieldReads_iff.mpr (hlegible.texts "format" (by simp))
  obtain ⟨output, houtput⟩ := exists_fieldReads_iff.mpr (hlegible.texts "output" (by simp))
  obtain ⟨file, hfile⟩ := exists_fieldReads_iff.mpr (hlegible.texts "file" (by simp))
  obtain ⟨color, hcolor⟩ := exists_fieldReads_iff.mpr hlegible.color
  obtain ⟨modules, hmodules⟩ := exists_fieldReads_iff.mpr hlegible.modules
  exact ⟨⟨_, _, _, _, _, _⟩,
    (ofLayers_eq_ok_iff hv).mpr ⟨hlevel, hformat, houtput, hfile, hcolor, hmodules⟩⟩

/-- What can be read of a value that has settings. -/
structure Settings.PartsLegible (v : LayerValue) : Prop where
  scan : Legible ScanOptions.ofLayers (v.field? "snapshot")
  storage : Legible StorageSettings.ofLayers (v.field? "storage")
  logging : Legible LoggingSettings.ofLayers (v.field? "logging")

lemma Settings.legible_of_ofLayers {s : Settings} (hs : ofLayers v = .ok s) : PartsLegible v := by
  refine ⟨fun w hw => ?_, fun w hw => ?_, fun w hw => ?_⟩
  all_goals
    obtain ⟨hscan, hstorage, hlogging⟩ := (ofLayers_eq_ok_iff (isTable_of_field? hw)).mp hs
  · exact exists_fieldReads_iff.mp ⟨_, hscan⟩ w hw
  · exact exists_fieldReads_iff.mp ⟨_, hstorage⟩ w hw
  · exact exists_fieldReads_iff.mp ⟨_, hlogging⟩ w hw

lemma Settings.exists_ofLayers (hv : v.IsTable) (hlegible : PartsLegible v) :
    ∃ s, ofLayers v = .ok s := by
  obtain ⟨scan, hscan⟩ := exists_fieldReads_iff.mpr hlegible.scan
  obtain ⟨storage, hstorage⟩ := exists_fieldReads_iff.mpr hlegible.storage
  obtain ⟨logging, hlogging⟩ := exists_fieldReads_iff.mpr hlegible.logging
  exact ⟨⟨_, _, _⟩, (ofLayers_eq_ok_iff hv).mpr ⟨hscan, hstorage, hlogging⟩⟩

/-- A part that is missing counts as a table without fields. -/
lemma LayerValue.Legible.partAt {α : Type} {read : LayerValue → Except LoadError α} {standard : α}
    {part : String} (hlegible : Legible read (v.field? part))
    (hstandard : read emptyTable = .ok standard) : ∃ a, read (v.partAt part) = .ok a := by
  rw [LayerValue.partAt]
  cases hfield : v.field? part with
  | none => exact ⟨standard, hstandard⟩
  | some w => exact hlegible w hfield

namespace LayerValue.Overridden

/-- The part of the setting is there, and it is a table in a table. -/
lemma field?_part (hroot : Overridden k x root root') :
    root'.IsTable ∧ root'.field? k.part = some (root'.partAt k.part) ∧
      (root'.partAt k.part).IsTable := by
  have htable := isTable_of_field? hroot.here
  have hpart : root'.field? k.part = some (root'.partAt k.part) := by
    have hhere := hroot.here
    rw [partAt] at hhere ⊢
    cases hfield : root'.field? k.part with
    | none =>
        rw [hfield] at hhere
        cases hhere
    | some w => rfl
  exact ⟨isTable_of_field? hpart, hpart, htable⟩

/-- **The setting is what its value is read as.** -/
theorem get_eq {s : Settings} (hroot : Overridden k x root root')
    (hs : Settings.ofLayers root' = .ok s) : x.asText = .ok (k.get s) := by
  obtain ⟨htable, hpart, htable'⟩ := hroot.field?_part
  obtain ⟨-, hstorage, hlogging⟩ := (Settings.ofLayers_eq_ok_iff htable).mp hs
  have hhere := hroot.here
  cases k with
  | workspacesPath =>
      have hpart' := (StorageSettings.ofLayers_eq_ok_iff htable').mp (hstorage.of_some hpart)
      exact hpart'.1.of_some hhere
  | historyPath =>
      have hpart' := (StorageSettings.ofLayers_eq_ok_iff htable').mp (hstorage.of_some hpart)
      exact hpart'.2.of_some hhere
  | level =>
      have hpart' := (LoggingSettings.ofLayers_eq_ok_iff htable').mp (hlogging.of_some hpart)
      exact hpart'.1.of_some hhere
  | format =>
      have hpart' := (LoggingSettings.ofLayers_eq_ok_iff htable').mp (hlogging.of_some hpart)
      exact hpart'.2.1.of_some hhere
  | output =>
      have hpart' := (LoggingSettings.ofLayers_eq_ok_iff htable').mp (hlogging.of_some hpart)
      exact hpart'.2.2.1.of_some hhere
  | file =>
      have hpart' := (LoggingSettings.ofLayers_eq_ok_iff htable').mp (hlogging.of_some hpart)
      exact hpart'.2.2.2.1.of_some hhere

/-- A field of the part can be read where it could before, if it is a string or not the setting. -/
lemma legible_sibling {α : Type} {read : LayerValue → Except LoadError α} {key : String}
    (hroot : Overridden k x root root') (hkey : key = k.name → ∃ a, read x = .ok a)
    (hlegible : Legible read ((root.partAt k.part).field? key)) :
    Legible read ((root'.partAt k.part).field? key) := by
  by_cases hname : key = k.name
  · intro w hw
    rw [hname, hroot.here] at hw
    obtain rfl := Option.some.inj hw
    exact hkey hname
  · rwa [hroot.siblings key hname]

/-- With the setting the places can be read. -/
lemma exists_storage {t : String} (hroot : Overridden k x root root') (hx : x.asText = .ok t)
    (hlegible : Legible StorageSettings.ofLayers (root.field? k.part)) :
    ∃ s, StorageSettings.ofLayers (root'.partAt k.part) = .ok s := by
  obtain ⟨s, hs⟩ := hlegible.partAt rfl
  refine StorageSettings.exists_ofLayers hroot.field?_part.2.2 fun key hkey => ?_
  exact hroot.legible_sibling (fun _ => ⟨t, hx⟩) (StorageSettings.legible_of_ofLayers hs key hkey)

/-- With the setting the log settings can be read. -/
lemma exists_logging {t : String} (hroot : Overridden k x root root') (hx : x.asText = .ok t)
    (hlegible : Legible LoggingSettings.ofLayers (root.field? k.part)) :
    ∃ s, LoggingSettings.ofLayers (root'.partAt k.part) = .ok s := by
  obtain ⟨s, hs⟩ := hlegible.partAt rfl
  have hbefore := LoggingSettings.legible_of_ofLayers hs
  refine LoggingSettings.exists_ofLayers hroot.field?_part.2.2 ⟨fun key hkey => ?_, ?_, ?_⟩
  · exact hroot.legible_sibling (fun _ => ⟨t, hx⟩) (hbefore.texts key hkey)
  · exact hroot.legible_sibling (fun hname => absurd hname (by cases k <;> decide)) hbefore.color
  · exact hroot.legible_sibling (fun hname => absurd hname (by cases k <;> decide)) hbefore.modules

/-- **A string is no reason for settings not to load**: where the value can be read as one, there
are settings with it if there are any without. -/
theorem exists_ofLayers {s : Settings} {t : String} (hroot : Overridden k x root root')
    (hx : x.asText = .ok t) (hs : Settings.ofLayers root = .ok s) :
    ∃ s', Settings.ofLayers root' = .ok s' := by
  obtain ⟨hscan, hstorage, hlogging⟩ := Settings.legible_of_ofLayers hs
  obtain ⟨htable, hpart, -⟩ := hroot.field?_part
  -- The part of the setting changes, and the other two parts are as before.
  have hlegible : ∀ {α : Type} {read : LayerValue → Except LoadError α} {part : String},
      Legible read (root.field? part) →
      (part = k.part → ∃ a, read (root'.partAt k.part) = .ok a) →
      Legible read (root'.field? part) := by
    intro α read part hbefore hsame w hw
    by_cases hname : part = k.part
    · rw [hname, hpart] at hw
      obtain rfl := Option.some.inj hw
      exact hsame hname
    · rw [hroot.others part hname] at hw
      exact hbefore w hw
  refine Settings.exists_ofLayers htable
    ⟨hlegible hscan ?_, hlegible hstorage ?_, hlegible hlogging ?_⟩
  · exact fun hname => absurd hname (by cases k <;> decide)
  · exact fun hname => hroot.exists_storage hx (hname ▸ hstorage)
  · exact fun hname => hroot.exists_logging hx (hname ▸ hlogging)

end LayerValue.Overridden

end TreeDigest

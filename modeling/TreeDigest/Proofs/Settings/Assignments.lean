import Mathlib
import TreeDigest.Settings.Layer

/-!
What a layer sets.

Laying a layer over a table takes its keys one by one and goes down into its tables, so it comes
to a row of assignments, each to the path of names that leads to it. Keys are lower-cased on the
way down; only at the top of a layer a key may spell a path itself.

* An `Assignment` puts a value on a path, or only sees to it that something is there.
* `Layer.assignments?` are those of a layer, as long as no key names a position of a list;
  `cover_eq` says that laying the layer is making them in turn.
* `find?_assign_self` and `find?_assign_other` are what an assignment does to what a path leads
  to, `orderlyAt_assign` what it does to the tables on the way.
* `find?_make`: after a row of assignments a path leads to the last value that was put there.
-/

namespace TreeDigest

namespace LayerValue

variable {v w x y : LayerValue} {key key' : String} {f : String × LayerValue}
  {fs : List (String × LayerValue)}

/-! ### Fields -/

lemma lookup_cons_self (hf : f.1 = key) : (f :: fs).lookup key = some f.2 := by
  obtain ⟨k, x⟩ := f
  obtain rfl : k = key := hf
  exact List.lookup_cons_self

lemma lookup_cons_other (hf : f.1 ≠ key) : (f :: fs).lookup key = fs.lookup key := by
  have hkey : (key == f.1) = false := by simpa using hf.symm
  rw [List.lookup_cons, hkey]

/-- The fields with a value in the place of the one with the same key. -/
def replaced (key : String) (x : LayerValue) (fs : List (String × LayerValue)) :
    List (String × LayerValue) := fs.map fun f => if f.1 = key then (key, x) else f

lemma lookup_replaced_self (hfs : (fs.lookup key).isSome = true) :
    (replaced key x fs).lookup key = some x := by
  induction fs with
  | nil => simp at hfs
  | cons f fs ih =>
      by_cases hf : f.1 = key
      · rw [replaced, List.map_cons, if_pos hf, List.lookup_cons_self]
      · rw [lookup_cons_other hf] at hfs
        rw [replaced, List.map_cons, if_neg hf, lookup_cons_other hf]
        exact ih hfs

lemma lookup_replaced_other (hkey : key' ≠ key) :
    (replaced key x fs).lookup key' = fs.lookup key' := by
  induction fs with
  | nil => rfl
  | cons f fs ih =>
      rw [replaced, List.map_cons]
      by_cases hf : f.1 = key
      · rw [if_pos hf, lookup_cons_other hkey.symm, lookup_cons_other (hf ▸ hkey.symm)]
        exact ih
      · rw [if_neg hf]
        by_cases hf' : f.1 = key'
        · rw [lookup_cons_self hf', lookup_cons_self hf']
        · rw [lookup_cons_other hf', lookup_cons_other hf']
          exact ih

/-- Where a key is missing nothing is replaced. -/
lemma replaced_of_missing (hfs : fs.lookup key = none) : replaced key x fs = fs := by
  induction fs with
  | nil => rfl
  | cons f fs ih =>
      by_cases hf : f.1 = key
      · simp [lookup_cons_self hf] at hfs
      · rw [lookup_cons_other hf] at hfs
        rw [replaced, List.map_cons, if_neg hf]
        exact congrArg _ (ih hfs)

lemma replaced_replaced : replaced key y (replaced key x fs) = replaced key y fs := by
  simp only [replaced, List.map_map]
  refine List.map_congr_left fun f _ => ?_
  by_cases hf : f.1 = key <;> simp [hf]

/-- The fields of a table into which a value was put. -/
def putFields (key : String) (x : LayerValue) (fs : List (String × LayerValue)) :
    List (String × LayerValue) :=
  if (fs.lookup key).isSome then replaced key x fs else fs ++ [(key, x)]

@[simp] lemma fields_put (v : LayerValue) (key : String) (x : LayerValue) :
    (v.put key x).fields = putFields key x v.fields := by
  cases v <;> rfl

lemma lookup_putFields_self : (putFields key x fs).lookup key = some x := by
  rw [putFields]
  split
  · next hsome => exact lookup_replaced_self hsome
  · next hnone =>
      rw [List.lookup_append, Option.not_isSome_iff_eq_none.mp hnone, List.lookup_cons_self]
      rfl

lemma lookup_putFields_other (hkey : key' ≠ key) :
    (putFields key x fs).lookup key' = fs.lookup key' := by
  rw [putFields]
  split
  · exact lookup_replaced_other hkey
  · rw [List.lookup_append, lookup_cons_other hkey.symm, List.lookup_nil, Option.or_none]

lemma putFields_putFields : putFields key y (putFields key x fs) = putFields key y fs := by
  rw [putFields, lookup_putFields_self, putFields]
  by_cases hsome : (fs.lookup key).isSome = true
  · simp only [putFields, Option.isSome_some, if_true, hsome, replaced_replaced]
  · have hnone := Option.not_isSome_iff_eq_none.mp hsome
    simp only [hnone, Option.isSome_some, Option.isSome_none, if_true, putFields,
      Bool.false_eq_true, if_false]
    rw [replaced, List.map_append]
    exact congrArg₂ _ (replaced_of_missing hnone) (by simp)

lemma nodup_putFields (hfs : (fs.map (·.1)).Nodup) : ((putFields key x fs).map (·.1)).Nodup := by
  rw [putFields]
  split
  · have hkeys : (replaced key x fs).map (·.1) = fs.map (·.1) := by
      rw [replaced, List.map_map]
      refine List.map_congr_left fun f _ => ?_
      by_cases hf : f.1 = key <;> simp [hf]
    rwa [hkeys]
  · next hnone =>
      have hmissing : ∀ f ∈ fs, f.1 ≠ key := by
        intro f hf hkey
        have hlookup := List.lookup_eq_none_iff.mp (Option.not_isSome_iff_eq_none.mp hnone) f hf
        simp [hkey] at hlookup
      rw [List.map_append, List.nodup_append]
      refine ⟨hfs, by simp, fun k hk l hl => ?_⟩
      obtain ⟨f, hf, rfl⟩ := List.mem_map.mp hk
      obtain rfl : l = key := by simpa using hl
      exact hmissing f hf

@[simp] lemma field?_put_self (v : LayerValue) (key : String) (x : LayerValue) :
    (v.put key x).field? key = some x := by
  rw [field?, fields_put, lookup_putFields_self]

lemma field?_put_other (v : LayerValue) (x : LayerValue) (hkey : key' ≠ key) :
    (v.put key x).field? key' = v.field? key' := by
  rw [field?, fields_put, lookup_putFields_other hkey, field?]

/-- Of two values put under one key the second one stays. -/
lemma put_put (v : LayerValue) (key : String) (x y : LayerValue) :
    (v.put key x).put key y = v.put key y := by
  have hput : ∀ (o : Option String) (fs : List (String × LayerValue)) (z : LayerValue),
      (table o fs).put key z = .table o (putFields key z fs) := fun _ _ _ => rfl
  have hother : ∀ z, v.put key z = .table (v.put key z).origin (putFields key z v.fields) := by
    intro z
    cases v <;> rfl
  have horigin : ∀ z, (v.put key z).origin = (v.put key x).origin := by
    intro z
    cases v <;> rfl
  rw [hother x, hput, hother y, putFields_putFields, horigin y]

/-! ### Paths -/

/-- What a path of names leads to. -/
def find? : List String → LayerValue → Option LayerValue
  | [], v => some v
  | key :: path, v => (v.field? key).bind (find? path)

/-- Puts a value where a path of names leads, or without a value leaves what is there, a table
where nothing is. Whatever is in the way becomes a table. -/
def assign (value? : Option LayerValue) : List String → LayerValue → LayerValue
  | [], v => value?.getD v
  | key :: path, v => v.put key (assign value? path ((v.field? key).getD emptyTable))

section Assign

variable {value? : Option LayerValue} {path path' : List String}

/-- A field that is missing counts as a table without fields. -/
lemma find?_getD (o : Option LayerValue) {path : List String} (hpath : path ≠ []) :
    find? path (o.getD emptyTable) = o.bind (find? path) := by
  cases o with
  | some v => rfl
  | none =>
      cases path with
      | nil => exact absurd rfl hpath
      | cons key path => rfl

/-- **The path of an assignment leads to its value.** -/
lemma find?_assign_self (value? : Option LayerValue) (path : List String) (v : LayerValue) :
    find? path (assign value? path v) = some (value?.getD ((find? path v).getD emptyTable)) := by
  induction path generalizing v with
  | nil => rfl
  | cons key path ih =>
      rw [assign, find?, field?_put_self, Option.bind_some, ih, find?]
      by_cases hpath : path = []
      · subst hpath
        cases v.field? key <;> rfl
      · rw [find?_getD _ hpath]

/-- **A path that an assignment does not go through leads where it led**, if the assignment stops
above it without a value or leads elsewhere. -/
lemma find?_assign_other (hbelow : ¬ path' <+: path) (habove : value? = none ∨ ¬ path <+: path')
    (v : LayerValue) : find? path' (assign value? path v) = find? path' v := by
  induction path generalizing path' v with
  | nil =>
      obtain rfl := habove.resolve_right (by simp)
      rfl
  | cons key path ih =>
      cases path' with
      | nil => exact absurd List.nil_prefix hbelow
      | cons key' path' =>
          rw [assign, find?, find?]
          by_cases hkey : key' = key
          · subst hkey
            rw [List.cons_prefix_cons, and_iff_right rfl] at hbelow habove
            have hne : path' ≠ [] := fun h => hbelow (h ▸ List.nil_prefix)
            rw [field?_put_self, Option.bind_some, ih hbelow habove, find?_getD _ hne]
          · rw [field?_put_other _ _ hkey]

/-- A table whose keys are distinct. -/
def Orderly (v : LayerValue) : Prop := ∃ o fs, v = .table o fs ∧ (fs.map (·.1)).Nodup

/-- A path leads to a table with distinct keys, if it leads anywhere. -/
def OrderlyAt (path : List String) (v : LayerValue) : Prop := ∀ w, find? path v = some w → w.Orderly

lemma orderly_emptyTable : emptyTable.Orderly := ⟨none, [], rfl, List.nodup_nil⟩

lemma orderlyAt_emptyTable (path : List String) : emptyTable.OrderlyAt path := by
  intro w hw
  cases path with
  | nil =>
      obtain rfl : emptyTable = w := Option.some.inj hw
      exact orderly_emptyTable
  | cons key path => cases hw

lemma Orderly.put (hv : v.Orderly) (key : String) (x : LayerValue) : (v.put key x).Orderly := by
  obtain ⟨o, fs, rfl, hfs⟩ := hv
  exact ⟨o, putFields key x fs, rfl, nodup_putFields hfs⟩

lemma OrderlyAt.field {v : LayerValue} (hv : v.OrderlyAt (key :: path)) :
    ((v.field? key).getD emptyTable).OrderlyAt path := by
  cases hfield : v.field? key with
  | none => exact orderlyAt_emptyTable path
  | some w => exact fun x hx => hv x (by rw [find?, hfield]; exact hx)

/-- **An assignment keeps tables in order**, unless it puts a value on the way to them. -/
lemma orderlyAt_assign (habove : value? = none ∨ ¬ path <+: path') (hv : v.OrderlyAt path') :
    (assign value? path v).OrderlyAt path' := by
  induction path generalizing path' v with
  | nil =>
      obtain rfl := habove.resolve_right (by simp)
      exact hv
  | cons key path ih =>
      intro w hw
      cases path' with
      | nil =>
          obtain rfl : assign value? (key :: path) v = w := Option.some.inj hw
          exact (hv v rfl).put _ _
      | cons key' path' =>
          rw [assign, find?] at hw
          by_cases hkey : key' = key
          · subst hkey
            rw [List.cons_prefix_cons, and_iff_right rfl] at habove
            rw [field?_put_self, Option.bind_some] at hw
            exact ih habove hv.field w hw
          · rw [field?_put_other _ _ hkey] at hw
            exact hv w hw

end Assign

end LayerValue

/-! ### Rows of assignments -/

/-- What a layer does to one path of names: it puts a value there, or it sees to it that something
is there. -/
structure Assignment where
  path : List String
  value? : Option LayerValue

namespace Assignment

/-- Assignments below a key, which becomes a table if nothing is there. -/
def within (key : String) (as : List Assignment) : List Assignment :=
  ⟨[key], none⟩ :: as.map fun a => ⟨key :: a.path, a.value?⟩

/-- The last value that is put on a path. -/
def last? (path : List String) : List Assignment → Option LayerValue
  | [] => none
  | a :: as => (last? path as).or (if a.path = path then a.value? else none)

/-- The assignment does not change what the path leads to. -/
def Spares (a : Assignment) (path : List String) : Prop :=
  ¬ path <+: a.path ∧ (a.value? = none ∨ ¬ a.path <+: path)

/-- The assignment puts a value on the path. -/
def Sets (a : Assignment) (path : List String) : Prop := a.path = path ∧ a.value?.isSome = true

lemma last?_append (path : List String) (as bs : List Assignment) :
    last? path (as ++ bs) = (last? path bs).or (last? path as) := by
  induction as with
  | nil => rw [List.nil_append, last?, Option.or_none]
  | cons a as ih => rw [List.cons_append, last?, ih, last?, Option.or_assoc]

end Assignment

namespace LayerValue

open Assignment

variable {v : LayerValue} {path : List String} {as : List Assignment}

/-- Makes assignments in turn. -/
def make (v : LayerValue) (as : List Assignment) : LayerValue :=
  as.foldl (fun v a => assign a.value? a.path v) v

lemma make_append (v : LayerValue) (as bs : List Assignment) :
    v.make (as ++ bs) = (v.make as).make bs := List.foldl_append

/-- **After some assignments a path leads to the last value that was put there**, and without any
where it led before. -/
theorem find?_make (has : ∀ a ∈ as, a.Spares path ∨ a.Sets path) (v : LayerValue) :
    find? path (v.make as) = (last? path as).or (find? path v) := by
  induction as generalizing v with
  | nil => rfl
  | cons a as ih =>
      have hstep : find? path (assign a.value? a.path v)
          = (if a.path = path then a.value? else none).or (find? path v) := by
        rcases has a (by simp) with ⟨hbelow, habove⟩ | ⟨rfl, hvalue⟩
        · have hne : a.path ≠ path := fun h => hbelow (h ▸ List.prefix_rfl)
          rw [find?_assign_other hbelow habove, if_neg hne, Option.none_or]
        · obtain ⟨x, hx⟩ := Option.isSome_iff_exists.mp hvalue
          rw [find?_assign_self, if_pos rfl, hx, Option.getD_some, Option.some_or]
      rw [last?, Option.or_assoc, ← hstep]
      exact ih (fun b hb => has b (by simp [hb])) _

/-- Assignments keep the tables on the way to their values in order. -/
theorem orderlyAt_make (has : ∀ a ∈ as, a.value? = none ∨ ¬ a.path <+: path)
    (hv : v.OrderlyAt path) : (v.make as).OrderlyAt path := by
  induction as generalizing v with
  | nil => exact hv
  | cons a as ih =>
      exact ih (fun b hb => has b (by simp [hb])) (orderlyAt_assign (has a (by simp)) hv)

/-- Assignments below a key change what the key leads to. -/
lemma make_within (v : LayerValue) (key : String) (as : List Assignment) :
    v.make (within key as) = v.put key (((v.field? key).getD emptyTable).make as) := by
  have hbelow : ∀ (as : List Assignment) (w : LayerValue),
      (v.put key w).make (as.map fun a => ⟨key :: a.path, a.value?⟩) = v.put key (w.make as) := by
    intro as
    induction as with
    | nil => exact fun w => rfl
    | cons a as ih =>
        intro w
        have hstep : assign a.value? (key :: a.path) (v.put key w)
            = v.put key (assign a.value? a.path w) := by
          rw [assign, field?_put_self, Option.getD_some, put_put]
        rw [List.map_cons, make, List.foldl_cons, hstep]
        exact ih _
  exact hbelow as _

/-! ### The assignments of a layer -/

mutual
/-- What setting a key to a value assigns. -/
def assignmentsAt (key : String) : LayerValue → List Assignment
  | .table _ fs => within (Text.lowercase key) (assignmentsIn fs)
  | .scalar o s => [⟨[Text.lowercase key], some (.scalar o s)⟩]
  | .list o items => [⟨[Text.lowercase key], some (.list o items)⟩]

/-- What setting keys in turn assigns. -/
def assignmentsIn : List (String × LayerValue) → List Assignment
  | [] => []
  | (key, value) :: rest => assignmentsAt key value ++ assignmentsIn rest
end

mutual
/-- Setting a key makes its assignments. -/
theorem set_eq (root : LayerValue) (key : String) :
    ∀ value : LayerValue, root.set key value = root.make (assignmentsAt key value)
  | .table o fs => by
      rw [set, assignmentsAt, make_within, setAll_eq]
  | .scalar o s => by rw [set, assignmentsAt]; rfl
  | .list o items => by rw [set, assignmentsAt]; rfl

/-- Setting keys in turn makes their assignments. -/
theorem setAll_eq (root : LayerValue) :
    ∀ fs : List (String × LayerValue), root.setAll fs = root.make (assignmentsIn fs)
  | [] => by rw [setAll, assignmentsIn]; rfl
  | (key, value) :: rest => by
      rw [setAll, assignmentsIn, make_append, ← set_eq root key value, setAll_eq]
end

/-- What setting the end of a path of names to a value assigns. -/
def assignmentsBelow (value : LayerValue) : List String → List Assignment
  | [] => []
  | [key] => value.assignmentsAt key
  | key :: next :: path => within key (assignmentsBelow value (next :: path))

end LayerValue

namespace KeyPath

/-- The names of a path without positions of lists. -/
def names? : List KeyStep → Option (List String)
  | [] => some []
  | .key name :: steps => (names? steps).map (name :: ·)
  | .item _ :: _ => none

lemma eq_map_of_names? {steps : List KeyStep} {names : List String}
    (hnames : names? steps = some names) : steps = names.map .key := by
  induction steps generalizing names with
  | nil =>
      obtain rfl : [] = names := Option.some.inj hnames
      rfl
  | cons step steps ih =>
      cases step with
      | item index => cases hnames
      | key name =>
          obtain ⟨rest, hrest, rfl⟩ := Option.map_eq_some_iff.mp hnames
          rw [ih hrest, List.map_cons]

/-- What is missing on a path counts as a table without fields. -/
lemma change_nil (key : String) (value : LayerValue) (path : List String) :
    change (fun v => v.set key value) (path.map .key) .nil
      = change (fun v => v.set key value) (path.map .key) .emptyTable := by
  cases path with
  | nil =>
      refine congrArg some ?_
      cases value <;> (simp only [LayerValue.set]; rfl)
  | cons name path => rfl

/-- Setting a key of what a path of names leads to makes the assignments on the whole path. -/
lemma change_names (root value : LayerValue) (path : List String) (key : String) :
    change (fun v => v.set key value) (path.map .key) root
      = some (root.make (value.assignmentsBelow (path ++ [key]))) := by
  induction path generalizing root with
  | nil => exact congrArg some (LayerValue.set_eq root key value)
  | cons name path ih =>
      have hbelow : value.assignmentsBelow (name :: path ++ [key])
          = Assignment.within name (value.assignmentsBelow (path ++ [key])) := by
        cases path <;> rfl
      have hmissing : change (fun v => v.set key value) (path.map .key)
            ((root.field? name).getD .nil)
          = change (fun v => v.set key value) (path.map .key)
            ((root.field? name).getD .emptyTable) := by
        cases root.field? name with
        | none => exact change_nil key value path
        | some v => rfl
      rw [hbelow, LayerValue.make_within, List.map_cons, change, hmissing, ih, Option.map_some]

/-- Setting what a path of names leads to makes the assignments on the path. -/
lemma set_names (root value : LayerValue) (names : List String) :
    set root (names.map .key) value = some (root.make (value.assignmentsBelow names)) := by
  rcases List.eq_nil_or_concat' names with rfl | ⟨path, key, rfl⟩
  · rfl
  · have hset : set root ((path ++ [key]).map .key) value
        = change (fun v => v.set key value) (path.map .key) root := by
      simp [set]
    rw [hset, change_names]

/-- What setting a key at the top of a layer assigns. -/
def assignments? (key : String) (value : LayerValue) : Option (List Assignment) :=
  match parse? key with
  | none => some (value.assignmentsAt key)
  | some steps => (names? steps).map value.assignmentsBelow

lemma setTop_eq {key : String} {value : LayerValue} {as : List Assignment}
    (has : assignments? key value = some as) (root : LayerValue) :
    setTop root key value = some (root.make as) := by
  rw [assignments?] at has
  rw [setTop]
  cases hparse : parse? key with
  | none =>
      rw [hparse] at has
      obtain rfl := Option.some.inj has
      exact congrArg some (LayerValue.set_eq root key value)
  | some steps =>
      rw [hparse] at has
      obtain ⟨names, hnames, rfl⟩ := Option.map_eq_some_iff.mp has
      rw [eq_map_of_names? hnames]
      exact set_names root value names

end KeyPath

namespace Layer

/-- The assignments of a layer, if none of its keys names a position of a list. -/
def assignments? : List (String × LayerValue) → Option (List Assignment)
  | [] => some []
  | (key, value) :: rest => do return (← KeyPath.assignments? key value) ++ (← assignments? rest)

/-- **Laying a layer over a table is making its assignments in turn.** -/
theorem cover_eq {layer : List (String × LayerValue)} {as : List Assignment}
    (has : assignments? layer = some as) (root : LayerValue) :
    root.cover layer = some (root.make as) := by
  induction layer generalizing as root with
  | nil =>
      obtain rfl := Option.some.inj has
      rfl
  | cons f layer ih =>
      obtain ⟨key, value⟩ := f
      rw [assignments?] at has
      obtain ⟨first, hfirst, has⟩ := Option.bind_eq_some_iff.mp has
      obtain ⟨rest, hrest, has⟩ := Option.bind_eq_some_iff.mp has
      obtain rfl := Option.some.inj has
      rw [LayerValue.make_append, ← ih hrest, LayerValue.cover, List.foldlM_cons,
        KeyPath.setTop_eq hfirst]
      rfl

end Layer

end TreeDigest

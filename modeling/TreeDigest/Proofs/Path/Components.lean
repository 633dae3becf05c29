import TreeDigest.Proofs.FileSystem.Resolution

/-!
The components of paths.

Paths are compared by their components. An absolute path has the root and what it goes
through as its components, and a name that is joined to any path is one more.

* `Path.components_join` is what joining a name does to the components, and
  `Path.components_joinAll` what joining some names does to those of an absolute path.
* `FileSystem.canonicalize_ok` is the shape of a plain path: the names it goes through.
* `Path.LiesIn` says that one path is written at or below another one, and
  `Path.Apart` that neither of two paths lies in the other one; `Path.child_liesIn_iff`
  and `Path.child_same_child_iff` take such a question one name back.
-/

namespace TreeDigest

namespace Path

variable {p q r : Path} {name : Bytes} {names : List Bytes}

lemma component?_name (hname : IsName name) : component? name = some (.name name) := by
  rw [component?, if_neg (by simp [hname.nonempty, hname.notDot]), if_neg hname.notDots]

lemma filterMap_component? (hnames : ∀ name ∈ names, IsName name) :
    names.filterMap component? = names.map .name := by
  induction names with
  | nil => rfl
  | cons name names ih =>
      rw [List.filterMap_cons_some (component?_name (hnames name (by simp))),
        ih fun n hn => hnames n (by simp [hn]), List.map_cons]

lemma ne_nil_of_isAbsolute (hp : p.isAbsolute = true) : p.bytes ≠ [] := by
  intro hnil
  simp [isAbsolute, hnil] at hp

/-- Nothing between two slashes is no component. -/
lemma filterMap_steps (p : Path) :
    p.steps.filterMap component? = p.segments.filterMap component? := by
  rw [steps, List.filterMap_filter]
  congr 1
  funext segment
  by_cases hsegment : segment = [] <;> simp [hsegment, component?]

/-- The components of an absolute path: the root, and what it goes through. -/
lemma components_of_isAbsolute (hp : p.isAbsolute = true) :
    p.components = .root :: p.steps.filterMap component? := by
  rw [components, filterMap_steps, if_pos hp, List.singleton_append]

/-- The file name of a path is the last name that it goes through, if there is one at its end. -/
lemma fileName?_of_getLast?_steps (hlast : p.steps.getLast? = some name)
    (hname : component? name = some (.name name)) : p.fileName? = some name := by
  obtain ⟨before, hbefore⟩ := List.getLast?_eq_some_iff.mp hlast
  rw [fileName?, components, ← filterMap_steps, hbefore, List.filterMap_append,
    List.filterMap_cons_some hname, List.filterMap_nil, ← List.append_assoc,
    List.getLast?_append_of_ne_nil _ (by simp)]
  rfl

/-- **Joining some names adds them to the components.** -/
lemma components_joinAll (hp : p.isAbsolute = true) (hnames : ∀ name ∈ names, IsName name) :
    (p.joinAll names).components = p.components ++ names.map .name := by
  rw [components_of_isAbsolute ((isAbsolute_joinAll p hnames).trans hp),
    components_of_isAbsolute hp, steps_joinAll (ne_nil_of_isAbsolute hp) hnames,
    List.filterMap_append, filterMap_component? hnames, List.cons_append]

/-- A name is put behind the last slash of the path, or behind a slash of its own. -/
lemma segments_join_name (hp : p.bytes ≠ []) (hname : IsName name) :
    ∃ before after, before ≠ [] ∧ p.segments = before ++ after ∧ (∀ s ∈ after, s = [])
      ∧ (p.join ⟨name⟩).segments = before ++ [name] := by
  have hone := Text.splitOn_of_notMem hname.noSlash
  have hbytes := join_name hp hname
  by_cases hlast : p.bytes.getLast? = some slash
  · obtain ⟨init, hinit⟩ := List.getLast?_eq_some_iff.mp hlast
    refine ⟨Text.splitOn slash init, [[]], Text.splitOn_ne_nil _ _, ?_, by simp, ?_⟩
    · rw [segments, hinit, Text.splitOn_append_cons]
      rfl
    · rw [segments, hbytes, if_pos hlast, hinit, List.append_nil, List.append_assoc,
        List.singleton_append, Text.splitOn_append_cons, hone]
  · refine ⟨p.segments, [], Text.splitOn_ne_nil _ _, (List.append_nil _).symm, by simp, ?_⟩
    rw [segments, hbytes, if_neg hlast, List.append_assoc, List.singleton_append,
      Text.splitOn_append_cons, hone, segments]

/-- **A name that is joined is one more component**, whether the path is absolute, relative or
empty, and however it is spelled. -/
lemma components_join (p : Path) (hname : IsName name) :
    (p.join ⟨name⟩).components = p.components ++ [.name name] := by
  have hlast : [name].filterMap component? = [.name name] :=
    filterMap_component? (by simpa using hname)
  by_cases hp : p.bytes = []
  · have hone : (p.join ⟨name⟩).segments = [name] := by
      rw [join, if_neg (by simp [hname.not_absolute]), if_pos (.inl hp), hp, List.nil_append,
        segments, Text.splitOn_of_notMem hname.noSlash]
    have hempty : p.components = [] := by
      simp [components, isAbsolute, segments, hp, Text.splitOn, component?]
    rw [hempty, List.nil_append, components, hone, hlast, isAbsolute_join p hname]
    simp [isAbsolute, hp, hname.notDot]
  · obtain ⟨before, after, hbefore, hsegments, hafter, hjoin⟩ := segments_join_name hp hname
    have hnothing : after.filterMap component? = [] := by
      rw [List.filterMap_eq_nil_iff]
      intro s hs
      rw [hafter s hs]
      rfl
    have hhead : ∀ rest, (before ++ rest).head? = before.head? := fun rest =>
      List.head?_append_of_ne_nil _ hbefore
    rw [components, components, isAbsolute_join p hname, hjoin, hsegments, hhead, hhead,
      List.filterMap_append, List.filterMap_append, hlast, hnothing, List.append_nil,
      List.append_assoc]

lemma components_pathOf (hnames : ∀ name ∈ names, IsName name) :
    (FileSystem.pathOf names).components = .root :: names.map .name := by
  rw [components_of_isAbsolute rfl, steps_pathOf hnames, filterMap_component? hnames]

/-! ### Where a path lies -/

/-- The path is the other one, or is written below it. -/
def LiesIn (p base : Path) : Prop := base.components <+: p.components

instance (p base : Path) : Decidable (p.LiesIn base) :=
  inferInstanceAs (Decidable (base.components <+: p.components))

/-- Two paths of which neither lies in the other one. -/
def Apart (p q : Path) : Prop := ¬ p.LiesIn q ∧ ¬ q.LiesIn p

instance (p q : Path) : Decidable (p.Apart q) := inferInstanceAs (Decidable (_ ∧ _))

lemma Apart.symm (hpq : p.Apart q) : q.Apart p := And.symm hpq

/-- The path is the other one with the names of some entries added to it, if any. -/
def AtOrBelow (p base : Path) : Prop :=
  ∃ names : List Bytes, (∀ name ∈ names, IsName name) ∧ p = base.joinAll names

lemma LiesIn.trans (hpq : p.LiesIn q) (hqr : q.LiesIn r) : p.LiesIn r := List.IsPrefix.trans hqr hpq

/-- Of two paths in which one path lies, one lies in the other. -/
lemma LiesIn.comparable (hp : r.LiesIn p) (hq : r.LiesIn q) : p.LiesIn q ∨ q.LiesIn p :=
  (List.prefix_or_prefix_of_prefix hp hq).symm

/-- What is written below a plain path lies there. -/
lemma pathOf_append_liesIn (names more : List Bytes) :
    (FileSystem.pathOf (names ++ more)).LiesIn (FileSystem.pathOf names) := by
  by_cases hnames : names = []
  · rw [hnames, LiesIn, components_of_isAbsolute rfl]
    exact ⟨_, rfl⟩
  by_cases hmore : more = []
  · rw [hmore, List.append_nil, LiesIn]
  have hsegments : (FileSystem.pathOf (names ++ more)).segments
      = (FileSystem.pathOf names).segments
        ++ Text.splitOn slash ([slash].intercalate more) := by
    rw [segments, segments, FileSystem.pathOf, FileSystem.pathOf, intercalate_append hnames hmore,
      ← List.cons_append, Text.splitOn_append_cons]
  rw [LiesIn, components, components, hsegments, List.filterMap_append, ← List.append_assoc]
  exact List.prefix_append _ _

lemma same_iff : p.same q = true ↔ p.components = q.components := by rw [same, beq_iff_eq]

lemma same_symm (hpq : p.same q = true) : q.same p = true := same_iff.mpr (same_iff.mp hpq).symm

lemma liesIn_of_same (hpq : p.same q = true) : p.LiesIn q := by
  rw [LiesIn, same_iff.mp hpq]

/-! A text that names an entry adds itself to a path. -/

section Child

variable {s t : String}

lemma isAbsolute_child (hp : p.isAbsolute = true) (hs : IsName (Text.utf8 s)) :
    (p.child s).isAbsolute = true := (isAbsolute_join p hs).trans hp

lemma components_child (p : Path) (hs : IsName (Text.utf8 s)) :
    (p.child s).components = p.components ++ [.name (Text.utf8 s)] := components_join p hs

lemma child_atOrBelow (p : Path) (hs : IsName (Text.utf8 s)) : (p.child s).AtOrBelow p :=
  ⟨[Text.utf8 s], by simpa using hs, rfl⟩

lemma child_liesIn (p : Path) (hs : IsName (Text.utf8 s)) : (p.child s).LiesIn p := by
  rw [LiesIn, components_child p hs]
  exact List.prefix_append _ _

/-- A path lies in another one if it is that one, or if the path before it lies there. -/
lemma child_liesIn_iff (hs : IsName (Text.utf8 s)) :
    (p.child s).LiesIn q ↔ (p.child s).same q = true ∨ p.LiesIn q := by
  rw [LiesIn, same_iff, components_child p hs, List.prefix_concat_iff, eq_comm]
  rfl

lemma child_same_child_iff (hs : IsName (Text.utf8 s)) (ht : IsName (Text.utf8 t)) :
    (p.child s).same (q.child t) = true ↔ p.same q = true ∧ Text.utf8 s = Text.utf8 t := by
  rw [same_iff, same_iff, components_child p hs, components_child q ht]
  constructor
  · intro hcomponents
    obtain ⟨hbefore, hlast⟩ := List.append_inj' hcomponents rfl
    exact ⟨hbefore, by simpa using hlast⟩
  · rintro ⟨hbefore, hlast⟩
    rw [hbefore, hlast]

end Child

end Path

namespace FileSystem

open TreeDigest.Path

/-- **A plain path goes through names of entries**, and through nothing else. -/
lemma canonicalize_ok {fs : FileSystem} (hfs : fs.WellFormed) {p q : Path}
    (hp : fs.canonicalize p = .ok q) : ∃ names, q = pathOf names ∧ ∀ name ∈ names, IsName name := by
  obtain ⟨place, n, hres, hnode, rfl⟩ := canonicalize_eq_ok_iff.mp hp
  refine ⟨place.names, rfl, ?_⟩
  have hvalid := resolve_valid hres
  cases place with
  | vacant trail name => cases hnode
  | directory trail => exact hvalid.isName hfs
  | other trail name node =>
      intro x hx
      rcases List.mem_append.mp hx with hx | hx
      · exact hvalid.1.isName hfs x hx
      · obtain rfl := List.mem_singleton.mp hx
        exact (hvalid.1.wellFormed hfs).isName (Entries.mem_of_find? hvalid.2.1)

end FileSystem

end TreeDigest

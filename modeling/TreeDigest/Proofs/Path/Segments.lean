import Mathlib
import TreeDigest.FileSystem.Basic

/-!
The names that a path goes through.

A path is looked up name by name, and repeated slashes do not count. A name that can stand
in a directory adds itself to the names of the path that it is joined to, and the path of
some names goes through just these.

* `Path.IsName` says which byte strings can be names of entries.
* `steps_join` and `steps_pathOf` are the two ways in which a walk makes paths.
* `joinAll` joins some names in turn, and `steps_joinAll` says where that goes through.
* `entryName_join` is the name under which a listed entry is recorded.
-/

namespace TreeDigest

namespace Text

variable {α : Type} [DecidableEq α]

lemma splitOn_ne_nil (sep : α) (as : List α) : splitOn sep as ≠ [] := by
  intro hnil
  have hlength := length_splitOn sep as
  simp [hnil] at hlength

/-- Two lists put together with a separator split into the parts of both. -/
lemma splitOn_append_cons (sep : α) (as bs : List α) :
    splitOn sep (as ++ sep :: bs) = splitOn sep as ++ splitOn sep bs := by
  induction as with
  | nil => simp [splitOn]
  | cons a as ih =>
      by_cases ha : a = sep
      · simp [splitOn, ha, ih]
      · rw [List.cons_append, splitOn, splitOn, if_neg ha, if_neg ha, ih]
        cases has : splitOn sep as with
        | nil => exact absurd has (splitOn_ne_nil sep as)
        | cons part parts => rfl

lemma splitOn_of_notMem {sep : α} {as : List α} (hsep : sep ∉ as) : splitOn sep as = [as] := by
  induction as with
  | nil => rfl
  | cons a as ih =>
      have ha : a ≠ sep := fun heq => hsep (heq ▸ List.mem_cons_self)
      have has : sep ∉ as := fun hmem => hsep (List.mem_cons_of_mem a hmem)
      rw [splitOn, if_neg ha, ih has]

/-- The parts hold no separator, and nothing that is not in the list. -/
lemma mem_of_mem_splitOn {sep : α} {as part : List α} (hpart : part ∈ splitOn sep as) :
    sep ∉ part ∧ ∀ a ∈ part, a ∈ as := by
  induction as generalizing part with
  | nil =>
      obtain rfl := List.mem_singleton.mp hpart
      simp
  | cons a as ih =>
      rw [splitOn] at hpart
      by_cases ha : a = sep
      · rw [if_pos ha] at hpart
        rcases List.mem_cons.mp hpart with rfl | hpart
        · simp
        · exact ⟨(ih hpart).1, fun b hb => List.mem_cons_of_mem a ((ih hpart).2 b hb)⟩
      · rw [if_neg ha] at hpart
        cases hrest : splitOn sep as with
        | nil => exact absurd hrest (splitOn_ne_nil sep as)
        | cons first parts =>
            have ih := fun {part} => @ih part
            simp only [hrest] at hpart ih
            rcases List.mem_cons.mp hpart with rfl | hpart
            · obtain ⟨hsep, hmem⟩ := ih List.mem_cons_self
              refine ⟨by simp [Ne.symm ha, hsep], fun b hb => ?_⟩
              rcases List.mem_cons.mp hb with rfl | hb
              · exact List.mem_cons_self
              · exact List.mem_cons_of_mem a (hmem b hb)
            · obtain ⟨hsep, hmem⟩ := ih (List.mem_cons_of_mem _ hpart)
              exact ⟨hsep, fun b hb => List.mem_cons_of_mem a (hmem b hb)⟩

end Text

namespace Path

/-- A byte string that can be the name of an entry. -/
structure IsName (name : Bytes) : Prop where
  nonempty : name ≠ []
  notDot : name ≠ [dot]
  notDots : name ≠ [dot, dot]
  noSlash : slash ∉ name
  noNul : 0 ∉ name

instance (name : Bytes) : Decidable (IsName name) :=
  decidable_of_iff (name ≠ [] ∧ name ≠ [dot] ∧ name ≠ [dot, dot] ∧ slash ∉ name ∧ 0 ∉ name)
    ⟨fun ⟨hempty, hdot, hdots, hslash, hnul⟩ => ⟨hempty, hdot, hdots, hslash, hnul⟩,
      fun h => ⟨h.nonempty, h.notDot, h.notDots, h.noSlash, h.noNul⟩⟩

/-- The names that a path goes through. -/
def steps (p : Path) : List Bytes := p.segments.filter (· ≠ [])

variable {p : Path} {name : Bytes}

lemma IsName.head?_ne (hname : IsName name) : name.head? ≠ some slash :=
  fun hhead => hname.noSlash (List.mem_of_head? hhead)

lemma IsName.getLast?_ne (hname : IsName name) : name.getLast? ≠ some slash :=
  fun hlast => hname.noSlash (List.mem_of_getLast? hlast)

lemma IsName.not_absolute (hname : IsName name) : isAbsolute ⟨name⟩ = false := by
  simpa [isAbsolute] using hname.head?_ne

/-- Joining a relative path writes it behind the path, with a slash between them where there is
something before it that does not end in one. -/
lemma bytes_join {q : Path} (hq : q.isAbsolute = false) :
    (p.join q).bytes = p.bytes
      ++ (if p.bytes = [] ∨ p.bytes.getLast? = some slash then [] else [slash]) ++ q.bytes := by
  rw [join, hq]
  by_cases hends : p.bytes = [] ∨ p.bytes.getLast? = some slash <;> simp [hends]

/-- Joining a name writes it behind the path, with one slash before it. -/
lemma join_name (hp : p.bytes ≠ []) (hname : IsName name) :
    (p.join ⟨name⟩).bytes
      = p.bytes ++ (if p.bytes.getLast? = some slash then [] else [slash]) ++ name := by
  simp [bytes_join hname.not_absolute, hp]

lemma isAbsolute_join (p : Path) (hname : IsName name) :
    (p.join ⟨name⟩).isAbsolute = p.isAbsolute := by
  by_cases hp : p.bytes = []
  · simp [join, hp, isAbsolute, hname.head?_ne]
  · rw [isAbsolute, isAbsolute, join_name hp hname, List.append_assoc, List.head?_append]
    cases hhead : p.bytes with
    | nil => exact absurd hhead hp
    | cons a as => rfl

lemma getLast?_join (hp : p.bytes ≠ []) (hname : IsName name) :
    (p.join ⟨name⟩).bytes.getLast? ≠ some slash := by
  rw [join_name hp hname, List.getLast?_append_of_ne_nil _ hname.nonempty]
  exact hname.getLast?_ne

lemma nul_mem_join (hp : p.bytes ≠ []) (hname : IsName name) (hnul : 0 ∉ p.bytes) :
    0 ∉ (p.join ⟨name⟩).bytes := by
  have hslash : (0 : UInt8) ≠ slash := by decide
  rw [join_name hp hname]
  split <;> simp [hnul, hname.noNul, hslash]

/-- A relative path adds its names to those of the path that it is joined to. -/
lemma steps_join_relative (hp : p.bytes ≠ []) {q : Path} (hq : q.isAbsolute = false) :
    (p.join q).steps = p.steps ++ q.steps := by
  rw [steps, steps, steps, segments, segments, segments, bytes_join hq]
  by_cases hlast : p.bytes.getLast? = some slash
  · obtain ⟨init, hinit⟩ := List.getLast?_eq_some_iff.mp hlast
    rw [if_pos (.inr hlast), hinit, List.append_nil, List.append_assoc, List.singleton_append,
      Text.splitOn_append_cons, Text.splitOn_append_cons]
    simp [Text.splitOn]
  · rw [if_neg (by simp [hp, hlast]), List.append_assoc, List.singleton_append,
      Text.splitOn_append_cons, List.filter_append]

/-- **Joining a name adds it to the names of the path.** -/
lemma steps_join (hp : p.bytes ≠ []) (hname : IsName name) :
    (p.join ⟨name⟩).steps = p.steps ++ [name] := by
  have hone : steps ⟨name⟩ = [name] := by
    rw [steps, segments, Text.splitOn_of_notMem hname.noSlash]
    simp [hname.nonempty]
  rw [steps_join_relative hp hname.not_absolute, hone]

/-- A name may be joined before or after the path is put below another one. -/
lemma join_join {c p : Path} {name : Bytes} (hp : p.isAbsolute = false) (hname : IsName name) :
    (c.join p).join ⟨name⟩ = c.join (p.join ⟨name⟩) := by
  have habs := hname.not_absolute
  have habs' : (p.join ⟨name⟩).isAbsolute = false := by rw [isAbsolute_join p hname, hp]
  have hbytes : ((c.join p).join ⟨name⟩).bytes = (c.join (p.join ⟨name⟩)).bytes := by
    rw [bytes_join habs, bytes_join hp, bytes_join habs', bytes_join habs]
    by_cases hempty : p.bytes = []
    · by_cases hends : c.bytes = [] ∨ c.bytes.getLast? = some slash <;> simp [hempty, hends]
    · simp [hempty]
  exact congrArg Path.mk hbytes

/-- The path of some names below another path. -/
def joinAll (p : Path) (names : List Bytes) : Path := names.foldl (fun q name => q.join ⟨name⟩) p

lemma joinAll_append (p : Path) (names more : List Bytes) :
    p.joinAll (names ++ more) = (p.joinAll names).joinAll more := List.foldl_append

lemma joinAll_concat (p : Path) (names : List Bytes) (name : Bytes) :
    p.joinAll (names ++ [name]) = (p.joinAll names).join ⟨name⟩ := joinAll_append p names [name]

section JoinAll

variable {names : List Bytes}

lemma joinAll_ne_nil (hp : p.bytes ≠ []) (hnames : ∀ name ∈ names, IsName name) :
    (p.joinAll names).bytes ≠ [] := by
  induction names using List.reverseRecOn with
  | nil => exact hp
  | append_singleton names name ih =>
      have hbefore := ih fun n hn => hnames n (by simp [hn])
      rw [joinAll_concat, join_name hbefore (hnames name (by simp))]
      simp [hbefore]

/-- **Joining some names adds them to the names of the path.** -/
lemma steps_joinAll (hp : p.bytes ≠ []) (hnames : ∀ name ∈ names, IsName name) :
    (p.joinAll names).steps = p.steps ++ names := by
  induction names using List.reverseRecOn with
  | nil => simp [joinAll]
  | append_singleton names name ih =>
      have hbefore : ∀ n ∈ names, IsName n := fun n hn => hnames n (by simp [hn])
      rw [joinAll_concat, steps_join (joinAll_ne_nil hp hbefore) (hnames name (by simp)),
        ih hbefore, List.append_assoc]

lemma isAbsolute_joinAll (p : Path) (hnames : ∀ name ∈ names, IsName name) :
    (p.joinAll names).isAbsolute = p.isAbsolute := by
  induction names using List.reverseRecOn with
  | nil => rfl
  | append_singleton names name ih =>
      rw [joinAll_concat, isAbsolute_join _ (hnames name (by simp)),
        ih fun n hn => hnames n (by simp [hn])]

lemma nul_notMem_joinAll (hp : p.bytes ≠ []) (hnames : ∀ name ∈ names, IsName name)
    (hnul : 0 ∉ p.bytes) : 0 ∉ (p.joinAll names).bytes := by
  induction names using List.reverseRecOn with
  | nil => exact hnul
  | append_singleton names name ih =>
      have hbefore : ∀ n ∈ names, IsName n := fun n hn => hnames n (by simp [hn])
      rw [joinAll_concat]
      exact nul_mem_join (joinAll_ne_nil hp hbefore) (hnames name (by simp)) (ih hbefore)

end JoinAll

/-- A name that is joined is what stands behind the last slash. -/
lemma segments_join (p : Path) (hname : IsName name) :
    ∃ before, (p.join ⟨name⟩).segments = before ++ [name] := by
  have hsplit := Text.splitOn_of_notMem hname.noSlash
  rw [join, hname.not_absolute, if_neg (by simp)]
  split
  · next hbytes =>
      obtain hempty | hlast := hbytes
      · exact ⟨[], by rw [segments, hempty]; exact hsplit⟩
      · obtain ⟨before, hbefore⟩ := List.getLast?_eq_some_iff.mp hlast
        refine ⟨Text.splitOn slash before, ?_⟩
        rw [segments, hbefore, List.append_assoc, List.singleton_append,
          Text.splitOn_append_cons, hsplit]
  · exact ⟨p.segments, by rw [segments, segments, Text.splitOn_append_cons, hsplit]⟩

lemma fileName?_join (p : Path) (hname : IsName name) : (p.join ⟨name⟩).fileName? = some name := by
  obtain ⟨before, hbefore⟩ := segments_join p hname
  have hcomponent : component? name = some (.name name) := by
    rw [component?, if_neg (by simp [hname.nonempty, hname.notDot]), if_neg hname.notDots]
  rw [fileName?, components, hbefore, List.filterMap_append,
    List.filterMap_cons_some hcomponent, List.filterMap_nil, ← List.append_assoc,
    List.getLast?_append_of_ne_nil _ (by simp)]
  rfl

/-- **A listed entry is recorded under the text of its name.** -/
lemma entryName_join (p : Path) (hname : IsName name) :
    (p.join ⟨name⟩).entryName = Text.lossy name := by
  rw [entryName, fileName?_join p hname]

/-- Two rows of names are written one behind the other. -/
lemma intercalate_append {names more : List Bytes} (hnames : names ≠ []) (hmore : more ≠ []) :
    [slash].intercalate (names ++ more)
      = [slash].intercalate names ++ slash :: [slash].intercalate more := by
  induction names with
  | nil => exact absurd rfl hnames
  | cons name names ih =>
      rw [List.cons_append, List.intercalate_cons_of_ne_nil (by simp [hmore])]
      cases names with
      | nil => simp
      | cons name' names =>
          rw [ih (by simp), List.intercalate_cons_of_ne_nil (List.cons_ne_nil name' names),
            List.append_assoc, List.append_assoc, List.append_assoc]

/-- **The path of some names goes through these names.** -/
lemma steps_pathOf {names : List Bytes} (hnames : ∀ name ∈ names, IsName name) :
    (FileSystem.pathOf names).steps = names := by
  have hparts : (Text.splitOn slash ([slash].intercalate names)).filter (· ≠ []) = names := by
    induction names with
    | nil => rfl
    | cons name names ih =>
        have hname := hnames name (by simp)
        have hsplit := Text.splitOn_of_notMem hname.noSlash
        have ih := ih fun n hn => hnames n (by simp [hn])
        cases names with
        | nil => simp [hsplit, hname.nonempty]
        | cons name' names =>
            rw [List.intercalate_cons_cons, List.append_assoc, List.singleton_append,
              Text.splitOn_append_cons, hsplit, List.filter_append, ih]
            simp [hname.nonempty]
  rw [steps, segments, FileSystem.pathOf, Text.splitOn, if_pos rfl,
    List.filter_cons_of_neg (by simp), hparts]

lemma nul_notMem_pathOf {names : List Bytes} (hnames : ∀ name ∈ names, IsName name) :
    0 ∉ (FileSystem.pathOf names).bytes := by
  have hslash : (0 : UInt8) ≠ slash := by decide
  have hparts : (0 : UInt8) ∉ [slash].intercalate names := by
    induction names with
    | nil => simp
    | cons name names ih =>
        have hname := (hnames name (by simp)).noNul
        have ih := ih fun n hn => hnames n (by simp [hn])
        cases names with
        | nil => simpa using hname
        | cons name' names =>
            rw [List.intercalate_cons_cons]
            simp [hname, hslash, ih]
  simp [FileSystem.pathOf, hslash, hparts]

/-- The path of some names does not end in a slash. -/
lemma getLast?_pathOf (names : List Bytes) (hname : IsName name) :
    (FileSystem.pathOf (names ++ [name])).bytes.getLast? ≠ some slash := by
  have hends : ∃ before, [slash].intercalate (names ++ [name]) = before ++ name := by
    induction names with
    | nil => exact ⟨[], by simp⟩
    | cons n names ih =>
        obtain ⟨before, hbefore⟩ := ih
        refine ⟨n ++ slash :: before, ?_⟩
        rw [List.cons_append, List.intercalate_cons_of_ne_nil (by simp), hbefore]
        simp
  obtain ⟨before, hbefore⟩ := hends
  rw [FileSystem.pathOf, hbefore, ← List.cons_append,
    List.getLast?_append_of_ne_nil _ hname.nonempty]
  exact hname.getLast?_ne

end Path

end TreeDigest

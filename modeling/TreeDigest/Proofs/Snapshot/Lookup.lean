import TreeDigest.Proofs.Builder.Merkle
import TreeDigest.Proofs.Path.Segments

/-!
Looking for a node by a relative path.

A relative path spells a row of names, and it may spell it with more slashes than it needs. Whatever
it spells is looked for name by name, and at each name the first child counts. Where siblings have
names of their own, that finds just the nodes below a directory.

* `Text.Spells` says which rows of names a text spells; every text spells just one
  (`pathNames_eq_iff`).
* `Snapshot.Leads` goes down a snapshot by names, and `Snapshot.LeadsFirst` to the first child of
  each name. Both are the same in a snapshot that is `Addressable`.
* `Snapshot.find?_exact`: what is found, and what is not.
-/

namespace TreeDigest

/-! ### Names spelled with slashes -/

namespace Text

/-- The characters spell a row of names: any number of slashes stands before the first name and
after the last one, and one or more between two of them. -/
inductive Spells : List String → List Char → Prop where
  | slashes (k : ℕ) : Spells [] (.replicate k '/')
  | name (k : ℕ) {name : String} {names : List String} {rest : List Char} : Spells names rest →
      rest = [] ∨ rest.head? = some '/' →
      Spells (name :: names) (.replicate k '/' ++ (name.toList ++ rest))

/-- A name that can stand between slashes. -/
def IsSegment (name : String) : Prop := name ≠ "" ∧ '/' ∉ name.toList

instance (name : String) : Decidable (IsSegment name) :=
  inferInstanceAs (Decidable (name ≠ "" ∧ '/' ∉ name.toList))

/-- A slash at the start does not change what is spelled. -/
lemma Spells.slash {names : List String} {cs : List Char} (hcs : Spells names cs) :
    Spells names ('/' :: cs) := by
  cases hcs with
  | slashes k => exact .slashes (k + 1)
  | name k hrest hend => exact .name (k + 1) hrest hend

/-- A character at the start is put before the first name, or is a name by itself. -/
lemma Spells.char {names : List String} {cs : List Char} (hcs : Spells names cs)
    (hnames : ∀ name ∈ names, IsSegment name) {c : Char} (hc : c ≠ '/') :
    ∃ names', (∀ name ∈ names', IsSegment name) ∧ Spells names' (c :: cs) := by
  have halone : cs = [] ∨ cs.head? = some '/' →
      ∃ names', (∀ name ∈ names', IsSegment name) ∧ Spells names' (c :: cs) := by
    intro hend
    refine ⟨.ofList [c] :: names, List.forall_mem_cons.mpr ⟨?_, hnames⟩, ?_⟩
    · exact ⟨by simp [← String.toList_inj], by simpa using hc.symm⟩
    · simpa using @Spells.name 0 (.ofList [c]) _ _ hcs hend
  cases hcs with
  | slashes k => cases k <;> exact halone (by simp [List.replicate_succ])
  | @name k name names rest hrest hend =>
      cases k with
      | succ k => exact halone (.inr rfl)
      | zero =>
          obtain ⟨⟨-, hslash⟩, hnames⟩ := List.forall_mem_cons.mp hnames
          refine ⟨.ofList (c :: name.toList) :: names, List.forall_mem_cons.mpr ⟨?_, hnames⟩, ?_⟩
          · exact ⟨by simp [← String.toList_inj], by simp [hc.symm, hslash]⟩
          · simpa using @Spells.name 0 (.ofList (c :: name.toList)) _ _ hrest hend

/-- Every text spells some names that can stand between slashes. -/
lemma exists_spells (cs : List Char) :
    ∃ names, (∀ name ∈ names, IsSegment name) ∧ Spells names cs := by
  induction cs with
  | nil => exact ⟨[], by simp, .slashes 0⟩
  | cons c cs ih =>
      obtain ⟨names, hnames, hcs⟩ := ih
      by_cases hc : c = '/'
      · exact ⟨names, hnames, hc ▸ hcs.slash⟩
      · exact hcs.char hnames hc

/-- The parts between slashes that count. -/
def parts (cs : List Char) : List String := ((splitOn '/' cs).map String.ofList).filter (· ≠ "")

lemma parts_slash (cs : List Char) : parts ('/' :: cs) = parts cs := by
  simp [parts, splitOn]

lemma parts_slashes (k : ℕ) (cs : List Char) : parts (.replicate k '/' ++ cs) = parts cs := by
  induction k with
  | zero => rfl
  | succ k ih => rw [List.replicate_succ, List.cons_append, parts_slash, ih]

/-- The parts of a text are the names that it spells. -/
lemma Spells.parts_eq {names : List String} {cs : List Char} (hcs : Spells names cs)
    (hnames : ∀ name ∈ names, IsSegment name) : parts cs = names := by
  induction hcs with
  | slashes k => simpa [parts, splitOn] using parts_slashes k []
  | @name k name names rest hrest hend ih =>
      obtain ⟨⟨hname, hslash⟩, hnames⟩ := List.forall_mem_cons.mp hnames
      have hparts := ih hnames
      have hsplit := splitOn_of_notMem hslash
      rw [parts_slashes]
      rcases hend with rfl | hhead
      · have hnil : names = [] := by simpa [parts, splitOn] using hparts.symm
        simp [parts, hsplit, hnil, hname]
      · obtain ⟨rest', rfl⟩ := List.head?_eq_some_iff.mp hhead
        rw [parts_slash] at hparts
        rw [← hparts, parts, splitOn_append_cons, hsplit]
        simp [parts, hname]

end Text

namespace Snapshot

/-- **The names in a path** are those that it spells, out of which paths can be made. -/
lemma pathNames_eq_iff {p : String} {names : List String} : pathNames p = names
    ↔ (∀ name ∈ names, Text.IsSegment name) ∧ Text.Spells names p.toList := by
  have hparts : pathNames p = Text.parts p.toList := rfl
  constructor
  · rintro rfl
    obtain ⟨names, hnames, hspells⟩ := Text.exists_spells p.toList
    rw [hparts, hspells.parts_eq hnames]
    exact ⟨hnames, hspells⟩
  · rintro ⟨hnames, hspells⟩
    exact hparts.trans (hspells.parts_eq hnames)

/-! ### Going down by names -/

/-- From a node down to one of its children, and so on, by the names of the children. -/
inductive Leads (s : Snapshot) : List String → Snapshot → Prop where
  | here : Leads s [] s
  | down {names : List String} {m c : Snapshot} : Leads s names m → c ∈ m.children →
      Leads s (names ++ [c.name]) c

/-- From a node down to the first of its children with a name, and so on. -/
inductive LeadsFirst : Snapshot → List String → Snapshot → Prop where
  | here {s : Snapshot} : LeadsFirst s [] s
  | down {s c n : Snapshot} {before after : List Snapshot} {names : List String} :
      s.children = before ++ c :: after → (∀ b ∈ before, b.name ≠ c.name) →
      LeadsFirst c names n → LeadsFirst s (c.name :: names) n

/-- Below every node, the names of siblings are pairwise different and can stand in a path. -/
def Addressable (s : Snapshot) : Prop :=
  ∀ n, Within n s → (n.children.map name).Nodup ∧ ∀ c ∈ n.children, Text.IsSegment c.name

variable {s n : Snapshot} {names : List String}

lemma Addressable.child {c : Snapshot} (hs : s.Addressable) (hc : c ∈ s.children) :
    c.Addressable :=
  fun n hn => hs n (hn.trans (.of_mem_children hc))

/-- The first step of a way down. -/
lemma Leads.head (hn : s.Leads names n) : names = [] ∧ n = s
    ∨ ∃ c ∈ s.children, ∃ rest, names = c.name :: rest ∧ c.Leads rest n := by
  induction hn with
  | here => exact .inl ⟨rfl, rfl⟩
  | @down names m n _ hmem ih =>
      rcases ih with ⟨rfl, rfl⟩ | ⟨c, hc, rest, rfl, hrest⟩
      · exact .inr ⟨n, hmem, [], rfl, .here⟩
      · exact .inr ⟨c, hc, rest ++ [n.name], rfl, .down hrest hmem⟩

lemma Leads.cons {c : Snapshot} (hc : c ∈ s.children) (hn : c.Leads names n) :
    s.Leads (c.name :: names) n := by
  induction hn with
  | here => exact .down .here hc
  | down _ hmem ih => exact .down ih hmem

/-- Among siblings of different names, the first child of a name is the only one. -/
lemma LeadsFirst.leads (hn : s.LeadsFirst names n) : s.Leads names n := by
  induction hn with
  | here => exact .here
  | down hchildren _ _ ih => exact ih.cons (by simp [hchildren])

lemma Leads.first (hs : s.Addressable) (hn : s.Leads names n) : s.LeadsFirst names n := by
  induction names generalizing s with
  | nil =>
      obtain ⟨-, rfl⟩ | ⟨c, -, rest, hnil, -⟩ := hn.head
      · exact .here
      · cases hnil
  | cons name names ih =>
      obtain ⟨hnil, -⟩ | ⟨c, hc, rest, hnames, hrest⟩ := hn.head
      · cases hnil
      · obtain ⟨rfl, rfl⟩ := List.cons.inj hnames
        obtain ⟨before, after, hchildren⟩ := List.append_of_mem hc
        refine .down hchildren (fun b hb hsame => ?_) (ih (hs.child hc) hrest)
        have hnodup := (hs s .self).1
        rw [hchildren, List.map_append, List.nodup_append] at hnodup
        exact hnodup.2.2 _ (List.mem_map_of_mem hb) _ (by simp) hsame

lemma Leads.within (hn : s.Leads names n) : Within n s := by
  induction hn with
  | here => exact .self
  | down _ hmem ih => exact (Within.of_mem_children hmem).trans ih

/-- The names on a way down can stand in a path. -/
lemma Leads.isSegment (hs : s.Addressable) (hn : s.Leads names n) :
    ∀ name ∈ names, Text.IsSegment name := by
  induction hn with
  | here => simp
  | @down names m c hm hc ih =>
      intro name hname
      rcases List.mem_append.mp hname with hname | hname
      · exact ih name hname
      · obtain rfl := List.mem_singleton.mp hname
        exact (hs m hm.within).2 c hc

/-- Following names takes the first child of each. -/
lemma follow?_eq_some_iff : s.follow? names = some n ↔ s.LeadsFirst names n := by
  induction names generalizing s with
  | nil =>
      constructor
      · rintro ⟨⟩
        exact .here
      · rintro ⟨⟩
        rfl
  | cons name names ih =>
      rw [follow?, Option.bind_eq_some_iff]
      constructor
      · rintro ⟨c, hc, hn⟩
        obtain ⟨hname, before, after, hchildren, hbefore⟩ := List.find?_eq_some_iff_append.mp hc
        obtain rfl : c.name = name := by simpa using hname
        exact .down hchildren (fun b hb => by simpa using hbefore b hb) (ih.mp hn)
      · intro hn
        cases hn with
        | down hchildren hbefore hn =>
            refine ⟨_, List.find?_eq_some_iff_append.mpr ⟨by simp, _, _, hchildren, ?_⟩, ih.mpr hn⟩
            simpa using hbefore

/-- What is found is what the names in the path lead to, if there are any. -/
lemma find?_eq_some_iff {p : String} : s.find? p = some n ↔ ∃ names, names ≠ []
    ∧ (∀ name ∈ names, Text.IsSegment name) ∧ Text.Spells names p.toList
    ∧ s.LeadsFirst names n := by
  have hfind : s.find? p = if pathNames p = [] then none else s.follow? (pathNames p) := by
    rw [find?]
    split <;> simp_all
  rw [hfind]
  constructor
  · intro hn
    split at hn
    · cases hn
    · next hne =>
        obtain ⟨hnames, hspells⟩ := pathNames_eq_iff.mp (rfl : pathNames p = pathNames p)
        exact ⟨_, hne, hnames, hspells, follow?_eq_some_iff.mp hn⟩
  · rintro ⟨names, hne, hnames, hspells, hn⟩
    rw [pathNames_eq_iff.mpr ⟨hnames, hspells⟩, if_neg hne, follow?_eq_some_iff.mpr hn]

/-- **Looking a path up is exact.** What is found is the node that the names in the path lead to,
by the first child of each, and there has to be a name. Where siblings have different names that
can stand in a path, the path of any node below the directory, spelled with as many slashes as one
likes, finds that very node, and a path that spells the way to no such node finds nothing. -/
theorem find?_exact (location : Location) (digest : Digest) (children : List Snapshot) (p : String) :
    let s := directory location digest children
    (∀ n, s.find? p = some n ↔ ∃ names, names ≠ [] ∧ (∀ name ∈ names, Text.IsSegment name)
        ∧ Text.Spells names p.toList ∧ s.LeadsFirst names n)
      ∧ (s.Addressable →
        (∀ names n, names ≠ [] → s.Leads names n → Text.Spells names p.toList →
          s.find? p = some n)
        ∧ ((∀ names n, names ≠ [] → s.Leads names n → ¬ Text.Spells names p.toList) →
          s.find? p = none)) := by
  intro s
  refine ⟨fun n => find?_eq_some_iff, fun hs => ⟨fun names n hne hn hspells => ?_, fun hnone => ?_⟩⟩
  · exact find?_eq_some_iff.mpr ⟨names, hne, hn.isSegment hs, hspells, hn.first hs⟩
  · rw [Option.eq_none_iff_forall_ne_some]
    intro n hn
    obtain ⟨names, hne, -, hspells, hfirst⟩ := find?_eq_some_iff.mp hn
    exact hnone names n hne hfirst.leads hspells

/-- A leaf two levels down, with a directory beside the leaf that has the same name as the one
around it: looked up with slashes to spare, and by a path that goes on below it. -/
theorem find?_exact_nested :
    let x : Snapshot := .leaf ⟨⟨"/r/a/b", "b", .direct⟩, .replicate 0, .missing⟩
    let twin := directory ⟨"/r/a/a", "a", .direct⟩ (.replicate 0) []
    let inner := directory ⟨"/r/a", "a", .direct⟩ (.replicate 0) [twin, x]
    let root := directory ⟨"/r", "r", .direct⟩ (.replicate 0) [inner]
    root.Addressable ∧ root.Leads ["a", "b"] x ∧ Text.Spells ["a", "b"] "/a//b/".toList
      ∧ root.find? "/a//b/" = some x := by
  intro x twin inner root
  have hwithin : ∀ n, Within n root → n = root ∨ n = inner ∨ n = twin ∨ n = x := by
    intro n hn
    simpa [root, inner, twin, x, Within.directory_iff, Within.leaf_iff] using hn
  have hroot : root.Addressable := by
    intro n hn
    rcases hwithin n hn with rfl | rfl | rfl | rfl <;> decide
  have hx : inner.Leads ["b"] x := Leads.cons (c := x) (.tail _ (.head _)) .here
  have hx : root.Leads ["a", "b"] x := hx.cons (.head _)
  have hspells : Text.Spells ["a", "b"] "/a//b/".toList :=
    .name 1 (.name 2 (.slashes 1) (.inr rfl)) (.inr rfl)
  exact ⟨hroot, hx, hspells,
    ((find?_exact _ _ _ "/a//b/").2 hroot).1 ["a", "b"] x (by simp) hx hspells⟩

end Snapshot

end TreeDigest

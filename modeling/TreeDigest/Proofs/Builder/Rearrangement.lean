import TreeDigest.Proofs.Builder.Merkle
import TreeDigest.Proofs.Builder.Traversal

/-!
The order in which siblings are visited.

A builder that sorts does not see the order in which it is driven over siblings of different
names. Rearranging a traversal changes the order of siblings at any number of levels at once, and
what is kept of a directory can be compared only when what is kept below it agrees, so the
comparison goes up from the leaves.

* `Snapshot.inNameOrder_eq` is the one fact about sorting: children of different names have only
  one order by name, whatever order they came in. `filter_inNameOrder` says what becomes of
  children that share a name.
* `Traversal.Rearranged` is the relation of a traversal to its rearrangements, and
  `Traversal.built` what a new builder gives that is driven over a traversal.
* `fold_rearranged` and `fold_asVisited` are the inductions over the traversal, and
  `built_byName` the theorem.
-/

namespace TreeDigest

/-! ### Children by name -/

namespace Snapshot

/-- Children in ascending order of their names. -/
def Ascends (children : List Snapshot) : Prop :=
  children.Pairwise fun a b => Text.nameLe a.name b.name = true

lemma ascends_inNameOrder (children : List Snapshot) : Ascends (inNameOrder children) := by
  rw [← ChildOrdering.arrange_byName]
  exact ChildOrdering.pairwise_arrange_byName children

/-- **Children of different names have only one order by name.** -/
lemma inNameOrder_eq {cs ds : List Snapshot} (hperm : ds.Perm cs) (hds : Ascends ds)
    (hnames : (cs.map name).Nodup) : inNameOrder cs = ds := by
  have hinj : ∀ a ∈ cs, ∀ b ∈ cs, a.name = b.name → a = b :=
    fun a ha b hb heq => List.inj_on_of_nodup_map hnames ha hb heq
  refine List.Perm.eq_of_pairwise (fun a b ha hb hab hba => ?_) (ascends_inNameOrder cs) hds
    ((inNameOrder_perm cs).trans hperm.symm)
  have ha : a ∈ cs := (inNameOrder_perm cs).mem_iff.mp ha
  exact hinj a ha b (hperm.mem_iff.mp hb) (Text.nameLe_antisymm hab hba)

/-- Keeping children by name is keeping them in the one order in which they ascend. -/
lemma node?_byName (h : HashFunction) (location : Location) (handling : EmptyDirectories)
    {cs ds : List Snapshot} (hperm : ds.Perm cs) (hds : Ascends ds) (hnames : (cs.map name).Nodup) :
    node? h .byName location handling cs = node? h .asVisited location handling ds := by
  have hempty : cs = [] ↔ ds = [] :=
    ⟨fun hcs => (hcs ▸ hperm).eq_nil, fun hds => (hds ▸ hperm).nil_eq.symm⟩
  simp only [node?, inOrder, hempty, inNameOrder_eq hperm hds hnames]

/-- Children that ascend already are kept as they are, also where they share names. -/
lemma inNameOrder_of_ascends {cs : List Snapshot} (hcs : Ascends cs) : inNameOrder cs = cs :=
  hcs.insertionSort_eq

/-- **Children that share a name are kept in the order in which they came.** -/
lemma filter_inNameOrder (n : String) (cs : List Snapshot) :
    (inNameOrder cs).filter (·.name = n) = cs.filter (·.name = n) := by
  have hle : (cs.filter (·.name = n)).Pairwise fun a b => Text.nameLe a.name b.name = true := by
    refine List.pairwise_of_forall_mem_list fun a ha b hb => ?_
    have han : a.name = n := by simpa using (List.mem_filter.mp ha).2
    have hbn : b.name = n := by simpa using (List.mem_filter.mp hb).2
    rw [han, hbn]
    simpa using Text.nameLe_total n n
  have hsub : (cs.filter (·.name = n)).Sublist (inNameOrder cs) := by
    rw [← ChildOrdering.arrange_byName]
    exact List.sublist_mergeSort (fun a b c : Snapshot => Text.nameLe_trans a.name b.name c.name)
      (fun a b : Snapshot => Text.nameLe_total a.name b.name) hle List.filter_sublist
  have hsame : ((inNameOrder cs).filter (·.name = n)).length = (cs.filter (·.name = n)).length :=
    ((inNameOrder_perm cs).filter _).length_eq
  have hkept := hsub.filter (·.name = n)
  simp only [List.filter_filter, Bool.and_self] at hkept
  exact (hkept.eq_of_length hsame.symm).symm

end Snapshot

namespace Traversal

/-! ### Rearranging -/

/-- The name of the topmost entry. -/
def name : Traversal → String
  | .leaf l => l.location.name
  | .directory location _ _ => location.name
  | .abandoned location _ _ => location.name

mutual

/-- Something is left of an entry when it is folded: it is a leaf, or a directory that may be
empty or is not. -/
def isIncluded : Traversal → Bool
  | .leaf _ => true
  | .directory _ handling ts => handling == .included || anyIncluded ts
  | .abandoned _ _ _ => false

/-- Something is left of one of some siblings. -/
def anyIncluded : List Traversal → Bool
  | [] => false
  | t :: ts => isIncluded t || anyIncluded ts

end

mutual

/-- The included entries of every directory have pairwise different names. -/
def DistinctNames : Traversal → Prop
  | .leaf _ => True
  | .directory _ _ ts => ((ts.filter isIncluded).map name).Nodup ∧ DistinctNamesAll ts
  | .abandoned _ _ _ => True

/-- The names in each of some siblings are different. -/
def DistinctNamesAll : List Traversal → Prop
  | [] => True
  | t :: ts => DistinctNames t ∧ DistinctNamesAll ts

end

mutual

/-- The included entries of every directory come in ascending order of the bytes of their
names. -/
def Ascending : Traversal → Prop
  | .leaf _ => True
  | .directory _ _ ts =>
    (ts.filter isIncluded).Pairwise (fun a b => Text.nameLe a.name b.name = true)
      ∧ AscendingAll ts
  | .abandoned _ _ _ => True

/-- The entries in each of some siblings ascend. -/
def AscendingAll : List Traversal → Prop
  | [] => True
  | t :: ts => Ascending t ∧ AscendingAll ts

end

mutual

/-- The entries of directories are put into another order, at any number of levels at once. -/
inductive Rearranged : Traversal → Traversal → Prop where
  | leaf (l : Leaf) : Rearranged (.leaf l) (.leaf l)
  | directory {location : Location} {handling : EmptyDirectories} {ts us vs : List Traversal} :
      RearrangedAll ts us → us.Perm vs →
      Rearranged (.directory location handling ts) (.directory location handling vs)
  | abandoned {location : Location} {handling : EmptyDirectories} {ts us vs : List Traversal} :
      RearrangedAll ts us → us.Perm vs →
      Rearranged (.abandoned location handling ts) (.abandoned location handling vs)

/-- Siblings are rearranged one by one. -/
inductive RearrangedAll : List Traversal → List Traversal → Prop where
  | nil : RearrangedAll [] []
  | cons {t u : Traversal} {ts us : List Traversal} :
      Rearranged t u → RearrangedAll ts us → RearrangedAll (t :: ts) (u :: us)

end

/-- A traversal is part of another one that is not abandoned. -/
inductive Within (d : Traversal) : Traversal → Prop where
  | self : Within d d
  | child {location : Location} {handling : EmptyDirectories} {ts : List Traversal}
      {t : Traversal} : t ∈ ts → Within d t → Within d (.directory location handling ts)

/-! ### An ascending rearrangement -/

mutual

/-- The traversal with the entries of every directory put into ascending order of names. -/
def sorted : Traversal → Traversal
  | .leaf l => .leaf l
  | .directory location handling ts =>
    .directory location handling
      ((sortedAll ts).mergeSort fun a b => Text.nameLe a.name b.name)
  | .abandoned location handling ts => .abandoned location handling (sortedAll ts)

/-- Siblings, each of them sorted. -/
def sortedAll : List Traversal → List Traversal
  | [] => []
  | t :: ts => sorted t :: sortedAll ts

end

mutual

lemma rearranged_sorted (t : Traversal) : Rearranged t t.sorted := by
  match t with
  | .leaf l => exact .leaf l
  | .directory _ _ ts =>
      exact .directory (rearrangedAll_sortedAll ts) (List.mergeSort_perm _ _).symm
  | .abandoned _ _ ts => exact .abandoned (rearrangedAll_sortedAll ts) (.refl _)

lemma rearrangedAll_sortedAll (ts : List Traversal) : RearrangedAll ts (sortedAll ts) := by
  match ts with
  | [] => exact .nil
  | t :: ts => exact .cons (rearranged_sorted t) (rearrangedAll_sortedAll ts)

end

lemma ascendingAll_iff {ts : List Traversal} : AscendingAll ts ↔ ∀ t ∈ ts, t.Ascending := by
  induction ts with
  | nil => simp [AscendingAll]
  | cons t ts ih => simp [AscendingAll, ih]

mutual

lemma ascending_sorted (t : Traversal) : t.sorted.Ascending := by
  match t with
  | .leaf _ => trivial
  | .abandoned _ _ _ => trivial
  | .directory _ _ ts =>
      have hsorted : ((sortedAll ts).mergeSort fun a b => Text.nameLe a.name b.name).Pairwise
          fun a b => Text.nameLe a.name b.name = true :=
        List.pairwise_mergeSort (fun a b c : Traversal => Text.nameLe_trans a.name b.name c.name)
          (fun a b : Traversal => Text.nameLe_total a.name b.name) _
      refine ⟨hsorted.filter _, ascendingAll_iff.mpr fun t ht => ?_⟩
      exact ascendingAll_sortedAll ts t (List.mem_mergeSort.mp ht)

lemma ascendingAll_sortedAll (ts : List Traversal) : ∀ t ∈ sortedAll ts, t.Ascending := by
  match ts with
  | [] => simp [sortedAll]
  | t :: ts =>
      intro u hu
      rcases List.mem_cons.mp hu with rfl | hu
      · exact ascending_sorted t
      · exact ascendingAll_sortedAll ts u hu

end

/-! ### What is folded -/

section Fold

variable (h : HashFunction) (o : ChildOrdering)

lemma foldAll_eq_filterMap (ts : List Traversal) :
    foldAll h o ts = ts.filterMap (fold h o) := by
  induction ts with
  | nil => rfl
  | cons t ts ih =>
      rw [foldAll, ih, List.filterMap_cons]
      cases t.fold h o <;> rfl

lemma foldAll_perm {ts us : List Traversal} (hperm : ts.Perm us) :
    (foldAll h o ts).Perm (foldAll h o us) := by
  rw [foldAll_eq_filterMap, foldAll_eq_filterMap]
  exact hperm.filterMap _

lemma name_of_fold {t : Traversal} {s : Snapshot} (hs : t.fold h o = some s) :
    s.name = t.name := by
  cases t with
  | leaf l =>
      obtain rfl := Option.some.inj hs
      rfl
  | directory location handling ts =>
      simp only [fold, Snapshot.node?] at hs
      split at hs
      · simp at hs
      · obtain rfl := Option.some.inj hs
        rfl
  | abandoned location handling ts => simp [fold] at hs

mutual

/-- What is left of an entry does not depend on hashes or on the order of children. -/
lemma isSome_fold (t : Traversal) : (t.fold h o).isSome = t.isIncluded := by
  match t with
  | .leaf _ => rfl
  | .abandoned _ _ _ => rfl
  | .directory location handling ts =>
      have hts := isEmpty_foldAll ts
      simp only [fold, Snapshot.node?, isIncluded]
      cases handling with
      | included => rfl
      | excluded =>
          cases hall : foldAll h o ts with
          | nil =>
              rw [hall] at hts
              simpa using hts
          | cons s ss =>
              rw [hall] at hts
              simpa using hts

/-- Nothing is left of siblings if nothing is left of any of them. -/
lemma isEmpty_foldAll (ts : List Traversal) : (foldAll h o ts).isEmpty = !anyIncluded ts := by
  match ts with
  | [] => rfl
  | t :: ts =>
      have ht := isSome_fold t
      have hts := isEmpty_foldAll ts
      rw [foldAll, anyIncluded, ← ht, Bool.not_or, ← hts]
      cases t.fold h o <;> simp

end

/-- The names of what is left of siblings, in the order in which they came. -/
lemma map_name_foldAll (ts : List Traversal) :
    (foldAll h o ts).map Snapshot.name = (ts.filter isIncluded).map name := by
  induction ts with
  | nil => rfl
  | cons t ts ih =>
      have ht := isSome_fold h o t
      rw [foldAll, List.map_append, ih]
      cases hfold : t.fold h o with
      | none =>
          rw [hfold] at ht
          rw [List.filter_cons_of_neg (by simp [← ht])]
          rfl
      | some s =>
          rw [hfold] at ht
          rw [List.filter_cons_of_pos (by simp [← ht]), List.map_cons, ← name_of_fold h o hfold]
          rfl

/-- What is left of siblings ascends if the siblings do. -/
lemma ascends_foldAll {ts : List Traversal}
    (hts : (ts.filter isIncluded).Pairwise fun a b => Text.nameLe a.name b.name = true) :
    Snapshot.Ascends (foldAll h o ts) := by
  rw [← List.pairwise_map (f := name) (R := fun a b => Text.nameLe a b = true),
    ← map_name_foldAll h o ts] at hts
  exact List.pairwise_map.mp hts

mutual

/-- **A fold by name does not see how siblings are arranged.** -/
lemma fold_rearranged (t : Traversal) {u : Traversal} (htu : Rearranged t u)
    (ht : t.DistinctNames) : u.fold h .byName = t.fold h .byName := by
  match t with
  | .leaf l =>
      cases htu with
      | leaf => rfl
  | .abandoned location handling ts =>
      cases htu with
      | abandoned => rfl
  | .directory location handling ts =>
      cases htu with
      | @directory _ _ _ us vs hall hperm =>
          have hsame : foldAll h .byName us = foldAll h .byName ts :=
            foldAll_rearranged ts hall ht.2
          have hfolds : (foldAll h .byName vs).Perm (foldAll h .byName ts) := by
            rw [← hsame]
            exact foldAll_perm h .byName hperm.symm
          have hnames : ((foldAll h .byName ts).map Snapshot.name).Nodup := by
            rw [map_name_foldAll]
            exact ht.1
          have hkept := Snapshot.inNameOrder_perm (foldAll h .byName ts)
          have hascends := Snapshot.ascends_inNameOrder (foldAll h .byName ts)
          rw [fold, fold, Snapshot.node?_byName h location handling hkept hascends hnames]
          exact Snapshot.node?_byName h location handling (hkept.trans hfolds.symm) hascends
            ((hfolds.map Snapshot.name).nodup_iff.mpr hnames)

/-- The folds of siblings do not see how each of them is arranged. -/
lemma foldAll_rearranged (ts : List Traversal) {us : List Traversal} (hall : RearrangedAll ts us)
    (hts : DistinctNamesAll ts) : foldAll h .byName us = foldAll h .byName ts := by
  match ts with
  | [] =>
      cases hall with
      | nil => rfl
  | t :: ts =>
      cases hall with
      | cons htu hrest =>
          rw [foldAll, foldAll, fold_rearranged t htu hts.1, foldAll_rearranged ts hrest hts.2]

end

mutual

/-- **Where siblings ascend, keeping them as they are visited is keeping them by name.** -/
lemma fold_asVisited (t : Traversal) (ht : t.Ascending) :
    t.fold h .asVisited = t.fold h .byName := by
  match t with
  | .leaf _ => rfl
  | .abandoned _ _ _ => rfl
  | .directory location handling ts =>
      have hkept : Snapshot.inNameOrder (foldAll h .byName ts) = foldAll h .byName ts :=
        Snapshot.inNameOrder_of_ascends (ascends_foldAll h .byName ht.1)
      simp only [fold, Snapshot.node?, Snapshot.inOrder, foldAll_asVisited ts ht.2, hkept]

/-- The folds of siblings that ascend. -/
lemma foldAll_asVisited (ts : List Traversal) (hts : AscendingAll ts) :
    foldAll h .asVisited ts = foldAll h .byName ts := by
  match ts with
  | [] => rfl
  | t :: ts => rw [foldAll, foldAll, fold_asVisited t hts.1, foldAll_asVisited ts hts.2]

end

mutual

/-- What is left of a traversal is a leaf, or a directory of the traversal over what is left of
the entries in it, arranged; and so is every node below. -/
lemma within_fold (t : Traversal) {s : Snapshot} (hs : t.fold h o = some s) {location : Location}
    {digest : Digest} {children : List Snapshot}
    (hw : Snapshot.Within (.directory location digest children) s) :
    ∃ handling ts, Within (.directory location handling ts) t
      ∧ children = Snapshot.inOrder o (ts.filterMap (fold h o)) := by
  match t with
  | .leaf l =>
      obtain rfl := Option.some.inj hs
      simp [Snapshot.Within.leaf_iff] at hw
  | .abandoned _ _ _ => simp [fold] at hs
  | .directory location' handling ts =>
      simp only [fold, Snapshot.node?] at hs
      split at hs
      · simp at hs
      · obtain rfl := Option.some.inj hs
        rcases Snapshot.Within.directory_iff.mp hw with heq | ⟨c, hc, hw⟩
        · obtain ⟨rfl, -, rfl⟩ := Snapshot.directory.inj heq
          exact ⟨handling, ts, .self, by rw [foldAll_eq_filterMap]⟩
        · have hc : c ∈ foldAll h o ts := (Snapshot.inOrder_perm o _).mem_iff.mp hc
          obtain ⟨t, ht, handling', ts', hwithin, hkept⟩ := within_foldAll ts hc hw
          exact ⟨handling', ts', .child ht hwithin, hkept⟩

/-- The nodes below what is left of siblings. -/
lemma within_foldAll (ts : List Traversal) {s : Snapshot} (hs : s ∈ foldAll h o ts)
    {location : Location} {digest : Digest} {children : List Snapshot}
    (hw : Snapshot.Within (.directory location digest children) s) :
    ∃ t ∈ ts, ∃ handling ts', Within (.directory location handling ts') t
      ∧ children = Snapshot.inOrder o (ts'.filterMap (fold h o)) := by
  match ts with
  | [] => simp [foldAll] at hs
  | t :: ts =>
      rw [foldAll, List.mem_append, Option.mem_toList] at hs
      rcases hs with hs | hs
      · exact ⟨t, by simp, within_fold t hs hw⟩
      · obtain ⟨u, hu, hdirectory⟩ := within_foldAll ts hs hw
        exact ⟨u, by simp [hu], hdirectory⟩

end

/-! ### Builders -/

/-- What a new builder gives that is driven depth-first over a traversal. -/
def built (t : Traversal) : Except BuilderError (Option Snapshot) :=
  ((Builder.new h o).run (t.callsAt (Builder.new h o).isFinished)).2.result

/-- A new builder gives the fold. -/
lemma built_eq (t : Traversal) : t.built h o = .ok (t.fold h o) := by
  cases t with
  | leaf l => rfl
  | directory location handling ts =>
      simp only [built, Builder.new, callsAt, calls, Builder.run, Builder.apply, Builder.enter]
      rw [Builder.run_append, run_callsAll, Builder.run_singleton, Builder.apply,
        Builder.exit_eq (.inr rfl), List.nil_append, fold]
      cases Snapshot.node? h o location handling (foldAll h o ts) <;> rfl
  | abandoned location handling ts =>
      simp only [built, Builder.new, callsAt, calls, Builder.run, Builder.apply, Builder.enter]
      rw [Builder.run_append, run_callsAll, Builder.run_singleton]
      rfl

end Fold

/-- **A sorting builder does not see the order of siblings.** Where the included entries of every
directory have pairwise different names, a builder that sorts gives the same for every
rearrangement of the traversal; and that is also what a builder gives that keeps entries as they
are visited, if it is driven over a rearrangement in which names ascend. There always is one.
Where entries share a name, every directory of what is given keeps those of one name in the order
in which they were visited. -/
theorem built_byName (h : HashFunction) (t : Traversal) :
    (t.DistinctNames → ∀ u, Rearranged t u →
        u.built h .byName = t.built h .byName
          ∧ (u.Ascending → u.built h .asVisited = t.built h .byName))
      ∧ (∃ u, Rearranged t u ∧ u.Ascending)
      ∧ ∃ s, t.built h .byName = .ok s ∧ ∀ root ∈ s, ∀ location digest children,
          Snapshot.Within (.directory location digest children) root →
          ∃ handling ts, Within (.directory location handling ts) t ∧ ∀ n : String,
            children.filter (·.name = n)
              = (ts.filterMap (fold h .byName)).filter (·.name = n) := by
  refine ⟨fun hnames u hu => ⟨?_, fun hascending => ?_⟩,
    ⟨t.sorted, rearranged_sorted t, ascending_sorted t⟩, t.fold h .byName, built_eq h .byName t,
    fun root hroot location digest children hw => ?_⟩
  · rw [built_eq, built_eq, fold_rearranged h t hu hnames]
  · rw [built_eq, built_eq, fold_asVisited h u hascending, fold_rearranged h t hu hnames]
  · obtain ⟨handling, ts, hwithin, rfl⟩ := within_fold h .byName t hroot hw
    exact ⟨handling, ts, hwithin, fun n => Snapshot.filter_inNameOrder n _⟩

/-- Two levels rearranged at once. The empty directory `x` may share its name with a leaf, since
it is left out. -/
theorem built_byName_nested :
    let h := HashFunction.ofBytes fun bytes => .replicate (.ofNat bytes.length)
    let entry := fun name : String => leaf (.missing h ⟨"/r/" ++ name, name, .direct⟩)
    let root := directory ⟨"/r", "r", .direct⟩ .included
    let inner := directory ⟨"/r/a", "a", .viaSymlink⟩ .excluded
    let empty := directory ⟨"/r/a/x", "x", .direct⟩ .excluded []
    let t := root [entry "b", inner [entry "y", empty, entry "x"]]
    let u := root [inner [entry "x", entry "y", empty], entry "b"]
    t.DistinctNames ∧ Rearranged t u ∧ u.Ascending
      ∧ u.built h .byName = t.built h .byName ∧ u.built h .asVisited = t.built h .byName := by
  intro h entry root inner empty t u
  have hab : ["b", "a"].Nodup := by decide
  have hxy : ["y", "x"].Nodup := by decide
  have hnames : t.DistinctNames :=
    ⟨hab, trivial, ⟨hxy, trivial, ⟨List.nodup_nil, trivial⟩, trivial, trivial⟩, trivial⟩
  have hswap : ([entry "y", empty] ++ [entry "x"]).Perm ([entry "x"] ++ [entry "y", empty]) :=
    List.perm_append_comm
  have hinner : Rearranged (inner [entry "y", empty, entry "x"])
      (inner [entry "x", entry "y", empty]) :=
    .directory (.cons (.leaf _) (.cons (.directory .nil (.refl _)) (.cons (.leaf _) .nil))) hswap
  have hu : Rearranged t u :=
    .directory (.cons (.leaf _) (.cons hinner .nil)) (.swap _ _ [])
  have hab' : Text.nameLe "a" "b" = true := by decide
  have hxy' : Text.nameLe "x" "y" = true := by decide
  have hascending : u.Ascending :=
    ⟨List.pairwise_pair.mpr hab',
      ⟨List.pairwise_pair.mpr hxy', trivial, trivial, ⟨.nil, trivial⟩, trivial⟩, trivial, trivial⟩
  obtain ⟨hsame, hvisited⟩ := (built_byName h t).1 hnames u hu
  exact ⟨hnames, hu, hascending, hsame, hvisited hascending⟩

end Traversal

end TreeDigest

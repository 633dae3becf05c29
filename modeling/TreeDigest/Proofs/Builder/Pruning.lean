import TreeDigest.Proofs.Builder.Rearrangement

/-!
Leaving empty directories out is pruning.

A directory may be empty only because those in it are left out. So the snapshot without empty
directories is the one with all of them, pruned from the leaves up: a directory without children
goes, and the digests of those around it are made anew.

* `Snapshot.pruned` is the recursion over a snapshot, and `Traversal.withHandling` a traversal in
  which every directory is to be treated alike.
* Pruning keeps names, and so it does not matter whether it comes before sorting or after:
  `inOrder_filterMap`. From this, `fold_excluded` is the induction over the traversal.
* `Traversal.Inserted` puts a directory without leaves somewhere into a traversal.
  `fold_inserted` says that nothing is seen of it.
* `built_excluded` puts it together for builders.
-/

namespace TreeDigest

/-! ### Leaving elements out of a sorted list -/

section FilterMap

variable {α β : Type} {r : α → α → Prop} {s : β → β → Prop} [DecidableRel r] [DecidableRel s]
  {f : α → Option β}

/-- An element is inserted at the same place when others are left out. -/
lemma filterMap_orderedInsert [IsTrans α r] {a : α} {b : β} (hb : f a = some b)
    (hf : ∀ x y x' y', f x = some x' → f y = some y' → (r x y ↔ s x' y')) {l : List α}
    (hl : l.Pairwise r) :
    (l.orderedInsert r a).filterMap f = (l.filterMap f).orderedInsert s b := by
  induction l with
  | nil => simp [hb]
  | cons c l ih =>
      obtain ⟨hc, hl⟩ := List.pairwise_cons.mp hl
      by_cases hac : r a c
      · have hbelow : ∀ y ∈ (c :: l).filterMap f, s b y := by
          intro y hy
          obtain ⟨x, hx, hxy⟩ := List.mem_filterMap.mp hy
          refine (hf a x b y hb hxy).mp ?_
          rcases List.mem_cons.mp hx with rfl | hx
          · exact hac
          · exact IsTrans.trans a c x hac (hc x hx)
        rw [List.orderedInsert_cons_of_le _ _ hac, List.filterMap_cons_some hb]
        cases hkept : (c :: l).filterMap f with
        | nil => rfl
        | cons y ys =>
            rw [List.orderedInsert_cons_of_le]
            exact hbelow y (by simp [hkept])
      · rw [List.orderedInsert_of_not_le _ _ hac]
        cases hd : f c with
        | none => rw [List.filterMap_cons_none hd, List.filterMap_cons_none hd, ih hl]
        | some d =>
            have hbd : ¬ s b d := fun hs => hac ((hf a c b d hb hd).mpr hs)
            rw [List.filterMap_cons_some hd, List.filterMap_cons_some hd,
              List.orderedInsert_of_not_le _ _ hbd, ih hl]

/-- An element that is left out may be inserted anywhere. -/
lemma filterMap_orderedInsert_none {a : α} (ha : f a = none) (l : List α) :
    (l.orderedInsert r a).filterMap f = l.filterMap f := by
  induction l with
  | nil => simp [ha]
  | cons c l ih =>
      by_cases hac : r a c
      · rw [List.orderedInsert_cons_of_le _ _ hac, List.filterMap_cons_none ha]
      · rw [List.orderedInsert_of_not_le _ _ hac, List.filterMap_cons, List.filterMap_cons, ih]

/-- **Elements may be left out before sorting or after**, if what is left keeps its place in the
order. -/
lemma filterMap_insertionSort [IsTrans α r] [Std.Total r]
    (hf : ∀ x y x' y', f x = some x' → f y = some y' → (r x y ↔ s x' y')) (l : List α) :
    (l.insertionSort r).filterMap f = (l.filterMap f).insertionSort s := by
  induction l with
  | nil => rfl
  | cons a l ih =>
      rw [List.insertionSort_cons]
      cases ha : f a with
      | none => rw [filterMap_orderedInsert_none ha, List.filterMap_cons_none ha, ih]
      | some b =>
          rw [filterMap_orderedInsert ha hf (List.pairwise_insertionSort r l), ih,
            List.filterMap_cons_some ha, List.insertionSort_cons]

end FilterMap

/-! ### Pruning a snapshot -/

namespace Snapshot

mutual

/-- A snapshot without empty directories: from the leaves up, every directory that is left without
children goes, and the others get the digest of the children that are left. -/
def pruned (h : HashFunction) : Snapshot → Option Snapshot
  | .leaf l => some (.leaf l)
  | .directory location _ cs => node? h .asVisited location .excluded (prunedAll h cs)

/-- What is left of some children. -/
def prunedAll (h : HashFunction) : List Snapshot → List Snapshot
  | [] => []
  | c :: cs => (pruned h c).toList ++ prunedAll h cs

end

variable (h : HashFunction)

lemma prunedAll_eq_filterMap (cs : List Snapshot) : prunedAll h cs = cs.filterMap (pruned h) := by
  induction cs with
  | nil => rfl
  | cons c cs ih =>
      rw [prunedAll, ih, List.filterMap_cons]
      cases pruned h c <;> rfl

lemma node?_excluded_eq_some {o : ChildOrdering} {location : Location} {cs : List Snapshot}
    {s : Snapshot} (hs : node? h o location .excluded cs = some s) :
    cs ≠ [] ∧ s = .directory location
      (h.directory (h.signature "DIR") (listing (inOrder o cs))) (inOrder o cs) := by
  rw [node?] at hs
  split at hs
  · cases hs
  · next hdropped =>
      exact ⟨fun hcs => hdropped ⟨rfl, hcs⟩, (Option.some.inj hs).symm⟩

/-- Pruning keeps names. -/
lemma name_pruned {s s' : Snapshot} (hs : s.pruned h = some s') : s'.name = s.name := by
  cases s with
  | leaf l =>
      obtain rfl := Option.some.inj hs
      rfl
  | directory location digest cs =>
      obtain ⟨-, rfl⟩ := node?_excluded_eq_some h hs
      rfl

mutual

/-- **Pruning leaves no directory without children.** -/
lemma ne_nil_of_within_pruned (s : Snapshot) {s' : Snapshot} (hs : s.pruned h = some s')
    {location : Location} {digest : Digest} {children : List Snapshot}
    (hw : Within (.directory location digest children) s') : children ≠ [] := by
  match s with
  | .leaf l =>
      obtain rfl := Option.some.inj hs
      simp [Within.leaf_iff] at hw
  | .directory location' _ cs =>
      obtain ⟨hne, rfl⟩ := node?_excluded_eq_some h hs
      rcases Within.directory_iff.mp hw with heq | ⟨c, hc, hw⟩
      · obtain ⟨-, -, rfl⟩ := Snapshot.directory.inj heq
        exact hne
      · exact ne_nil_of_within_prunedAll cs hc hw

/-- The same for children. -/
lemma ne_nil_of_within_prunedAll (cs : List Snapshot) {s' : Snapshot} (hs : s' ∈ prunedAll h cs)
    {location : Location} {digest : Digest} {children : List Snapshot}
    (hw : Within (.directory location digest children) s') : children ≠ [] := by
  match cs with
  | [] => simp [prunedAll] at hs
  | c :: cs =>
      rw [prunedAll, List.mem_append, Option.mem_toList] at hs
      rcases hs with hs | hs
      · exact ne_nil_of_within_pruned c hs hw
      · exact ne_nil_of_within_prunedAll cs hs hw

end

/-- Children may be pruned before they are arranged or after. -/
lemma inOrder_filterMap (o : ChildOrdering) (cs : List Snapshot) :
    (inOrder o cs).filterMap (pruned h) = inOrder o (cs.filterMap (pruned h)) := by
  cases o with
  | asVisited => rfl
  | byName =>
      have htrans : IsTrans Snapshot fun a b => Text.nameLe a.name b.name = true :=
        ⟨fun a b c => Text.nameLe_trans a.name b.name c.name⟩
      have htotal : Std.Total fun a b : Snapshot => Text.nameLe a.name b.name = true :=
        ⟨fun a b => Bool.or_eq_true_iff.mp (Text.nameLe_total a.name b.name)⟩
      refine filterMap_insertionSort (fun x y x' y' hx hy => ?_) cs
      rw [name_pruned h hx, name_pruned h hy]

/-- Pruning a directory that may be empty gives the one that may not be. -/
lemma pruned_node? (o : ChildOrdering) (location : Location) (cs : List Snapshot) :
    (node? h o location .included cs).bind (pruned h)
      = node? h o location .excluded (cs.filterMap (pruned h)) := by
  have hempty : inOrder o (cs.filterMap (pruned h)) = [] ↔ cs.filterMap (pruned h) = [] := by
    rw [← List.length_eq_zero_iff, (inOrder_perm o _).length_eq, List.length_eq_zero_iff]
  have hincluded : node? h o location .included cs = some (.directory location
      (h.directory (h.signature "DIR") (listing (inOrder o cs))) (inOrder o cs)) := rfl
  have harranged : ∀ ds, inOrder .asVisited ds = ds := fun _ => rfl
  rw [hincluded, Option.bind_some, pruned, prunedAll_eq_filterMap, inOrder_filterMap, node?, node?]
  simp only [hempty, harranged]

end Snapshot

namespace Traversal

/-! ### A traversal with every directory treated alike -/

mutual

/-- The traversal in which every directory is left out if it is empty, or none is. -/
def withHandling (handling : EmptyDirectories) : Traversal → Traversal
  | .leaf l => .leaf l
  | .directory location _ ts => .directory location handling (withHandlingAll handling ts)
  | .abandoned location _ ts => .abandoned location handling (withHandlingAll handling ts)

/-- The same for siblings. -/
def withHandlingAll (handling : EmptyDirectories) : List Traversal → List Traversal
  | [] => []
  | t :: ts => withHandling handling t :: withHandlingAll handling ts

end

lemma withHandlingAll_eq_map (handling : EmptyDirectories) (ts : List Traversal) :
    withHandlingAll handling ts = ts.map (withHandling handling) := by
  induction ts with
  | nil => rfl
  | cons t ts ih => rw [withHandlingAll, ih, List.map_cons]

/-- No leaf is part of a traversal. -/
def IsLeafless (t : Traversal) : Prop := ∀ l, ¬ Within (.leaf l) t

/-- A directory without leaves is put somewhere into a traversal. -/
inductive Inserted : Traversal → Traversal → Prop where
  | here {location : Location} {handling : EmptyDirectories} {ts us : List Traversal}
      {d : Traversal} : d.IsLeafless →
      Inserted (.directory location handling (ts ++ us))
        (.directory location handling (ts ++ d :: us))
  | inside {location : Location} {handling : EmptyDirectories} {ts us : List Traversal}
      {t u : Traversal} : Inserted t u →
      Inserted (.directory location handling (ts ++ t :: us))
        (.directory location handling (ts ++ u :: us))

variable (h : HashFunction) (o : ChildOrdering)

mutual

/-- **Leaving empty directories out is pruning.** -/
lemma fold_excluded (t : Traversal) :
    (t.withHandling .excluded).fold h o
      = ((t.withHandling .included).fold h o).bind (Snapshot.pruned h) := by
  match t with
  | .leaf _ => rfl
  | .abandoned _ _ _ => rfl
  | .directory location _ ts =>
      rw [withHandling, withHandling, fold, fold, Snapshot.pruned_node?, foldAll_excluded ts]

/-- The same for siblings. -/
lemma foldAll_excluded (ts : List Traversal) :
    foldAll h o (withHandlingAll .excluded ts)
      = (foldAll h o (withHandlingAll .included ts)).filterMap (Snapshot.pruned h) := by
  match ts with
  | [] => rfl
  | t :: ts =>
      rw [withHandlingAll, withHandlingAll, foldAll, foldAll, List.filterMap_append,
        fold_excluded t, foldAll_excluded ts]
      cases (t.withHandling .included).fold h o with
      | none => rfl
      | some s => cases hs : s.pruned h <;> simp [hs]

end

/-- A directory is without leaves if all its entries are. -/
lemma isLeafless_directory {location : Location} {handling : EmptyDirectories}
    {ts : List Traversal} :
    (directory location handling ts).IsLeafless ↔ ∀ t ∈ ts, t.IsLeafless := by
  constructor
  · exact fun hd t ht l hl => hd l (.child ht hl)
  · rintro hts l (_ | ⟨ht, hl⟩)
    exact hts _ ht l hl

mutual

/-- If empty directories are left out, just a traversal without leaves leaves nothing. -/
lemma fold_excluded_eq_none_iff (t : Traversal) :
    (t.withHandling .excluded).fold h o = none ↔ t.IsLeafless := by
  match t with
  | .leaf l => exact iff_of_false (Option.some_ne_none _) fun hl => hl l .self
  | .abandoned _ _ _ => exact iff_of_true rfl fun l hl => nomatch hl
  | .directory location _ ts =>
      rw [isLeafless_directory, ← foldAll_excluded_eq_nil_iff ts, withHandling, fold,
        Snapshot.node?]
      split
      · next hdropped => exact iff_of_true rfl hdropped.2
      · next hkept => exact iff_of_false (Option.some_ne_none _) fun hnil => hkept ⟨rfl, hnil⟩

/-- The same for siblings. -/
lemma foldAll_excluded_eq_nil_iff (ts : List Traversal) :
    foldAll h o (withHandlingAll .excluded ts) = [] ↔ ∀ t ∈ ts, t.IsLeafless := by
  match ts with
  | [] => simp [withHandlingAll, foldAll]
  | t :: ts =>
      rw [withHandlingAll, foldAll, List.append_eq_nil_iff, Option.toList_eq_nil_iff,
        fold_excluded_eq_none_iff t, foldAll_excluded_eq_nil_iff ts, List.forall_mem_cons]

end

/-- **A directory without leaves is not seen**, wherever it stands. -/
lemma fold_inserted {t u : Traversal} (htu : Inserted t u) :
    (u.withHandling .excluded).fold h o = (t.withHandling .excluded).fold h o := by
  induction htu with
  | @here location handling ts us d hd =>
      have hnone := (fold_excluded_eq_none_iff h o d).mpr hd
      simp only [withHandling, fold, foldAll_eq_filterMap, withHandlingAll_eq_map, List.map_append,
        List.map_cons, List.filterMap_append, List.filterMap_cons_none hnone]
  | inside _ ih =>
      simp only [withHandling, fold, foldAll_eq_filterMap, withHandlingAll_eq_map, List.map_append,
        List.map_cons, List.filterMap_append, List.filterMap_cons, ih]

/-- Any number of directories without leaves may be put in and taken out. -/
lemma fold_of_eqvGen {t u : Traversal} (htu : Relation.EqvGen Inserted t u) :
    (u.withHandling .excluded).fold h o = (t.withHandling .excluded).fold h o := by
  induction htu with
  | rel t u htu => exact fold_inserted h o htu
  | refl t => rfl
  | symm t u _ ih => exact ih.symm
  | trans t u v _ _ ih₁ ih₂ => exact ih₂.trans ih₁

/-- **Leaving empty directories out is pruning.** A builder that is driven over a traversal and
leaves every empty directory out gives what a builder gives that leaves none out, pruned from the
leaves up. So it gives nothing just when the traversal has no leaf, no directory of what it gives
is without children, and it gives the same if directories without leaves are put in or taken out
anywhere. -/
theorem built_excluded (t : Traversal) :
    ∃ full kept, (t.withHandling .included).built h o = .ok full
      ∧ (t.withHandling .excluded).built h o = .ok kept
      ∧ kept = full.bind (Snapshot.pruned h)
      ∧ (kept = none ↔ t.IsLeafless)
      ∧ (∀ s ∈ kept, ∀ location digest children,
          Snapshot.Within (.directory location digest children) s → children ≠ [])
      ∧ ∀ u, Relation.EqvGen Inserted t u → (u.withHandling .excluded).built h o = .ok kept := by
  have hpruned := fold_excluded h o t
  refine ⟨_, _, built_eq h o _, built_eq h o _, hpruned, fold_excluded_eq_none_iff h o t,
    fun s hs location digest children hw => ?_, fun u hu => ?_⟩
  · rw [hpruned] at hs
    obtain ⟨root, -, hroot⟩ := Option.bind_eq_some_iff.mp hs
    exact Snapshot.ne_nil_of_within_pruned h root hroot hw
  · rw [built_eq, fold_of_eqvGen h o hu]

/-- The directory `a` loses an empty directory and keeps its leaf, and the directory `b` goes with
the empty one in it. -/
theorem built_excluded_nested :
    let h := HashFunction.ofBytes fun bytes => .replicate (.ofNat bytes.length)
    let inside := fun name : String => directory ⟨"/r/" ++ name, name, .direct⟩ .included
    let x := leaf (.missing h ⟨"/r/a/x", "x", .direct⟩)
    let t := inside "r" [inside "a" [x, inside "e" []]]
    let u := inside "r" [inside "b" [inside "c" []], inside "a" [x]]
    Relation.EqvGen Inserted t u
      ∧ ∃ kept, (t.withHandling .excluded).built h .byName = .ok (some kept)
          ∧ (u.withHandling .excluded).built h .byName = .ok (some kept)
          ∧ kept.children.map Snapshot.name = ["a"]
          ∧ ∀ location digest children,
              Snapshot.Within (.directory location digest children) kept → children ≠ [] := by
  intro h inside x t u
  have hempty : ∀ name, (inside name []).IsLeafless := fun name =>
    isLeafless_directory.mpr (by simp)
  have hb : (inside "b" [inside "c" []]).IsLeafless :=
    isLeafless_directory.mpr (by simpa using hempty "c")
  have htaken : Inserted (inside "r" [inside "a" [x]]) t :=
    @Inserted.inside _ _ [] [] _ _ (@Inserted.here _ _ [x] [] _ (hempty "e"))
  have hput : Inserted (inside "r" [inside "a" [x]]) u := @Inserted.here _ _ [] _ _ hb
  have htu : Relation.EqvGen Inserted t u :=
    .trans _ _ _ (.symm _ _ (.rel _ _ htaken)) (.rel _ _ hput)
  obtain ⟨full, kept, -, hkept, -, -, hchildren, hsame⟩ := built_excluded h .byName t
  have hfold : (t.withHandling .excluded).fold h .byName = kept :=
    Except.ok.inj ((built_eq h .byName _).symm.trans hkept)
  obtain rfl := hfold
  exact ⟨htu, _, hkept, hsame u htu, rfl, hchildren _ rfl⟩

end Traversal

end TreeDigest

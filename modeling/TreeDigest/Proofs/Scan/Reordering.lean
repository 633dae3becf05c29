import TreeDigest.Proofs.Builder.Rearrangement
import TreeDigest.Proofs.FileSystem.Relisting
import TreeDigest.Proofs.Scan.Survey

/-!
Exploring one tree in two orders.

Two surveys that differ in the order in which they go through directories, because one of them
sorts or because the directories are listed in other orders, explore the same entries: what is
found at an entry does not depend on what was met before. So they fail together, if not always
with the same error, since the first one that is met ends an exploration; and otherwise the trees
that they see are the same up to the order of siblings.

* `Visible.Reordered` relates two such trees, `Survey.Alike` two such surveys.
* `Alike.explore` is the induction on the room that is left for the walk, and `Alike.view` what it
  gives at the root.
* `fold_reordered` and `tally_reordered`: if names ascend in the one tree, keeping its entries as
  they were visited gives what sorting the entries of the other one gives.
-/

namespace TreeDigest

/-! ### Failing together -/

/-- Two results of which neither is there, or both are and are related. -/
inductive Together {ε ε' α β : Type} (R : α → β → Prop) : Except ε α → Except ε' β → Prop where
  | ok {a : α} {b : β} : R a b → Together R (.ok a) (.ok b)
  | error (e : ε) (e' : ε') : Together R (.error e) (.error e')

namespace Together

variable {ε ε' α β γ δ : Type} {R : α → β → Prop} {S : γ → δ → Prop} {x : Except ε α}
  {y : Except ε' β}

/-- Each result gives the other one. -/
lemma intro (hx : ∀ a, x = .ok a → ∃ b, y = .ok b ∧ R a b)
    (hy : ∀ b, y = .ok b → ∃ a, x = .ok a) : Together R x y := by
  cases hcx : x with
  | ok a =>
      obtain ⟨b, rfl, hab⟩ := hx a hcx
      exact .ok hab
  | error e =>
      cases hcy : y with
      | error e' => exact .error e e'
      | ok b =>
          obtain ⟨a, ha⟩ := hy b hcy
          rw [hcx] at ha
          cases ha

lemma symm (hxy : Together R x y) : Together (fun b a => R a b) y x := by
  cases hxy with
  | ok hab => exact .ok hab
  | error e e' => exact .error e' e

lemma imp {S : α → β → Prop} (hRS : ∀ a b, R a b → S a b) (hxy : Together R x y) :
    Together S x y := by
  cases hxy with
  | ok hab => exact .ok (hRS _ _ hab)
  | error e e' => exact .error e e'

lemma comp {ε'' : Type} {S : β → γ → Prop} {z : Except ε'' γ} (hxy : Together R x y)
    (hyz : Together S y z) : Together (fun a c => ∃ b, R a b ∧ S b c) x z := by
  cases hxy with
  | ok hab =>
      cases hyz with
      | ok hbc => exact .ok ⟨_, hab, hbc⟩
  | error e e' =>
      cases hyz with
      | error _ e'' => exact .error e e''

lemma map {f : α → γ} {g : β → δ} (hxy : Together R x y) (hfg : ∀ a b, R a b → S (f a) (g b)) :
    Together S (x.map f) (y.map g) := by
  cases hxy with
  | ok hab => exact .ok (hfg _ _ hab)
  | error e e' => exact .error e e'

lemma of_eq {R : α → α → Prop} (hrefl : ∀ a, R a a) (x : Except ε α) : Together R x x := by
  cases x with
  | ok a => exact .ok (hrefl a)
  | error e => exact .error e e

end Together

section MapM

variable {ε α β γ : Type} {f : α → Except ε β} {g : α → Except ε γ} {R : β → γ → Prop}

/-- Results of a list are results of its elements. -/
lemma mapM_eq_ok_iff {xs : List α} {ys : List β} :
    xs.mapM f = .ok ys ↔ List.Forall₂ (fun x y => f x = .ok y) xs ys := by
  induction xs generalizing ys with
  | nil => cases ys <;> simp [pure, Except.pure]
  | cons x xs ih =>
      rw [List.mapM_cons]
      cases hx : f x with
      | error e => cases ys <;> simp [bind, Except.bind, hx]
      | ok y =>
          cases hrest : xs.mapM f with
          | error e => cases ys <;> simp [bind, Except.bind, hx, ← ih, hrest]
          | ok ys' => cases ys <;> simp [bind, Except.bind, pure, Except.pure, hx, ← ih, hrest]

lemma exists_of_mapM {xs : List α} {ys : List β} {x : α} (hys : xs.mapM f = .ok ys)
    (hx : x ∈ xs) : ∃ y ∈ ys, f x = .ok y := by
  have hall := mapM_eq_ok_iff.mp hys
  clear hys
  induction hall with
  | nil => simp at hx
  | @cons x' y xs ys hxy _ ih =>
      obtain rfl | hx := List.mem_cons.mp hx
      · exact ⟨y, List.mem_cons_self, hxy⟩
      · obtain ⟨y', hy', hxy'⟩ := ih hx
        exact ⟨y', List.mem_cons_of_mem _ hy', hxy'⟩

/-- What one function gives for a list, a function that fails together with it gives, too. -/
lemma forall₂_together {xs : List α} {ys : List β} (hfg : ∀ x, Together R (f x) (g x))
    (hys : List.Forall₂ (fun x y => f x = .ok y) xs ys) :
    ∃ zs, List.Forall₂ (fun x z => g x = .ok z) xs zs ∧ List.Forall₂ R ys zs := by
  induction hys with
  | nil => exact ⟨[], .nil, .nil⟩
  | @cons x y xs ys hx _ ih =>
      obtain ⟨zs, hzs, hall⟩ := ih
      have hxy := hfg x
      rw [hx] at hxy
      generalize hgx : g x = z at hxy
      cases hxy with
      | ok hyz => exact ⟨_ :: zs, .cons hgx hzs, .cons hyz hall⟩

/-- **Going through a list in another order** fails together with going through it, and otherwise
gives the same in another order. -/
lemma mapM_together {xs xs' : List α} (hperm : xs.Perm xs') (hfg : ∀ x, Together R (f x) (g x)) :
    Together (fun ys zs => ∃ us, List.Forall₂ R ys us ∧ us.Perm zs) (xs.mapM f) (xs'.mapM g) := by
  -- Only success can be compared element by element: which error is told depends on the order.
  refine .intro (fun ys hys => ?_) fun zs hzs => ?_
  · obtain ⟨us, hus, hall⟩ := forall₂_together hfg (mapM_eq_ok_iff.mp hys)
    obtain ⟨zs, hzs, hkept⟩ := List.perm_comp_forall₂ hperm.symm hus
    exact ⟨zs, mapM_eq_ok_iff.mpr hzs, us, hall, hkept.symm⟩
  · obtain ⟨us, hus, -⟩ := List.perm_comp_forall₂ hperm (mapM_eq_ok_iff.mp hzs)
    obtain ⟨ys, hys, -⟩ := forall₂_together (fun x => (hfg x).symm) hus
    exact ⟨ys, mapM_eq_ok_iff.mpr hys⟩

end MapM

/-! ### Trees that differ in the order of siblings -/

namespace Visible

/-- The same tree, with the entries of directories in another order. -/
inductive Reordered : Visible → Visible → Prop where
  | ignored : Reordered .ignored .ignored
  | skippedLink : Reordered .skippedLink .skippedLink
  | skippedSpecial : Reordered .skippedSpecial .skippedSpecial
  | leaf (l : Leaf) : Reordered (.leaf l) (.leaf l)
  | absent (location : Location) : Reordered (.absent location) (.absent location)
  | directory {location : Location} {ts us vs : List Visible} :
      List.Forall₂ Reordered ts us → us.Perm vs →
      Reordered (.directory location ts) (.directory location vs)

mutual

lemma Reordered.refl (t : Visible) : Reordered t t := by
  match t with
  | .ignored => exact .ignored
  | .skippedLink => exact .skippedLink
  | .skippedSpecial => exact .skippedSpecial
  | .leaf l => exact .leaf l
  | .absent location => exact .absent location
  | .directory location ts => exact .directory (forall₂_refl ts) (.refl ts)

lemma forall₂_refl (ts : List Visible) : List.Forall₂ Reordered ts ts := by
  match ts with
  | [] => exact .nil
  | t :: ts => exact .cons (Reordered.refl t) (forall₂_refl ts)

end

lemma wholeAll_iff {ts : List Visible} : WholeAll ts ↔ ∀ t ∈ ts, t.Whole := by
  induction ts with
  | nil => simp [WholeAll]
  | cons t ts ih => simp [WholeAll, ih]

mutual

/-- Where nothing was absent, nothing is in the other tree. -/
lemma whole_reordered (t : Visible) {t' : Visible} (htt' : Reordered t t') (ht : t.Whole) :
    t'.Whole := by
  match t with
  | .ignored | .skippedLink | .skippedSpecial | .leaf _ =>
      cases htt'
      trivial
  | .absent _ => exact ht.elim
  | .directory _ ts =>
      cases htt' with
      | directory hall hperm =>
          have hus := wholeAll_reordered ts hall ht
          exact wholeAll_iff.mpr fun t ht => wholeAll_iff.mp hus t (hperm.mem_iff.mpr ht)

lemma wholeAll_reordered (ts : List Visible) {us : List Visible}
    (hall : List.Forall₂ Reordered ts us) (hts : WholeAll ts) : WholeAll us := by
  match ts with
  | [] =>
      cases hall
      trivial
  | t :: ts =>
      cases hall with
      | cons htu hrest => exact ⟨whole_reordered t htu hts.1, wholeAll_reordered ts hrest hts.2⟩

end

section Fold

variable (h : HashFunction) (handling : EmptyDirectories)

mutual

/-- What is kept of the entries of each directory ascends in its names, which are distinct. -/
def Ascends : Visible → Prop
  | .directory _ ts =>
    Snapshot.Ascends (foldAll h .asVisited handling ts)
      ∧ ((foldAll h .asVisited handling ts).map Snapshot.name).Nodup ∧ AscendsAll ts
  | _ => True

/-- Names ascend in each of some trees. -/
def AscendsAll : List Visible → Prop
  | [] => True
  | t :: ts => Ascends t ∧ AscendsAll ts

end

lemma foldAll_perm (o : ChildOrdering) {ts us : List Visible} (hperm : ts.Perm us) :
    (foldAll h o handling ts).Perm (foldAll h o handling us) := by
  rw [foldAll_eq_filterMap, foldAll_eq_filterMap]
  exact hperm.filterMap _

lemma tallyAll_perm (o : ChildOrdering) {ts us : List Visible} (hperm : ts.Perm us) :
    tallyAll h o handling ts = tallyAll h o handling us := by
  have hsum : ∀ ts, tallyAll h o handling ts = (ts.map (tally h o handling)).sum := by
    intro ts
    induction ts with
    | nil => rfl
    | cons t ts ih => rw [tallyAll, ih, List.map_cons, List.sum_cons]
  rw [hsum, hsum]
  exact (hperm.map _).sum_eq

mutual

/-- **Sorting gives what was visited in order**: entries that ascend are kept as they are, and in
any other order they are sorted into this one. -/
lemma fold_reordered (t : Visible) {t' : Visible} (htt' : Reordered t t')
    (ht : t.Ascends h handling) :
    t'.fold h .byName handling = t.fold h .asVisited handling := by
  match t with
  | .ignored | .skippedLink | .skippedSpecial | .leaf _ | .absent _ =>
      cases htt'
      rfl
  | .directory location ts =>
      cases htt' with
      | @directory _ _ us vs hall hperm =>
          obtain ⟨hascends, hnames, hbelow⟩ := ht
          have hsame := foldAll_reordered ts hall hbelow
          have hfolds : (foldAll h .byName handling vs).Perm
              (foldAll h .asVisited handling ts) := by
            rw [← hsame]
            exact foldAll_perm h handling .byName hperm.symm
          exact Snapshot.node?_byName h location handling hfolds.symm hascends
            ((hfolds.map Snapshot.name).nodup_iff.mpr hnames)

lemma foldAll_reordered (ts : List Visible) {us : List Visible}
    (hall : List.Forall₂ Reordered ts us) (hts : AscendsAll h handling ts) :
    foldAll h .byName handling us = foldAll h .asVisited handling ts := by
  match ts with
  | [] =>
      cases hall
      rfl
  | t :: ts =>
      cases hall with
      | cons htu hrest =>
          rw [foldAll, foldAll, fold_reordered t htu hts.1, foldAll_reordered ts hrest hts.2]

end

mutual

/-- The counters do not see the order of entries. -/
lemma tally_reordered (t : Visible) {t' : Visible} (htt' : Reordered t t')
    (ht : t.Ascends h handling) :
    t'.tally h .byName handling = t.tally h .asVisited handling := by
  match t with
  | .ignored | .skippedLink | .skippedSpecial | .leaf _ | .absent _ =>
      cases htt'
      rfl
  | .directory location ts =>
      have hfold := fold_reordered h handling (.directory location ts) htt' ht
      cases htt' with
      | directory hall hperm =>
          have hbelow := tallyAll_reordered ts hall ht.2.2
          rw [tally, tally, hfold, ← tallyAll_perm h handling .byName hperm, hbelow]

lemma tallyAll_reordered (ts : List Visible) {us : List Visible}
    (hall : List.Forall₂ Reordered ts us) (hts : AscendsAll h handling ts) :
    tallyAll h .byName handling us = tallyAll h .asVisited handling ts := by
  match ts with
  | [] =>
      cases hall
      rfl
  | t :: ts =>
      cases hall with
      | cons htu hrest =>
          rw [tallyAll, tallyAll, tally_reordered t htu hts.1, tallyAll_reordered ts hrest hts.2]

end

end Fold

end Visible

/-! ### Two surveys of one tree -/

namespace Survey

open Visible

/-- Two surveys with the same root and options, up to the order in which the walk goes and the
directories are listed. Files are read with the same results. -/
structure Alike (v v' : Survey) : Prop where
  options : { v.options with sorted := v'.options.sorted } = v'.options
  hash : v.hash = v'.hash
  root : v.root = v'.root
  wellFormed : v.files.WellFormed
  relisted : v.files.Relisted v'.files
  readings : ∀ p, (v.hasher p v.files).result = (v'.hasher p v'.files).result

namespace Alike

variable {v v' : Survey}

lemma location_eq (h : v.Alike v') (depth : ℕ) (path : Path) (viaLink : Bool) :
    v.location depth path viaLink = v'.location depth path viaLink := by
  rw [location, location, h.root]

lemma leavesOut_eq (h : v.Alike v') (name : Bytes) :
    v.options.walk.leavesOut name = v'.options.walk.leavesOut name := by
  rw [← h.options]
  rfl

lemma followLinks_eq (h : v.Alike v') :
    v.options.walk.followLinks = v'.options.walk.followLinks := by
  rw [← h.options]
  rfl

/-- A walk error is taken in the same way. -/
lemma failed_eq (h : v.Alike v') (e : WalkError) : v.failed e = v'.failed e := by
  have hlink := h.relisted.isLink h.wellFormed
  unfold failed
  split
  · rw [h.location_eq, hlink]
  · rfl

/-- A file is the same leaf. -/
lemma file_eq (h : v.Alike v') (e : WalkEntry) : v.file e = v'.file e := by
  have hread : v.read e = v'.read e := by
    have hnode := h.relisted.node h.wellFormed e.viaLink e.path
    rw [read, read, h.readings]
    generalize v.files.node e.viaLink e.path = x at hnode
    generalize v'.files.node e.viaLink e.path = y at hnode
    cases hnode with
    | error e => rfl
    | ok hn => cases hn <;> rfl
  simp only [file, hread, h.location_eq, h.hash]

/-- The way back to an outer directory is found in both. -/
lemma checkLoop_eq (h : v.Alike v') (depth : ℕ) (child : Path) (ancestors : List Path) :
    Walk.checkLoop v.files depth child ancestors
      = Walk.checkLoop v'.files depth child ancestors := by
  have hcanonical := h.relisted.canonicalize h.wellFormed
  induction ancestors with
  | nil => rfl
  | cons ancestor outer ih => rw [Walk.checkLoop, Walk.checkLoop, hcanonical, hcanonical, ih]

/-- A listed entry is told as the same. -/
lemma entryOf_eq (h : v.Alike v') (ancestors : List Path) (depth : ℕ) (path : Path)
    (kind : NodeKind) :
    Walk.entryOf v.options.walk v.files ancestors depth path kind
      = Walk.entryOf v'.options.walk v'.files ancestors depth path kind := by
  have hnode := h.relisted.node h.wellFormed true path
  rw [Walk.entryOf, Walk.entryOf, h.followLinks_eq, Walk.followed, Walk.followed, h.checkLoop_eq]
  generalize v.files.node true path = x at hnode
  generalize v'.files.node true path = y at hnode
  cases hnode with
  | error e => rfl
  | @ok n n' hn =>
      have hdirectory : n.isDirectory = n'.isDirectory := by
        rw [Node.isDirectory, Node.isDirectory, hn.kind_eq]
      simp only [hn.kind_eq, hdirectory]

/-- The walk goes through the same entries of a directory. -/
lemma arrange_perm (v v' : Survey) {listing listing' : List (Bytes × NodeKind)}
    (hperm : listing.Perm listing') :
    (Walk.arrange v.options.walk listing).Perm (Walk.arrange v'.options.walk listing') := by
  have harrange : ∀ (v : Survey) (l : List (Bytes × NodeKind)),
      (Walk.arrange v.options.walk l).Perm l := by
    intro v l
    rw [Walk.arrange]
    split
    · exact List.mergeSort_perm l _
    · exact .refl l
  exact (harrange v listing).trans (hperm.trans (harrange v' listing').symm)

/-- **What is made of an entry** does not depend on the order, if what is below does not. -/
lemma make (h : v.Alike v') (e : WalkEntry) (name : Bytes)
    {below below' : List (Bytes × NodeKind) → Except StorageError (List Visible)}
    (hbelow : ∀ listing listing' : List (Bytes × NodeKind), listing.Perm listing' →
      Together (fun ts vs => ∃ us, List.Forall₂ Reordered ts us ∧ us.Perm vs)
        (below listing) (below' listing')) :
    Together Reordered (v.make e name below) (v'.make e name below') := by
  rw [Survey.make, Survey.make, h.leavesOut_eq, h.file_eq, h.location_eq]
  split
  · exact .ok .ignored
  cases e.kind with
  | link => exact .ok .skippedLink
  | special => exact .ok .skippedSpecial
  | file => exact .of_eq Reordered.refl _
  | directory =>
      have hlist := h.relisted.list h.wellFormed e.path
      dsimp only
      generalize v.files.list e.path = x at hlist
      generalize v'.files.list e.path = y at hlist
      cases hlist with
      | error error =>
          dsimp only
          rw [h.failed_eq]
          exact .of_eq Reordered.refl _
      | ok hperm =>
          refine (hbelow _ _ hperm).map fun ts vs hts => ?_
          obtain ⟨us, hall, hperm⟩ := hts
          exact .directory hall hperm

/-- **Exploring from an entry on** fails in both or gives the same entries. -/
lemma explore (h : v.Alike v') (room : ℕ) (ancestors : List Path) (depth : ℕ) (path : Path)
    (name : Bytes) (kind : NodeKind) :
    Together Reordered (v.explore room ancestors depth path name kind)
      (v'.explore room ancestors depth path name kind) := by
  induction room generalizing ancestors depth path name kind with
  | zero =>
      rw [Survey.explore, Survey.explore, h.failed_eq]
      exact .of_eq Reordered.refl _
  | succ room ih =>
      rw [explore_succ, explore_succ, h.entryOf_eq]
      cases Walk.entryOf v'.options.walk v'.files ancestors depth path kind with
      | error e =>
          dsimp only
          rw [h.failed_eq]
          exact .of_eq Reordered.refl _
      | ok e =>
          refine h.make e name fun listing listing' hperm => ?_
          exact mapM_together (arrange_perm v v' hperm) fun item => ih _ _ _ _ _

lemma missingRoot_eq (h : v.Alike v') (e : IoError) : v.missingRoot e = v'.missingRoot e := by
  rw [missingRoot, missingRoot, h.location_eq, h.hash, h.root]

/-- **The tree at the root** is seen in neither or in both, up to the order of siblings. -/
theorem view (h : v.Alike v') : Together Reordered v.view v'.view := by
  have hkind : v.files.rootKind v.root.walked = v'.files.rootKind v.root.walked :=
    FileSystem.rootKind_of_inStep fun follow =>
      (h.relisted.node h.wellFormed follow v.root.walked).imp fun _ _ hn => hn.kind_eq
  rw [Survey.view_eq_rootKind, Survey.view_eq_rootKind, ← h.root, ← hkind]
  cases v.files.rootKind v.root.walked with
  | error e =>
      dsimp only
      rw [h.missingRoot_eq]
      exact .of_eq Reordered.refl _
  | ok kind => exact h.explore FileSystem.maxPath [] 0 v.root.walked [] kind

end Alike

end Survey

end TreeDigest

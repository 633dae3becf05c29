import TreeDigest.Proofs.Scan.Correctness
import TreeDigest.Proofs.Scan.Reordering
import TreeDigest.Proofs.Text.Utf8

/-!
Sorting in the walk and sorting in the builder.

A sorted walk goes through the entries of a directory by the bytes of their names and keeps its
children as they come; an unsorted one takes them as they are listed and leaves it to the builder
to sort its children by their recorded names. The two keys are the same where the names are
texts: a name that is a text is recorded as it is. So both scans give the same, also if the
directories list their entries in other orders the next time.

* `Survey.Meets` says which entries a walk meets, and `TextNames` that their names are texts.
* `Makes.ascends`: in what a sorted survey shows, names ascend in every directory.
* `scanWith_together`: the two scans fail together, or have the same outcome.
-/

namespace TreeDigest

/-! ### What directories inherit -/

/-- The names in a directory, and in all directories below, have a property. -/
inductive Entries.Named (P : Bytes → Prop) : Entries → Prop where
  | intro {es : Entries} : (∀ e ∈ es, P e.1) →
      (∀ name inner, (name, Node.directory inner) ∈ es → Named P inner) → Named P es

lemma Entries.Named.inner {P : Bytes → Prop} {es inner : Entries} {name : Bytes}
    (hes : es.Named P) (hmem : (name, Node.directory inner) ∈ es) : inner.Named P := by
  obtain ⟨-, hinner⟩ := hes
  exact hinner _ _ hmem

namespace FileSystem

/-- What holds of the root directory, and goes over to the directories in a directory, holds of
every directory that a path leads to. -/
lemma inherits {fs : FileSystem} {Q : Entries → Prop} (hroot : Q fs.root)
    (hinner : ∀ es name inner, Q es → (name, Node.directory inner) ∈ es → Q inner)
    {follow : Bool} {p : Path} {es : Entries} (hdir : fs.node follow p = .ok (.directory es)) :
    Q es := by
  obtain ⟨trail, hresolve, rfl⟩ := resolve_of_node_directory hdir
  have hvalid : Trail.Valid fs trail := resolve_valid hresolve
  clear hdir hresolve
  induction trail with
  | nil => exact hroot
  | cons step rest ih =>
      exact hinner _ _ _ (ih hvalid.2) (Entries.mem_of_find? hvalid.1)

end FileSystem

namespace Survey

open Visible

/-! ### The entries that a walk meets -/

/-- The walk from a root meets a node under a path and a name: the root, and what is listed in a
directory that it goes into. -/
inductive Meets (v : Survey) (p : Path) : ℕ → Path → Bytes → Node → Prop where
  | root {a : Path} {n : Node} : RootLocation.absolute v.files p = .ok a →
      v.files.node true a = .ok n → Meets v p 0 v.root.walked [] n
  | entry {depth : ℕ} {path : Path} {name name' : Bytes} {n n' : Node} {es : Entries} :
      Meets v p depth path name n → v.leavesOut depth name = false →
      v.CountsAs path n (.directory es) → (name', n') ∈ es →
      Meets v p (depth + 1) (path.join ⟨name'⟩) name' n'

/-- The names that the walk meets below the root are texts. -/
def TextNames (v : Survey) (p : Path) : Prop :=
  ∀ depth path name n, v.Meets p depth path name n → 0 < depth → ∃ s : String, name = Text.utf8 s

variable {v : Survey} {p : Path}

/-- Directories that are met inherit what the directories of the file system do. -/
lemma Meets.inherits {Q : Entries → Prop} (hroot : Q v.files.root)
    (hinner : ∀ es name inner, Q es → (name, Node.directory inner) ∈ es → Q inner) {depth : ℕ}
    {path : Path} {name : Bytes} {n : Node} (hm : v.Meets p depth path name n) {es : Entries}
    (hcounts : v.CountsAs path n (.directory es)) : Q es := by
  induction hm generalizing es with
  | root ha hnode =>
      cases hcounts with
      | itself => exact FileSystem.inherits hroot hinner hnode
      | followed _ hnode' => exact FileSystem.inherits hroot hinner hnode'
  | entry hm hkept hcounts' hmem ih =>
      cases hcounts with
      | itself => exact hinner _ _ _ (ih hcounts') hmem
      | followed _ hnode => exact FileSystem.inherits hroot hinner hnode

/-- Below the root, what an entry leaves is recorded under the text of its path. -/
lemma Shows.name_of_fold {h : HashFunction} {o : ChildOrdering} {handling : EmptyDirectories}
    {depth : ℕ} {path : Path} {name : Bytes} {n : Node} {t : Visible} {s : Snapshot}
    (ht : v.Shows depth path name n t) (hdepth : 0 < depth)
    (hs : t.fold h o handling = some s) : s.name = path.entryName := by
  have hlocation : ∀ viaLink, (v.location depth path viaLink).name = path.entryName := by
    intro viaLink
    rw [location, if_neg hdepth.ne']
  cases ht with
  | dangling =>
      obtain rfl := Option.some.inj hs
      exact hlocation true
  | counted _ hmakes =>
      cases hmakes with
      | ignored | skippedLink | skippedSpecial => simp [fold] at hs
      | file | missing =>
          obtain rfl := Option.some.inj hs
          exact hlocation _
      | directory =>
          simp only [fold, Snapshot.node?] at hs
          split at hs
          · cases hs
          · obtain rfl := Option.some.inj hs
            exact hlocation _

/-- The names of what is left of the entries of a directory are among those that it lists, in the
same order. -/
lemma ShowsAll.names_sublist (h : HashFunction) (o : ChildOrdering) (handling : EmptyDirectories)
    {depth : ℕ} {path : Path} {es : Entries} {ts : List Visible} (hdepth : 0 < depth)
    (hnames : ∀ name n, (name, n) ∈ es → Path.IsName name ∧ ∃ s : String, name = Text.utf8 s)
    (hts : v.ShowsAll depth path es ts) :
    ((foldAll h o handling ts).map fun s => Text.utf8 s.name).Sublist (es.map (·.1)) := by
  induction ts generalizing es with
  | nil =>
      cases hts
      exact .slnil
  | cons t ts ih =>
      cases hts with
      | @cons _ _ name n es _ _ ht hts =>
          have hrest := ih (fun name n hmem => hnames name n (List.mem_cons_of_mem _ hmem)) hts
          rw [foldAll, List.map_append, List.map_cons]
          cases hfold : t.fold h o handling with
          | none => exact hrest.cons name
          | some s =>
              obtain ⟨hname, text, rfl⟩ := hnames name n List.mem_cons_self
              have hs : Text.utf8 s.name = Text.utf8 text := by
                rw [ht.name_of_fold hdepth hfold, Path.entryName_join path hname, Text.lossy_utf8]
              rw [Option.toList_some, List.map_singleton, List.singleton_append, hs]
              exact hrest.cons_cons _

section Ascends

variable (h : HashFunction) (handling : EmptyDirectories)

/-- What is left of the entries of a directory ascends where the walk goes by name. -/
lemma ShowsAll.ascends (hsorted : v.options.sorted = true) {depth : ℕ} {path : Path} {es : Entries}
    {ts : List Visible} (hdepth : 0 < depth) (hes : es.WellFormed)
    (htexts : ∀ name n, (name, n) ∈ es → ∃ s : String, name = Text.utf8 s)
    (hts : v.ShowsAll depth path (v.arrange es) ts) :
    Snapshot.Ascends (foldAll h .asVisited handling ts)
      ∧ ((foldAll h .asVisited handling ts).map Snapshot.name).Nodup := by
  have harrange : v.arrange es = es.mergeSort fun a b => Text.bytesLe a.1 b.1 := by
    rw [arrange, if_pos hsorted]
  rw [harrange] at hts
  have hsub := hts.names_sublist h .asVisited handling hdepth fun name n hmem =>
    have hmem := List.mem_mergeSort.mp hmem
    ⟨hes.isName hmem, htexts name n hmem⟩
  have hnodup : ((es.mergeSort fun a b => Text.bytesLe a.1 b.1).map (·.1)).Nodup := by
    obtain ⟨-, hnodup, -⟩ := hes
    exact (((List.mergeSort_perm es _).map _).nodup_iff).mpr hnodup
  have hle : ((es.mergeSort fun a b => Text.bytesLe a.1 b.1).map (·.1)).Pairwise
      fun a b => Text.bytesLe a b = true :=
    List.pairwise_map.mpr (List.pairwise_mergeSort
      (fun a b c : Bytes × Node => Text.bytesLe_trans a.1 b.1 c.1)
      (fun a b : Bytes × Node => Text.bytesLe_total a.1 b.1) es)
  refine ⟨List.pairwise_map.mp (hle.sublist hsub), ?_⟩
  have hkept : (((foldAll h .asVisited handling ts).map Snapshot.name).map Text.utf8).Nodup := by
    rw [List.map_map]
    exact hnodup.sublist hsub
  exact hkept.of_map _

mutual

/-- **Where the walk goes by name, names ascend** in what is made of a node that it meets. -/
lemma Makes.ascends (hfiles : v.files.WellFormed) (hsorted : v.options.sorted = true)
    (hnames : v.TextNames p) (t : Visible) {depth : ℕ} {path : Path} {name : Bytes}
    {viaLink : Bool} {n n' : Node} (hm : v.Meets p depth path name n)
    (hcounts : v.CountsAs path n n') (ht : v.Makes depth path name viaLink n' t) :
    t.Ascends h handling := by
  match t with
  | .ignored | .skippedLink | .skippedSpecial | .leaf _ | .absent _ => trivial
  | .directory location below =>
      cases ht with
      | @directory _ _ _ _ es _ hkept hbelow =>
          have hes : es.WellFormed :=
            hm.inherits (Q := Entries.WellFormed) hfiles (fun _ _ _ hes hmem => hes.inner hmem)
              hcounts
          have hmeets : ∀ name' n', (name', n') ∈ es →
              v.Meets p (depth + 1) (path.join ⟨name'⟩) name' n' :=
            fun name' n' hmem => .entry hm hkept hcounts hmem
          have hhere := hbelow.ascends h handling hsorted (Nat.succ_pos depth) hes
            fun name' n' hmem => hnames _ _ _ _ (hmeets name' n' hmem) (Nat.succ_pos depth)
          refine ⟨hhere.1, hhere.2, ?_⟩
          refine ShowsAll.ascendsAll hfiles hsorted hnames below (fun name' n' hmem => ?_) hbelow
          rw [arrange, if_pos hsorted] at hmem
          exact hmeets name' n' (List.mem_mergeSort.mp hmem)

/-- Names ascend in what is shown by each of some nodes that the walk meets. -/
lemma ShowsAll.ascendsAll (hfiles : v.files.WellFormed) (hsorted : v.options.sorted = true)
    (hnames : v.TextNames p) (ts : List Visible) {depth : ℕ} {path : Path} {es : Entries}
    (hmeets : ∀ name n, (name, n) ∈ es → v.Meets p depth (path.join ⟨name⟩) name n)
    (hts : v.ShowsAll depth path es ts) : AscendsAll h handling ts := by
  match ts with
  | [] => trivial
  | t :: ts =>
      cases hts with
      | @cons _ _ name n es _ _ ht hts =>
          have hm := hmeets name n List.mem_cons_self
          refine ⟨?_, ShowsAll.ascendsAll hfiles hsorted hnames ts
            (fun name n hmem => hmeets name n (List.mem_cons_of_mem _ hmem)) hts⟩
          cases ht with
          | dangling => trivial
          | counted hcounts hmakes => exact Makes.ascends hfiles hsorted hnames t hm hcounts hmakes

end

/-- Names ascend in the tree that the root shows. -/
lemma ShowsRoot.ascends (hfiles : v.files.WellFormed) (hsorted : v.options.sorted = true)
    (hnames : v.TextNames p) {t : Visible} (ht : v.ShowsRoot p t) : t.Ascends h handling := by
  cases ht with
  | missing => trivial
  | found ha hnode hshows =>
      cases hshows with
      | dangling => trivial
      | counted hcounts hmakes =>
          exact hmakes.ascends h handling hfiles hsorted hnames _ (.root ha hnode) hcounts

end Ascends

/-! ### Both scans -/

/-- A root is found under the same path and name. -/
lemma resolve_relisted {files files' : FileSystem} (hfiles : files.WellFormed)
    (hrelisted : files.Relisted files') (p : Path) :
    RootLocation.resolve files p = RootLocation.resolve files' p := by
  have habsolute : RootLocation.absolute files p = RootLocation.absolute files' p := by
    rw [RootLocation.absolute, RootLocation.absolute, hrelisted.currentPath hfiles]
  simp only [RootLocation.resolve, habsolute, hrelisted.canonicalize hfiles,
    hrelisted.isLink hfiles]

/-- A scan whose root is not even named ends at once. -/
lemma scanWith_unresolved {options : ScanOptions} {hash : HashFunction} {hasher : LeafHasher}
    {files : FileSystem} {p : Path} {e : IoError}
    (hroot : RootLocation.resolve files p = .error e) :
    scanWith options hash hasher files p = .error ⟨.io (.plain e), files⟩ := by
  rw [scanWith, hroot]
  rfl

/-- The hasher of whole contents leaves the file system alone. -/
lemma content_files (h : HashFunction) (q : Path) (files : FileSystem) :
    (LeafHasher.content h q files).files = files := by
  rw [LeafHasher.content]
  split <;> rfl

end Survey

end TreeDigest

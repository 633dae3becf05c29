import TreeDigest.Proofs.Builder.NameOrder
import TreeDigest.Proofs.Scan.Root

/-!
A walk as a list of steps.

As long as a visitor leaves the file system alone, what a walk tells it does not depend on what it
does. So the walk can be listed beforehand: at every entry it comes to, it tells of one event or
leaves the entry out, and a directory that cannot be listed makes it tell of another one.

* `Walk.steps` lists the steps from a listed entry on, and `Walk.rootSteps` those from the root.
* `run_eq`: a walk takes its steps one after another.
* `placed_of_mem_steps` and `placed_of_mem_rootSteps` say where a step is taken.
-/

namespace TreeDigest

/-- The event is about the given place, if it is about one. -/
def WalkEvent.At (depth : ℕ) (path : Path) : WalkEvent → Prop
  | .entry e => e.depth = depth ∧ e.path = path
  | .failure (.io depth' (some path') _) => depth' = depth ∧ path' = path
  | .failure _ => True

lemma WalkEvent.exists_at (event : WalkEvent) : ∃ depth path, event.At depth path := by
  rcases event with e | ⟨depth, _ | path, error⟩ | ⟨depth, ancestor, child⟩
  · exact ⟨_, _, rfl, rfl⟩
  · exact ⟨depth, ⟨[]⟩, trivial⟩
  · exact ⟨depth, path, rfl, rfl⟩
  · exact ⟨depth, child, trivial⟩

/-- What a visitor does keeps an invariant, by which the file system is the given one. -/
structure WalkVisitor.Keeps {σ ε : Type} (v : WalkVisitor σ ε) (fs : FileSystem) (I : σ → Prop) :
    Prop where
  files : ∀ {s}, I s → v.files s = fs
  visit : ∀ {s s' event}, I s → v.visit s event = .ok s' → I s'
  skip : ∀ {s}, I s → I (v.skip s)

namespace Walk

/-- What a walk does at an entry: it tells of an event there, or it leaves the entry out. -/
structure Step where
  depth : ℕ
  path : Path
  name : Bytes
  told : Option WalkEvent

section Steps

variable (options : WalkOptions) (fs : FileSystem)

/-- The steps of a walk from a listed entry on. -/
def steps : ℕ → List Path → ℕ → Path → Bytes → NodeKind → List Step
  | 0, _, depth, path, name, _ =>
    [⟨depth, path, name, some (.failure (.io depth (some path) .nameTooLong))⟩]
  | room + 1, ancestors, depth, path, name, kind =>
    match entryOf options fs ancestors depth path kind with
    | .error e => [⟨depth, path, name, some (.failure e)⟩]
    | .ok e =>
      if 0 < depth && options.leavesOut name then [⟨depth, path, name, none⟩]
      else if e.kind = .directory then
        ⟨depth, path, name, some (.entry e)⟩ :: match fs.list path with
        | .error e => [⟨depth, path, name, some (.failure (.io depth (some path) e))⟩]
        | .ok listing => (arrange options listing).flatMap fun item =>
            steps room (path :: ancestors) (depth + 1) (path.join ⟨item.1⟩) item.1 item.2
      else [⟨depth, path, name, some (.entry e)⟩]

/-- The steps of a walk from its root on. -/
def rootSteps (root : Path) : List Step :=
  match fs.node false root with
  | .error e => [⟨0, root, [], some (.failure (.io 0 (some root) e))⟩]
  | .ok node =>
    match node.kind, fs.node true root with
    | .link, .error e => [⟨0, root, [], some (.failure (.io 0 (some root) e))⟩]
    | kind, _ => steps options fs FileSystem.maxPath [] 0 root [] kind

/-- The steps of a walk are those from the kind of its root on. -/
lemma rootSteps_eq_rootKind (root : Path) :
    rootSteps options fs root = match fs.rootKind root with
      | .error e => [⟨0, root, [], some (.failure (.io 0 (some root) e))⟩]
      | .ok kind => steps options fs FileSystem.maxPath [] 0 root [] kind :=
  FileSystem.match_rootKind _ _ _ _

end Steps

/-! ### Taking the steps -/

section Take

variable {σ ε : Type} {v : WalkVisitor σ ε}

/-- A step as a visitor takes it. -/
def Step.take (v : WalkVisitor σ ε) (s : σ) (step : Step) : Except ε σ :=
  match step.told with
  | none => .ok (v.skip s)
  | some event => v.visit s event

variable {fs : FileSystem} {I : σ → Prop} {s s' : σ}

lemma keeps_take (hv : v.Keeps fs I) {step : Step} (hs : I s) (htake : step.take v s = .ok s') :
    I s' := by
  rw [Step.take] at htake
  split at htake
  · obtain rfl := Except.ok.inj htake
    exact hv.skip hs
  · exact hv.visit hs htake

/-- One step is taken by itself. -/
lemma foldlM_one (s : σ) (step : Step) : [step].foldlM (Step.take v) s = step.take v s := by simp

lemma keeps_foldlM (hv : v.Keeps fs I) {ss : List Step} (hs : I s)
    (htake : ss.foldlM (Step.take v) s = .ok s') : I s' := by
  induction ss generalizing s with
  | nil =>
      obtain rfl := Except.ok.inj htake
      exact hs
  | cons step ss ih =>
      rw [List.foldlM_cons] at htake
      cases hstep : step.take v s with
      | error e => simp [hstep, bind, Except.bind] at htake
      | ok t =>
          rw [hstep] at htake
          exact ih (keeps_take hv hs hstep) htake

/-- Some rows of steps are taken one after another. -/
lemma foldlM_flatMap {α : Type} {f : σ → α → Except ε σ} {g : α → List Step} (hv : v.Keeps fs I)
    (hf : ∀ s a, I s → f s a = (g a).foldlM (Step.take v) s) (as : List α) (hs : I s) :
    as.foldlM f s = (as.flatMap g).foldlM (Step.take v) s := by
  induction as generalizing s with
  | nil => rfl
  | cons a as ih =>
      rw [List.foldlM_cons, List.flatMap_cons, List.foldlM_append, hf s a hs]
      cases hrow : (g a).foldlM (Step.take v) s with
      | error e => rfl
      | ok t => exact ih (keeps_foldlM hv hs hrow)

variable (options : WalkOptions)

/-- **A walk from a listed entry on takes its steps.** -/
lemma descend_eq (hv : v.Keeps fs I) (room : ℕ) (ancestors : List Path) (depth : ℕ) (path : Path)
    (name : Bytes) (kind : NodeKind) (hs : I s) :
    descend options v room ancestors depth path name kind s
      = (steps options fs room ancestors depth path name kind).foldlM (Step.take v) s := by
  induction room generalizing ancestors depth path name kind s with
  | zero => rw [descend, steps, foldlM_one, Step.take]
  | succ room ih =>
      rw [descend, steps, hv.files hs]
      cases entryOf options fs ancestors depth path kind with
      | error e => simp only [foldlM_one, Step.take]
      | ok e =>
          dsimp only
          split
          · simp only [foldlM_one, Step.take]
          · split
            · rw [List.foldlM_cons]
              simp only [Step.take]
              cases hvisit : v.visit s (.entry e) with
              | error error => rfl
              | ok t =>
                  simp only [bind, Except.bind]
                  cases fs.list path with
                  | error error => simp only [foldlM_one, Step.take]
                  | ok listing =>
                      refine foldlM_flatMap hv (fun s item hs => ?_) _ (hv.visit hs hvisit)
                      exact ih _ _ _ _ _ hs
            · simp only [foldlM_one, Step.take]

/-- **A walk takes its steps**, if the visitor leaves the file system alone. -/
theorem run_eq (hv : v.Keeps fs I) (root : Path) (hs : I s) :
    run options v root s = (rootSteps options fs root).foldlM (Step.take v) s := by
  rw [run_eq_rootKind, rootSteps_eq_rootKind, hv.files hs]
  cases fs.rootKind root with
  | error e => rw [foldlM_one, Step.take]
  | ok kind => exact descend_eq options hv FileSystem.maxPath [] 0 root [] kind hs

end Take

/-! ### Where the steps are taken -/

section At

variable {options : WalkOptions} {fs : FileSystem}

lemma checkLoop_at {depth : ℕ} {child path : Path} {ancestors : List Path} {e : WalkError}
    (he : checkLoop fs depth child ancestors = .error e) : (WalkEvent.failure e).At depth path := by
  induction ancestors with
  | nil => simp [checkLoop] at he
  | cons ancestor outer ih =>
      rw [checkLoop] at he
      split at he
      · split at he
        · obtain rfl := Except.error.inj he
          trivial
        · exact ih he
      · obtain rfl := Except.error.inj he
        trivial
      · obtain rfl := Except.error.inj he
        trivial

variable (options fs) in
/-- What is told of a listed entry is told of its own place. -/
lemma entryOf_at (ancestors : List Path) (depth : ℕ) (path : Path) (kind : NodeKind) :
    match entryOf options fs ancestors depth path kind with
    | .ok e => (WalkEvent.entry e).At depth path
    | .error e => (WalkEvent.failure e).At depth path := by
  rw [entryOf]
  by_cases hfollow : (options.followLinks && kind == .link) = true
  · rw [if_pos hfollow, followed]
    cases fs.node true path with
    | error e => exact ⟨rfl, rfl⟩
    | ok node =>
        by_cases hdir : node.isDirectory = true
        · simp only [hdir, if_true]
          cases hloop : checkLoop fs depth path ancestors with
          | error e => exact checkLoop_at hloop
          | ok _ => exact ⟨rfl, rfl⟩
        · simp only [hdir]
          exact ⟨rfl, rfl⟩
  · rw [if_neg hfollow]
    exact ⟨rfl, rfl⟩

/-- **Where a step is taken**: what it tells is about its place, and below the root that is recorded
under the name by which it was listed. -/
structure Step.Placed (step : Step) : Prop where
  at_place : ∀ event, step.told = some event → event.At step.depth step.path
  named : 0 < step.depth → step.path.entryName = Text.lossy step.name

lemma mem_arrange {listing : List (Bytes × NodeKind)} {item : Bytes × NodeKind} :
    item ∈ arrange options listing ↔ item ∈ listing := by
  rw [arrange]
  split
  · exact List.mem_mergeSort
  · rfl

variable (options) in
/-- Entries of distinct names can be left out before a listing is arranged or afterwards. -/
lemma arrange_filter {listing : List (Bytes × NodeKind)}
    (hnodup : (listing.map (·.1)).Nodup) (keep : Bytes × NodeKind → Bool) :
    arrange options (listing.filter keep) = (arrange options listing).filter keep := by
  rw [arrange, arrange]
  split
  · let le : Bytes × NodeKind → Bytes × NodeKind → Bool := fun a b => Text.bytesLe a.1 b.1
    have htrans : ∀ a b c, le a b = true → le b c = true → le a c = true := fun a b c =>
      Text.bytesLe_trans a.1 b.1 c.1
    have htotal : ∀ a b, (le a b || le b a) = true := fun a b => Text.bytesLe_total a.1 b.1
    have hperm : ((listing.filter keep).mergeSort le).Perm ((listing.mergeSort le).filter keep) :=
      (List.mergeSort_perm _ le).trans ((List.mergeSort_perm listing le).filter keep).symm
    -- Two entries that may stand either way have the same name, so they are the same entry.
    have hantisymm : ∀ a b, a ∈ (listing.filter keep).mergeSort le →
        b ∈ (listing.mergeSort le).filter keep → le a b = true → le b a = true → a = b := by
      intro a b ha hb hab hba
      have hmem : ∀ {a}, a ∈ (listing.filter keep).mergeSort le → a ∈ listing := fun ha =>
        (List.mem_filter.mp (List.mem_mergeSort.mp ha)).1
      have hname : a.1 = b.1 := by
        simp only [le, Text.bytesLe, decide_eq_true_eq] at hab hba
        exact List.le_antisymm hab hba
      exact List.inj_on_of_nodup_map hnodup (hmem ha) (hmem (hperm.mem_iff.mpr hb)) hname
    exact hperm.eq_of_pairwise hantisymm (List.pairwise_mergeSort htrans htotal _)
      ((List.pairwise_mergeSort htrans htotal listing).filter _)
  · rfl

/-- Listed names are proper. -/
lemma isName_of_list (hfs : fs.WellFormed) {path : Path} {listing : List (Bytes × NodeKind)}
    (hlist : fs.list path = .ok listing) : ∀ item ∈ listing, Path.IsName item.1 := by
  obtain ⟨es, hnode, rfl⟩ := FileSystem.list_ok hlist
  intro item hitem
  obtain ⟨e, he, rfl⟩ := List.mem_map.mp hitem
  exact (FileSystem.wellFormed_of_node hfs hnode).isName he

/-- The steps from a listed entry on are taken at their places. -/
lemma placed_of_mem_steps (hfs : fs.WellFormed) {room : ℕ} {ancestors : List Path} {depth : ℕ}
    {path : Path} {name : Bytes} {kind : NodeKind}
    (hname : 0 < depth → path.entryName = Text.lossy name) :
    ∀ step ∈ steps options fs room ancestors depth path name kind, step.Placed := by
  induction room generalizing ancestors depth path name kind with
  | zero =>
      intro step hstep
      obtain rfl := List.mem_singleton.mp hstep
      exact ⟨by simp [WalkEvent.At], hname⟩
  | succ room ih =>
      have hentry := entryOf_at options fs ancestors depth path kind
      intro step hstep
      rw [steps] at hstep
      cases he : entryOf options fs ancestors depth path kind with
      | error e =>
          simp only [he] at hentry hstep
          obtain rfl := List.mem_singleton.mp hstep
          exact ⟨by simpa using hentry, hname⟩
      | ok e =>
          simp only [he] at hentry hstep
          split at hstep
          · obtain rfl := List.mem_singleton.mp hstep
            exact ⟨nofun, hname⟩
          split at hstep
          · rcases List.mem_cons.mp hstep with rfl | hstep
            · exact ⟨by simpa using hentry, hname⟩
            · cases hlist : fs.list path with
              | error e =>
                  simp only [hlist] at hstep
                  obtain rfl := List.mem_singleton.mp hstep
                  exact ⟨by simp [WalkEvent.At], hname⟩
              | ok listing =>
                  simp only [hlist] at hstep
                  obtain ⟨item, hitem, hstep⟩ := List.mem_flatMap.mp hstep
                  have hproper := isName_of_list hfs hlist item (mem_arrange.mp hitem)
                  exact ih (fun _ => path.entryName_join hproper) step hstep
          · obtain rfl := List.mem_singleton.mp hstep
            exact ⟨by simpa using hentry, hname⟩

/-- **All steps of a walk are taken at their places.** -/
theorem placed_of_mem_rootSteps (hfs : fs.WellFormed) {root : Path} :
    ∀ step ∈ rootSteps options fs root, step.Placed := by
  rw [rootSteps_eq_rootKind]
  cases fs.rootKind root with
  | error e =>
      intro step hstep
      obtain rfl := List.mem_singleton.mp hstep
      exact ⟨by simp [WalkEvent.At], (absurd · (lt_irrefl 0))⟩
  | ok kind => exact placed_of_mem_steps hfs (absurd · (lt_irrefl 0))

end At

end Walk

end TreeDigest

import TreeDigest.Proofs.FileSystem.Growing
import TreeDigest.Proofs.Scan.Ignored

/-!
Scans of a file system that has grown.

A tree that was scanned is scanned again after the file system has grown. The second scan gives the
same snapshot as long as the growth spares what the first one looked at: files hold what they held,
what was missing still is, and what was added to a directory that was listed has a name that is left
out. The second walk may come to more entries than the first one, but it leaves these out, and all
that leaving out does is to be counted.

* `Walk.Spared` says so of the steps of a walk, and `ScanOptions.SparedAt` of a scan.
* `told_steps_of_spared` is the induction on the walk: both walks tell of the same. What they tell
  of is told at the same places, and nothing depends on how much was left out
  (`foldlM_unignored`).
* `snapshot_of_spared` puts this together for whole scans.
* `ScanOptions.sparedAt_of_unchanged`: a tree in which nothing has changed is spared, if no links
  lead out of it.
-/

namespace TreeDigest

namespace Walk

/-- What a scan looks at on some steps is spared by what has happened to the file system. -/
structure Spared (options : WalkOptions) (fs fs' : FileSystem) (ss : List Step) : Prop where
  /-- Where a file was read or something was missing, there is still the same. -/
  looked : ∀ step ∈ ss, ∀ event, step.told = some event → event.Looks →
    ∀ follow, fs'.node follow step.path = fs.node follow step.path
  /-- Where a directory was listed, what else is listed by now is left out. -/
  listed : ∀ step ∈ ss, ∀ e, step.told = some (.entry e) → e.kind = .directory →
    ∀ items items', fs.list step.path = .ok items → fs'.list step.path = .ok items' →
      ∀ item ∈ items', item ∈ items ∨ options.leavesOut item.1 = true

/-- The steps at which something is told. -/
def toldSteps (ss : List Step) : List Step := ss.filter (·.told.isSome)

variable {options : WalkOptions} {fs fs' : FileSystem}

lemma Spared.mono {ss ss' : List Step} (h : Spared options fs fs' ss) (hss : ss' ⊆ ss) :
    Spared options fs fs' ss' :=
  ⟨fun step hstep => h.looked step (hss hstep), fun step hstep => h.listed step (hss hstep)⟩

/-! ### The same is told -/

/-- A directory is found to be one of those around it as before. -/
lemma checkLoop_of_grows (h : fs.Grows fs') {depth : ℕ} {child : Path} {ancestors : List Path}
    (hchild : ∃ q, fs.canonicalize child = .ok q)
    (hancestors : ∀ a ∈ ancestors, ∃ q, fs.canonicalize a = .ok q) :
    checkLoop fs' depth child ancestors = checkLoop fs depth child ancestors := by
  induction ancestors with
  | nil => rfl
  | cons a ancestors ih =>
      rw [List.forall_mem_cons] at hancestors
      obtain ⟨q, hq⟩ := hchild
      obtain ⟨r, hr⟩ := hancestors.1
      rw [checkLoop, checkLoop, hq, hr, FileSystem.canonicalize_of_grows h hq,
        FileSystem.canonicalize_of_grows h hr, ih hancestors.2]

/-- A listed entry is told as before, if a link that led nowhere still does. -/
lemma entryOf_of_grows (h : fs.Grows fs') {ancestors : List Path} {depth : ℕ} {path : Path}
    {kind : NodeKind} (hancestors : ∀ a ∈ ancestors, ∃ q, fs.canonicalize a = .ok q)
    (hmissing : ∀ e, entryOf options fs ancestors depth path kind
      = .error (.io depth (some path) e) → fs'.node true path = fs.node true path) :
    entryOf options fs' ancestors depth path kind = entryOf options fs ancestors depth path kind := by
  rw [entryOf] at hmissing ⊢
  rw [entryOf]
  by_cases hfollow : (options.followLinks && kind == .link) = true
  · simp only [if_pos hfollow] at hmissing ⊢
    rw [followed] at hmissing ⊢
    rw [followed]
    cases hnode : fs.node true path with
    | error e =>
        rw [hnode] at hmissing
        rw [hmissing e rfl]
    | ok n =>
        obtain ⟨n', hnode', hn⟩ := FileSystem.node_of_grows h hnode
        have hdir : n'.isDirectory = n.isDirectory := by rw [Node.isDirectory, Node.isDirectory,
          hn.kind_eq]
        simp only [hnode', hdir, ← hn.kind_eq,
          checkLoop_of_grows h (FileSystem.canonicalize_ok_iff.mpr ⟨n, hnode⟩) hancestors]
  · rw [if_neg hfollow, if_neg hfollow]

/-- An entry that is no link and is to be left out is not told of. -/
lemma toldSteps_of_leavesOut {room : ℕ} {ancestors : List Path} {depth : ℕ} {path : Path}
    {name : Bytes} {kind : NodeKind} (hroom : 0 < room) (hdepth : 0 < depth)
    (hout : options.leavesOut name = true) (hkind : kind ≠ .link) :
    toldSteps (steps options fs room ancestors depth path name kind) = [] := by
  obtain ⟨room, rfl⟩ : ∃ n, room = n + 1 := ⟨room - 1, by omega⟩
  have hentry : entryOf options fs ancestors depth path kind = .ok ⟨path, depth, kind, false⟩ := by
    have hlink : (kind == .link) = false := by simpa using hkind
    rw [entryOf, hlink, Bool.and_false]
    rfl
  rw [steps, hentry]
  simp [hdepth, hout, toldSteps]

/-- Items that give nothing can be left out beforehand. -/
lemma flatMap_filter_of_nil {α β : Type} {f : α → List β} {keep : α → Bool} {as : List α}
    (has : ∀ a ∈ as, keep a = false → f a = []) : (as.filter keep).flatMap f = as.flatMap f := by
  induction as with
  | nil => rfl
  | cons a as ih =>
      rw [List.forall_mem_cons] at has
      rw [List.flatMap_cons, ← ih has.2]
      cases hkeep : keep a with
      | true => rw [List.filter_cons_of_pos hkeep, List.flatMap_cons]
      | false => rw [List.filter_cons_of_neg (by simp [hkeep]), has.1 hkeep, List.nil_append]

/-- What is listed in addition was not listed before. -/
lemma notMem_of_nodup_append {items more : List (Bytes × NodeKind)} {item : Bytes × NodeKind}
    (hnodup : ((items ++ more).map (·.1)).Nodup) (hmem : item ∈ more) : item ∉ items := by
  rw [List.map_append, List.nodup_append] at hnodup
  exact fun hitem =>
    hnodup.2.2 _ (List.mem_map_of_mem hitem) _ (List.mem_map_of_mem hmem) rfl

/-- What is told below a directory that lists more than before, if all else is left out. -/
lemma toldSteps_flatMap {items more : List (Bytes × NodeKind)}
    {f g : Bytes × NodeKind → List Step} (hnodup : ((items ++ more).map (·.1)).Nodup)
    (hitems : ∀ item ∈ items, toldSteps (g item) = toldSteps (f item))
    (hmore : ∀ item ∈ more, toldSteps (g item) = []) :
    toldSteps ((arrange options (items ++ more)).flatMap g)
      = toldSteps ((arrange options items).flatMap f) := by
  have hkeep : (items ++ more).filter (decide <| · ∈ items) = items := by
    have hapart : ∀ item ∈ more, item ∉ items := fun _ => notMem_of_nodup_append hnodup
    rw [List.filter_append, List.filter_eq_self.mpr (by simp),
      List.filter_eq_nil_iff.mpr (by simpa using hapart), List.append_nil]
  have harranged := arrange_filter options hnodup (decide <| · ∈ items)
  rw [hkeep] at harranged
  simp only [toldSteps, List.filter_flatMap]
  calc (arrange options (items ++ more)).flatMap (fun item => toldSteps (g item))
      = ((arrange options (items ++ more)).filter (decide <| · ∈ items)).flatMap
          (fun item => toldSteps (g item)) := by
        refine (flatMap_filter_of_nil fun item hitem hout => hmore item ?_).symm
        exact (List.mem_append.mp (mem_arrange.mp hitem)).resolve_left (of_decide_eq_false hout)
    _ = (arrange options items).flatMap (fun item => toldSteps (f item)) := by
        rw [← harranged]
        exact List.flatMap_congr fun item hitem => hitems item (mem_arrange.mp hitem)

/-- **The same is told from a listed entry on**, if the growth spares what is looked at there. -/
lemma told_steps_of_spared (hfs : fs.WellFormed) (h : fs.Grows fs') {room : ℕ}
    {ancestors : List Path} {depth : ℕ} {path : Path} {name : Bytes} {kind : NodeKind}
    (hancestors : ∀ a ∈ ancestors, ∃ q, fs.canonicalize a = .ok q) (hroom : HasRoom room path)
    (hspared : Spared options fs fs' (steps options fs room ancestors depth path name kind)) :
    toldSteps (steps options fs' room ancestors depth path name kind)
      = toldSteps (steps options fs room ancestors depth path name kind) := by
  induction room generalizing ancestors depth path name kind with
  | zero => rfl
  | succ room ih =>
      have hentry : entryOf options fs' ancestors depth path kind
          = entryOf options fs ancestors depth path kind := by
        refine entryOf_of_grows h hancestors fun e he => ?_
        exact hspared.looked ⟨depth, path, name, some (.failure (.io depth (some path) e))⟩
          (by simp [steps, he]) _ rfl trivial true
      rw [steps] at hspared ⊢
      rw [steps, hentry]
      cases he : entryOf options fs ancestors depth path kind with
      | error e => rfl
      | ok e =>
          rw [he] at hspared
          dsimp only at hspared ⊢
          by_cases hout : (decide (0 < depth) && options.leavesOut name) = true
          · rw [if_pos hout, if_pos hout]
          rw [if_neg hout] at hspared ⊢
          rw [if_neg hout]
          by_cases hkind : e.kind = .directory
          swap
          · rw [if_neg hkind, if_neg hkind]
          rw [if_pos hkind] at hspared ⊢
          rw [if_pos hkind]
          cases hlist : fs.list path with
          | error error =>
              -- The directory could not be listed, and it still cannot.
              rw [hlist] at hspared
              have hnode := hspared.looked
                ⟨depth, path, name, some (.failure (.io depth (some path) error))⟩ (by simp) _ rfl
                trivial true
              have hlist' : fs'.list path = .error error := by
                rw [FileSystem.list] at hlist ⊢
                rw [hnode, hlist]
              rw [hlist']
          | ok items =>
              obtain ⟨more, hlist', hlinks, hnodup⟩ := FileSystem.list_of_grows h hlist
              rw [hlist] at hspared
              have hmore := hspared.listed _ List.mem_cons_self e rfl hkind items _ hlist hlist'
              obtain ⟨es, hnode, -⟩ := FileSystem.list_ok hlist
              rw [hlist']
              refine congrArg (_ :: ·) (toldSteps_flatMap hnodup (fun item hitem => ?_)
                fun item hitem => ?_)
              · have hproper := isName_of_list hfs hlist item hitem
                exact ih (List.forall_mem_cons.mpr
                    ⟨FileSystem.canonicalize_ok_iff.mpr ⟨_, hnode⟩, hancestors⟩)
                  (hroom.join hproper) (hspared.mono fun step hstep =>
                    List.mem_cons_of_mem _ (List.mem_flatMap.mpr
                      ⟨item, mem_arrange.mpr hitem, hstep⟩))
              · have hpos : 0 < room := Nat.succ_lt_succ_iff.mp (hroom.one_lt_of_list hlist)
                exact toldSteps_of_leavesOut hpos (Nat.succ_pos depth)
                  ((hmore item (List.mem_append_right _ hitem)).resolve_left
                    (notMem_of_nodup_append hnodup hitem))
                  (hlinks item hitem)

/-- Where a file system has grown, a walk still goes on from the kind of its root. -/
lemma rootKind_of_grows (h : fs.Grows fs') {root : Path} {kind : NodeKind}
    (hroot : fs.rootKind root = .ok kind) : fs'.rootKind root = .ok kind := by
  obtain ⟨⟨n, hnode, rfl⟩, m, htrue⟩ := FileSystem.rootKind_ok_iff.mp hroot
  obtain ⟨n', hnode', hn⟩ := FileSystem.node_of_grows h hnode
  obtain ⟨m', htrue', -⟩ := FileSystem.node_of_grows h htrue
  exact FileSystem.rootKind_ok_iff.mpr ⟨⟨n', hnode', hn.kind_eq.symm⟩, m', htrue'⟩

/-- **The same is told from the root on.** -/
theorem told_rootSteps_of_spared (hfs : fs.WellFormed) (h : fs.Grows fs') {root : Path}
    (hroot : root.bytes ≠ []) (hspared : Spared options fs fs' (rootSteps options fs root)) :
    toldSteps (rootSteps options fs' root) = toldSteps (rootSteps options fs root) := by
  rw [rootSteps_eq_rootKind] at hspared
  rw [rootSteps_eq_rootKind, rootSteps_eq_rootKind]
  cases hkind : fs.rootKind root with
  | error e =>
      -- A root that is not there is told of, and looked at again.
      rw [hkind] at hspared
      rw [FileSystem.rootKind_congr (hspared.looked _ List.mem_cons_self _ rfl trivial), hkind]
  | ok kind =>
      rw [hkind] at hspared
      rw [rootKind_of_grows h hkind]
      exact told_steps_of_spared hfs h (by simp) (hasRoom_root hroot) hspared

/-! ### Trees in which nothing has changed -/

lemma spared_nil : Spared options fs fs' [] := ⟨by simp, by simp⟩

lemma spared_cons {step : Step} {ss : List Step}
    (hlooked : ∀ event, step.told = some event → event.Looks →
      ∀ follow, fs'.node follow step.path = fs.node follow step.path)
    (hlisted : ∀ e, step.told = some (.entry e) → e.kind = .directory →
      ∀ items items', fs.list step.path = .ok items → fs'.list step.path = .ok items' →
        ∀ item ∈ items', item ∈ items ∨ options.leavesOut item.1 = true)
    (hss : Spared options fs fs' ss) : Spared options fs fs' (step :: ss) :=
  ⟨List.forall_mem_cons.mpr ⟨hlooked, hss.looked⟩, List.forall_mem_cons.mpr ⟨hlisted, hss.listed⟩⟩

lemma spared_flatMap {α : Type} {items : List α} {f : α → List Step}
    (hitems : ∀ item ∈ items, Spared options fs fs' (f item)) :
    Spared options fs fs' (items.flatMap f) := by
  refine ⟨fun step hstep => ?_, fun step hstep => ?_⟩ <;>
    obtain ⟨item, hitem, hstep⟩ := List.mem_flatMap.mp hstep
  · exact (hitems item hitem).looked step hstep
  · exact (hitems item hitem).listed step hstep

/-- What stands at a path, with all that is below it, is spared if it is the same, as long as no
links are followed. -/
lemma spared_of_stands (hfs : fs.WellFormed) (h : fs.Grows fs')
    (hfollow : options.followLinks = false) {room : ℕ} {ancestors : List Path} {depth : ℕ}
    {path : Path} {name : Bytes} {n : Node} (hroom : HasRoom room path)
    (hn : fs.Stands path n) (hn' : fs'.Stands path n) :
    Spared options fs fs' (steps options fs room ancestors depth path name n.kind) := by
  induction room generalizing ancestors depth path name n with
  | zero =>
      have hlong : ¬ FileSystem.Acceptable path := by
        intro hacc
        exact absurd (hroom.one_lt hacc.short) (Nat.not_lt_zero 1)
      obtain ⟨e, he⟩ := FileSystem.resolve_refused hlong
      refine spared_cons (fun event hevent hlooks follow => ?_) (by simp) spared_nil
      rw [FileSystem.node_eq, FileSystem.node_eq, he, he]
      rfl
  | succ room ih =>
      have hentry : entryOf options fs ancestors depth path n.kind
          = .ok ⟨path, depth, n.kind, n.kind == .link⟩ := by
        rw [entryOf, hfollow]
        rfl
      have hsame : n.kind ≠ .link → ∀ follow, fs'.node follow path = fs.node follow path :=
        fun hkind follow => hn.same_node h hn' fun _ => hkind
      rw [steps, hentry]
      dsimp only
      split
      · exact spared_cons (by simp) (by simp) spared_nil
      split
      swap
      · next hkind =>
          refine spared_cons ?_ ?_ spared_nil
          · rintro _ ⟨⟩ hfile
            exact hsame (by rw [show n.kind = .file from hfile]; simp)
          · rintro _ ⟨⟩ hdir
            exact absurd hdir hkind
      · next hkind =>
          have hsame := hsame (by simp [hkind])
          have hlist : fs'.list path = fs.list path := by
            rw [FileSystem.list, FileSystem.list, hsame true]
          refine spared_cons (fun _ _ _ => hsame) ?_ ?_
          · rintro _ - - items items' hitems hitems' item hitem
            rw [hlist, hitems] at hitems'
            exact .inl (Except.ok.inj hitems' ▸ hitem)
          cases hitems : fs.list path with
          | error e => exact spared_cons (fun _ _ _ => hsame) (by simp) spared_nil
          | ok items =>
              refine spared_flatMap fun item hitem => ?_
              obtain ⟨es, hnode, rfl⟩ := FileSystem.list_ok hitems
              obtain ⟨⟨name, m⟩, hmem, rfl⟩ := List.mem_map.mp (mem_arrange.mp hitem)
              have hes := FileSystem.wellFormed_of_node hfs hnode
              have hproper := hes.isName hmem
              exact ih (hroom.join hproper) (FileSystem.stands_entry hes hnode hmem)
                (FileSystem.stands_entry hes ((hsame true).trans hnode) hmem)

/-! ### The root -/

section Root

variable {p : Path} {root : RootLocation}

/-- Where a root is not there, that is all that is told. -/
lemma rootSteps_of_missing {a : Path} {e : IoError} (ha : fs.node true a = .error e) :
    rootSteps options fs a = [⟨0, a, [], some (.failure (.io 0 (some a) e))⟩] := by
  rw [rootSteps_eq_rootKind, FileSystem.rootKind_of_missing ha]

/-- **The root is found in the same place.** -/
lemma rootLocation_of_spared (h : fs.Grows fs') (hp : RootLocation.resolve fs p = .ok root)
    (hspared : Spared options fs fs' (rootSteps options fs root.walked)) :
    RootLocation.resolve fs' p = .ok root := by
  obtain ⟨a, ha, -⟩ := Survey.walked_of_resolve hp
  have ha' : RootLocation.absolute fs' p = .ok a :=
    RootLocation.absolute_of_currentPath (fun _ => FileSystem.currentPath_of_grows h) ha
  have hsame : (fs'.canonicalize a).toOption = (fs.canonicalize a).toOption
      ∧ fs'.isLink a = fs.isLink a := by
    cases hnode : fs.node true a with
    | ok n =>
        obtain ⟨q, hq⟩ := FileSystem.canonicalize_ok_iff.mpr ⟨n, hnode⟩
        obtain ⟨m, hm⟩ := FileSystem.exists_node_false hnode
        exact ⟨by rw [FileSystem.canonicalize_of_grows h hq, hq], FileSystem.isLink_of_grows h hm⟩
    | error e =>
        have hnone : ∀ {gs : FileSystem} {e}, gs.node true a = .error e →
            (gs.canonicalize a).toOption = none := by
          intro gs e he
          cases hq : gs.canonicalize a with
          | error _ => rfl
          | ok q =>
              obtain ⟨n, hn⟩ := FileSystem.canonicalize_ok_iff.mp ⟨q, hq⟩
              simp [he] at hn
        rw [Survey.walked_of_missing hp ha hnode, rootSteps_of_missing hnode] at hspared
        have hstill := hspared.looked _ List.mem_cons_self _ rfl trivial
        exact ⟨by rw [hnone hnode, hnone ((hstill true).trans hnode)],
          by rw [FileSystem.isLink, FileSystem.isLink, hstill false]⟩
  have hcanonical : (fs'.canonicalize a).toOption.getD a = (fs.canonicalize a).toOption.getD a := by
    rw [hsame.1]
  simp only [RootLocation.resolve, ha, ha', bind, Except.bind, hcanonical, hsame.2] at hp ⊢
  exact hp

end Root

end Walk

/-! ### What is left out is only counted -/

namespace Scan

/-- A scan that has counted nothing as left out. -/
def unignored (s : Scan) : Scan := { s with counts := { s.counts with ignored := 0 } }

/-- A way to go on that does not depend on what was counted as left out. -/
def Blind (f : Scan → Except ScanFailure Scan) : Prop :=
  ∀ s, f s.unignored = (f s).map unignored

lemma Blind.bind {f g : Scan → Except ScanFailure Scan} (hf : Blind f) (hg : Blind g) :
    Blind fun s => (f s).bind g := by
  intro s
  dsimp only
  rw [hf s]
  cases f s with
  | error e => rfl
  | ok t => exact hg t

lemma blind_close (n : ℕ) : Blind (close n) := by
  induction n with
  | zero => exact fun s => rfl
  | succ n ih =>
      intro s
      have hnext : ∀ (b : Builder) (c : ScanCounts), close n
          { s with builder := b, messages := s.messages ++ s.builder.exitMessages,
                   counts := { c with ignored := 0 } }
          = (close n { s with builder := b, messages := s.messages ++ s.builder.exitMessages,
                              counts := c }).map unignored := fun b c =>
        ih { s with builder := b, messages := s.messages ++ s.builder.exitMessages, counts := c }
      simp only [close, unignored]
      split
      · rfl
      · exact hnext _ { s.counts with directories := s.counts.directories + 1 }
      · exact hnext _ { s.counts with excludedDirectories := s.counts.excludedDirectories + 1 }

lemma blind_closeTo (d : ℕ) : Blind (·.closeTo d) := fun s => blind_close _ s

lemma blind_collect (d : ℕ) (l : Leaf) : Blind (·.collect d l) := by
  intro s
  simp only [collect, unignored]
  split <;> rfl

lemma blind_collectMissing (d : ℕ) (location : Location) : Blind (·.collectMissing d location) :=
  fun s => blind_collect d (.missing s.hash location) { s with
    messages := s.messages ++ [HashFunction.signatureParts "MISSING_FILE"]
    counts := { s.counts with missing := s.counts.missing + 1 } }

lemma blind_visitFile (e : WalkEntry) : Blind (·.visitFile e) := by
  intro s
  have hread : s.unignored.readFile e = ((s.readFile e).1, (s.readFile e).2.unignored) := by
    simp only [readFile, unignored]
    split
    · rfl
    · split <;> rfl
  simp only [visitFile, hread]
  cases hs : s.readFile e with
  | mk r t =>
      rcases r with failure | ⟨facts, digest⟩
      · dsimp only
        split
        · exact blind_collectMissing _ _ t
        · rfl
      · exact blind_collect _ _ { t with counts := { t.counts with files := t.counts.files + 1 } }

lemma blind_visitEntry (e : WalkEntry) : Blind (·.visitEntry e) := by
  refine (blind_closeTo e.depth).bind fun s => ?_
  dsimp only
  cases e.kind with
  | file => exact blind_visitFile e s
  | directory | link | special => rfl

lemma blind_abandonAt (d : ℕ) (path : String) : Blind (·.abandonAt d path) := by
  intro s
  have hbuilder : s.unignored.builder = s.builder := rfl
  simp only [abandonAt, hbuilder]
  by_cases hopen : s.builder.depth = d + 1 ∧ s.builder.currentPath? = some path
  · rw [if_pos hopen, if_pos hopen]
    cases s.builder.abandon <;> rfl
  · rw [if_neg hopen, if_neg hopen]
    rfl

lemma blind_visitMissing (d : ℕ) (path : Path) : Blind (·.visitMissing d path) := by
  intro s
  exact ((blind_closeTo (d + 1)).bind ((blind_abandonAt d (s.root.pathText path)).bind
    ((blind_closeTo d).bind fun t => blind_collectMissing d _ t))) s

lemma blind_visit (event : WalkEvent) : Blind (·.visit event) := by
  cases event with
  | entry e => exact blind_visitEntry e
  | failure e =>
      intro s
      rcases e with ⟨d, _ | path, error⟩ | _
      · rfl
      · simp only [visit, visitFailure]
        split
        · exact blind_visitMissing d path s
        · rfl
      · rfl

/-- **What is left out is only counted**: otherwise a row of steps comes to what is told. -/
lemma foldlM_unignored (ss : List Walk.Step) (s : Scan) :
    (ss.foldlM (Walk.Step.take visitor) s).map unignored
      = (Walk.toldSteps ss).foldlM (Walk.Step.take visitor) s.unignored := by
  induction ss generalizing s with
  | nil => rfl
  | cons step ss ih =>
      rw [List.foldlM_cons, Walk.toldSteps, List.filter_cons, ← Walk.toldSteps]
      cases htold : step.told with
      | none =>
          have htake : step.take visitor s = .ok s.omitted := by
            rw [Walk.Step.take, htold]
            rfl
          rw [htake]
          exact ih s.omitted
      | some event =>
          have htake : ∀ t, step.take visitor t = t.visit event := by
            intro t
            rw [Walk.Step.take, htold]
            rfl
          simp only [Option.isSome_some, if_true, List.foldlM_cons, htake, blind_visit event s]
          cases s.visit event with
          | error e => rfl
          | ok t => exact ih t

/-- What a scan hands out as a snapshot after some steps, or the error that it ends with. -/
def handedOut (x : Except ScanFailure Scan) : Except StorageError (Option Snapshot) :=
  (((x.bind (·.closeTo 0)).bind finish).map (·.outcome.snapshot)).mapError (·.error)

lemma handedOut_unignored (x : Except ScanFailure Scan) :
    handedOut (x.map unignored) = handedOut x := by
  cases x with
  | error e => rfl
  | ok s =>
      simp only [handedOut, Except.map, Except.bind, blind_closeTo 0 s]
      cases s.closeTo 0 with
      | error e => rfl
      | ok t =>
          simp only [finish, unignored]
          cases t.builder.result <;> rfl

/-- Scans that did the same hand out the same. -/
lemma handedOut_of_agree {v w : Survey} {P : String → Prop} {x y : Except ScanFailure Scan}
    (h : Survey.Agree v w (·.NamedBelow P) x y) : handedOut x = handedOut y := by
  have hclosed := h.bind (f := (·.closeTo 0)) (g := (·.closeTo 0)) fun b c m hb =>
    Survey.Twin.agree_closeTo 0 hb
  rw [handedOut, handedOut]
  generalize x.bind (·.closeTo 0) = x' at hclosed
  generalize y.bind (·.closeTo 0) = y' at hclosed
  cases hclosed with
  | error e => rfl
  | @ok b c m hb =>
      simp only [Except.bind, finish, Survey.scan]
      cases b.result <;> rfl

end Scan

/-! ### Whole scans -/

/-- What a scan of a root looks at is spared by what has happened to the file system. -/
def ScanOptions.SparedAt (o : ScanOptions) (fs fs' : FileSystem) (p : Path) : Prop :=
  ∀ root, RootLocation.resolve fs p = .ok root →
    Walk.Spared o.walk fs fs' (Walk.rootSteps o.walk fs root.walked)

/-- **A tree in which nothing has changed is spared**, as long as no links are followed. -/
theorem ScanOptions.sparedAt_of_unchanged {o : ScanOptions} {fs fs' : FileSystem} {p : Path}
    (hfs : fs.WellFormed) (h : fs.Grows fs') (hfollow : o.followLinks = false)
    (hsame : ∀ root, RootLocation.resolve fs p = .ok root →
      ∀ follow, fs'.node follow root.walked = fs.node follow root.walked) :
    o.SparedAt fs fs' p := by
  intro root hroot
  have hsame := hsame root hroot
  rw [Walk.rootSteps_eq_rootKind]
  cases hkind : fs.rootKind root.walked with
  | error e => exact Walk.spared_cons (fun _ _ _ => hsame) (by simp) Walk.spared_nil
  | ok kind =>
      obtain ⟨⟨n, hn, rfl⟩, -⟩ := FileSystem.rootKind_ok_iff.mp hkind
      exact Walk.spared_of_stands hfs h hfollow
        (Walk.hasRoom_root (RootLocation.walked_ne_nil hroot)) (FileSystem.stands_of_node hn)
        (FileSystem.stands_of_node ((hsame false).trans hn))

variable {fs fs' : FileSystem} {p : Path} {root : RootLocation}

/-- Two surveys of one root see the same where the growth spares what is looked at. -/
lemma Walk.Spared.sameAt {o : ScanOptions} {hash : HashFunction} {ss : List Step}
    (hspared : Spared o.walk fs fs' ss) {step : Step} (hstep : step ∈ ss) {event : WalkEvent}
    (htold : step.told = some event) (hlooks : event.Looks) :
    (Survey.ofContents o hash fs root).SameAt (.ofContents o hash fs' root) step.path := by
  have hnode := hspared.looked step hstep event htold hlooks
  have hread : fs'.read step.path = fs.read step.path := by
    rw [FileSystem.read, FileSystem.read, hnode true]
  refine ⟨fun follow => ?_, ?_, ?_⟩
  · show InStep _ (fs.node follow step.path) (fs'.node follow step.path)
    rw [hnode follow]
    exact InStep.of_refl (fun _ => ⟨rfl, rfl⟩) _
  · show (LeafHasher.content hash _ fs).result = (LeafHasher.content hash _ fs').result
    rw [LeafHasher.content, LeafHasher.content, hread]
    split <;> rfl
  · show (LeafHasher.content hash _ fs).messages = (LeafHasher.content hash _ fs').messages
    rw [LeafHasher.content, LeafHasher.content, hread]
    split <;> rfl

/-- **A scan gives the same snapshot, or the same error, after the file system has grown**, if the
growth spares what the scan looks at. -/
theorem snapshot_of_spared (o : ScanOptions) (hfs : fs.WellFormed) (h : fs.Grows fs')
    (hp : RootLocation.resolve fs p = .ok root) (hspared : o.SparedAt fs fs' p) :
    (scan o fs' p).map (·.snapshot) = (scan o fs p).map (·.snapshot) := by
  let v := Survey.ofContents o .blake3 fs root
  let w := Survey.ofContents o .blake3 fs' root
  have hspared := hspared root hp
  have hp' := Walk.rootLocation_of_spared h hp hspared
  have hroot := RootLocation.walked_ne_nil hp
  have htold : Walk.toldSteps w.steps = Walk.toldSteps v.steps :=
    Walk.told_rootSteps_of_spared hfs h hroot hspared
  -- Both scans are told of the same, and do the same then.
  have hagree : Survey.Agree v w (·.NamedBelow fun _ => True)
      ((Walk.toldSteps v.steps).foldlM (Walk.Step.take Scan.visitor) v.start)
      ((Walk.toldSteps v.steps).foldlM (Walk.Step.take Scan.visitor) w.start) := by
    have htwin : v.Twin w := ⟨rfl, rfl, rfl⟩
    refine htwin.agree_steps (b := .new .blake3 o.ordering) (c := .zero) (fun step hstep => ?_)
      (fun step hstep event he => ?_) (.new _ _)
    · exact Walk.placed_of_mem_rootSteps hfs step (List.mem_of_mem_filter hstep)
    · exact ⟨fun hlooks => hspared.sameAt (List.mem_of_mem_filter hstep) he hlooks,
        fun _ => trivial⟩
  have hscan : ∀ u : Survey, RootLocation.resolve u.files p = .ok u.root →
      ((scanWith u.options u.hash u.hasher u.files p).map (·.outcome.snapshot)).mapError (·.error)
        = Scan.handedOut
          ((Walk.toldSteps u.steps).foldlM (Walk.Step.take Scan.visitor) u.start) := by
    intro u hu
    rw [Survey.Sight.scanWith_eq u hu, show u.start = u.start.unignored from rfl,
      ← Scan.foldlM_unignored, Scan.handedOut_unignored]
    rfl
  have hmap : ∀ fs : FileSystem, (scan o fs p).map (·.snapshot)
      = ((scanWith o .blake3 (.content .blake3) fs p).map (·.outcome.snapshot)).mapError
          (·.error) := by
    intro fs
    rw [Survey.scan_eq]
    cases scanWith o .blake3 (.content .blake3) fs p <;> rfl
  calc (scan o fs' p).map (·.snapshot)
      = Scan.handedOut ((Walk.toldSteps w.steps).foldlM (Walk.Step.take Scan.visitor) w.start) :=
        (hmap fs').trans (hscan w hp')
    _ = Scan.handedOut ((Walk.toldSteps v.steps).foldlM (Walk.Step.take Scan.visitor) v.start) := by
        rw [htold, Scan.handedOut_of_agree hagree]
    _ = (scan o fs p).map (·.snapshot) := ((hmap fs).trans (hscan v hp)).symm

end TreeDigest

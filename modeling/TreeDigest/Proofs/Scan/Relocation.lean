import TreeDigest.Proofs.Builder.Relocation
import TreeDigest.Proofs.Path.Recorded
import TreeDigest.Proofs.Scan.Sight

/-!
Two scans that walk the same path for different roots.

The root that a scan was asked for decides under which texts it records what it meets, and nothing
else. If two scans walk the same path, then they are told the same and do the same; only a directory
that is given up is found by its recorded text, and which siblings are recorded alike does not depend
on the root.

* `RootLocation.Told` says what two roots record for one place.
* `Survey.Abreast` relates what two scans give, and `Rerooted.visit` what they do at one event.
* `Rerooted.steps`: they go abreast through all steps below an entry.
* `Rerooted.scans_abreast`: if they finish, then their snapshots match node by node.
-/

namespace TreeDigest

/-- A name is listed in the directory that some names lead to from a path. -/
def FileSystem.Lists (fs : FileSystem) (p : Path) (names : List Bytes) (name : Bytes) : Prop :=
  ∃ listing, fs.list (p.joinAll names) = .ok listing ∧ name ∈ listing.map (·.1)

lemma FileSystem.Lists.isName {fs : FileSystem} (hfs : fs.WellFormed) {p : Path}
    {names : List Bytes} {name : Bytes} (h : fs.Lists p names name) : Path.IsName name := by
  obtain ⟨listing, hlist, hname⟩ := h
  obtain ⟨item, hitem, rfl⟩ := List.mem_map.mp hname
  exact Walk.isName_of_list hfs hlist item hitem

namespace RootLocation

/-- **What two roots record for one place.** The root has the name and the access of each. Below it
the name is the one that is listed, the access is the same for both, and the path is that of the
names joined to the path that is recorded for the root. -/
inductive Told (fs : FileSystem) (r r' : RootLocation) :
    List Bytes → Location → Location → Prop where
  | root : Told fs r r' [] ⟨r.recorded.recorded, r.name, r.access⟩
      ⟨r'.recorded.recorded, r'.name, r'.access⟩
  | entry {names : List Bytes} {name : Bytes} {access : Access} :
      fs.Lists r.walked names name → Told fs r r' (names ++ [name])
        ⟨(r.recorded.joinAll (names ++ [name])).recorded, Text.lossy name, access⟩
        ⟨(r'.recorded.joinAll (names ++ [name])).recorded, Text.lossy name, access⟩

namespace Told

variable {fs : FileSystem} {r r' : RootLocation} {names : List Bytes} {l l' : Location}

lemma name_eq {name : Bytes} (h : Told fs r r' (names ++ [name]) l l') : l.name = l'.name := by
  generalize heq : names ++ [name] = all at h
  cases h with
  | root => simp at heq
  | entry => rfl

lemma paths (h : Told fs r r' names l l') : l.path = (r.recorded.joinAll names).recorded
    ∧ l'.path = (r'.recorded.joinAll names).recorded := by
  cases h with
  | root => exact ⟨rfl, rfl⟩
  | entry => exact ⟨rfl, rfl⟩

lemma lists {name : Bytes} (h : Told fs r r' (names ++ [name]) l l') :
    fs.Lists r.walked names name := by
  generalize heq : names ++ [name] = all at h
  cases h with
  | root => simp at heq
  | entry hlists =>
      obtain ⟨rfl, hlast⟩ := List.append_inj' heq rfl
      obtain rfl := List.singleton_inj.mp hlast
      exact hlists

end Told

end RootLocation

namespace Survey

variable (v : Survey) (r : RootLocation)

/-- A survey that differs in the root only. -/
def rooted : Survey := { v with root := r }

/-- What the root of a survey and another one record for one place. -/
abbrev Told : List Bytes → Location → Location → Prop := RootLocation.Told v.files v.root r

/-- Some names that are listed, each in the directory that those before it lead to. -/
structure Comes (names : List Bytes) : Prop where
  isName : ∀ name ∈ names, Path.IsName name
  lists : ∀ before name, names = before ++ [name] → v.files.Lists v.root.walked before name

/-- Two roots under which one path is walked. -/
structure Rerooted : Prop where
  files : v.files.WellFormed
  walked : r.walked = v.root.walked
  isAbsolute : v.root.walked.isAbsolute = true
  recorded : v.root.recorded.bytes ≠ []
  recorded' : r.recorded.bytes ≠ []

/-- What two scans give: both fail, or they have the same counters and messages, and their builders
are related. -/
inductive Abreast (I : Builder → Builder → Prop) :
    Except ScanFailure Scan → Except ScanFailure Scan → Prop where
  | ok {b b' : Builder} {c : ScanCounts} {m : List (List Part)} : I b b' →
      Abreast I (.ok (v.scan b c m)) (.ok ((v.rooted r).scan b' c m))
  | error (e e' : ScanFailure) : Abreast I (.error e) (.error e')

variable {v r}

lemma Comes.nil : v.Comes [] := ⟨by simp, by simp⟩

lemma Comes.concat (hfs : v.files.WellFormed) {names : List Bytes} {name : Bytes}
    (h : v.Comes names) (hname : v.files.Lists v.root.walked names name) :
    v.Comes (names ++ [name]) where
  isName n hn := by
    rcases List.mem_append.mp hn with hn | hn
    · exact h.isName n hn
    · obtain rfl := List.mem_singleton.mp hn
      exact hname.isName hfs
  lists before n heq := by
    obtain ⟨rfl, hlast⟩ := List.append_inj' heq rfl
    obtain rfl := List.singleton_inj.mp hlast
    exact hname

namespace Abreast

variable {I J : Builder → Builder → Prop} {x y : Except ScanFailure Scan}

lemma imp (h : Abreast v r I x y) (hIJ : ∀ b b', I b b' → J b b') : Abreast v r J x y := by
  cases h with
  | ok hb => exact .ok (hIJ _ _ hb)
  | error e e' => exact .error e e'

/-- Going on from scans that are abreast. -/
lemma bind {f g : Scan → Except ScanFailure Scan} (h : Abreast v r I x y)
    (hfg : ∀ b b' c m, I b b' → Abreast v r J (f (v.scan b c m)) (g ((v.rooted r).scan b' c m))) :
    Abreast v r J (x.bind f) (y.bind g) := by
  cases h with
  | ok hb => exact hfg _ _ _ _ hb
  | error e e' => exact .error e e'

end Abreast

namespace Rerooted

variable {places : List (List Bytes)} {names : List Bytes} {b b' : Builder} {c : ScanCounts}
  {m : List (List Part)}

/-! ### What is recorded -/

/-- **A place is told by both roots**, where the walk comes to it. -/
lemma told (h : v.Rerooted r) (hnames : v.Comes names) (hinside : Inside names places)
    (viaLink : Bool) :
    v.Told r names (v.location places.length (v.root.walked.joinAll names) viaLink)
      ((v.rooted r).location places.length (v.root.walked.joinAll names) viaLink) := by
  have htext := RootLocation.pathText_joinAll h.isAbsolute hnames.isName
  have habs : r.walked.isAbsolute = true := by rw [h.walked]; exact h.isAbsolute
  have htext' := RootLocation.pathText_joinAll habs hnames.isName
  rw [h.walked] at htext'
  rw [location, location, rooted, htext, htext']
  cases places with
  | nil =>
      obtain rfl : names = [] := hinside
      exact .root
  | cons outer places =>
      obtain ⟨name, rfl⟩ := hinside
      have hlists := hnames.lists _ _ rfl
      have hname : (v.root.walked.joinAll (outer ++ [name])).entryName = Text.lossy name := by
        rw [Path.joinAll_concat, Path.entryName_join _ (hlists.isName h.files)]
      simp only [List.length_cons, Nat.succ_ne_zero, if_false, hname]
      exact .entry hlists

/-- Whether two places in one directory are recorded alike does not depend on the root. -/
lemma recorded_eq_iff (h : v.Rerooted r) {names' : List Bytes} (hnames : v.Comes names)
    (hinside : Inside names places) (hinside' : Inside names' places) {l l' : Location}
    (htold : v.Told r names' l l') :
    l.path = v.root.pathText (v.root.walked.joinAll names)
      ↔ l'.path = r.pathText (v.root.walked.joinAll names) := by
  have hpaths := (h.told hnames hinside false).paths
  rw [location_path, location_path] at hpaths
  obtain ⟨hpath, hpath'⟩ := htold.paths
  rw [hpath, hpath', hpaths.1, show r.pathText _ = _ from hpaths.2]
  cases places with
  | nil =>
      obtain rfl : names = [] := hinside
      obtain rfl : names' = [] := hinside'
      exact iff_of_true rfl rfl
  | cons outer places =>
      obtain ⟨name, rfl⟩ := hinside
      obtain ⟨name', rfl⟩ := hinside'
      have houter : ∀ n ∈ outer, Path.IsName n := fun n hn => hnames.isName n (by simp [hn])
      have hname : Path.IsName name := hnames.isName name (by simp)
      have hname' : Path.IsName name' := htold.lists.isName h.files
      rw [Path.joinAll_concat, Path.joinAll_concat, Path.joinAll_concat, Path.joinAll_concat,
        Path.recorded_join_eq_iff (Path.joinAll_ne_nil h.recorded houter) hname' hname,
        Path.recorded_join_eq_iff (Path.joinAll_ne_nil h.recorded' houter) hname' hname]

/-! ### What the scans do -/

lemma name_eq : ∀ names name l l', v.Told r (names ++ [name]) l l' → l.name = l'.name :=
  fun _ _ _ _ => RootLocation.Told.name_eq

/-- Closing directories goes abreast. -/
lemma close (hb : Builder.Moved (v.Told r) places b b') (n : ℕ) :
    Abreast v r (Builder.Moved (v.Told r) (places.drop n)) ((v.scan b c m).close n)
      (((v.rooted r).scan b' c m).close n) := by
  induction n generalizing places b b' c m with
  | zero => exact .ok hb
  | succ n ih =>
      have hmessages := hb.exitMessages_eq name_eq
      have hdrop : places.drop (n + 1) = places.tail.drop n := by rw [List.drop_tail]
      simp only [Scan.close, scan, hmessages, hdrop]
      rcases hb.exit name_eq with ⟨kept, c, c', he, he', hmoved⟩ | ⟨e, c, c', he, he'⟩
      · rw [he, he']
        cases kept with
        | true => exact ih hmoved
        | false => exact ih hmoved
      · rw [he, he']
        exact .error _ _

/-- Closing down to some depth leaves the directories around a place alone. -/
lemma closeTo {more : List (List Bytes)} (hb : Builder.Moved (v.Told r) (more ++ places) b b')
    {d : ℕ} (hd : places.length ≤ d) :
    Abreast v r (fun b b' => ∃ more, more.length ≤ d - places.length
        ∧ Builder.Moved (v.Told r) (more ++ places) b b')
      ((v.scan b c m).closeTo d) (((v.rooted r).scan b' c m).closeTo d) := by
  obtain ⟨hdepth, hdepth'⟩ := hb.depth_eq
  have hcount : b.depth - d ≤ more.length := by
    rw [hdepth, List.length_append]
    omega
  have hclose := close hb (c := c) (m := m) (b.depth - d)
  rw [List.drop_append_of_le_length hcount] at hclose
  have hsame : b'.depth = b.depth := hdepth'.trans hdepth.symm
  show Abreast v r _ ((v.scan b c m).close (b.depth - d))
    (((v.rooted r).scan b' c m).close (b'.depth - d))
  rw [hsame]
  refine hclose.imp fun _ _ hmoved => ⟨_, ?_, hmoved⟩
  rw [List.length_drop, hdepth, List.length_append]
  omega

/-- Closing down to the depth of a place leaves the directories around it. -/
lemma closeTo_place {more : List (List Bytes)}
    (hb : Builder.Moved (v.Told r) (more ++ places) b b') :
    Abreast v r (Builder.Moved (v.Told r) places) ((v.scan b c m).closeTo places.length)
      (((v.rooted r).scan b' c m).closeTo places.length) := by
  refine (closeTo hb le_rfl).imp fun _ _ ⟨more, hmore, hmoved⟩ => ?_
  obtain rfl : more = [] := List.length_eq_zero_iff.mp (by omega)
  exact hmoved

/-- A leaf is taken in abreast. -/
lemma collect (hb : Builder.Moved (v.Told r) places b b') (hinside : Inside names places)
    {l l' : Location} (hl : v.Told r names l l') (digest : Digest) (kind : LeafKind) :
    Abreast v r (Builder.Moved (v.Told r) places)
      ((v.scan b c m).collect places.length ⟨l, digest, kind⟩)
      (((v.rooted r).scan b' c m).collect places.length ⟨l', digest, kind⟩) := by
  have htaken : InStep (Builder.Moved (v.Told r) places)
      (if places.length = 0 then b.rootLeaf ⟨l, digest, kind⟩ else b.leaf ⟨l, digest, kind⟩)
      (if places.length = 0 then b'.rootLeaf ⟨l', digest, kind⟩
        else b'.leaf ⟨l', digest, kind⟩) := by
    split
    · exact hb.rootLeaf hinside hl digest kind
    · exact hb.leaf hinside hl digest kind
  simp only [Scan.collect, scan]
  generalize (if places.length = 0 then b.rootLeaf ⟨l, digest, kind⟩
    else b.leaf ⟨l, digest, kind⟩) = x at htaken
  generalize (if places.length = 0 then b'.rootLeaf ⟨l', digest, kind⟩
    else b'.leaf ⟨l', digest, kind⟩) = y at htaken
  cases htaken with
  | ok hmoved => exact .ok hmoved
  | error e => exact .error _ _

lemma collectMissing (hb : Builder.Moved (v.Told r) places b b') (hinside : Inside names places)
    {l l' : Location} (hl : v.Told r names l l') :
    Abreast v r (Builder.Moved (v.Told r) places)
      ((v.scan b c m).collectMissing places.length l)
      (((v.rooted r).scan b' c m).collectMissing places.length l') := by
  simp only [Scan.collectMissing, scan]
  exact collect hb hinside hl _ _

/-- A file is read alike. -/
lemma readFile_eq (b b' : Builder) (c : ScanCounts) (m : List (List Part)) (e : WalkEntry) :
    ∃ x m', (v.scan b c m).readFile e = (x, v.scan b c m')
      ∧ ((v.rooted r).scan b' c m).readFile e = (x, (v.rooted r).scan b' c m') := by
  have hstill := v.still e.path
  simp only [Scan.readFile, scan, rooted]
  cases v.files.node e.viaLink e.path with
  | error error => exact ⟨_, m, rfl, rfl⟩
  | ok n =>
      simp only [hstill]
      cases (v.hasher e.path v.files).result <;> exact ⟨_, _, rfl, rfl⟩

/-- The directories around a place are open in both, and maybe some below it. -/
def Around (v : Survey) (r : RootLocation) (places : List (List Bytes)) (b b' : Builder) : Prop :=
  ∃ more, Builder.Moved (v.Told r) (more ++ places) b b'

lemma around_of_moved (hb : Builder.Moved (v.Told r) places b b') : Around v r places b b' :=
  ⟨[], hb⟩

lemma around_outer (hb : Around v r (names :: places) b b') : Around v r places b b' := by
  obtain ⟨more, hb⟩ := hb
  exact ⟨more ++ [names], by simpa using hb⟩

section Place

variable (h : v.Rerooted r) (hnames : v.Comes names) (hinside : Inside names places)

include h hnames hinside

/-- **A file is taken in abreast.** -/
lemma visitFile (hb : Builder.Moved (v.Told r) places b b') (kind : NodeKind) (viaLink : Bool) :
    Abreast v r (Builder.Moved (v.Told r) places)
      ((v.scan b c m).visitFile ⟨v.root.walked.joinAll names, places.length, kind, viaLink⟩)
      (((v.rooted r).scan b' c m).visitFile
        ⟨v.root.walked.joinAll names, places.length, kind, viaLink⟩) := by
  have htold := h.told hnames hinside viaLink
  obtain ⟨x, m', hx, hx'⟩ := readFile_eq (v := v) (r := r) b b' c m
    ⟨v.root.walked.joinAll names, places.length, kind, viaLink⟩
  simp only [Scan.visitFile, hx, hx']
  rcases x with failure | ⟨facts, digest⟩
  · dsimp only
    split
    · exact collectMissing hb hinside htold
    · exact .error _ _
  · exact collect hb hinside htold _ _

/-- **A directory is opened abreast.** -/
lemma visitDirectory {more : List (List Bytes)}
    (hb : Builder.Moved (v.Told r) (more ++ places) b b') (viaLink : Bool) :
    Abreast v r (Builder.Moved (v.Told r) (names :: places))
      ((v.scan b c m).visitEntry
        ⟨v.root.walked.joinAll names, places.length, .directory, viaLink⟩)
      (((v.rooted r).scan b' c m).visitEntry
        ⟨v.root.walked.joinAll names, places.length, .directory, viaLink⟩) := by
  refine (closeTo_place hb).bind fun b b' c m hb => ?_
  exact .ok (hb.enter hinside (h.told hnames hinside viaLink) v.options.emptyDirectories)

/-- **Any other entry is taken in abreast.** -/
lemma visitEntry {more : List (List Bytes)}
    (hb : Builder.Moved (v.Told r) (more ++ places) b b') {kind : NodeKind}
    (hkind : kind ≠ .directory) (viaLink : Bool) :
    Abreast v r (Builder.Moved (v.Told r) places)
      ((v.scan b c m).visitEntry ⟨v.root.walked.joinAll names, places.length, kind, viaLink⟩)
      (((v.rooted r).scan b' c m).visitEntry
        ⟨v.root.walked.joinAll names, places.length, kind, viaLink⟩) := by
  refine (closeTo_place hb).bind fun b b' c m hb => ?_
  cases kind with
  | directory => exact absurd rfl hkind
  | file => exact h.visitFile hnames hinside hb .file viaLink
  | link => exact .ok hb
  | special => exact .ok hb

/-- **A directory is given up abreast**, since the text of the place finds it in both scans. -/
lemma abandonAt {more : List (List Bytes)} (hmore : more.length ≤ 1)
    (hb : Builder.Moved (v.Told r) (more ++ places) b b') :
    Abreast v r (fun b b' => ∃ more, Builder.Moved (v.Told r) (more ++ places) b b')
      ((v.scan b c m).abandonAt places.length (v.root.pathText (v.root.walked.joinAll names)))
      (((v.rooted r).scan b' c m).abandonAt places.length
        (r.pathText (v.root.walked.joinAll names))) := by
  have hone : (more ++ places).length = places.length + 1 → ∃ place, more = [place] := by
    intro hlength
    rw [List.length_append] at hlength
    exact List.length_eq_one_iff.mp (by omega)
  have hopen : (b.depth = places.length + 1
        ∧ b.currentPath? = some (v.root.pathText (v.root.walked.joinAll names)))
      ↔ (b'.depth = places.length + 1
        ∧ b'.currentPath? = some (r.pathText (v.root.walked.joinAll names))) := by
    rw [hb.depth_eq.1, hb.depth_eq.2]
    refine and_congr_right fun hdepth => ?_
    obtain ⟨place, rfl⟩ := hone hdepth
    have hlevels := hb.levels
    rw [Builder.currentPath?, Builder.currentPath?]
    generalize b.levels = ls at hlevels
    generalize b'.levels = ls' at hlevels
    cases hlevels with
    | cons hinside' hl _ => simpa using h.recorded_eq_iff hnames hinside hinside' hl.told
  by_cases hgiven : b.depth = places.length + 1
      ∧ b.currentPath? = some (v.root.pathText (v.root.walked.joinAll names))
  · obtain ⟨place, rfl⟩ := hone (hb.depth_eq.1.symm.trans hgiven.1)
    have habandon := hb.abandon
    have hgiven' := hopen.mp hgiven
    simp only [Scan.abandonAt, scan, hgiven, hgiven', rooted, and_self, if_true]
    generalize b.abandon = x at habandon
    generalize b'.abandon = y at habandon
    cases habandon with
    | ok hmoved => exact .ok ⟨[], hmoved⟩
    | error e => exact .error _ _
  · have hgiven' := mt hopen.mpr hgiven
    simp only [Scan.abandonAt, scan, hgiven, hgiven', rooted, if_false]
    exact .ok ⟨more, hb⟩

/-- **A missing place is recorded abreast.** -/
lemma visitMissing {more : List (List Bytes)}
    (hb : Builder.Moved (v.Told r) (more ++ places) b b') :
    Abreast v r (Builder.Moved (v.Told r) places)
      ((v.scan b c m).visitMissing places.length (v.root.walked.joinAll names))
      (((v.rooted r).scan b' c m).visitMissing places.length (v.root.walked.joinAll names)) := by
  refine (closeTo hb (Nat.le_succ _)).bind fun b b' c m ⟨more, hmore, hb⟩ => ?_
  refine (h.abandonAt hnames hinside (by omega) hb).bind fun b b' c m ⟨more, hb⟩ => ?_
  refine (closeTo_place hb).bind fun b b' c m hb => ?_
  exact collectMissing hb hinside (h.told hnames hinside _)

/-- **An error of the walk** is taken in abreast. -/
lemma visitFailure {more : List (List Bytes)}
    (hb : Builder.Moved (v.Told r) (more ++ places) b b') {e : WalkError}
    (he : (WalkEvent.failure e).At places.length (v.root.walked.joinAll names)) :
    Abreast v r (Builder.Moved (v.Told r) places) ((v.scan b c m).visitFailure e)
      (((v.rooted r).scan b' c m).visitFailure e) := by
  rcases e with ⟨depth, _ | path, error⟩ | ⟨depth, ancestor, child⟩
  · exact .error _ _
  · obtain ⟨rfl, rfl⟩ := he
    simp only [Scan.visitFailure]
    split
    · exact h.visitMissing hnames hinside hb
    · exact .error _ _
  · exact .error _ _

/-- The directories around a place stay open when the walk fails there. -/
lemma visitFailure_around (hb : Around v r places b b') {e : WalkError}
    (he : (WalkEvent.failure e).At places.length (v.root.walked.joinAll names)) :
    Abreast v r (Around v r places) ((v.scan b c m).visitFailure e)
      (((v.rooted r).scan b' c m).visitFailure e) := by
  obtain ⟨more, hb⟩ := hb
  exact (h.visitFailure hnames hinside hb he).imp fun _ _ => around_of_moved

lemma visitFailure_here (hb : Around v r places b b') (error : IoError) :
    Abreast v r (Around v r places)
      ((v.scan b c m).visitFailure
        (.io places.length (some (v.root.walked.joinAll names)) error))
      (((v.rooted r).scan b' c m).visitFailure
        (.io places.length (some (v.root.walked.joinAll names)) error)) :=
  h.visitFailure_around hnames hinside hb ⟨rfl, rfl⟩

end Place

/-! ### The steps of the walk -/

/-- Some rows of steps are taken abreast, if each of them is. -/
lemma foldlM_flatMap {α : Type} {I : Builder → Builder → Prop} {g : α → List Walk.Step}
    {as : List α} (hg : ∀ a ∈ as, ∀ b b' c m, I b b' →
      Abreast v r I ((g a).foldlM (Walk.Step.take Scan.visitor) (v.scan b c m))
        ((g a).foldlM (Walk.Step.take Scan.visitor) ((v.rooted r).scan b' c m)))
    (hb : I b b') :
    Abreast v r I ((as.flatMap g).foldlM (Walk.Step.take Scan.visitor) (v.scan b c m))
      ((as.flatMap g).foldlM (Walk.Step.take Scan.visitor) ((v.rooted r).scan b' c m)) := by
  induction as generalizing b b' c m with
  | nil => exact .ok hb
  | cons a as ih =>
      rw [List.flatMap_cons, List.foldlM_append, List.foldlM_append]
      exact (hg a List.mem_cons_self b b' c m hb).bind fun b b' c m hb =>
        ih (fun a ha => hg a (List.mem_cons_of_mem _ ha)) hb

/-- **All steps from a listed entry on** are taken abreast, and afterwards the directories around it
are open as before. -/
theorem steps (h : v.Rerooted r) (room : ℕ) (hnames : v.Comes names)
    (hinside : Inside names places) (ancestors : List Path) (name : Bytes) (kind : NodeKind)
    (hb : Around v r places b b') :
    Abreast v r (Around v r places)
      ((Walk.steps v.options.walk v.files room ancestors places.length
        (v.root.walked.joinAll names) name kind).foldlM (Walk.Step.take Scan.visitor)
          (v.scan b c m))
      ((Walk.steps v.options.walk v.files room ancestors places.length
        (v.root.walked.joinAll names) name kind).foldlM (Walk.Step.take Scan.visitor)
          ((v.rooted r).scan b' c m)) := by
  induction room generalizing names places ancestors name kind b b' c m with
  | zero =>
      rw [Walk.steps, Walk.foldlM_one, Walk.foldlM_one]
      exact h.visitFailure_here hnames hinside hb .nameTooLong
  | succ room ih =>
      have hentry := Walk.entryOf_at v.options.walk v.files ancestors places.length
        (v.root.walked.joinAll names) kind
      rw [Walk.steps]
      cases he : Walk.entryOf v.options.walk v.files ancestors places.length
          (v.root.walked.joinAll names) kind with
      | error e =>
          simp only [he] at hentry
          simp only [Walk.foldlM_one]
          exact h.visitFailure_around hnames hinside hb hentry
      | ok e =>
          simp only [he] at hentry
          obtain ⟨path, depth, kind', viaLink⟩ := e
          obtain ⟨rfl, rfl⟩ := hentry
          obtain ⟨more, hmoved⟩ := hb
          dsimp only
          split
          · rw [Walk.foldlM_one, Walk.foldlM_one]
            exact .ok ⟨more, hmoved⟩
          split
          · next hdirectory =>
              obtain rfl : kind' = .directory := hdirectory
              rw [List.foldlM_cons, List.foldlM_cons]
              refine (h.visitDirectory hnames hinside hmoved viaLink).bind fun b b' c m hb => ?_
              cases hlist : v.files.list (v.root.walked.joinAll names) with
              | error e =>
                  simp only [Walk.foldlM_one]
                  exact h.visitFailure_here hnames hinside ⟨[names], hb⟩ _
              | ok listing =>
                  refine (foldlM_flatMap (fun item hitem b b' c m hb => ?_)
                    (around_of_moved hb)).imp fun _ _ => around_outer
                  have hlists : v.files.Lists v.root.walked names item.1 :=
                    ⟨listing, hlist, List.mem_map_of_mem (Walk.mem_arrange.mp hitem)⟩
                  have hinner : Inside (names ++ [item.1]) (names :: places) := ⟨item.1, rfl⟩
                  rw [← Path.joinAll_concat]
                  exact ih (hnames.concat h.files hlists) hinner _ _ _ hb
          · next hother =>
              rw [Walk.foldlM_one, Walk.foldlM_one]
              exact (h.visitEntry hnames hinside hmoved hother viaLink).imp
                fun _ _ => around_of_moved

/-- **All steps from the root on** are taken abreast. -/
theorem rootSteps (h : v.Rerooted r) :
    Abreast v r (Around v r []) (v.steps.foldlM (Walk.Step.take Scan.visitor) v.start)
      ((v.rooted r).steps.foldlM (Walk.Step.take Scan.visitor) (v.rooted r).start) := by
  have hsteps : (v.rooted r).steps = v.steps := by
    rw [Survey.steps, Survey.steps, rooted, h.walked]
  have hnew : Around v r [] (.new v.hash v.options.ordering) (.new v.hash v.options.ordering) :=
    around_of_moved (.new _ _)
  have hroot : Inside [] [] := rfl
  rw [hsteps, Survey.steps, Walk.rootSteps_eq_rootKind]
  cases v.files.rootKind v.root.walked with
  | error e =>
      rw [Walk.foldlM_one, Walk.foldlM_one]
      exact h.visitFailure_here .nil hroot hnew e
  | ok kind => exact h.steps FileSystem.maxPath .nil hroot [] [] _ hnew

/-- **Two scans that walk the same path** both fail or both finish. Then they have the same counters
and hashed the same messages, and their snapshots match node by node. -/
theorem scans_abreast (h : v.Rerooted r) {p q : Path}
    (hp : RootLocation.resolve v.files p = .ok v.root)
    (hq : RootLocation.resolve v.files q = .ok r) :
    (∃ e e', scanWith v.options v.hash v.hasher v.files p = .error e
        ∧ scanWith v.options v.hash v.hasher v.files q = .error e')
      ∨ ∃ x y, scanWith v.options v.hash v.hasher v.files p = .ok x
        ∧ scanWith v.options v.hash v.hasher v.files q = .ok y
        ∧ x.outcome.counts = y.outcome.counts ∧ x.messages = y.messages
        ∧ Option.Rel (Snapshot.Moved (v.Told r) []) x.outcome.snapshot y.outcome.snapshot := by
  have hclosed := h.rootSteps.bind (f := (·.closeTo 0)) (g := (·.closeTo 0))
    fun b b' c m ⟨_, hb⟩ => closeTo_place hb
  have hscan' : scanWith v.options v.hash v.hasher v.files q
      = (((v.rooted r).steps.foldlM (Walk.Step.take Scan.visitor) (v.rooted r).start).bind
          (·.closeTo 0)).bind Scan.finish := Sight.scanWith_eq (v.rooted r) hq
  rw [Sight.scanWith_eq v hp, hscan']
  generalize (v.steps.foldlM (Walk.Step.take Scan.visitor) v.start).bind (·.closeTo 0) = x
    at hclosed
  generalize ((v.rooted r).steps.foldlM (Walk.Step.take Scan.visitor) (v.rooted r).start).bind
    (·.closeTo 0) = y at hclosed
  cases hclosed with
  | error e e' => exact .inl ⟨e, e', rfl, rfl⟩
  | @ok b b' c m hb =>
      have hresult := hb.result
      simp only [Except.bind, Scan.finish, scan]
      generalize b.result = x at hresult
      generalize b'.result = y at hresult
      cases hresult with
      | error e => exact .inl ⟨_, _, rfl, rfl⟩
      | ok hsnapshot => exact .inr ⟨_, _, rfl, rfl, rfl, rfl, hsnapshot⟩

end Rerooted

end Survey

end TreeDigest

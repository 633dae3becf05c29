import TreeDigest.Proofs.FileSystem.Replacing
import TreeDigest.Proofs.Path.Recorded
import TreeDigest.Proofs.Scan.Digests
import TreeDigest.Proofs.Scan.Sight

/-!
Entries that are left out.

An entry whose name is to be left out has no influence on a scan: another node in its place changes
neither whether the scan succeeds nor what it gives, as long as nothing outside of the entry leads
into it. And no node below the root of a snapshot has such a name. Both hold if no such entry comes
up as an error of the walk. Where links are not followed, none does; a followed link that leads
nowhere, or back to a directory around it, is told of whatever its name is.

* `SilentAt` says that no entry that is to be left out comes up, and `silentAt_of_not_followed`
  that this is so where links are not followed.
* `LeadsPast` says that nothing outside of an entry leads into it; `sight_changeAt` is that a scan
  then sees the same, whatever node the entry is.
* `scan_ignored` has both properties of the scan.
-/

namespace TreeDigest

/-- A scan of a root is told of no entry that is to be left out. -/
def ScanOptions.SilentAt (o : ScanOptions) (fs : FileSystem) (p : Path) : Prop :=
  ∀ root, RootLocation.resolve fs p = .ok root →
    o.Silent (Walk.rootSteps o.walk fs root.walked)

/-- Nothing outside of an entry leads into it: no link does, nor the path of a root, nor the current
directory if that path starts there. -/
structure FileSystem.LeadsPast (fs : FileSystem) (p : Path) (place : List Bytes) : Prop where
  links : fs.LinksAvoid place
  root : ∀ a, RootLocation.absolute fs p = .ok a → place ∉ fs.passesOf a
  current : p.isAbsolute = false → ¬ place <+: fs.current

namespace RootLocation

variable {fs : FileSystem} {p a : Path}

/-- The path that is walked is absolute. -/
lemma isAbsolute_walked {r : RootLocation} (hp : resolve fs p = .ok r) :
    r.walked.isAbsolute = true := by
  obtain ⟨a, ha, -⟩ := Survey.walked_of_resolve hp
  cases hnode : fs.node true a with
  | error e =>
      rw [Survey.walked_of_missing hp ha hnode]
      exact isAbsolute_of_absolute ha
  | ok n =>
      obtain ⟨place, -, -, -, hplain⟩ :=
        FileSystem.canonicalize_eq_ok_iff.mp (Survey.canonicalize_eq_walked hp ha hnode)
      rw [hplain]
      rfl

lemma walked_ne_nil {r : RootLocation} (hp : resolve fs p = .ok r) : r.walked.bytes ≠ [] :=
  fun hempty => by simpa [Path.isAbsolute, hempty] using isAbsolute_walked hp

end RootLocation

/-! ### Links that are not followed -/

namespace ScanOptions

variable {o : ScanOptions} {fs : FileSystem}

/-- From a listed entry on, no error comes up at what is to be left out if links are not followed:
what is listed is there, and the room does not run out before a path is too long to be listed. -/
lemma silent_steps (hfs : fs.WellFormed) (hfollow : o.followLinks = false) {room : ℕ}
    {ancestors : List Path} {depth : ℕ} {path : Path} {name : Bytes} {kind : NodeKind}
    (hpos : 0 < room) (hroom : Walk.HasRoom room path) :
    o.Silent (Walk.steps o.walk fs room ancestors depth path name kind) := by
  have hentry : ∀ ancestors depth path kind, Walk.entryOf o.walk fs ancestors depth path kind
      = .ok ⟨path, depth, kind, kind == .link⟩ := by
    intro ancestors depth path kind
    simp [Walk.entryOf, walk, hfollow]
  induction room generalizing ancestors depth path name kind with
  | zero => exact absurd hpos (lt_irrefl 0)
  | succ room ih =>
      intro step hstep hdepth hname
      rw [Walk.steps, hentry] at hstep
      dsimp only at hstep
      split at hstep
      · obtain rfl := List.mem_singleton.mp hstep
        rfl
      next hkept =>
      -- What is told of this entry itself is told because the entry is not to be left out.
      have hself : ¬ (0 < depth ∧ o.ignores name = true) := by
        simpa [walk] using hkept
      split at hstep
      · rcases List.mem_cons.mp hstep with rfl | hstep
        · exact absurd ⟨hdepth, hname⟩ hself
        cases hlist : fs.list path with
        | error e =>
            rw [hlist] at hstep
            obtain rfl := List.mem_singleton.mp hstep
            exact absurd ⟨hdepth, hname⟩ hself
        | ok listing =>
            rw [hlist] at hstep
            obtain ⟨item, hitem, hstep⟩ := List.mem_flatMap.mp hstep
            have hproper := Walk.isName_of_list hfs hlist item (Walk.mem_arrange.mp hitem)
            have hpos' : 0 < room := Nat.succ_lt_succ_iff.mp (hroom.one_lt_of_list hlist)
            exact ih hpos' (hroom.join hproper) step hstep hdepth hname
      · obtain rfl := List.mem_singleton.mp hstep
        exact absurd ⟨hdepth, hname⟩ hself

/-- **Where links are not followed, nothing comes up** at what is to be left out. -/
lemma silentAt_of_not_followed (hfs : fs.WellFormed) (hfollow : o.followLinks = false) (p : Path) :
    o.SilentAt fs p := by
  intro root hroot
  rw [Walk.rootSteps_eq_rootKind]
  cases fs.rootKind root.walked with
  | error e =>
      intro step hstep hdepth
      obtain rfl := List.mem_singleton.mp hstep
      exact absurd hdepth (lt_irrefl 0)
  | ok kind =>
      exact silent_steps hfs hfollow (by decide)
        (Walk.hasRoom_root (RootLocation.walked_ne_nil hroot))

end ScanOptions

namespace Survey

/-! ### The root -/

section Root

open FileSystem

variable {fs : FileSystem} {T : FileSystem.Trail} {x : Bytes} {n : Node} {p a : Path}

/-- The root is found in the same place. -/
lemma rootLocation_changeAt (h : fs.LeadsPast p (T.names ++ [x])) :
    RootLocation.resolve (fs.changeAt T (·.put x n)) p = RootLocation.resolve fs p := by
  have habsolute : RootLocation.absolute (fs.changeAt T (·.put x n)) p
      = RootLocation.absolute fs p := by
    rw [RootLocation.absolute, RootLocation.absolute]
    split
    · rfl
    · next habs =>
        have hapart : ∀ q, q <+: fs.current → q ≠ T.names ++ [x] := by
          rintro q hq rfl
          exact h.current (by simpa using habs) hq
        have hstep : Lockstep fs (fs.changeAt T (·.put x n)) _ _ := lockstep_changeAt
        rw [hstep.currentPath (hstep.currentTrail rfl hapart)]
  cases ha : RootLocation.absolute fs p with
  | error e =>
      simp only [RootLocation.resolve, habsolute, ha, bind, Except.bind]
  | ok a =>
      have hpast := fun follow => resolve_changeAt (n := n) (RootLocation.isAbsolute_of_absolute ha)
        (h.root a ha) follow
      have hcanonical := lockstep_changeAt.canonicalize (hpast true)
      have hlink : fs.isLink a = (fs.changeAt T (·.put x n)).isLink a :=
        isLink_of_kind ((leads_of_resolve (hpast false)).imp fun _ _ hn => hn.kind_eq)
      simp only [RootLocation.resolve, habsolute, ha, bind, Except.bind, hcanonical, hlink]

/-- The path that is walked does not pass the entry. -/
lemma walked_past (hfs : fs.WellFormed) (h : fs.LeadsPast p (T.names ++ [x])) {r : RootLocation}
    (hp : RootLocation.resolve fs p = .ok r) :
    r.walked.isAbsolute = true ∧ T.names ++ [x] ∉ fs.passesOf r.walked := by
  refine ⟨RootLocation.isAbsolute_walked hp, ?_⟩
  obtain ⟨a, ha, hwalked⟩ := walked_of_resolve hp
  rw [hwalked]
  have hself := h.root a ha
  have hres := resolve_changeAt (n := .special) (RootLocation.isAbsolute_of_absolute ha) hself true
  rw [canonicalize_eq]
  generalize hr : fs.resolve true a = found at hres
  generalize (fs.changeAt T (·.put x .special)).resolve true a = found' at hres
  cases hres with
  | error e => exact hself
  | ok hplace =>
      have hvalid := resolve_valid hr
      cases hplace with
      | vacant ht => exact hself
      | directory ht => exact h.links.notMem_passesOf_pathOf hfs hvalid ht.apart nofun
      | other ht hkind hne =>
          refine h.links.notMem_passesOf_pathOf hfs hvalid ?_ nofun
          rw [Place.names, List.prefix_concat_iff]
          exact not_or.mpr ⟨Ne.symm hne, ht.apart⟩

end Root

/-- **A scan sees the same, whatever node an entry is** that is to be left out, if nothing outside
of it leads into it. -/
lemma sight_changeAt (options : ScanOptions) (hash : HashFunction) {fs : FileSystem}
    (hfs : fs.WellFormed) {T : FileSystem.Trail} (hT : T.Valid fs) {x : Bytes} {n : Node}
    (hx : (fs.entriesAt T).find? x ≠ none) (hout : options.ignores x = true) {p : Path}
    (h : fs.LeadsPast p (T.names ++ [x])) {r : RootLocation}
    (hp : RootLocation.resolve fs p = .ok r) :
    (ofContents options hash fs r).Sight (ofContents options hash (fs.changeAt T (·.put x n)) r)
      fun q => q.isAbsolute = true ∧ T.names ++ [x] ∉ fs.passesOf q where
  options := rfl
  hash := rfl
  root := rfl
  same {q} hq := by
    have hnode := fun follow => FileSystem.leads_of_resolve
      (FileSystem.resolve_changeAt (n := n) hq.1 hq.2 follow)
    have hread := FileSystem.read_of_leads (hnode true)
    refine ⟨fun follow => (hnode follow).imp fun m m' hm => ?_, ?_, ?_⟩
    · cases hm <;> exact ⟨rfl, rfl⟩
    · simp only [ofContents, LeafHasher.content, hread]
      split <;> rfl
    · simp only [ofContents, LeafHasher.content, hread]
      split <;> rfl
  canonicalize {q} hq :=
    FileSystem.lockstep_changeAt.canonicalize (FileSystem.resolve_changeAt hq.1 hq.2 true)
  list {q} hq := by
    refine (FileSystem.list_changeAt hfs hT hx h.links hq.1 hq.2).imp fun xs ys hxy => ?_
    refine hxy.imp fun a b hab => ⟨hab.1, hab.2.imp (fun heq => ?_) fun hseen => ?_⟩
    · exact heq ▸ hout
    · obtain ⟨hkind, hname, hpast⟩ := hseen
      exact ⟨hkind, (Path.isAbsolute_join q hname).trans hq.1, hpast⟩
  walked := walked_past hfs h hp

/-- A scan with the program's own hash function, as one in a survey. -/
lemma scan_eq (options : ScanOptions) (fs : FileSystem) (p : Path) :
    TreeDigest.scan options fs p
      = ((scanWith options .blake3 (.content .blake3) fs p).mapError (·.error)).map
          (·.outcome) := by
  rw [TreeDigest.scan]
  cases scanWith options .blake3 (.content .blake3) fs p <;> rfl

end Survey

/-- **Entries that are left out have no influence.** Let nothing change a well-formed file system
while it is scanned, and where links are followed let no entry that is to be left out come up as an
error. Then no node below the root of the snapshot has a name that is to be left out. And whatever
node is put in the place of an entry of such a name, the scan fails with the same error, or gives
the same snapshot with the same counters, if nothing outside of the entry leads into it. -/
theorem scan_ignored (options : ScanOptions) {fs : FileSystem} (hfs : fs.WellFormed) (p : Path)
    (hsilent : options.followLinks = true → options.SilentAt fs p) :
    (∀ o, scan options fs p = .ok o → ∀ s, o.snapshot = some s →
        ∀ c ∈ s.children, ∀ m : Snapshot, m.Within c → m.name ∉ options.ignore)
      ∧ ∀ (T : FileSystem.Trail) (x : Bytes) (old new : Node), T.Valid fs →
          (fs.entriesAt T).find? x = some old → options.ignores x = true →
          fs.LeadsPast p (T.names ++ [x]) → (fs.changeAt T (·.put x new)).WellFormed →
          (options.followLinks = true → options.SilentAt (fs.changeAt T (·.put x new)) p) →
          scan options (fs.changeAt T (·.put x new)) p = scan options fs p := by
  have hsilentAt : ∀ {fs : FileSystem}, fs.WellFormed →
      (options.followLinks = true → options.SilentAt fs p) → options.SilentAt fs p := by
    intro fs hfs hsilent
    cases hfollow : options.followLinks with
    | true => exact hsilent hfollow
    | false => exact ScanOptions.silentAt_of_not_followed hfs hfollow p
  cases hroot : RootLocation.resolve fs p with
  | error e =>
      refine ⟨fun o ho => ?_, fun T x old new _ _ _ hpast _ _ => ?_⟩
      · rw [Survey.scan_eq, Survey.scanWith_unresolved hroot] at ho
        cases ho
      · have hroot' := (Survey.rootLocation_changeAt (n := new) hpast).trans hroot
        rw [Survey.scan_eq, Survey.scan_eq, Survey.scanWith_unresolved hroot,
          Survey.scanWith_unresolved hroot']
        rfl
  | ok root =>
      have hv := hsilentAt hfs hsilent root hroot
      constructor
      · intro o ho s hs
        have hself : InStep _
            ((scanWith options .blake3 (.content .blake3) fs p).mapError (·.error))
            ((scanWith options .blake3 (.content .blake3) fs p).mapError (·.error)) :=
          (Survey.Sight.refl (.ofContents options .blake3 fs root)).agree_scanWith hfs hroot hroot
            hv hv
        rw [Survey.scan_eq] at ho
        generalize (scanWith options .blake3 (.content .blake3) fs p).mapError (·.error) = x
          at hself ho
        cases hself with
        | error e => cases ho
        | ok hnamed =>
            obtain rfl := Except.ok.inj ho
            exact hnamed.2 s hs
      · intro T x old new hT hx hout hpast hfs' hnew
        have hroot' := (Survey.rootLocation_changeAt (n := new) hpast).trans hroot
        have hsame : InStep _
            ((scanWith options .blake3 (.content .blake3) fs p).mapError (·.error))
            ((scanWith options .blake3 (.content .blake3) (fs.changeAt T (·.put x new)) p).mapError
              (·.error)) :=
          (Survey.sight_changeAt options .blake3 hfs hT (by simp [hx]) hout hpast
            hroot).agree_scanWith hfs hroot hroot' hv (hsilentAt hfs' hnew root hroot')
        rw [Survey.scan_eq, Survey.scan_eq]
        generalize (scanWith options .blake3 (.content .blake3) fs p).mapError (·.error) = x
          at hsame ⊢
        generalize (scanWith options .blake3 (.content .blake3) (fs.changeAt T (·.put _ new))
          p).mapError (·.error) = y at hsame ⊢
        cases hsame with
        | error e => rfl
        | ok houtcome => exact congrArg Except.ok houtcome.1.symm

namespace Survey

/-! ### A directory that becomes a link -/

/-- A directory `.git` with a file in it, a file `f` and a link `l` to `f`. -/
def keptEntries : Entries :=
  [([46, 103, 105, 116], .directory [([104], .file [7] 0)]), ([102], .file [1] 0),
    ([108], .link [102])]

/-- A file system with these entries in `/r`. -/
def keptFiles : FileSystem := ⟨[([114], .directory keptEntries)], []⟩

/-- The same with a link to `f` in the place of `.git`. -/
def keptFiles' : FileSystem :=
  keptFiles.changeAt [([114], keptEntries)] (·.put [46, 103, 105, 116] (.link [102]))

/-- Links are followed, and `.git` is left out. -/
def keptOptions : ScanOptions := ⟨true, [".git"], true, .included⟩

/-- The root `/r`. -/
def keptRoot : RootLocation := ⟨⟨[47, 114]⟩, ⟨[47, 114]⟩, "r", .direct⟩

lemma wellFormed_kept : keptFiles.WellFormed := by
  refine .intro (by decide) (by decide) fun name inner hmem => ?_
  obtain ⟨-, rfl⟩ : name = [114] ∧ inner = _ := by simpa [keptFiles] using hmem
  refine .intro (by decide) (by decide) fun name inner hmem => ?_
  obtain ⟨-, rfl⟩ : name = [46, 103, 105, 116] ∧ inner = _ := by simpa [keptEntries] using hmem
  exact .intro (by decide) (by decide) (by simp)

lemma wellFormed_kept' : keptFiles'.WellFormed := by
  have hroot : keptFiles'.root = [([114], .directory
      [([46, 103, 105, 116], .link [102]), ([102], .file [1] 0), ([108], .link [102])])] := by cbv
  rw [FileSystem.WellFormed, hroot]
  refine .intro (by decide) (by decide) fun name inner hmem => ?_
  obtain ⟨-, rfl⟩ : name = [114] ∧ inner = _ := by simpa using hmem
  exact .intro (by decide) (by decide) (by simp)

lemma resolve_kept : RootLocation.resolve keptFiles ⟨[47, 114]⟩ = .ok keptRoot := by cbv

lemma resolve_kept' : RootLocation.resolve keptFiles' ⟨[47, 114]⟩ = .ok keptRoot := by cbv

lemma view_kept (hash : HashFunction) : (ofContents keptOptions hash keptFiles keptRoot).view
    = .ok (.directory ⟨"/r", "r", .direct⟩ [.ignored,
        .leaf ⟨⟨"/r/f", "f", .direct⟩, hash.content [1], .file ⟨1, 0⟩⟩,
        .leaf ⟨⟨"/r/l", "l", .viaSymlink⟩, hash.content [1], .file ⟨1, 0⟩⟩]) := by cbv

/-- What a walk does in both file systems. -/
def keptSteps : List Walk.Step :=
  [⟨0, ⟨[47, 114]⟩, [], some (.entry ⟨⟨[47, 114]⟩, 0, .directory, false⟩)⟩,
    ⟨1, ⟨[47, 114, 47, 46, 103, 105, 116]⟩, [46, 103, 105, 116], none⟩,
    ⟨1, ⟨[47, 114, 47, 102]⟩, [102], some (.entry ⟨⟨[47, 114, 47, 102]⟩, 1, .file, false⟩)⟩,
    ⟨1, ⟨[47, 114, 47, 108]⟩, [108], some (.entry ⟨⟨[47, 114, 47, 108]⟩, 1, .file, true⟩)⟩]

lemma silent_kept : keptOptions.Silent keptSteps := by
  have hf : keptOptions.ignores [102] = false := by cbv
  have hl : keptOptions.ignores [108] = false := by cbv
  simp [ScanOptions.Silent, keptSteps, hf, hl]

lemma silentAt_kept : keptOptions.SilentAt keptFiles ⟨[47, 114]⟩ := by
  intro root hroot
  obtain rfl := Except.ok.inj (resolve_kept.symm.trans hroot)
  have hsteps : Walk.rootSteps keptOptions.walk keptFiles keptRoot.walked = keptSteps := by cbv
  exact hsteps ▸ silent_kept

lemma silentAt_kept' : keptOptions.SilentAt keptFiles' ⟨[47, 114]⟩ := by
  intro root hroot
  obtain rfl := Except.ok.inj (resolve_kept'.symm.trans hroot)
  have hsteps : Walk.rootSteps keptOptions.walk keptFiles' keptRoot.walked = keptSteps := by cbv
  exact hsteps ▸ silent_kept

/-- Outside of `.git` there are only the root directory and `/r`. -/
lemma trails_kept {t : FileSystem.Trail} (ht : t.Valid keptFiles) :
    t = [] ∨ t = [([114], keptEntries)] ∨ [[114], [46, 103, 105, 116]] <+: t.names := by
  induction t with
  | nil => exact .inl rfl
  | cons step t ih =>
      obtain ⟨name, es⟩ := step
      obtain ⟨hfind, ht⟩ := ht
      rw [FileSystem.Trail.names_cons]
      have hmem := Entries.mem_of_find? hfind
      rcases ih ht with rfl | rfl | hunder
      · obtain ⟨rfl, rfl⟩ : name = [114] ∧ es = keptEntries := by
          simpa [keptFiles, FileSystem.entriesAt] using hmem
        exact .inr (.inl rfl)
      · obtain ⟨rfl, -⟩ : name = [46, 103, 105, 116] ∧ es = _ := by
          simpa [keptEntries, FileSystem.entriesAt] using hmem
        exact .inr (.inr (List.prefix_refl _))
      · exact .inr (.inr (hunder.trans (List.prefix_append _ _)))

lemma leadsPast_kept : keptFiles.LeadsPast ⟨[47, 114]⟩ [[114], [46, 103, 105, 116]] where
  links := by
    intro t name target ht hapart hfind
    have hmem := Entries.mem_of_find? hfind
    rcases trails_kept ht with rfl | rfl | hunder
    · simp [keptFiles, FileSystem.entriesAt] at hmem
    · obtain ⟨-, rfl⟩ : name = [108] ∧ target = [102] := by
        simpa [keptEntries, FileSystem.entriesAt] using hmem
      have hpasses : keptFiles.passes true FileSystem.maxLinks
          (FileSystem.linkStart [([114], keptEntries)] [102]) (Path.segments ⟨[102]⟩)
            = [[[114], [102]]] := by cbv
      rw [hpasses]
      decide
    · exact absurd (hunder.trans (List.prefix_append _ _)) hapart
  root a ha := by
    obtain rfl : (⟨[47, 114]⟩ : Path) = a := Except.ok.inj ha
    have hpasses : keptFiles.passesOf ⟨[47, 114]⟩ = [[[114]]] := by cbv
    rw [hpasses]
    decide
  current habs := by cases habs

/-- A directory `.git` may become a link to a file that is kept: the scan gives the same. -/
theorem scan_ignored_link :
    let p : Path := ⟨[47, 114]⟩
    let T : FileSystem.Trail := [([114], keptEntries)]
    let x : Bytes := [46, 103, 105, 116]
    keptFiles.WellFormed ∧ (keptOptions.followLinks = true → keptOptions.SilentAt keptFiles p)
      ∧ T.Valid keptFiles
      ∧ (keptFiles.entriesAt T).find? x = some (.directory [([104], .file [7] 0)])
      ∧ keptOptions.ignores x = true ∧ keptFiles.LeadsPast p (T.names ++ [x])
      ∧ (keptFiles.changeAt T (·.put x (.link [102]))).WellFormed
      ∧ (keptOptions.followLinks = true →
          keptOptions.SilentAt (keptFiles.changeAt T (·.put x (.link [102]))) p)
      ∧ ∃ o s, TreeDigest.scan keptOptions keptFiles p = .ok o ∧ o.snapshot = some s
        ∧ (∀ c ∈ s.children, ∀ m : Snapshot, m.Within c → m.name ∉ keptOptions.ignore)
        ∧ TreeDigest.scan keptOptions (keptFiles.changeAt T (·.put x (.link [102]))) p = .ok o := by
  intro p T x
  have hT : T.Valid keptFiles := ⟨rfl, trivial⟩
  have hfind : (keptFiles.entriesAt T).find? x = some (.directory [([104], .file [7] 0)]) := rfl
  have hout : keptOptions.ignores x = true := by cbv
  obtain ⟨hnames, hsame⟩ := scan_ignored keptOptions wellFormed_kept p fun _ => silentAt_kept
  have hscan := hsame T x _ (.link [102]) hT hfind hout leadsPast_kept wellFormed_kept'
    fun _ => silentAt_kept'
  have hdriver := (ofContents keptOptions .blake3 keptFiles keptRoot).scanWith_view resolve_kept
  rw [view_kept] at hdriver
  obtain ⟨r, hr, houtcome⟩ := hdriver
  have hok : TreeDigest.scan keptOptions keptFiles p = .ok r.outcome := by
    have hr : scanWith keptOptions .blake3 (.content .blake3) keptFiles p = .ok r := hr
    rw [scan_eq, hr]
    rfl
  obtain ⟨s, hs⟩ : ∃ s, r.outcome.snapshot = some s := by
    rw [houtcome (by simp [Visible.Whole, Visible.WholeAll])]
    exact ⟨_, rfl⟩
  exact ⟨wellFormed_kept, fun _ => silentAt_kept, hT, hfind, hout, leadsPast_kept,
    wellFormed_kept', fun _ => silentAt_kept', r.outcome, s, hok, hs, hnames _ hok s hs,
    hscan.trans hok⟩

end Survey

end TreeDigest

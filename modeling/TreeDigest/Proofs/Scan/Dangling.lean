import TreeDigest.Proofs.FileSystem.Dangling
import TreeDigest.Proofs.Path.Recorded
import TreeDigest.Proofs.Scan.Steps
import TreeDigest.Proofs.Scan.Subtree

/-!
Scans of a file system with dangling links.

Where links are followed, a link that leads nowhere becomes a missing leaf, and that is all it does:
a scan of the file system without its dangling links comes by the same entries otherwise, and makes
the same of them.

* `Visible.present` is a visible tree without its absent places.
* `Snapshot.Extends` says that a snapshot is another one with missing leaves put in.
* `Survey.explore_withoutDangling` is the induction along the walk.
* `scanWith_withoutDangling` compares the two scans, if nothing absent passes for the directory
  right before it.
-/

namespace TreeDigest

namespace Visible

/-! ### Without the absent places -/

/-- Nothing was found at the place. -/
def isAbsent : Visible → Bool
  | .absent _ => true
  | _ => false

mutual

/-- A visible tree without the absent places below it. -/
def present : Visible → Visible
  | .directory location below => .directory location (presentAll below)
  | .ignored => .ignored
  | .skippedLink => .skippedLink
  | .skippedSpecial => .skippedSpecial
  | .leaf l => .leaf l
  | .absent location => .absent location

/-- The entries of a directory without absent places. -/
def presentAll : List Visible → List Visible
  | [] => []
  | t :: ts => if t.isAbsent then presentAll ts else present t :: presentAll ts

end

mutual

/-- The number of absent places in a visible tree. -/
def absences : Visible → ℕ
  | .directory _ below => absencesAll below
  | .absent _ => 1
  | _ => 0

/-- The number of absent places among the entries of a directory, and below them. -/
def absencesAll : List Visible → ℕ
  | [] => 0
  | t :: ts => absences t + absencesAll ts

end

lemma presentAll_cons_of_not {t : Visible} (ht : t.isAbsent = false) (ts : List Visible) :
    presentAll (t :: ts) = t.present :: presentAll ts := by
  rw [presentAll, if_neg (by simp [ht])]

mutual

/-- What is left has no absent place any more. -/
lemma whole_present (t : Visible) (ht : t.isAbsent = false) : t.present.Whole := by
  match t with
  | .directory _ below =>
      rw [present]
      exact wholeAll_presentAll below
  | .ignored | .skippedLink | .skippedSpecial | .leaf _ => trivial
  | .absent _ => cases ht

lemma wholeAll_presentAll (ts : List Visible) : WholeAll (presentAll ts) := by
  match ts with
  | [] => trivial
  | t :: ts =>
      rw [presentAll]
      split
      · exact wholeAll_presentAll ts
      · next ht => exact ⟨whole_present t (by simpa using ht), wholeAll_presentAll ts⟩

end

mutual

/-- **Where nothing is absent, everything is left.** -/
lemma Whole.present_eq {t : Visible} (ht : t.Whole) : t.present = t := by
  match t with
  | .directory location below =>
      rw [present, WholeAll.presentAll_eq (show WholeAll below from ht)]
  | .ignored | .skippedLink | .skippedSpecial | .leaf _ => simp only [present]
  | .absent _ => exact ht.elim

lemma WholeAll.presentAll_eq {ts : List Visible} (hts : WholeAll ts) : presentAll ts = ts := by
  match ts with
  | [] => simp only [presentAll]
  | t :: ts =>
      have hpresent : t.isAbsent = false := by
        cases t with
        | absent location => exact hts.1.elim
        | _ => rfl
      rw [presentAll_cons_of_not hpresent, Whole.present_eq hts.1, WholeAll.presentAll_eq hts.2]

end

end Visible

/-! ### Snapshots with more missing leaves -/

namespace Snapshot

/-- A snapshot with missing leaves only. -/
inductive AllMissing (h : HashFunction) : Snapshot → Prop where
  | leaf (location : Location) : AllMissing h (.leaf (.missing h location))
  | directory {location : Location} {digest : Digest} {cs : List Snapshot} :
      (∀ c ∈ cs, AllMissing h c) → AllMissing h (.directory location digest cs)

mutual

/-- A snapshot is another one with missing leaves put in: leaves are the same, and directories are
recorded as the same. -/
inductive Extends (h : HashFunction) : Snapshot → Snapshot → Prop where
  | leaf (l : Leaf) : Extends h (.leaf l) (.leaf l)
  | directory {location : Location} {digest digest' : Digest} {cs cs' ds ds' : List Snapshot} :
      cs.Perm ds → cs'.Perm ds' → ExtendsAll h ds ds' →
      Extends h (.directory location digest cs) (.directory location digest' cs')

/-- Siblings are others with missing leaves put in, and with more that has missing leaves only. -/
inductive ExtendsAll (h : HashFunction) : List Snapshot → List Snapshot → Prop where
  | nil : ExtendsAll h [] []
  | both {c c' : Snapshot} {cs cs' : List Snapshot} :
      Extends h c c' → ExtendsAll h cs cs' → ExtendsAll h (c :: cs) (c' :: cs')
  | new {c : Snapshot} {cs cs' : List Snapshot} :
      AllMissing h c → ExtendsAll h cs cs' → ExtendsAll h (c :: cs) cs'

end

lemma ExtendsAll.eq_nil {h : HashFunction} {cs' : List Snapshot} (hcs : ExtendsAll h [] cs') :
    cs' = [] := by
  cases hcs
  rfl

lemma ExtendsAll.allMissing {h : HashFunction} {cs : List Snapshot} (hcs : ExtendsAll h cs []) :
    ∀ c ∈ cs, c.AllMissing h := by
  induction cs with
  | nil => simp
  | cons c cs ih =>
      cases hcs with
      | new hc hcs => simpa using ⟨hc, ih hcs⟩

end Snapshot

namespace Visible

section Fold

variable {h : HashFunction} {o : ChildOrdering} {handling : EmptyDirectories}

lemma eq_absent_of_isAbsent {t : Visible} (ht : t.isAbsent = true) :
    ∃ location, t = .absent location := by
  cases t with
  | absent location => exact ⟨location, rfl⟩
  | _ => cases ht

mutual

/-- **What is left of a tree extends what is left of it without its absent places**, and where
nothing is left of that, it has missing leaves only. -/
lemma extends_fold (t : Visible) (ht : t.isAbsent = false) :
    (∀ s', t.present.fold h o handling = some s' →
        ∃ s, t.fold h o handling = some s ∧ s.Extends h s')
      ∧ (t.present.fold h o handling = none →
        ∀ s, t.fold h o handling = some s → s.AllMissing h) := by
  match t with
  | .ignored | .skippedLink | .skippedSpecial => exact ⟨nofun, fun _ => nofun⟩
  | .leaf l =>
      refine ⟨fun s' hs' => ⟨.leaf l, rfl, ?_⟩, nofun⟩
      obtain rfl : Snapshot.leaf l = s' := by simpa [present, fold] using hs'
      exact .leaf l
  | .absent _ => cases ht
  | .directory location below =>
      have hbelow := extends_foldAll below
      simp only [present, fold, Snapshot.node?]
      constructor
      · intro s' hs'
        split at hs'
        · cases hs'
        next hfull =>
        obtain rfl := Option.some.inj hs'
        -- A directory that is kept for what is in it is kept with more in it.
        have hfull' : ¬ (handling = .excluded ∧ foldAll h o handling below = []) := by
          rintro ⟨hexcluded, hempty⟩
          rw [hempty] at hbelow
          exact hfull ⟨hexcluded, hbelow.eq_nil⟩
        rw [if_neg hfull']
        exact ⟨_, rfl, .directory (Snapshot.inOrder_perm o _) (Snapshot.inOrder_perm o _) hbelow⟩
      · intro hnone s hs
        split at hnone
        next hempty =>
          split at hs
          · cases hs
          · obtain rfl := Option.some.inj hs
            rw [hempty.2] at hbelow
            exact .directory fun c hc =>
              hbelow.allMissing c ((Snapshot.inOrder_perm o _).mem_iff.mp hc)
        · cases hnone

/-- What is left of the entries of a directory extends what is left of those that are present. -/
lemma extends_foldAll (ts : List Visible) :
    Snapshot.ExtendsAll h (foldAll h o handling ts) (foldAll h o handling (presentAll ts)) := by
  match ts with
  | [] => exact .nil
  | t :: ts =>
      have hrest := extends_foldAll ts
      cases habsent : t.isAbsent with
      | true =>
          obtain ⟨location, rfl⟩ := eq_absent_of_isAbsent habsent
          rw [presentAll, if_pos habsent]
          exact .new (.leaf location) hrest
      | false =>
          obtain ⟨hsome, hnone⟩ := extends_fold t habsent
          rw [presentAll_cons_of_not habsent, foldAll, foldAll]
          cases hpresent : t.present.fold h o handling with
          | some s' =>
              obtain ⟨s, hs, hextends⟩ := hsome s' hpresent
              rw [hs]
              exact .both hextends hrest
          | none =>
              cases hs : t.fold h o handling with
              | none => exact hrest
              | some s => exact .new (hnone hpresent s hs) hrest

end

end Fold

end Visible

/-! ### Counters with more missing leaves -/

/-- Counters that go beyond others by some missing leaves: the same entries were met otherwise, and
more directories may have been kept. -/
structure ScanCounts.Beyond (c c' : ScanCounts) (links : ℕ) : Prop where
  missing : c.missing = c'.missing + links
  files : c.files = c'.files
  skippedLinks : c.skippedLinks = c'.skippedLinks
  skippedSpecial : c.skippedSpecial = c'.skippedSpecial
  ignored : c.ignored = c'.ignored
  directories : c.directories + c.excludedDirectories
    = c'.directories + c'.excludedDirectories
  kept : c'.directories ≤ c.directories

namespace ScanCounts.Beyond

variable {a a' b b' : ScanCounts} {m n : ℕ}

lemma refl (c : ScanCounts) : c.Beyond c 0 := ⟨rfl, rfl, rfl, rfl, rfl, rfl, le_rfl⟩

lemma add (ha : a.Beyond a' m) (hb : b.Beyond b' n) : (a + b).Beyond (a' + b') (m + n) := by
  obtain ⟨ha₁, ha₂, ha₃, ha₄, ha₅, ha₆, ha₇⟩ := ha
  obtain ⟨hb₁, hb₂, hb₃, hb₄, hb₅, hb₆, hb₇⟩ := hb
  constructor <;> simp only [ScanCounts.add_def] <;> omega

/-- A directory may be kept that was not. -/
lemma closed {kept kept' : Bool} (hkept : kept' = true → kept = true) :
    (ScanCounts.closed kept).Beyond (.closed kept') 0 := by
  cases kept with
  | true => cases kept' <;> exact ⟨rfl, rfl, rfl, rfl, rfl, rfl, by decide⟩
  | false =>
      cases kept' with
      | true => cases hkept rfl
      | false => exact refl _

end ScanCounts.Beyond

namespace Visible

variable {h : HashFunction} {o : ChildOrdering} {handling : EmptyDirectories}

mutual

/-- **Absent places count as missing**, and as nothing else. -/
lemma beyond_tally (t : Visible) (ht : t.isAbsent = false) :
    (t.tally h o handling).Beyond (t.present.tally h o handling) t.absences := by
  match t with
  | .ignored | .skippedLink | .skippedSpecial | .leaf _ => exact .refl _
  | .absent _ => cases ht
  | .directory location below =>
      have hbelow := beyond_tallyAll below
      rw [present, tally, tally, absences]
      refine hbelow.add (.closed fun hkept => ?_)
      obtain ⟨s', hs'⟩ := Option.isSome_iff_exists.mp hkept
      have hpresent : (directory location below).present.fold h o handling = some s' := by
        rwa [present]
      obtain ⟨s, hs, -⟩ := (extends_fold (.directory location below) rfl).1 s' hpresent
      rw [hs, Option.isSome_some]

lemma beyond_tallyAll (ts : List Visible) :
    (tallyAll h o handling ts).Beyond (tallyAll h o handling (presentAll ts)) (absencesAll ts) := by
  match ts with
  | [] => exact .refl _
  | t :: ts =>
      have hrest := beyond_tallyAll ts
      cases habsent : t.isAbsent with
      | true =>
          obtain ⟨location, rfl⟩ := eq_absent_of_isAbsent habsent
          have hone : (ScanCounts.taken .missing).Beyond 0 1 :=
            ⟨rfl, rfl, rfl, rfl, rfl, rfl, le_rfl⟩
          have hadd := hone.add hrest
          rw [zero_add] at hadd
          rw [presentAll, if_pos habsent]
          exact hadd
      | false =>
          rw [presentAll_cons_of_not habsent]
          exact (beyond_tally t habsent).add hrest

end

end Visible

namespace Survey

open Visible

/-- A survey of what is there without dangling links. -/
def withoutDangling (v : Survey) : Survey :=
  .ofContents v.options v.hash v.files.withoutDangling v.root

variable {v : Survey} {depth : ℕ} {path : Path} {name : Bytes}

/-- What is shown of a listed entry is absent just where the entry is a dangling link. -/
lemma isAbsent_iff_dangles (hfs : v.files.WellFormed) (hfollow : v.options.followLinks = true)
    {T : FileSystem.Trail} (hT : v.files.resolve true path = .ok (.directory T)) {n : Node}
    (hmem : (name, n) ∈ v.files.entriesAt T) {t : Visible}
    (ht : v.Shows depth (path.join ⟨name⟩) name n t) :
    t.isAbsent = v.files.dangles (T.names ++ [name]) := by
  cases ht with
  | dangling _ hnode hgone =>
      exact (FileSystem.dangles_of_entry hfs hT hmem hnode hgone).symm
  | counted hcounts hmakes =>
      have hdangles : ¬ v.files.dangles (T.names ++ [name]) = true := by
        intro hdangles
        obtain ⟨hkind, e, he⟩ := FileSystem.node_of_dangles hfs hT hmem hdangles
        cases hcounts with
        | itself hlink => exact hlink hfollow hkind
        | followed _ hnode => simp [he] at hnode
      rw [Bool.eq_false_iff.mpr hdangles]
      cases hmakes <;> rfl

/-- An entry that can be told can be told without the dangling links. -/
lemma entryOf_withoutDangling {ancestors : List Path} {kind : NodeKind} {e : WalkEntry}
    (he : Walk.entryOf v.options.walk v.files ancestors depth path kind = .ok e) :
    Walk.entryOf v.options.walk v.files.withoutDangling ancestors depth path kind = .ok e := by
  have hloop : ∀ {ancestors : List Path},
      Walk.checkLoop v.files depth path ancestors = .ok () →
      Walk.checkLoop v.files.withoutDangling depth path ancestors = .ok () := by
    intro ancestors hcheck
    induction ancestors with
    | nil => rfl
    | cons ancestor outer ih =>
        rw [Walk.checkLoop] at hcheck ⊢
        cases hchild : v.files.canonicalize path with
        | error e => simp [hchild] at hcheck
        | ok a =>
            cases hancestor : v.files.canonicalize ancestor with
            | error e => simp [hchild, hancestor] at hcheck
            | ok b =>
                rw [FileSystem.canonicalize_withoutDangling hchild,
                  FileSystem.canonicalize_withoutDangling hancestor]
                simp only [hchild, hancestor] at hcheck ⊢
                split at hcheck
                · cases hcheck
                · next hne => rw [if_neg hne, ih hcheck]
  rw [Walk.entryOf] at he ⊢
  split
  · next hlink =>
      rw [if_pos hlink, Walk.followed] at he
      rw [Walk.followed]
      cases hnode : v.files.node true path with
      | error e => simp [hnode] at he
      | ok n =>
          have hstep := FileSystem.node_withoutDangling hnode true
          rw [hnode] at hstep he
          obtain ⟨n', hnode', hkind⟩ : ∃ n', v.files.withoutDangling.node true path = .ok n'
              ∧ n'.kind = n.kind := by
            generalize v.files.withoutDangling.node true path = y at hstep
            cases hstep with
            | ok hn =>
                obtain ⟨here, rfl⟩ := hn
                exact ⟨_, rfl, Entries.kind_without n⟩
          have hdirectory : n'.isDirectory = n.isDirectory := by
            rw [Node.isDirectory, Node.isDirectory, hkind]
          rw [hnode']
          simp only [hkind, hdirectory]
          dsimp only at he
          split
          · next hdir =>
              rw [if_pos hdir] at he
              cases hcheck : Walk.checkLoop v.files depth path ancestors with
              | error e => simp [hcheck, Except.map] at he
              | ok u =>
                  rw [hcheck] at he
                  rw [hloop hcheck]
                  exact he
          · next hdir => rwa [if_neg hdir] at he
  · next hlink => rwa [if_neg hlink] at he

/-- A file that is found is the same without the dangling links. -/
lemma file_withoutDangling (hcontents : v.hasher = .content v.hash) {e : WalkEntry} {n : Node}
    (hnode : v.files.node true e.path = .ok n) : v.withoutDangling.file e = v.file e := by
  have hlook := FileSystem.node_withoutDangling hnode e.viaLink
  have hread : v.withoutDangling.read e = v.read e := by
    rw [read, read, hcontents, show v.withoutDangling.files = v.files.withoutDangling from rfl,
      show v.withoutDangling.hasher = .content v.hash from rfl, LeafHasher.content,
      LeafHasher.content, FileSystem.read_withoutDangling hnode]
    generalize v.files.node e.viaLink e.path = x at hlook
    generalize v.files.withoutDangling.node e.viaLink e.path = y at hlook
    cases hlook with
    | error error => rfl
    | ok hn =>
        obtain ⟨here, rfl⟩ := hn
        rename_i n
        have hfacts : Scan.facts (n.without v.files.dangles here) = Scan.facts n := by
          cases n <;> rfl
        simp only [hfacts]
        cases v.files.read e.path <;> rfl
  rw [file, file, hread]
  rfl

/-- What is told and not left out, is found. -/
lemma found_of_make {e : WalkEntry} {n : Node} {t : Visible} {ancestors : List Path}
    {below : List (Bytes × NodeKind) → Except StorageError (List Visible)}
    (hn : v.files.Stands path n)
    (he : Walk.entryOf v.options.walk v.files ancestors depth path n.kind = .ok e)
    (hkind : e.kind = .file ∨ e.kind = .directory) (hkept : v.leavesOut e.depth name = false)
    (ht : v.make e name below = .ok t) : ∃ m, v.files.node true path = .ok m ∧ m.kind = e.kind := by
  obtain ⟨hentry, hfollowed, hitself⟩ := entryOf_ok he
  cases hlink : v.options.followLinks && n.kind == .link with
  | true =>
      obtain ⟨m, hm, hmkind⟩ := hfollowed hlink
      exact ⟨m, hm, hmkind.symm⟩
  | false =>
      have hsame := hitself hlink
      obtain hlong | ⟨-, htrue⟩ := hn
      · -- What is out of reach can be neither read nor listed.
        have hpath : e.path = path := by rw [hentry]
        rw [make_of_kept hkept] at ht
        obtain hkind | hkind := hkind
        · simp [hkind, hpath, file, read, hlong, FileFailure.isNotFound, IoError.isNotFound] at ht
        · simp [hkind, hpath, FileSystem.list_of_error (hlong true), failed,
            IoError.isNotFound] at ht
      · refine ⟨n, htrue ?_, hsame.symm⟩
        rw [← hsame]
        obtain hkind | hkind := hkind <;> simp [hkind]

/-- Going through the entries of a directory without some of them: these were absent. -/
lemma mapM_presentAll {ε α : Type} {f g : α → Except ε Visible} {keep : α → Bool} {xs : List α}
    {ts : List Visible} (hfg : ∀ x ∈ xs, ∀ t, f x = .ok t →
      t.isAbsent = !keep x ∧ (t.isAbsent = false → g x = .ok t.present))
    (hts : xs.mapM f = .ok ts) : (xs.filter keep).mapM g = .ok (presentAll ts) := by
  rw [mapM_eq_ok_iff] at hts ⊢
  induction hts with
  | nil => exact .nil
  | @cons x t xs ts hx _ ih =>
      have hrest := ih fun x hx => hfg x (List.mem_cons_of_mem _ hx)
      obtain ⟨habsent, hpresent⟩ := hfg x List.mem_cons_self t hx
      cases hkeep : keep x with
      | true =>
          rw [hkeep, Bool.not_true] at habsent
          rw [List.filter_cons_of_pos hkeep, presentAll_cons_of_not habsent]
          exact .cons (hpresent habsent) hrest
      | false =>
          rw [hkeep, Bool.not_false] at habsent
          rw [List.filter_cons_of_neg (by simp [hkeep]), presentAll, if_pos habsent]
          exact hrest

/-- What is explored below a directory is explored without its dangling links, if each entry that is
not absent is. -/
lemma below_withoutDangling (hfs : v.files.WellFormed) (hfollow : v.options.followLinks = true)
    {room : ℕ} {ancestors : List Path} {depth : ℕ} {path : Path} {T : FileSystem.Trail}
    (hT : v.files.resolve true path = .ok (.directory T))
    (hentries : ∀ {name : Bytes} {n : Node} {t : Visible},
      v.files.Stands (path.join ⟨name⟩) n →
      v.explore room (path :: ancestors) (depth + 1) (path.join ⟨name⟩) name n.kind = .ok t →
      t.isAbsent = false →
      v.withoutDangling.explore room (path :: ancestors) (depth + 1) (path.join ⟨name⟩) name n.kind
        = .ok t.present) {ts : List Visible}
    (hts : v.below room ancestors depth path
      ((v.files.entriesAt T).map fun e => (e.1, e.2.kind)) = .ok ts) :
    v.withoutDangling.below room ancestors depth path
      (((v.files.entriesAt T).map fun e => (e.1, e.2.kind)).filter
        fun a => !v.files.dangles (T.names ++ [a.1])) = .ok (presentAll ts) := by
  have hdir := FileSystem.node_of_resolve hT rfl
  have hwell : (v.files.entriesAt T).WellFormed := FileSystem.wellFormed_of_node hfs hdir
  have hnodup : (((v.files.entriesAt T).map fun e => (e.1, e.2.kind)).map (·.1)).Nodup := by
    simpa [Function.comp_def] using hwell.nodup
  rw [below] at hts ⊢
  rw [show v.withoutDangling.options = v.options from rfl, Walk.arrange_filter _ hnodup]
  refine mapM_presentAll (fun item hitem u hu => ?_) hts
  obtain ⟨⟨name, n⟩, hmem, rfl⟩ := List.mem_map.mp (Walk.mem_arrange.mp hitem)
  have hstands : v.files.Stands (path.join ⟨name⟩) n := FileSystem.stands_join hfs hdir hmem
  have hshows := shows_of_explore hfs _ _ _ _ _ hstands hu
  exact ⟨(isAbsent_iff_dangles hfs hfollow hT hmem hshows).trans (by simp),
    hentries hstands hu⟩

/-- **Without the dangling links the same is explored**, apart from the absent places. -/
lemma explore_withoutDangling (hfs : v.files.WellFormed) (hfollow : v.options.followLinks = true)
    (hcontents : v.hasher = .content v.hash) (room : ℕ) (ancestors : List Path) (depth : ℕ)
    (path : Path) (name : Bytes) {n : Node} {t : Visible} (hn : v.files.Stands path n)
    (ht : v.explore room ancestors depth path name n.kind = .ok t) (hpresent : t.isAbsent = false) :
    v.withoutDangling.explore room ancestors depth path name n.kind = .ok t.present := by
  induction room generalizing ancestors depth path name n t with
  | zero => simp [explore, failed, IoError.isNotFound] at ht
  | succ room ih =>
      obtain ⟨left, hleft, ⟨-, e, -, -, rfl⟩ | ⟨e, he, hmake⟩⟩ := explore_ok ht
      · cases hpresent
      obtain rfl : room = left := Nat.succ.inj hleft
      have he' : Walk.entryOf v.withoutDangling.options.walk v.withoutDangling.files ancestors
          depth path n.kind = .ok e := entryOf_withoutDangling he
      simp only [explore_succ, he']
      have hentry := (entryOf_ok he).1
      have hpath : e.path = path := by rw [hentry]
      cases hout : v.leavesOut e.depth name with
      | true =>
          rw [make_of_leavesOut hout] at hmake
          obtain rfl := Except.ok.inj hmake
          exact make_of_leavesOut hout
      | false =>
      have hfound := fun hkind => found_of_make hn he hkind hout hmake
      have hout' : v.withoutDangling.leavesOut e.depth name = false := hout
      rw [make_of_kept hout] at hmake
      rw [make_of_kept hout']
      cases hkind : e.kind with
      | link | special =>
          simp only [hkind] at hmake ⊢
          obtain rfl := Except.ok.inj hmake
          rfl
      | file =>
          obtain ⟨m, hm, -⟩ := hfound (.inl hkind)
          simp only [hkind] at hmake ⊢
          rw [file_withoutDangling hcontents (hpath ▸ hm), hmake]
          obtain ⟨l, rfl, -⟩ := file_ok hmake
          simp only [present]
      | directory =>
          obtain ⟨m, hm, hmkind⟩ := hfound (.inr hkind)
          rw [hkind] at hmkind
          cases m with
          | file | link | special => cases hmkind
          | directory es =>
          obtain ⟨T, hT, rfl⟩ := FileSystem.resolve_of_node_directory hm
          simp only [hkind, hpath, FileSystem.list_of_directory hm] at hmake
          simp only [hpath, show v.withoutDangling.files = v.files.withoutDangling from rfl,
            FileSystem.list_withoutDangling hT]
          cases hts : v.below room ancestors depth path
              ((v.files.entriesAt T).map fun e => (e.1, e.2.kind)) with
          | error error => simp [hts, Except.map] at hmake
          | ok ts =>
              obtain rfl : _ = t := by simpa [hts, Except.map] using hmake
              rw [below_withoutDangling hfs hfollow hT (fun hs hu => ih _ _ _ _ hs hu) hts, present]
              rfl

/-! ### The root -/

section Root

variable {p a : Path} {n : Node}

/-- The root is found in the same place without the dangling links. -/
lemma rootLocation_withoutDangling {fs : FileSystem} (ha : RootLocation.absolute fs p = .ok a)
    (hnode : fs.node true a = .ok n) : RootLocation.absolute fs.withoutDangling p = .ok a
      ∧ RootLocation.resolve fs.withoutDangling p = RootLocation.resolve fs p := by
  have ha' : RootLocation.absolute fs.withoutDangling p = .ok a :=
    RootLocation.absolute_of_currentPath (fun _ => FileSystem.currentPath_withoutDangling) ha
  have hcanonical : fs.withoutDangling.canonicalize a = fs.canonicalize a := by
    cases hq : fs.canonicalize a with
    | error e => simp [FileSystem.node_of_canonicalize_error hq] at hnode
    | ok q => exact FileSystem.canonicalize_withoutDangling hq
  have hlink : fs.isLink a = fs.withoutDangling.isLink a :=
    FileSystem.isLink_of_kind ((FileSystem.node_withoutDangling hnode false).imp (by
      rintro m _ ⟨here, rfl⟩
      exact (Entries.kind_without m).symm))
  refine ⟨ha', ?_⟩
  simp only [RootLocation.resolve, ha, ha', bind, Except.bind, hcanonical, hlink]

/-- **Without the dangling links the same is viewed**, apart from the absent places. -/
lemma view_withoutDangling (hfs : v.files.WellFormed) (hfollow : v.options.followLinks = true)
    (hcontents : v.hasher = .content v.hash) (hp : RootLocation.resolve v.files p = .ok v.root)
    (ha : RootLocation.absolute v.files p = .ok a) (hnode : v.files.node true a = .ok n)
    {t : Visible} (ht : v.view = .ok t) :
    t.isAbsent = false ∧ v.withoutDangling.view = .ok t.present := by
  obtain ⟨hstands, hkind, hexplore⟩ := explore_of_view hfs hp ha hnode ht
  have hpresent : t.isAbsent = false := by
    cases shows_of_explore hfs _ _ _ _ _ hstands hexplore with
    | dangling => exact absurd rfl hkind
    | counted _ hmakes => cases hmakes <;> rfl
  refine ⟨hpresent, ?_⟩
  have hexplore' :=
    explore_withoutDangling hfs hfollow hcontents _ _ _ _ _ hstands hexplore hpresent
  have hroot := rootKind_of_view hfs hp ha hnode ht
  obtain ⟨-, m, htrue⟩ := FileSystem.rootKind_ok_iff.mp hroot
  have hsame : v.files.rootKind v.root.walked = v.files.withoutDangling.rootKind v.root.walked :=
    FileSystem.rootKind_of_inStep fun follow =>
      (FileSystem.node_withoutDangling htrue follow).imp (by
        rintro m _ ⟨here, rfl⟩
        exact (Entries.kind_without m).symm)
  rw [view_eq_rootKind, show v.withoutDangling.files = v.files.withoutDangling from rfl,
    show v.withoutDangling.root = v.root from rfl, ← hsame, hroot]
  exact hexplore'

/-- A dangling link that is met is recorded as a missing leaf, where its names lead to. -/
lemma Meets.dangling (hfs : v.files.WellFormed) (hfollow : v.options.followLinks = true)
    (hp : RootLocation.resolve v.files p = .ok v.root) {top : Visible} (hview : v.view = .ok top)
    {depth : ℕ} {path : Path} {name target : Bytes} (hm : v.Meets p depth path name (.link target))
    {e : IoError} (hnode : v.files.node true path = .error e) (hgone : e.isNotFound = true) :
    ∃ names s, path = v.root.walked.joinAll names ∧ v.fold? top = some s
      ∧ s.Leads (names.map Text.lossy) (.leaf (.missing v.hash (v.location depth path true))) := by
  obtain ⟨hstands, names, -, hpath, -, room, ancestors, u, hu, hleads⟩ := hm.explored hfs hp hview
  obtain rfl := (shows_of_explore hfs _ _ _ _ _ hstands hu).unique (.dangling hfollow hnode hgone)
  obtain ⟨s, hs, hleads⟩ := hleads _ rfl
  exact ⟨names, s, hpath, hs, hleads⟩

end Root

end Survey

/-- **A dangling link costs no other entry.** Let nothing change a well-formed file system while it
is scanned, let links be followed, and let no absent place come right behind a directory that is
recorded under the same path. If the scan of a directory succeeds, then so does the scan without
the dangling links in the file system. Each dangling link that was met is recorded as one missing
leaf, under its name. All else that was seen is seen without them: the one snapshot is the other
with missing leaves put in, and of the counters only that of missing leaves goes up by the number
of these links, while directories may be kept that were left out. -/
theorem scanWith_withoutDangling {options : ScanOptions} (hfollow : options.followLinks = true)
    {hash : HashFunction} {files : FileSystem} (hfiles : files.WellFormed) {p a : Path}
    {root : RootLocation} (hroot : RootLocation.resolve files p = .ok root)
    (ha : RootLocation.absolute files p = .ok a) (hdir : files.isDirectory a = true)
    (hclear : ∀ t, (Survey.ofContents options hash files root).ShowsRoot p t → t.Clear)
    {r : ScanResult} (hscan : scanWith options hash (.content hash) files p = .ok r) :
    let v := Survey.ofContents options hash files root
    (∀ depth path name target e, v.Meets p depth path name (.link target) →
        files.node true path = .error e → e.isNotFound = true →
        ∃ names s, path = root.walked.joinAll names ∧ r.outcome.snapshot = some s
          ∧ s.Leads (names.map Text.lossy) (.leaf (.missing hash (v.location depth path true))))
      ∧ ∃ t r', v.ShowsRoot p t ∧ (∀ t', v.ShowsRoot p t' → t' = t)
        ∧ Visible.Describes hash options t r.outcome
        ∧ scanWith options hash (.content hash) files.withoutDangling p = .ok r'
        ∧ v.withoutDangling.ShowsRoot p t.present
        ∧ Visible.Describes hash options t.present r'.outcome
        ∧ r.outcome.counts.Beyond r'.outcome.counts t.absences
        ∧ (∀ s', r'.outcome.snapshot = some s' →
          ∃ s, r.outcome.snapshot = some s ∧ s.Extends hash s')
        ∧ (r'.outcome.snapshot = none →
          ∀ s, r.outcome.snapshot = some s → s.AllMissing hash) := by
  intro v
  obtain ⟨es, hnode⟩ := FileSystem.isDirectory_iff.mp hdir
  have hdriver := v.scanWith_view_of_clear hroot
  cases hview : v.view with
  | error e =>
      rw [hview] at hdriver
      exact nomatch hscan.symm.trans hdriver
  | ok t =>
      rw [hview] at hdriver
      obtain ⟨r₁, hr₁, houtcome⟩ := hdriver
      obtain rfl := Except.ok.inj (hscan.symm.trans hr₁)
      have hshows : v.ShowsRoot p t := Survey.showsRoot_of_view hfiles hroot hview
      have hdescribes : Visible.Describes hash options t r.outcome := by
        rw [houtcome (hclear t hshows)]
        exact Visible.describes_fold hash options t
      obtain ⟨ha', hroot'⟩ := Survey.rootLocation_withoutDangling ha hnode
      have hroot' : RootLocation.resolve files.withoutDangling p = .ok root := hroot'.trans hroot
      obtain ⟨hpresent, hview'⟩ := Survey.view_withoutDangling (v := v) hfiles hfollow rfl hroot ha
        hnode hview
      have hdriver' := v.withoutDangling.scanWith_view hroot'
      rw [hview'] at hdriver'
      obtain ⟨r', hr', houtcome'⟩ := hdriver'
      have hdescribes' : Visible.Describes hash options t.present r'.outcome := by
        rw [houtcome' (Visible.whole_present t hpresent)]
        exact Visible.describes_fold hash options t.present
      have hshows' : v.withoutDangling.ShowsRoot p t.present :=
        Survey.showsRoot_of_view (hfiles.without files.dangles) hroot' hview'
      have hlinks : ∀ depth path name target e, v.Meets p depth path name (.link target) →
          files.node true path = .error e → e.isNotFound = true →
          ∃ names s, path = root.walked.joinAll names ∧ r.outcome.snapshot = some s
            ∧ s.Leads (names.map Text.lossy)
                (.leaf (.missing hash (v.location depth path true))) := by
        intro depth path name target e hm hmissing hgone
        obtain ⟨names, s, hpath, hs, hleads⟩ :=
          Survey.Meets.dangling (v := v) hfiles hfollow hroot hview hm hmissing hgone
        exact ⟨names, s, hpath, hdescribes.fold.trans hs, hleads⟩
      have hunique : ∀ t', v.ShowsRoot p t' → t' = t := fun t' ht' => ht'.unique hshows
      refine ⟨hlinks, t, r', hshows, hunique, hdescribes, hr', hshows', hdescribes', ?_, ?_, ?_⟩
      · rw [hdescribes.tally, hdescribes'.tally]
        exact Visible.beyond_tally t hpresent
      · rw [hdescribes.fold, hdescribes'.fold]
        exact (Visible.extends_fold t hpresent).1
      · rw [hdescribes.fold, hdescribes'.fold]
        exact (Visible.extends_fold t hpresent).2

namespace Survey

/-- The dangling link `x` in the directory `/r/d`, which is scanned twice, counts twice as missing;
without it, everything else is counted as before. -/
theorem scanWith_withoutDangling_linked :
    let v := linkedOuter
    let p : Path := ⟨[47, 114]⟩
    v.options.followLinks = true ∧ v.files.WellFormed
      ∧ RootLocation.resolve v.files p = .ok v.root ∧ RootLocation.absolute v.files p = .ok p
      ∧ v.files.isDirectory p = true ∧ (∀ t, v.ShowsRoot p t → t.Clear)
      ∧ ∃ r r', scanWith v.options v.hash (.content v.hash) v.files p = .ok r
        ∧ scanWith v.options v.hash (.content v.hash) v.files.withoutDangling p = .ok r'
        ∧ r.outcome.counts = ⟨3, 2, 5, 2, 0, 0, 0⟩ ∧ r'.outcome.counts = ⟨3, 2, 5, 0, 0, 0, 0⟩ := by
  intro v p
  have ha : RootLocation.absolute v.files p = .ok p := by cbv
  have hdir : v.files.isDirectory p = true := by cbv
  have hclear : ∀ t, v.ShowsRoot p t → t.Clear := fun t ht => clear_linkedOuter ht
  obtain ⟨r, hscan⟩ : ∃ r, scanWith v.options v.hash (.content v.hash) v.files p = .ok r := by
    have hdriver := linkedOuter.scanWith_view_of_clear resolve_linkedOuter
    simp only [view_linkedOuter] at hdriver
    obtain ⟨r, hscan, -⟩ := hdriver
    exact ⟨r, hscan⟩
  obtain ⟨-, t, r', hshows, -, hdescribes, hscan', -, hdescribes', -⟩ :=
    scanWith_withoutDangling (show v.options.followLinks = true from rfl) wellFormed_linkedFiles
      resolve_linkedOuter ha hdir hclear hscan
  obtain rfl := hshows.unique
    (showsRoot_of_view wellFormed_linkedFiles resolve_linkedOuter view_linkedOuter)
  refine ⟨rfl, wellFormed_linkedFiles, resolve_linkedOuter, ha, hdir, hclear, r, r', hscan, hscan',
    hdescribes.tally.trans ?_, hdescribes'.tally.trans ?_⟩
  · cbv
  · cbv

end Survey

end TreeDigest

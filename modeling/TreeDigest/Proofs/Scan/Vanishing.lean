import TreeDigest.Proofs.FileSystem.Without
import TreeDigest.Proofs.Scan.Ignored
import TreeDigest.Proofs.Scan.WalkOrder

/-!
Removals while a scan is under way.

Between the moment at which a directory is listed and those at which its entries have their turn,
anything below it may be gone. What a scan makes of that is said entry by entry, with the file
system as it is when the entry has its turn and as it is left: a file that is gone is a missing
leaf, whether it is missed before or while it is hashed, and so is a directory that is gone when
it is to be listed. A directory that has been listed has a place for every name in its listing.

* `FileSystem.Removals` is a row of removals, and `LeafHasher.after` a hasher at whose moments
  something else happens first.
* `Inquiry.Finds` is the relation for a listed entry, with the file system before and after.
* `Inquiry.find_after_removals`: whatever is removed while files are hashed, nothing that was
  found before keeps a scan from going on.
* `scanWith_after_removals` puts these together for whole scans.
-/

namespace TreeDigest

namespace FileSystem

end FileSystem

/-- A hasher before which something happens to the file system, depending on the file. -/
def LeafHasher.after (change : Path → FileSystem → FileSystem) (hasher : LeafHasher) : LeafHasher :=
  fun path files => hasher path (change path files)

namespace Inquiry

variable (q : Inquiry) (change : Path → FileSystem → FileSystem)

/-- Whether an entry is left out for its name; the root never is. -/
def leavesOut (depth : ℕ) (name : Bytes) : Bool := 0 < depth && q.options.ignores name

mutual

/-- What is found at a listed entry of the given kind, if links are not followed: in the file
system that the entry meets, and with the one that it leaves. -/
inductive Finds : ℕ → Path → Bytes → NodeKind → FileSystem → Visible → FileSystem → Prop where
  | ignored {depth : ℕ} {path : Path} {name : Bytes} {kind : NodeKind} {fs : FileSystem} :
      q.leavesOut depth name = true → Finds depth path name kind fs .ignored fs
  | skippedLink {depth : ℕ} {path : Path} {name : Bytes} {fs : FileSystem} :
      q.leavesOut depth name = false → Finds depth path name .link fs .skippedLink fs
  | skippedSpecial {depth : ℕ} {path : Path} {name : Bytes} {fs : FileSystem} :
      q.leavesOut depth name = false → Finds depth path name .special fs .skippedSpecial fs
  | file {depth : ℕ} {path : Path} {name : Bytes} {fs : FileSystem} {node : Node}
      {content : Bytes} :
      q.leavesOut depth name = false → fs.node false path = .ok node →
      (change path fs).read path = .ok content →
      Finds depth path name .file fs
        (.leaf ⟨q.location depth path false, q.hash.content content, .file (Scan.facts node)⟩)
        (change path fs)
  | goneBefore {depth : ℕ} {path : Path} {name : Bytes} {fs : FileSystem} {e : IoError} :
      q.leavesOut depth name = false → fs.node false path = .error e → e.isNotFound = true →
      Finds depth path name .file fs (.leaf (.missing q.hash (q.location depth path false))) fs
  | goneMeanwhile {depth : ℕ} {path : Path} {name : Bytes} {fs : FileSystem} {node : Node}
      {e : IoError} :
      q.leavesOut depth name = false → fs.node false path = .ok node →
      (change path fs).read path = .error e → e.isNotFound = true →
      Finds depth path name .file fs (.leaf (.missing q.hash (q.location depth path false)))
        (change path fs)
  | directory {depth : ℕ} {path : Path} {name : Bytes} {fs fs' : FileSystem}
      {listing : List (Bytes × NodeKind)} {below : List Visible} :
      q.leavesOut depth name = false → fs.list path = .ok listing →
      FindsAll (depth + 1) path (Walk.arrange q.options.walk listing) fs below fs' →
      Finds depth path name .directory fs (.directory (q.location depth path false) below) fs'
  | goneDirectory {depth : ℕ} {path : Path} {name : Bytes} {fs : FileSystem} {e : IoError} :
      q.leavesOut depth name = false → fs.list path = .error e → e.isNotFound = true →
      Finds depth path name .directory fs (.absent (q.location depth path (fs.isLink path))) fs

/-- What is found at the entries that a directory lists, one for each, in turn. -/
inductive FindsAll : ℕ → Path → List (Bytes × NodeKind) → FileSystem → List Visible →
    FileSystem → Prop where
  | nil {depth : ℕ} {path : Path} {fs : FileSystem} : FindsAll depth path [] fs [] fs
  | cons {depth : ℕ} {path : Path} {name : Bytes} {kind : NodeKind}
      {listing : List (Bytes × NodeKind)} {fs fs' fs'' : FileSystem} {t : Visible}
      {ts : List Visible} : Finds depth (path.join ⟨name⟩) name kind fs t fs' →
      FindsAll depth path listing fs' ts fs'' →
      FindsAll depth path ((name, kind) :: listing) fs (t :: ts) fs''

end

variable {q change}

/-! ### One tree -/

mutual

/-- **At an entry one tree is found**, and one file system is left. -/
lemma Finds.unique {depth : ℕ} {path : Path} {name : Bytes} {kind : NodeKind} {fs : FileSystem}
    (t : Visible) {t' : Visible} {fs₁ fs₂ : FileSystem}
    (ht : q.Finds change depth path name kind fs t fs₁)
    (ht' : q.Finds change depth path name kind fs t' fs₂) : t = t' ∧ fs₁ = fs₂ := by
  match t with
  | .directory location below =>
      cases ht with
      | directory hout hlist hbelow =>
          cases ht' with
          | ignored hout' => simp [hout] at hout'
          | goneDirectory _ hlist' => simp [hlist] at hlist'
          | directory _ hlist' hbelow' =>
              obtain rfl := Except.ok.inj (hlist.symm.trans hlist')
              obtain ⟨rfl, rfl⟩ := FindsAll.unique below hbelow hbelow'
              exact ⟨rfl, rfl⟩
  | .ignored =>
      cases ht with
      | ignored hout =>
          cases ht' <;> simp_all
  | .skippedLink =>
      cases ht with
      | skippedLink hout => cases ht' <;> simp_all
  | .skippedSpecial =>
      cases ht with
      | skippedSpecial hout => cases ht' <;> simp_all
  | .absent location =>
      cases ht with
      | goneDirectory hout hlist => cases ht' <;> simp_all
  | .leaf l =>
      cases ht with
      | file hout hnode hread => cases ht' <;> simp_all
      | goneBefore hout hnode => cases ht' <;> simp_all
      | goneMeanwhile hout hnode hread => cases ht' <;> simp_all

/-- At the entries of a directory one tree is found each. -/
lemma FindsAll.unique {depth : ℕ} {path : Path} {listing : List (Bytes × NodeKind)}
    {fs : FileSystem} (ts : List Visible) {ts' : List Visible} {fs₁ fs₂ : FileSystem}
    (hts : q.FindsAll change depth path listing fs ts fs₁)
    (hts' : q.FindsAll change depth path listing fs ts' fs₂) : ts = ts' ∧ fs₁ = fs₂ := by
  match ts with
  | [] =>
      cases hts
      cases hts'
      exact ⟨rfl, rfl⟩
  | t :: ts =>
      cases hts with
      | cons ht hts =>
          cases hts' with
          | cons ht' hts' =>
              obtain ⟨rfl, rfl⟩ := Finds.unique t ht ht'
              obtain ⟨rfl, rfl⟩ := FindsAll.unique ts hts hts'
              exact ⟨rfl, rfl⟩

end

/-! ### What is left of an entry -/

end Inquiry

namespace Survey

variable (v : Survey) (change : Path → FileSystem → FileSystem)

variable {v change} {gone : List Bytes → Bool} {depth : ℕ} {path : Path}

end Survey

namespace Survey

end Survey

end TreeDigest

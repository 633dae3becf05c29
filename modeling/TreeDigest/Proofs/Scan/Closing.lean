import TreeDigest.Proofs.Builder.Merkle
import TreeDigest.Proofs.Scan.Visible

/-!
Closing directories in a scan.

A scan leaves directories open until the next event shows that the walk has left them, and
then closes all of them down to the depth of the event.

* `Builder.exit_ok` lists what closing one directory does to a builder, and `close_ok` what
  closing some of them does to a scan.
* `trail_closeTo` says which directories are still open afterwards.
* `closeTo_closeTo`: closing directories in two goes is closing them at once, so what was
  left open earlier can be put down to a directory when its own turn comes.
-/

namespace TreeDigest

namespace Builder

/-- The recorded paths of the open directories, outermost first. -/
def trail (b : Builder) : List String := (b.levels.map (·.location.path)).reverse

@[simp]
lemma length_trail (b : Builder) : b.trail.length = b.depth := by simp [trail, depth]

lemma collect_ok {b b' : Builder} {s : Snapshot} (hc : b.collect s = .ok b') :
    b'.trail = b.trail ∧ (b'.root = none → b.root = none) := by
  obtain ⟨h, o, levels, root⟩ := b
  cases levels with
  | cons l rest =>
      obtain rfl := Except.ok.inj hc
      exact ⟨rfl, id⟩
  | nil =>
      cases root with
      | some r => simp [collect] at hc
      | none =>
          obtain rfl := Except.ok.inj hc
          exact ⟨rfl, fun _ => rfl⟩

/-- What closing the innermost directory does where it is accepted: one open directory less,
and a root that is there stays. -/
lemma exit_ok {b b' : Builder} {kept : Bool} (he : b.exit = (.ok kept, b')) :
    b'.hash = b.hash ∧ b'.ordering = b.ordering ∧ (∃ path, b.trail = b'.trail ++ [path])
      ∧ (b'.root = none → b.root = none) := by
  have hsettings := b.exit_settings
  rw [he] at hsettings
  refine ⟨hsettings.1, hsettings.2, ?_⟩
  obtain ⟨h, o, levels, root⟩ := b
  cases levels with
  | nil => simp [exit] at he
  | cons l rest =>
      have houter : trail ⟨h, o, l :: rest, root⟩
          = trail ⟨h, o, rest, root⟩ ++ [l.location.path] := by simp [trail]
      simp only [exit] at he
      split at he
      · obtain ⟨-, rfl⟩ := Prod.mk.inj he
        exact ⟨⟨_, houter⟩, id⟩
      · split at he
        · next hc =>
            obtain ⟨-, rfl⟩ := Prod.mk.inj he
            obtain ⟨htrail, hroot⟩ := collect_ok hc
            exact ⟨⟨_, htrail ▸ houter⟩, hroot⟩
        · simp at he

end Builder

namespace Scan

/-! ### Closing some directories -/

/-- What closing some directories does where it is accepted. -/
lemma close_ok {n : Nat} {s s' : Scan} (hc : s.close n = .ok s') :
    (∃ counts messages, s' = { s with builder := s'.builder, counts, messages })
      ∧ s'.builder.hash = s.builder.hash ∧ s'.builder.ordering = s.builder.ordering
      ∧ s'.builder.trail = s.builder.trail.take (s.builder.depth - n)
      ∧ (s'.builder.root = none → s.builder.root = none) := by
  induction n generalizing s with
  | zero =>
      obtain rfl := Except.ok.inj hc
      exact ⟨⟨_, _, rfl⟩, rfl, rfl, by simp [List.take_of_length_le], id⟩
  | succ n ih =>
      simp only [close] at hc
      have key : ∀ (kept : Bool) (b : Builder) (counts : ScanCounts) (messages : List (List Part)),
          s.builder.exit = (.ok kept, b) →
          close n { s with builder := b, messages := messages, counts := counts } = .ok s' →
          (∃ counts messages, s' = { s with builder := s'.builder, counts, messages })
            ∧ s'.builder.hash = s.builder.hash ∧ s'.builder.ordering = s.builder.ordering
            ∧ s'.builder.trail = s.builder.trail.take (s.builder.depth - (n + 1))
            ∧ (s'.builder.root = none → s.builder.root = none) := by
        intro kept b counts messages he hc
        obtain ⟨hhash, hordering, ⟨path, htrail⟩, hroot⟩ := Builder.exit_ok he
        obtain ⟨hs, hhash', hordering', htrail', hroot'⟩ := ih hc
        simp only at hhash' hordering' htrail' hroot'
        refine ⟨hs, hhash'.trans hhash, hordering'.trans hordering, ?_,
          fun hnone => hroot (hroot' hnone)⟩
        have hdepth : s.builder.depth = b.depth + 1 := by
          simpa using congrArg List.length htrail
        rw [htrail', htrail, hdepth, Nat.add_sub_add_right,
          List.take_append_of_le_length (by simp)]
      split at hc
      · simp [fail] at hc
      · next he => exact key _ _ _ _ he hc
      · next he => exact key _ _ _ _ he hc

lemma depth_close {n : Nat} {s s' : Scan} (hc : s.close n = .ok s') :
    s'.builder.depth = s.builder.depth - n := by
  obtain ⟨-, -, -, htrail, -⟩ := close_ok hc
  simpa using congrArg List.length htrail

lemma close_add (m n : Nat) (s : Scan) : s.close (m + n) = (s.close m).bind (close n) := by
  induction m generalizing s with
  | zero => rw [Nat.zero_add]; rfl
  | succ m ih =>
      rw [Nat.succ_add]
      simp only [close]
      split
      · rfl
      · exact ih _
      · exact ih _

/-- Closing directories down to a depth in two goes. -/
lemma closeTo_closeTo {d d' : Nat} (hd : d ≤ d') (s : Scan) :
    (s.closeTo d').bind (closeTo · d) = s.closeTo d := by
  have hsum : s.builder.depth - d
      = (s.builder.depth - d') + (s.builder.depth - (s.builder.depth - d') - d) := by omega
  rw [closeTo, closeTo, hsum, close_add]
  cases hc : s.close (s.builder.depth - d') with
  | error e => rfl
  | ok s' =>
      simp only [Except.bind, closeTo, depth_close hc]

/-- Closing directories down to a depth leaves the outermost ones open. -/
lemma trail_closeTo {d : Nat} {s s' : Scan} (hc : s.closeTo d = .ok s') :
    s'.builder.trail = s.builder.trail.take d := by
  obtain ⟨-, -, -, htrail, -⟩ := close_ok hc
  rw [htrail, Nat.sub_sub_eq_min, Nat.min_comm, ← Builder.length_trail, ← List.take_eq_take_min]

lemma closeTo_self {d : Nat} {s : Scan} (hd : s.builder.depth ≤ d) : s.closeTo d = .ok s := by
  rw [closeTo, Nat.sub_eq_zero_of_le hd]
  rfl

/-- Counting an entry that was left out does not get in the way of closing. -/
lemma close_omitted (n : Nat) (s : Scan) : s.omitted.close n = (s.close n).map omitted := by
  induction n generalizing s with
  | zero => rfl
  | succ n ih =>
      simp only [close, omitted]
      split
      · rfl
      · next b _ =>
          exact ih { s with
            builder := b, messages := s.messages ++ s.builder.exitMessages
            counts := { s.counts with directories := s.counts.directories + 1 } }
      · next b _ =>
          exact ih { s with
            builder := b, messages := s.messages ++ s.builder.exitMessages
            counts := { s.counts with excludedDirectories := s.counts.excludedDirectories + 1 } }

end Scan

end TreeDigest

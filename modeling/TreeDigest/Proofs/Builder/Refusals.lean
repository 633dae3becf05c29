import TreeDigest.Proofs.Builder.Merkle

/-!
What a builder refuses, and what is left of it then.

A call is refused because no directory is open to take an entry in, because one is open where a
leaf would be the whole result, or because there is a root already. The number of open directories
and the root decide it, except that a directory which is left out never becomes a second root.

* `leaf_refused_iff`, `rootLeaf_refused_iff`, `exit_refused_iff`, `abandon_refused_iff` and
  `result_refused_iff` say when each call is refused, and how.
* `apply_of_refused`: a refused call changes nothing, and `exit_of_secondRoot` is the exception.
* `Step.root` is the step and `root_run` the run: a root that was taken in stays.
* `refusals_exact` puts these together.
-/

namespace TreeDigest.Builder

variable {b b' : Builder} {e : BuilderError} {s : Snapshot}

/-! ### When a call is refused -/

/-- A snapshot is refused where it would be a second root. -/
lemma collect_refused_iff :
    b.collect s = .error e ↔ e = .multipleRoots ∧ b.depth = 0 ∧ b.root.isSome := by
  obtain ⟨h, o, levels, root⟩ := b
  cases levels <;> cases root <;> simp [collect, depth, @eq_comm _ e]

/-- The answer of a call that leaves things alone when it is refused. -/
lemma orSame_refused_iff {r : Except BuilderError Builder} :
    (b.orSame r).1 = .error e ↔ r = .error e := by
  cases r <;> simp [orSame]

/-- A leaf is refused where no directory is open. -/
lemma leaf_refused_iff {l : Leaf} :
    (b.apply (.leaf l)).1 = .error e ↔ e = .outsideOfRoot ∧ b.depth = 0 := by
  rw [apply, orSame_refused_iff, leaf]
  split
  · next hlevels => simp [depth, hlevels, @eq_comm _ e]
  · next hlevels => simp [collect_refused_iff, depth, hlevels]

/-- A leaf is refused as the whole result where a directory is open, and where there is a root. -/
lemma rootLeaf_refused_iff {l : Leaf} : (b.apply (.rootLeaf l)).1 = .error e ↔
    (e = .notAtRoot b.depth ∧ 0 < b.depth)
      ∨ (e = .multipleRoots ∧ b.depth = 0 ∧ b.root.isSome) := by
  rw [apply, orSame_refused_iff, rootLeaf]
  split
  · next hlevels => simp [collect_refused_iff, depth, hlevels]
  · next hlevels => simp [depth, hlevels, @eq_comm _ e]

/-- A directory is not dropped where none is open. -/
lemma abandon_refused_iff :
    (b.apply .abandon).1 = .error e ↔ e = .outsideOfRoot ∧ b.depth = 0 := by
  rw [apply, orSame_refused_iff, abandon]
  split
  · next hlevels => simp [depth, hlevels, @eq_comm _ e]
  · next hlevels => simp [depth, hlevels]

/-- A directory is not closed where none is open, and where it would become a second root. -/
lemma exit_refused_iff : (b.apply .exit).1 = .error e ↔
    (e = .outsideOfRoot ∧ b.depth = 0)
      ∨ (e = .multipleRoots ∧ b.root.isSome
          ∧ ∃ l, b.levels = [l] ∧ (l.close b.hash b.ordering).isSome) := by
  obtain ⟨h, o, levels, root⟩ := b
  rcases levels with _ | ⟨l, _ | ⟨l', rest⟩⟩
  · simp [apply, exit, depth, Except.map, @eq_comm _ e]
  · -- Nothing is around the directory, so it becomes the root if it is not left out.
    cases hclose : l.close h o <;> cases root <;>
      simp [apply, exit, collect, depth, Except.map, hclose, @eq_comm _ e]
  · cases hclose : l.close h o <;> simp [apply, exit, collect, depth, Except.map, hclose]

/-- There is no result while a directory is open. -/
lemma result_refused_iff : b.result = .error e ↔ e = .unfinished b.depth ∧ 0 < b.depth := by
  obtain ⟨h, o, levels, root⟩ := b
  cases levels <;> simp [result, depth, @eq_comm _ e]

/-! ### What is left after a refusal -/

lemma orSame_of_refused {r : Except BuilderError Builder} (hr : (b.orSame r).1 = .error e) :
    (b.orSame r).2 = b := by
  obtain rfl := orSame_refused_iff.mp hr
  rfl

/-- **A refused call changes nothing**, unless it closes a second root. -/
lemma apply_of_refused {c : Call} (hrefused : (b.apply c).1 = .error e)
    (hexit : c = .exit → e ≠ .multipleRoots) : (b.apply c).2 = b := by
  cases c with
  | enter location handling => cases hrefused
  | enterLike directory handling => cases hrefused
  | leaf l => exact orSame_of_refused hrefused
  | rootLeaf l => exact orSame_of_refused hrefused
  | abandon => exact orSame_of_refused hrefused
  | exit =>
      obtain ⟨-, hdepth⟩ | ⟨hroot, -⟩ := exit_refused_iff.mp hrefused
      · have hlevels : b.levels = [] := List.length_eq_zero_iff.mp hdepth
        simp [apply, exit, hlevels]
      · exact absurd hroot (hexit rfl)

/-- **Closing a second root** drops the directory that was to be closed, and nothing else. -/
lemma exit_of_secondRoot (hrefused : (b.apply .exit).1 = .error .multipleRoots) :
    (b.apply .exit).2 = { b with levels := b.levels.tail } := by
  obtain ⟨he, -⟩ | ⟨-, hroot, l, hlevels, hclose⟩ := exit_refused_iff.mp hrefused
  · cases he
  · obtain ⟨s, hs⟩ := Option.isSome_iff_exists.mp hclose
    obtain ⟨r, hr⟩ := Option.isSome_iff_exists.mp hroot
    simp [apply, exit, collect, hlevels, hs, hr]

/-! ### The root -/

/-- A snapshot that is taken in does not take the place of a root. -/
lemma root_collect (hroot : b.root = some s) {t : Snapshot} (hc : b.collect t = .ok b') :
    b'.root = some s := by
  rw [collect] at hc
  split at hc
  · obtain rfl := Except.ok.inj hc
    exact hroot
  · simp [hroot] at hc

/-- **The step**: whatever a call does, a root that was taken in stays. -/
lemma Step.root (hstep : Step b b') (hroot : b.root = some s) : b'.root = some s := by
  cases hstep with
  | refused => exact hroot
  | entered location handling => exact hroot
  | taken l hc => exact root_collect hroot hc
  | dropped hlevels => exact hroot
  | exited =>
      obtain ⟨h, o, levels, root⟩ := b
      cases levels with
      | nil => exact hroot
      | cons l rest =>
          have houter : Builder.root ⟨h, o, rest, root⟩ = some s := hroot
          simp only [exit]
          split
          · exact houter
          · split
            · next hc => exact root_collect houter hc
            · exact houter

/-- **The run**: no calls change a root that was taken in. -/
lemma root_run (hroot : b.root = some s) (calls : List Call) :
    (b.run calls).2.root = some s := by
  induction calls generalizing b with
  | nil => exact hroot
  | cons c calls ih => exact ih ((b.step_apply c).root hroot)

/-- **What a builder refuses**, in any state: a leaf, and closing or dropping a directory, where
none is open; a leaf as the whole result where a directory is open, with the number of these, or
where there is a root; closing the only open directory where there is a root and the directory is
not left out; and the result while directories are open, with their number. A refused call leaves
everything as it was, except that closing a second root drops just the refused directory. A root
that is held stays what `result` gives, whatever calls come later. -/
theorem refusals_exact (b : Builder) :
    (∀ l e, (b.apply (.leaf l)).1 = .error e ↔ e = .outsideOfRoot ∧ b.depth = 0)
      ∧ (∀ e, (b.apply .abandon).1 = .error e ↔ e = .outsideOfRoot ∧ b.depth = 0)
      ∧ (∀ l e, (b.apply (.rootLeaf l)).1 = .error e ↔
          (e = .notAtRoot b.depth ∧ 0 < b.depth)
            ∨ (e = .multipleRoots ∧ b.depth = 0 ∧ b.root.isSome))
      ∧ (∀ e, (b.apply .exit).1 = .error e ↔
          (e = .outsideOfRoot ∧ b.depth = 0)
            ∨ (e = .multipleRoots ∧ b.root.isSome
                ∧ ∃ l, b.levels = [l] ∧ (l.close b.hash b.ordering).isSome))
      ∧ (∀ location handling e, (b.apply (.enter location handling)).1 ≠ .error e)
      ∧ (∀ directory handling e, (b.apply (.enterLike directory handling)).1 ≠ .error e)
      ∧ (∀ e, b.result = .error e ↔ e = .unfinished b.depth ∧ 0 < b.depth)
      ∧ (∀ c e, (b.apply c).1 = .error e → (c = .exit → e ≠ .multipleRoots) → (b.apply c).2 = b)
      ∧ ((b.apply .exit).1 = .error .multipleRoots →
          (b.apply .exit).2 = { b with levels := b.levels.tail })
      ∧ ∀ s, b.root = some s → ∀ calls,
          (b.run calls).2.root = some s
            ∧ ((b.run calls).2.depth = 0 → (b.run calls).2.result = .ok (some s)) := by
  refine ⟨fun _ _ => leaf_refused_iff, fun _ => abandon_refused_iff,
    fun _ _ => rootLeaf_refused_iff, fun _ => exit_refused_iff, by simp [apply],
    by simp [apply], fun _ => result_refused_iff, fun _ _ => apply_of_refused,
    exit_of_secondRoot, fun s hroot calls => ?_⟩
  have hkept := root_run hroot calls
  refine ⟨hkept, fun hdepth => ?_⟩
  have hlevels : (b.run calls).2.levels = [] := List.length_eq_zero_iff.mp hdepth
  simp [result, hlevels, hkept]

end TreeDigest.Builder

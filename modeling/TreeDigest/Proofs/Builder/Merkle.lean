import TreeDigest.Proofs.Builder.NameOrder

/-!
The Merkle invariant of a builder.

Whatever calls a builder is given, well nested or not and refused or not, every
directory node that it holds has the digest of its own children, and a builder that
sorts keeps the children of every node by name.

* `Snapshot.Within` says that a node stands somewhere in a snapshot, and
  `Snapshot.IsMerkle` is the property of all directory nodes of a snapshot.
* `Builder.held` is all that a builder holds: its root and the children of all its open
  levels.
* `Builder.Step` lists what a call can do; `Step.isMerkle` is the step and `isMerkle_run`
  the run, and `isMerkle_held_of_run` states it for the runs from a new builder.
-/

namespace TreeDigest

namespace Snapshot

/-- A node stands somewhere in a snapshot. -/
inductive Within (n : Snapshot) : Snapshot → Prop where
  | self : Within n n
  | child {location : Location} {digest : Digest} {children : List Snapshot} {c : Snapshot} :
      c ∈ children → Within n c → Within n (.directory location digest children)

namespace Within

lemma of_mem_children {c s : Snapshot} (hc : c ∈ s.children) : Within c s := by
  cases s with
  | leaf l => simp [children] at hc
  | directory location digest cs => exact .child hc .self

lemma trans {a b c : Snapshot} (hab : Within a b) (hbc : Within b c) : Within a c := by
  induction hbc with
  | self => exact hab
  | child hmem _ ih => exact .child hmem ih

lemma leaf_iff {n : Snapshot} {l : Leaf} : Within n (.leaf l) ↔ n = .leaf l := by
  constructor
  · intro h
    cases h
    rfl
  · rintro rfl
    exact .self

lemma directory_iff {n : Snapshot} {location : Location} {digest : Digest}
    {children : List Snapshot} :
    Within n (.directory location digest children)
      ↔ n = .directory location digest children ∨ ∃ c ∈ children, Within n c := by
  constructor
  · intro h
    cases h with
    | self => exact .inl rfl
    | child hmem h => exact .inr ⟨_, hmem, h⟩
  · rintro (rfl | ⟨c, hmem, h⟩)
    · exact .self
    · exact .child hmem h

end Within

/-- **The Merkle property**: every directory node of a snapshot has the digest of its own
children, in the order in which it keeps them, and where children are kept by name their
names do not decrease. -/
def IsMerkle (h : HashFunction) (o : ChildOrdering) (s : Snapshot) : Prop :=
  ∀ location digest children, Within (.directory location digest children) s →
    digest = h.directory (h.signature "DIR") (listing children)
      ∧ (o = .byName → children.Pairwise fun a b => Text.nameLe a.name b.name = true)

lemma isMerkle_leaf (h : HashFunction) (o : ChildOrdering) (l : Leaf) :
    IsMerkle h o (.leaf l) := by
  intro location digest children hw
  simp [Within.leaf_iff] at hw

lemma isMerkle_directory {h : HashFunction} {o : ChildOrdering} {children : List Snapshot}
    (location : Location) (hsort : o = .byName →
      children.Pairwise fun a b => Text.nameLe a.name b.name = true)
    (hall : ∀ c ∈ children, IsMerkle h o c) :
    IsMerkle h o
      (.directory location (h.directory (h.signature "DIR") (listing children)) children) := by
  intro location' digest' children' hw
  rcases Within.directory_iff.mp hw with heq | ⟨c, hmem, hc⟩
  · obtain ⟨rfl, rfl, rfl⟩ : location' = location
        ∧ digest' = h.directory (h.signature "DIR") (listing children) ∧ children' = children := by
      simpa using heq
    exact ⟨rfl, hsort⟩
  · exact hall c hmem location' digest' children' hc

end Snapshot

/-! ### One call -/

/-- Closing a level keeps the Merkle property. -/
lemma Level.isMerkle_close {h : HashFunction} {o : ChildOrdering} {l : Level} {s : Snapshot}
    (hl : ∀ c ∈ l.children, c.IsMerkle h o) (hs : l.close h o = some s) : s.IsMerkle h o := by
  rw [Level.close] at hs
  split at hs
  · simp at hs
  · obtain rfl := Option.some.inj hs
    refine Snapshot.isMerkle_directory _ ?_ fun c hc => hl c (ChildOrdering.mem_arrange.mp hc)
    rintro rfl
    exact ChildOrdering.pairwise_arrange_byName _

namespace Builder

/-- All that a builder holds: its root and the children of its open directories. -/
def held (b : Builder) : List Snapshot := b.root.toList ++ b.levels.flatMap Level.children

/-- Every snapshot that a builder holds is Merkle. -/
def IsMerkle (b : Builder) : Prop := ∀ s ∈ b.held, s.IsMerkle b.hash b.ordering

lemma mem_held_cons {h : HashFunction} {o : ChildOrdering} {l : Level} {rest : List Level}
    {root : Option Snapshot} {s : Snapshot} :
    s ∈ held ⟨h, o, l :: rest, root⟩ ↔ s ∈ l.children ∨ s ∈ held ⟨h, o, rest, root⟩ := by
  simp only [held, List.flatMap_cons, List.mem_append]
  tauto

/-- What a builder gives is its root. -/
lemma mem_held_of_result {b : Builder} {s : Snapshot} (hs : b.result = .ok (some s)) :
    s ∈ b.held := by
  rw [result] at hs
  split at hs
  · have hroot : b.root = some s := Except.ok.inj hs
    simp [held, hroot]
  · cases hs

/-- Handing a Merkle snapshot on keeps the invariant, whether it is taken or refused. -/
lemma isMerkle_collect {b b' : Builder} {s : Snapshot} (hb : b.IsMerkle)
    (hs : s.IsMerkle b.hash b.ordering) (hc : b.collect s = .ok b') : b'.IsMerkle := by
  obtain ⟨h, o, levels, root⟩ := b
  cases levels with
  | nil =>
      cases root with
      | some r => simp [collect] at hc
      | none =>
          obtain rfl := Except.ok.inj hc
          intro t ht
          obtain rfl : t = s := by simpa [held] using ht
          exact hs
  | cons l rest =>
      obtain rfl := Except.ok.inj hc
      intro t ht
      rw [mem_held_cons] at ht
      rcases ht with ht | ht
      · rcases List.mem_append.mp ht with ht | ht
        · exact hb t (mem_held_cons.mpr (.inl ht))
        · obtain rfl := List.mem_singleton.mp ht
          exact hs
      · exact hb t (mem_held_cons.mpr (.inr ht))

/-- Closing the innermost directory keeps the invariant, also where it is refused. -/
lemma isMerkle_exit {b : Builder} (hb : b.IsMerkle) : b.exit.2.IsMerkle := by
  obtain ⟨h, o, levels, root⟩ := b
  cases levels with
  | nil => exact hb
  | cons l rest =>
      have hrest : IsMerkle ⟨h, o, rest, root⟩ :=
        fun t ht => hb t (mem_held_cons.mpr (.inr ht))
      simp only [exit]
      split
      · exact hrest
      · next s hclose =>
          have hs : s.IsMerkle h o :=
            Level.isMerkle_close (fun c hc => hb c (mem_held_cons.mpr (.inl hc))) hclose
          split
          · next b' hcollect => exact isMerkle_collect hrest hs hcollect
          · exact hrest

/-- What a builder is set to does not change when it takes a snapshot in. -/
lemma collect_settings {b b' : Builder} {s : Snapshot} (hc : b.collect s = .ok b') :
    b'.hash = b.hash ∧ b'.ordering = b.ordering := by
  rw [collect] at hc
  split at hc
  · obtain rfl := Except.ok.inj hc
    exact ⟨rfl, rfl⟩
  · split at hc
    · simp at hc
    · obtain rfl := Except.ok.inj hc
      exact ⟨rfl, rfl⟩

/-- Taking a snapshot in opens and closes no directory. -/
lemma depth_collect {b b' : Builder} {s : Snapshot} (hc : b.collect s = .ok b') :
    b'.depth = b.depth := by
  rw [collect] at hc
  split at hc
  · next hlevels =>
      obtain rfl := Except.ok.inj hc
      simp [depth, hlevels]
  · split at hc
    · simp at hc
    · obtain rfl := Except.ok.inj hc
      rfl

/-- A leaf that is accepted is collected. -/
lemma collect_of_leaf {b b' : Builder} {l : Leaf} (hleaf : b.leaf l = .ok b') :
    b.collect (.leaf l) = .ok b' := by
  rw [leaf] at hleaf
  split at hleaf
  · cases hleaf
  · exact hleaf

lemma collect_of_rootLeaf {b b' : Builder} {l : Leaf} (hleaf : b.rootLeaf l = .ok b') :
    b.collect (.leaf l) = .ok b' := by
  rw [rootLeaf] at hleaf
  split at hleaf
  · exact hleaf
  · cases hleaf

lemma exit_settings (b : Builder) : b.exit.2.hash = b.hash ∧ b.exit.2.ordering = b.ordering := by
  obtain ⟨h, o, levels, root⟩ := b
  cases levels with
  | nil => exact ⟨rfl, rfl⟩
  | cons l rest =>
      simp only [exit]
      split
      · exact ⟨rfl, rfl⟩
      · split
        · next hcollect => exact collect_settings hcollect
        · exact ⟨rfl, rfl⟩

/-- What a call can do to a builder. -/
inductive Step (b : Builder) : Builder → Prop where
  | refused : Step b b
  | entered (location : Location) (handling : EmptyDirectories) :
      Step b (b.enter location handling)
  | taken {b' : Builder} (l : Leaf) : b.collect (.leaf l) = .ok b' → Step b b'
  | exited : Step b b.exit.2
  | dropped {l : Level} {rest : List Level} :
      b.levels = l :: rest → Step b { b with levels := rest }

/-- A call that answers with a builder or leaves things as they are is a step. -/
lemma step_orSame {b : Builder} {r : Except BuilderError Builder}
    (hr : ∀ b', r = .ok b' → Step b b') : Step b (b.orSame r).2 := by
  cases r with
  | ok b' => exact hr b' rfl
  | error e => exact .refused

lemma step_apply (b : Builder) (c : Call) : Step b (b.apply c).2 := by
  cases c with
  | enter location handling => exact .entered location handling
  | enterLike directory handling => exact .entered directory.location handling
  | leaf l => exact step_orSame fun b' hleaf => .taken l (collect_of_leaf hleaf)
  | rootLeaf l => exact step_orSame fun b' hleaf => .taken l (collect_of_rootLeaf hleaf)
  | exit => exact .exited
  | abandon =>
      refine step_orSame fun b' hc => ?_
      rw [abandon] at hc
      split at hc
      · simp at hc
      · next hlevels =>
          obtain rfl := Except.ok.inj hc
          exact .dropped hlevels

/-- A call never changes the hash function or the order of children. -/
lemma Step.settings {b b' : Builder} (hstep : Step b b') :
    b'.hash = b.hash ∧ b'.ordering = b.ordering := by
  cases hstep with
  | refused => exact ⟨rfl, rfl⟩
  | entered location handling => exact ⟨rfl, rfl⟩
  | taken l hc => exact collect_settings hc
  | exited => exact b.exit_settings
  | dropped hlevels => exact ⟨rfl, rfl⟩

/-- **The step**: every call keeps the Merkle invariant, refused or not. -/
lemma Step.isMerkle {b b' : Builder} (hstep : Step b b') (hb : b.IsMerkle) : b'.IsMerkle := by
  cases hstep with
  | refused => exact hb
  | entered location handling => exact fun s hs => hb s (by simpa [held, enter] using hs)
  | taken l hc => exact isMerkle_collect hb (Snapshot.isMerkle_leaf _ _ l) hc
  | exited => exact isMerkle_exit hb
  | dropped hlevels =>
      obtain ⟨h, o, levels, root⟩ := b
      obtain rfl := hlevels
      exact fun s hs => hb s (mem_held_cons.mpr (.inr hs))

/-! ### Runs -/

/-- **The run**: every sequence of calls keeps the Merkle invariant. -/
lemma isMerkle_run {b : Builder} (hb : b.IsMerkle) (calls : List Call) :
    (b.run calls).2.IsMerkle := by
  induction calls generalizing b with
  | nil => exact hb
  | cons c calls ih => exact ih ((b.step_apply c).isMerkle hb)

lemma run_settings (b : Builder) (calls : List Call) :
    (b.run calls).2.hash = b.hash ∧ (b.run calls).2.ordering = b.ordering := by
  induction calls generalizing b with
  | nil => exact ⟨rfl, rfl⟩
  | cons c calls ih =>
      obtain ⟨hhash, hordering⟩ := (b.step_apply c).settings
      obtain ⟨hhash', hordering'⟩ := ih (b.apply c).2
      exact ⟨hhash'.trans hhash, hordering'.trans hordering⟩

/-- The Merkle property of all that a run from a new builder holds. -/
lemma isMerkle_of_mem_held {h : HashFunction} {o : ChildOrdering} {calls : List Call}
    {s : Snapshot} (hs : s ∈ ((new h o).run calls).2.held) : s.IsMerkle h o := by
  have hnew : (new h o).IsMerkle := by
    intro t ht
    simp [held, new] at ht
  have hrun := isMerkle_run hnew calls s hs
  obtain ⟨hhash, hordering⟩ := (new h o).run_settings calls
  rwa [hhash, hordering] at hrun

/-- **The Merkle invariant of a builder**: after any sequence of calls, every directory node
anywhere in what the builder holds has the digest of its own children and keeps them in
order; and a result is handed out only when no directory is open, with the same property at
every node. -/
theorem isMerkle_held_of_run (h : HashFunction) (o : ChildOrdering) (calls : List Call) :
    (∀ s ∈ ((new h o).run calls).2.held, s.IsMerkle h o)
      ∧ ∀ s, ((new h o).run calls).2.result = .ok (some s) →
          ((new h o).run calls).2.depth = 0 ∧ s.IsMerkle h o := by
  refine ⟨fun s hs => isMerkle_of_mem_held hs, fun s hs => ?_⟩
  rw [result] at hs
  split at hs
  · next hempty =>
      have hroot : ((new h o).run calls).2.root = some s := Except.ok.inj hs
      have hmem : s ∈ ((new h o).run calls).2.held := by simp [held, hroot]
      exact ⟨by simpa [depth] using hempty, isMerkle_of_mem_held hmem⟩
  · simp at hs

end Builder

end TreeDigest

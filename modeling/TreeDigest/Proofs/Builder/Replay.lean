import TreeDigest.Proofs.Builder.Rearrangement
import TreeDigest.Snapshot.Visit

/-!
Replaying a snapshot.

A visitor that has a builder makes every node of a snapshot again while it walks over it, and what
it makes is the snapshot. A directory is made with nothing but the location of the old one; its
digest and the order of its children come out of the children once more, and they come out the
same since the snapshot was made by a builder.

* `Builder.replayer` is the visitor. It writes down what its builder answers.
* `Snapshot.node?_of_isMerkle` is the reason at one directory, and `accept_replayer` the induction
  over the snapshot, with any directories open around it.
* `Builder.replayed`: a new builder with the same hash function gives the snapshot back.
-/

namespace TreeDigest

namespace Builder

/-- A builder on its way, and what it has answered so far. -/
abbrev Logged := List (Except BuilderError Answer) × Builder

/-- Makes a call and writes the answer down. -/
def note (c : Call) (state : Logged) : Logged :=
  (state.1 ++ [(state.2.apply c).1], (state.2.apply c).2)

/-- The call that makes a leaf again: where no directory is open, the leaf is all there is. -/
def leafCall (b : Builder) (l : Leaf) : Call := if b.isFinished then .rootLeaf l else .leaf l

/-- Makes every node again that it is told of, and keeps directories also where they are empty. -/
def replayer : Visitor Logged where
  enter location digest children state :=
    (.enter, note (.enterLike (.directory location digest children) .included) state)
  leaf l state := note (state.2.leafCall l) state
  exit _ _ _ state := note .exit state

/-- The answer to a call that is carried out and loses nothing. -/
def IsKept (answer : Except BuilderError Answer) : Prop :=
  answer = .ok .done ∨ answer = .ok (.kept true)

end Builder

namespace Snapshot

open Builder

variable {h : HashFunction} {o o' : ChildOrdering}

lemma IsMerkle.child {location : Location} {digest : Digest} {children : List Snapshot}
    (hs : IsMerkle h o (.directory location digest children)) {c : Snapshot} (hc : c ∈ children) :
    c.IsMerkle h o :=
  fun location' digest' children' hw => hs location' digest' children' (.child hc hw)

/-- **The node over the children of a Merkle directory is that directory**, also where children
are sorted again: sorting does not move what is sorted. -/
lemma node?_of_isMerkle {location : Location} {digest : Digest} {children : List Snapshot}
    (hs : IsMerkle h o (.directory location digest children)) (ho : o' = .byName → o = .byName) :
    node? h o' location .included children = some (.directory location digest children) := by
  obtain ⟨rfl, hsorted⟩ := hs location digest children .self
  have hkept : inOrder o' children = children := by
    cases o' with
    | asVisited => rfl
    | byName => exact inNameOrder_of_ascends (hsorted (ho rfl))
  simp [node?, hkept]

mutual

/-- **The replay of a node**: a builder that can take an entry in carries every call out, and all
that changes is that it gains the node. -/
lemma accept_replayer (s : Snapshot) (hs : s.IsMerkle h o) (ho : o' = .byName → o = .byName)
    (answers : List (Except BuilderError Answer)) (levels : List Level) (root : Option Snapshot)
    (hb : CanReceive ⟨h, o', levels, root⟩) :
    ∃ more, (∀ answer ∈ more, IsKept answer)
      ∧ s.accept replayer (answers, ⟨h, o', levels, root⟩)
        = (answers ++ more, receive ⟨h, o', levels, root⟩ (some s)) := by
  match s with
  | .leaf l =>
      refine ⟨[.ok .done], by simp [IsKept], ?_⟩
      have hcollect := collect_eq hb (.leaf l)
      cases levels with
      | nil =>
          rw [accept]
          simp [replayer, note, leafCall, isFinished, apply, rootLeaf, hcollect, orSame]
      | cons top rest => rfl
  | .directory location digest children =>
      obtain ⟨more, hmore, hchildren⟩ := acceptAll_replayer children (fun c hc => hs.child hc) ho
        (answers ++ [.ok .done]) ⟨location, .included, []⟩ levels root
      have henter : note (.enterLike (.directory location digest children) .included)
          (answers, ⟨h, o', levels, root⟩)
            = (answers ++ [.ok .done], ⟨h, o', ⟨location, .included, []⟩ :: levels, root⟩) := rfl
      have hexit := exit_eq hb location .included children
      rw [node?_of_isMerkle hs ho] at hexit
      refine ⟨.ok .done :: more ++ [.ok (.kept true)], ?_, ?_⟩
      · simpa [IsKept, or_imp, forall_and] using hmore
      · simp only [accept, replayer] at hchildren ⊢
        rw [henter, hchildren, List.nil_append, note, apply, hexit]
        simp [Except.map]

/-- The replay of siblings in turn. -/
lemma acceptAll_replayer (ss : List Snapshot) (hss : ∀ s ∈ ss, s.IsMerkle h o)
    (ho : o' = .byName → o = .byName) (answers : List (Except BuilderError Answer)) (l : Level)
    (rest : List Level) (root : Option Snapshot) :
    ∃ more, (∀ answer ∈ more, IsKept answer)
      ∧ acceptAll replayer ss (answers, ⟨h, o', l :: rest, root⟩)
        = (answers ++ more, ⟨h, o', { l with children := l.children ++ ss } :: rest, root⟩) := by
  match ss with
  | [] => exact ⟨[], by simp, by simp [acceptAll]⟩
  | s :: ss =>
      obtain ⟨hs, hss⟩ := List.forall_mem_cons.mp hss
      have hopen : CanReceive ⟨h, o', l :: rest, root⟩ := .inl (by simp)
      obtain ⟨first, hfirst, hhead⟩ := accept_replayer s hs ho answers (l :: rest) root hopen
      obtain ⟨more, hmore, htail⟩ := acceptAll_replayer ss hss ho (answers ++ first)
        { l with children := l.children ++ [s] } rest root
      refine ⟨first ++ more, List.forall_mem_append.mpr ⟨hfirst, hmore⟩, ?_⟩
      rw [acceptAll, hhead, receive, htail]
      simp

end

end Snapshot

namespace Builder

/-- **Replaying a snapshot gives it back.** Whatever calls a builder was given, if it gives a
snapshot, then a new builder with the same hash function that is driven over the snapshot carries
every call out, keeps every directory, and gives the very snapshot. It may keep children as they
are visited, and it may sort them if the first builder did. -/
theorem replayed (h : HashFunction) (o : ChildOrdering) (calls : List Call) (s : Snapshot)
    (hs : ((new h o).run calls).2.result = .ok (some s)) (o' : ChildOrdering)
    (ho : o' = .byName → o = .byName) :
    (∀ answer ∈ (s.accept replayer ([], new h o')).1, IsKept answer)
      ∧ (s.accept replayer ([], new h o')).2.result = .ok (some s) := by
  have hmerkle : s.IsMerkle h o := isMerkle_of_mem_held (mem_held_of_result hs)
  obtain ⟨more, hmore, hreplay⟩ :=
    Snapshot.accept_replayer s hmerkle ho [] [] none (.inr rfl)
  rw [new, hreplay]
  exact ⟨hmore, rfl⟩

/-- A directory that was sorted, with an empty one in it, replayed in both orders. -/
theorem replayed_sorted :
    let h := HashFunction.ofBytes fun bytes => .replicate (.ofNat bytes.length)
    let x := Leaf.missing h ⟨"/r/b", "b", .direct⟩
    let calls := [.enter ⟨"/r", "r", .direct⟩ .included, .leaf x,
      .enter ⟨"/r/a", "a", .viaSymlink⟩ .included, .exit, .exit]
    ∃ s, ((new h .byName).run calls).2.result = .ok (some s)
      ∧ s.children.map Snapshot.name = ["a", "b"]
      ∧ (s.accept replayer ([], new h .byName)).2.result = .ok (some s)
      ∧ (s.accept replayer ([], new h .asVisited)).2.result = .ok (some s) := by
  intro h x calls
  let t : Traversal := .directory ⟨"/r", "r", .direct⟩ .included
    [.leaf x, .directory ⟨"/r/a", "a", .viaSymlink⟩ .included []]
  obtain ⟨s, hfold⟩ : ∃ s, t.fold h .byName = some s := ⟨_, rfl⟩
  have hs : ((new h .byName).run calls).2.result = .ok (some s) :=
    (t.built_eq h .byName).trans (congrArg _ hfold)
  refine ⟨s, hs, ?_, (replayed h .byName calls s hs .byName id).2,
    (replayed h .byName calls s hs .asVisited nofun).2⟩
  obtain rfl := Option.some.inj hfold
  decide

end Builder

end TreeDigest

import TreeDigest.Proofs.Builder.Refusals

/-!
The leaves that a builder holds.

A leaf that is taken in moves outwards as directories are closed around it, and sorting may put it
elsewhere. It is given up in two cases only: a directory around it is abandoned, or is refused as a
second root.

* `Builder.leaves` lists what a builder holds, and `Builder.kept` what is to be kept of the leaves
  that calls hand in: `Builder.Loses` looks ahead for a call that drops a directory around them.
* `Builder.leavesWhere` leaves out the leaves of some open directories, here of those that will be
  lost. With it the books balance at every call (`balanced`), and so over a run (`leaves_run_of`).
* `leaves_run` says so of the runs from a new builder.
-/

namespace TreeDigest

/-! ### Leaves in an order of children -/

namespace ChildOrdering

/-- The same leaves: in the same order, unless a builder sorts. -/
def SameLeaves : ChildOrdering → List Leaf → List Leaf → Prop
  | .asVisited, ls, ls' => ls = ls'
  | .byName, ls, ls' => ls.Perm ls'

variable {o : ChildOrdering} {ls ls' ls'' : List Leaf}

@[refl]
lemma SameLeaves.refl (o : ChildOrdering) (ls : List Leaf) : o.SameLeaves ls ls := by
  cases o with
  | asVisited => rfl
  | byName => exact List.Perm.refl ls

lemma SameLeaves.trans (h : o.SameLeaves ls ls') (h' : o.SameLeaves ls' ls'') :
    o.SameLeaves ls ls'' := by
  cases o with
  | asVisited => exact Eq.trans h h'
  | byName => exact List.Perm.trans h h'

lemma SameLeaves.eq_nil_iff (h : o.SameLeaves ls ls') : ls = [] ↔ ls' = [] := by
  cases o with
  | asVisited => exact Eq.congr_left h
  | byName => exact ⟨fun hnil => (hnil ▸ h).nil_eq.symm, fun hnil => (hnil ▸ h).eq_nil⟩

lemma SameLeaves.append {ms ms' : List Leaf} (h : o.SameLeaves ls ls')
    (h' : o.SameLeaves ms ms') : o.SameLeaves (ls ++ ms) (ls' ++ ms') := by
  cases o with
  | asVisited => exact congrArg₂ (· ++ ·) h h'
  | byName => exact List.Perm.append h h'

end ChildOrdering

namespace Snapshot

lemma leavesOfAll_eq_flatMap (cs : List Snapshot) : leavesOfAll cs = cs.flatMap leaves := by
  induction cs with
  | nil => rfl
  | cons c cs ih => rw [leavesOfAll, ih, List.flatMap_cons]

lemma leavesOfAll_append (cs ds : List Snapshot) :
    leavesOfAll (cs ++ ds) = leavesOfAll cs ++ leavesOfAll ds := by
  simp [leavesOfAll_eq_flatMap]

/-- Arranging children rearranges their leaves, and only where it sorts. -/
lemma sameLeaves_arrange (o : ChildOrdering) (cs : List Snapshot) :
    o.SameLeaves (leavesOfAll (o.arrange cs)) (leavesOfAll cs) := by
  cases o with
  | asVisited => rfl
  | byName =>
      rw [ChildOrdering.SameLeaves, leavesOfAll_eq_flatMap, leavesOfAll_eq_flatMap]
      exact (ChildOrdering.arrange_perm _ cs).flatMap_right _

end Snapshot

/-- A directory that is closed holds the leaves that were collected in it, and one that is left
out has none. -/
lemma Level.sameLeaves_close (h : HashFunction) (o : ChildOrdering) (l : Level) :
    o.SameLeaves ((l.close h o).elim [] Snapshot.leaves) (Snapshot.leavesOfAll l.children) := by
  rw [close]
  split
  · next hdropped =>
      have hempty : l.children = [] := by
        simpa using (Bool.and_eq_true_iff.mp hdropped).2
      rw [hempty]
      exact .refl o []
  · exact Snapshot.sameLeaves_arrange o l.children

namespace Builder

/-! ### What is held, and what is given up -/

/-- The leaves that a builder holds: those of its root, and then those that its open directories
have collected, from the outermost directory to the innermost. -/
def leaves (b : Builder) : List Leaf :=
  Snapshot.leavesOfAll b.root.toList
    ++ b.levels.reverse.flatMap fun l => Snapshot.leavesOfAll l.children

/-- The leaf that a call hands in. -/
def Call.leaf? : Call → Option Leaf
  | .leaf l => some l
  | .rootLeaf l => some l
  | _ => none

/-- The leaf that a call hands in, if it is taken in. -/
def taken? (b : Builder) (c : Call) : Option Leaf :=
  match (b.apply c).1 with
  | .ok _ => c.leaf?
  | .error _ => none

lemma taken?_eq_none (b : Builder) {c : Call} (hcall : c.leaf? = none) : b.taken? c = none := by
  rw [taken?]
  split
  · exact hcall
  · rfl

/-- A call drops the innermost directory with all that it holds: it abandons it, or closes it and
is refused because there is a root. -/
def Drops (b : Builder) : Call → Prop
  | .abandon => (b.apply .abandon).1 = .ok .done
  | .exit => (b.apply .exit).1 = .error .multipleRoots
  | _ => False

instance (b : Builder) (c : Call) : Decidable (b.Drops c) :=
  match c with
  | .abandon => inferInstanceAs (Decidable ((b.apply .abandon).1 = .ok .done))
  | .exit => inferInstanceAs (Decidable ((b.apply .exit).1 = .error .multipleRoots))
  | .enter _ _ | .enterLike _ _ | .leaf _ | .rootLeaf _ => .isFalse id

/-- One of the `n` outermost directories is dropped by some later call: that call finds it the
innermost one, and it has been open all the time. -/
def Loses (b : Builder) (n : ℕ) (calls : List Call) : Prop :=
  ∃ before c after, calls = before ++ c :: after ∧ (b.run before).2.Drops c
    ∧ (b.run before).2.depth ≤ n ∧ ∀ p, p <+: before → (b.run before).2.depth ≤ (b.run p).2.depth

variable {b b' : Builder} {n : ℕ} {c : Call} {cs : List Call}

lemma not_loses_nil : ¬ b.Loses n [] := by
  rintro ⟨before, c, after, heq, -⟩
  simp at heq

/-- A directory that is lost is dropped by the next call, or was open before that and is dropped
later on. -/
lemma loses_cons : b.Loses n (c :: cs) ↔
    (b.Drops c ∧ b.depth ≤ n) ∨ (b.apply c).2.Loses (min n b.depth) cs := by
  constructor
  · rintro ⟨_ | ⟨c', before⟩, d, after, heq, hdrops, hn, hopen⟩
    · obtain ⟨rfl, rfl⟩ : c = d ∧ cs = after := by simpa using heq
      exact .inl ⟨hdrops, hn⟩
    · obtain ⟨rfl, rfl⟩ : c = c' ∧ cs = before ++ d :: after := by simpa using heq
      have hfirst := hopen [] List.nil_prefix
      exact .inr ⟨before, d, after, rfl, hdrops, le_min hn hfirst, fun p hp =>
        hopen (c :: p) (List.cons_prefix_cons.mpr ⟨rfl, hp⟩)⟩
  · rintro (⟨hdrops, hn⟩ | ⟨before, d, after, rfl, hdrops, hn, hopen⟩)
    · refine ⟨[], c, cs, rfl, hdrops, hn, fun p hp => ?_⟩
      rw [List.prefix_nil.mp hp]
    · refine ⟨c :: before, d, after, rfl, hdrops, hn.trans (min_le_left _ _), ?_⟩
      rintro (_ | ⟨c', p⟩) hp
      · exact hn.trans (min_le_right _ _)
      · obtain ⟨rfl, htail⟩ := List.cons_prefix_cons.mp hp
        exact hopen p htail

/-- Only directories that are open can be lost. -/
lemma loses_min : b.Loses (min n b.depth) cs ↔ b.Loses n cs := by
  constructor <;> rintro ⟨before, c, after, heq, hdrops, hn, hopen⟩
  · exact ⟨before, c, after, heq, hdrops, hn.trans (min_le_left _ _), hopen⟩
  · exact ⟨before, c, after, heq, hdrops, le_min hn (hopen [] List.nil_prefix), hopen⟩

/-- Whether some of the outermost directories are lost can be read off the calls in turn. -/
def decideLoses : (b : Builder) → (n : ℕ) → (calls : List Call) → Decidable (b.Loses n calls)
  | _, _, [] => .isFalse not_loses_nil
  | b, n, c :: cs =>
    have := decideLoses (b.apply c).2 (min n b.depth) cs
    decidable_of_iff _ loses_cons.symm

instance (b : Builder) (n : ℕ) (calls : List Call) : Decidable (b.Loses n calls) :=
  decideLoses b n calls

/-- **What is to be kept of the leaves that calls hand in**: those that are taken in, in the order
of the calls, unless a directory that is open around them is dropped by a later call. -/
def kept (b : Builder) : List Call → List Leaf
  | [] => []
  | c :: cs =>
    let b' := (b.apply c).2
    (if b'.Loses b'.depth cs then [] else (b.taken? c).toList) ++ b'.kept cs

/-! ### Losses -/

/-- A directory is dropped only where one is open. -/
lemma Drops.depth_pos (hdrops : b.Drops c) : 0 < b.depth := by
  cases c with
  | abandon =>
      rw [Nat.pos_iff_ne_zero]
      intro hdepth
      have hrefused : (b.apply .abandon).1 = .error .outsideOfRoot :=
        abandon_refused_iff.mpr ⟨rfl, hdepth⟩
      rw [show (b.apply .abandon).1 = .ok .done from hdrops] at hrefused
      cases hrefused
  | exit =>
      obtain ⟨he, -⟩ | ⟨-, -, l, hlevels, -⟩ := exit_refused_iff.mp hdrops
      · cases he
      · simp [depth, hlevels]
  | _ => exact hdrops.elim

/-- What is at the root is never lost. -/
lemma not_loses_zero : ¬ b.Loses 0 cs := by
  rintro ⟨before, c, after, -, hdrops, hn, -⟩
  exact absurd hdrops.depth_pos (by omega)

/-- A call that drops nothing leaves the losses to the later ones. -/
lemma loses_cons_of_not_drops (hc : ¬ b.Drops c) (hn : n ≤ b.depth) :
    b.Loses n (c :: cs) ↔ (b.apply c).2.Loses n cs := by
  rw [loses_cons, min_eq_left hn, or_iff_right fun h => hc h.1]

/-! ### Leaving out open directories -/

/-- The leaves of open directories, from the outermost to the innermost, without those of the
directories that are not to be kept. These are told by their number, counted from outside. -/
def openLeaves (keep : ℕ → Prop) [DecidablePred keep] : List Level → List Leaf
  | [] => []
  | l :: rest => openLeaves keep rest
      ++ if keep (rest.length + 1) then Snapshot.leavesOfAll l.children else []

/-- The leaves that a builder holds, without those of some open directories. -/
def leavesWhere (b : Builder) (keep : ℕ → Prop) [DecidablePred keep] : List Leaf :=
  Snapshot.leavesOfAll b.root.toList ++ openLeaves keep b.levels

section LeavesWhere

variable {keep keep' : ℕ → Prop} [DecidablePred keep] [DecidablePred keep']
  {h : HashFunction} {o : ChildOrdering} {l : Level} {rest : List Level} {root : Option Snapshot}

lemma openLeaves_congr {levels : List Level} (hkeep : ∀ n ≤ levels.length, keep n ↔ keep' n) :
    openLeaves keep levels = openLeaves keep' levels := by
  induction levels with
  | nil => rfl
  | cons l rest ih =>
      have hl : keep (rest.length + 1) ↔ keep' (rest.length + 1) := hkeep _ le_rfl
      rw [openLeaves, openLeaves, ih fun n hn => hkeep n (hn.trans (Nat.le_succ _))]
      simp only [hl]

/-- Which directories are kept matters for the open ones only. -/
lemma leavesWhere_congr (hkeep : ∀ n ≤ b.depth, keep n ↔ keep' n) :
    b.leavesWhere keep = b.leavesWhere keep' := by
  rw [leavesWhere, leavesWhere, openLeaves_congr hkeep]

/-- All that is held. -/
lemma leavesWhere_of_forall (hkeep : ∀ n, keep n) (b : Builder) :
    b.leavesWhere keep = b.leaves := by
  have hopen : ∀ levels : List Level, openLeaves keep levels
      = levels.reverse.flatMap fun l => Snapshot.leavesOfAll l.children := by
    intro levels
    induction levels with
    | nil => rfl
    | cons l rest ih => simp [openLeaves, ih, hkeep]
  rw [leavesWhere, leaves, hopen]

lemma leavesWhere_cons : leavesWhere ⟨h, o, l :: rest, root⟩ keep
    = leavesWhere ⟨h, o, rest, root⟩ keep
      ++ if keep (rest.length + 1) then Snapshot.leavesOfAll l.children else [] := by
  rw [leavesWhere, leavesWhere, openLeaves, List.append_assoc]

/-- Taking a snapshot in adds its leaves behind all others, if the directory that takes it in is
to be kept. -/
lemma leavesWhere_collect {s : Snapshot} (hzero : keep 0) (hc : b.collect s = .ok b') :
    b'.leavesWhere keep = b.leavesWhere keep ++ if keep b.depth then s.leaves else [] := by
  obtain ⟨h, o, levels, root⟩ := b
  cases levels with
  | nil =>
      cases root with
      | some r => simp [collect] at hc
      | none =>
          obtain rfl := Except.ok.inj hc
          simp [leavesWhere, openLeaves, Snapshot.leavesOfAll, depth, hzero]
  | cons l rest =>
      obtain rfl := Except.ok.inj hc
      rw [leavesWhere_cons, leavesWhere_cons, List.append_assoc]
      by_cases hkeep : keep (rest.length + 1) <;>
        simp [hkeep, depth, Snapshot.leavesOfAll_append, Snapshot.leavesOfAll]

end LeavesWhere

/-! ### The books balance -/

/-- What is held after a call, as far as it is kept in the end, is what was held before and is
kept in the end, and then the leaf that was taken in, if that is. -/
def Balanced (b : Builder) (c : Call) (cs : List Call) : Prop :=
  b.ordering.SameLeaves ((b.apply c).2.leavesWhere fun n => ¬ (b.apply c).2.Loses n cs)
    ((b.leavesWhere fun n => ¬ b.Loses n (c :: cs))
      ++ if (b.apply c).2.Loses (b.apply c).2.depth cs then [] else (b.taken? c).toList)

/-- After a call that drops nothing, the books balance if they do whichever of the directories
that are then open is kept. -/
lemma balanced_of_not_drops (hdrops : ¬ b.Drops c)
    (hgain : ∀ (keep : ℕ → Prop) [DecidablePred keep], keep 0 →
      (∀ n, keep n ↔ keep (min n (b.apply c).2.depth)) →
      b.ordering.SameLeaves ((b.apply c).2.leavesWhere keep)
        (b.leavesWhere keep ++ if keep (b.apply c).2.depth then (b.taken? c).toList else [])) :
    Balanced b c cs := by
  have hkeep : ∀ n ≤ b.depth, ¬ b.Loses n (c :: cs) ↔ ¬ (b.apply c).2.Loses n cs :=
    fun n hn => by rw [loses_cons_of_not_drops hdrops hn]
  rw [Balanced, leavesWhere_congr hkeep]
  have hbalanced := hgain (fun n => ¬ (b.apply c).2.Loses n cs) not_loses_zero
    fun n => by rw [loses_min]
  simpa only [ite_not] using hbalanced

/-- The same for a call that takes no leaf in. -/
lemma balanced_of_moved (hdrops : ¬ b.Drops c) (htaken : b.taken? c = none)
    (hmoved : ∀ (keep : ℕ → Prop) [DecidablePred keep], keep 0 →
      (∀ n, keep n ↔ keep (min n (b.apply c).2.depth)) →
      b.ordering.SameLeaves ((b.apply c).2.leavesWhere keep) (b.leavesWhere keep)) :
    Balanced b c cs := by
  refine balanced_of_not_drops hdrops fun keep _ hzero hmin => ?_
  rw [htaken, Option.toList_none, ite_self, List.append_nil]
  exact hmoved keep hzero hmin

/-- A call that changes nothing and takes no leaf in. -/
lemma balanced_of_same (hdrops : ¬ b.Drops c) (htaken : b.taken? c = none)
    (hsame : (b.apply c).2 = b) : Balanced b c cs := by
  refine balanced_of_moved hdrops htaken fun keep _ _ _ => ?_
  rw [hsame]

/-- A call that opens a directory. -/
lemma balanced_of_enter {location : Location} {handling : EmptyDirectories}
    (hdrops : ¬ b.Drops c) (htaken : b.taken? c = none)
    (hafter : (b.apply c).2 = b.enter location handling) : Balanced b c cs := by
  refine balanced_of_moved hdrops htaken fun keep _ _ _ => ?_
  rw [hafter, enter, leavesWhere_cons, Snapshot.leavesOfAll, ite_self, List.append_nil]

/-- A call that hands a leaf in, which is refused or collected. -/
lemma balanced_of_leaf {l : Leaf} {r : Except BuilderError Builder} (hdrops : ¬ b.Drops c)
    (hcall : c.leaf? = some l) (happly : b.apply c = b.orSame r)
    (hcollect : ∀ b', r = .ok b' → b.collect (.leaf l) = .ok b') : Balanced b c cs := by
  cases r with
  | error e =>
      exact balanced_of_same hdrops (by simp [taken?, happly, orSame]) (by rw [happly, orSame])
  | ok b' =>
      have htaken : b.taken? c = some l := by simp [taken?, happly, orSame, hcall]
      have hafter : (b.apply c).2 = b' := by rw [happly, orSame]
      refine balanced_of_not_drops hdrops fun keep _ hzero _ => ?_
      rw [hafter, leavesWhere_collect hzero (hcollect b' rfl), htaken,
        depth_collect (hcollect b' rfl)]
      rfl

/-- A call that drops the innermost directory: all that is lost with it was held in it. -/
lemma balanced_of_drops {l : Level} {rest : List Level} (hlevels : b.levels = l :: rest)
    (hdrops : b.Drops c) (htaken : b.taken? c = none)
    (hafter : (b.apply c).2 = { b with levels := rest }) : Balanced b c cs := by
  obtain ⟨h, o, levels, root⟩ := b
  obtain rfl := hlevels
  have hkeep : ∀ n ≤ depth ⟨h, o, rest, root⟩, ¬ Loses ⟨h, o, l :: rest, root⟩ n (c :: cs)
      ↔ ¬ Loses ⟨h, o, rest, root⟩ n cs := by
    intro n hn
    have hlt : n < depth ⟨h, o, l :: rest, root⟩ := Nat.lt_succ_of_le hn
    rw [loses_cons, hafter, min_eq_left hlt.le, or_iff_right fun hdropped =>
      absurd hdropped.2 hlt.not_ge]
  have hlost : Loses ⟨h, o, l :: rest, root⟩ (rest.length + 1) (c :: cs) :=
    loses_cons.mpr (.inl ⟨hdrops, le_rfl⟩)
  rw [Balanced, hafter, htaken, leavesWhere_cons, if_neg (not_not.mpr hlost), List.append_nil,
    leavesWhere_congr hkeep, Option.toList_none, ite_self, List.append_nil]

/-- A directory that is closed hands its leaves to what is around it, and both are lost together
or not at all. -/
lemma balanced_exit (b : Builder) (cs : List Call) : Balanced b .exit cs := by
  obtain ⟨h, o, levels, root⟩ := b
  cases levels with
  | nil =>
      exact balanced_of_same (by simp [Drops, apply, exit, Except.map]) (taken?_eq_none _ rfl) rfl
  | cons l rest =>
      have hclosed := l.sameLeaves_close h o
      cases hclose : l.close h o with
      | none =>
          have hafter : (apply ⟨h, o, l :: rest, root⟩ .exit).2 = ⟨h, o, rest, root⟩ := by
            simp [apply, exit, hclose]
          rw [hclose, Option.elim_none] at hclosed
          refine balanced_of_moved (by simp [Drops, apply, exit, Except.map, hclose])
            (taken?_eq_none _ rfl) fun keep _ _ _ => ?_
          rw [hafter, leavesWhere_cons]
          nth_rewrite 1 [← List.append_nil (leavesWhere _ _)]
          refine .append (.refl _ _) ?_
          split
          · exact hclosed
          · rfl
      | some s =>
          rw [hclose, Option.elim_some] at hclosed
          cases hcollect : collect ⟨h, o, rest, root⟩ s with
          | error e =>
              obtain ⟨rfl, -⟩ := collect_refused_iff.mp hcollect
              exact balanced_of_drops rfl
                (by simp [Drops, apply, exit, Except.map, hclose, hcollect])
                (taken?_eq_none _ rfl) (by simp [apply, exit, hclose, hcollect])
          | ok b' =>
              have hafter : (apply ⟨h, o, l :: rest, root⟩ .exit).2 = b' := by
                simp [apply, exit, hclose, hcollect]
              refine balanced_of_moved
                (by simp [Drops, apply, exit, Except.map, hclose, hcollect])
                (taken?_eq_none _ rfl) fun keep _ hzero hmin => ?_
              -- The directory is kept just when the one around it is.
              have hboth : keep (rest.length + 1) ↔ keep (depth ⟨h, o, rest, root⟩) := by
                have hle : depth ⟨h, o, rest, root⟩ ≤ rest.length + 1 := Nat.le_succ _
                rw [hmin, hafter, depth_collect hcollect, min_eq_right hle]
              rw [hafter, leavesWhere_collect hzero hcollect, leavesWhere_cons]
              refine .append (.refl _ _) ?_
              simp only [hboth]
              split
              · exact hclosed
              · rfl

/-- **The books balance at every call.** -/
lemma balanced (b : Builder) (c : Call) (cs : List Call) : Balanced b c cs := by
  cases c with
  | enter location handling => exact balanced_of_enter id rfl rfl
  | enterLike directory handling => exact balanced_of_enter id rfl rfl
  | leaf l => exact balanced_of_leaf id rfl rfl fun b' => collect_of_leaf
  | rootLeaf l => exact balanced_of_leaf id rfl rfl fun b' => collect_of_rootLeaf
  | exit => exact balanced_exit b cs
  | abandon =>
      obtain ⟨h, o, levels, root⟩ := b
      cases levels with
      | nil => exact balanced_of_same (by simp [Drops, apply, abandon, orSame]) rfl rfl
      | cons l rest => exact balanced_of_drops rfl rfl rfl rfl

/-- A call that drops nothing keeps all leaves that are held and adds the one that it takes in. -/
lemma sameLeaves_apply (hdrops : ¬ b.Drops c) :
    b.ordering.SameLeaves (b.apply c).2.leaves (b.leaves ++ (b.taken? c).toList) := by
  have hlast : ∀ n, ¬ b.Loses n [c] := fun n hn =>
    (loses_cons.mp hn).elim (fun hdropped => hdrops hdropped.1) not_loses_nil
  have hbalanced := balanced b c []
  rwa [Balanced, if_neg not_loses_nil, leavesWhere_of_forall (fun _ => not_loses_nil),
    leavesWhere_of_forall hlast] at hbalanced

/-- A call that drops nothing and hands no leaf in makes no difference to whether one is held. -/
lemma leaves_apply_eq_nil_iff (hdrops : ¬ b.Drops c) (hcall : c.leaf? = none) :
    (b.apply c).2.leaves = [] ↔ b.leaves = [] := by
  have hsame := (sameLeaves_apply hdrops).eq_nil_iff
  rwa [taken?_eq_none b hcall, Option.toList_none, List.append_nil] at hsame

/-- **The run**: what is held after some calls is what was held before and is not lost on the way,
and then what is to be kept of the leaves that the calls hand in. -/
lemma leaves_run_of (b : Builder) (cs : List Call) :
    b.ordering.SameLeaves (b.run cs).2.leaves
      ((b.leavesWhere fun n => ¬ b.Loses n cs) ++ b.kept cs) := by
  induction cs generalizing b with
  | nil =>
      rw [leavesWhere_of_forall fun _ => not_loses_nil, kept, List.append_nil]
      rfl
  | cons c cs ih =>
      have hrest := ih (b.apply c).2
      rw [(b.step_apply c).settings.2] at hrest
      rw [kept, ← List.append_assoc]
      exact hrest.trans ((balanced b c cs).append (.refl _ _))

/-- **No leaf is lost or doubled.** After any calls, refused ones among them, the leaves that a
builder holds are those that were taken in, without those below a directory that was abandoned or
refused as a second root. They stand in the order of the calls, unless the builder sorts. -/
theorem leaves_run (h : HashFunction) (o : ChildOrdering) (calls : List Call) :
    o.SameLeaves ((new h o).run calls).2.leaves ((new h o).kept calls) := by
  have hrun := leaves_run_of (new h o) calls
  have hnone : (new h o).leavesWhere (fun n => ¬ (new h o).Loses n calls) = [] := rfl
  rwa [hnone, List.nil_append] at hrun

/-- A leaf below a directory that is abandoned is given up, one beside it is kept. -/
example :
    let h := HashFunction.ofBytes fun bytes => .replicate (.ofNat bytes.length)
    let place := fun name : String => (⟨"/r/" ++ name, name, .direct⟩ : Location)
    let x := Leaf.missing h (place "x")
    (new h .byName).kept [.enter (place "r") .included, .leaf x, .enter (place "d") .included,
      .leaf (.missing h (place "y")), .abandon, .exit] = [x] := by decide

end Builder

end TreeDigest

import TreeDigest.Proofs.Builder.Merkle

/-!
What the digests of a builder depend on.

Two runs of a builder whose calls differ in paths, accesses, lengths, times and the name of what is
outermost go the same way, and give the same digests at the same places.

* `Snapshot.outline` is what is left of a snapshot without these: its shape, the names below the
  root and the digest of every node.
* `Call.AlikeAll` compares two sequences of calls, and `Builder.Alike` two builders.
* `Alike.apply` is the step and `Alike.run` the run; `run_outline` says so of new builders.
-/

namespace TreeDigest

/-- A snapshot without what is only reported: its kind and digest, and for a directory the names
and outlines of its children. -/
inductive Outline where
  | file (digest : Digest)
  | missing (digest : Digest)
  | directory (digest : Digest) (entries : List (String × Outline))

/-- The digest of the topmost node. -/
def Outline.digest : Outline → Digest
  | .file d => d
  | .missing d => d
  | .directory d _ => d

namespace Snapshot

mutual

/-- The outline of a snapshot: its own name is not part of it. -/
def outline : Snapshot → Outline
  | .leaf ⟨_, d, .file _⟩ => .file d
  | .leaf ⟨_, d, .missing⟩ => .missing d
  | .directory _ d cs => .directory d (entries cs)

/-- The names and outlines of children. -/
def entries : List Snapshot → List (String × Outline)
  | [] => []
  | c :: cs => (c.name, outline c) :: entries cs

end

lemma entries_eq_map (cs : List Snapshot) : entries cs = cs.map fun c => (c.name, c.outline) := by
  induction cs with
  | nil => rfl
  | cons c cs ih => rw [entries, ih, List.map_cons]

lemma entries_concat (cs : List Snapshot) (s : Snapshot) :
    entries (cs ++ [s]) = entries cs ++ [(s.name, s.outline)] := by
  simp [entries_eq_map]

lemma digest_outline (s : Snapshot) : s.outline.digest = s.digest := by
  match s with
  | .leaf ⟨_, _, .file _⟩ | .leaf ⟨_, _, .missing⟩ | .directory _ _ _ => rfl

/-- Names and digests are all that is listed of children. -/
lemma listing_eq_entries (cs : List Snapshot) :
    listing cs = (entries cs).map fun e => (e.1, e.2.digest) := by
  simp [listing, entries_eq_map, digest_outline]

/-- Children are arranged by what their outlines say. -/
lemma entries_arrange (o : ChildOrdering) (cs : List Snapshot) :
    entries (o.arrange cs) = match o with
      | .asVisited => entries cs
      | .byName => (entries cs).mergeSort fun a b => Text.nameLe a.1 b.1 := by
  cases o with
  | asVisited => rfl
  | byName =>
      rw [entries_eq_map, entries_eq_map]
      exact List.map_mergeSort fun _ _ _ _ => rfl

end Snapshot

/-! ### Calls that differ in what is only reported -/

/-- Two kinds of leaves that are equal but for length and time. -/
inductive LeafKind.Alike : LeafKind → LeafKind → Prop where
  | file (f g : FileFacts) : Alike (.file f) (.file g)
  | missing : Alike .missing .missing

/-- Two leaves that are equal but for path, access, length and time, and for the name too if that
does not count. -/
structure Leaf.Alike (named : Prop) (l l' : Leaf) : Prop where
  name : named → l.location.name = l'.location.name
  digest : l.digest = l'.digest
  kind : l.kind.Alike l'.kind

/-- Leaves that are alike have one outline. -/
lemma Leaf.Alike.outline_eq {named : Prop} {l l' : Leaf} (hl : l.Alike named l') :
    (Snapshot.leaf l).outline = (Snapshot.leaf l').outline := by
  obtain ⟨location, digest, kind⟩ := l
  obtain ⟨location', digest', kind'⟩ := l'
  obtain rfl : digest = digest' := hl.digest
  cases hl.kind <;> rfl

namespace Builder

/-- Two calls with the given number of directories open that are equal but for paths, accesses,
lengths and times. The name of a directory counts only if it is opened in another one, and that of
a leaf only if it is not the whole result. -/
inductive Call.Alike (depth : ℕ) : Call → Call → Prop where
  | enter {a b : Location} (handling : EmptyDirectories) :
      (0 < depth → a.name = b.name) → Alike depth (.enter a handling) (.enter b handling)
  | enterLike {s t : Snapshot} (handling : EmptyDirectories) :
      (0 < depth → s.name = t.name) → Alike depth (.enterLike s handling) (.enterLike t handling)
  | leaf {l l' : Leaf} : l.Alike True l' → Alike depth (.leaf l) (.leaf l')
  | rootLeaf {l l' : Leaf} : l.Alike False l' → Alike depth (.rootLeaf l) (.rootLeaf l')
  | exit : Alike depth .exit .exit
  | abandon : Alike depth .abandon .abandon

/-- The number of open directories after a call. -/
def Call.depthAfter (depth : ℕ) : Call → ℕ
  | .enter _ _ | .enterLike _ _ => depth + 1
  | .leaf _ | .rootLeaf _ => depth
  | .exit | .abandon => depth - 1

/-- Two sequences of calls that are equal but for paths, accesses, lengths, times and the names of
outermost directories and of leaves that are the whole result. -/
inductive Call.AlikeAll : ℕ → List Call → List Call → Prop where
  | nil {depth : ℕ} : AlikeAll depth [] []
  | cons {depth : ℕ} {c c' : Call} {cs cs' : List Call} : c.Alike depth c' →
      AlikeAll (c.depthAfter depth) cs cs' → AlikeAll depth (c :: cs) (c' :: cs')

end Builder

/-! ### Builders that differ in what is only reported -/

/-- Open directories that have collected the same, so far as outlines tell, and have the same names
but for the outermost one. -/
inductive Level.AlikeAll : List Level → List Level → Prop where
  | nil : AlikeAll [] []
  | cons {l l' : Level} {rest rest' : List Level} : l.handling = l'.handling →
      Snapshot.entries l.children = Snapshot.entries l'.children →
      (rest ≠ [] → l.location.name = l'.location.name) → AlikeAll rest rest' →
      AlikeAll (l :: rest) (l' :: rest')

lemma Level.AlikeAll.length_eq {ls ls' : List Level} (hls : AlikeAll ls ls') :
    ls.length = ls'.length := by
  induction hls with
  | nil => rfl
  | cons _ _ _ _ ih => exact congrArg (· + 1) ih

/-- What is made of a directory when it is closed depends on the outlines of its children. -/
lemma Level.outline_close (h : HashFunction) (o : ChildOrdering) {l l' : Level}
    (hhandling : l.handling = l'.handling)
    (hentries : Snapshot.entries l.children = Snapshot.entries l'.children) :
    (l.close h o).map Snapshot.outline = (l'.close h o).map Snapshot.outline := by
  have hempty : l.children.isEmpty = l'.children.isEmpty := by
    rw [Snapshot.entries_eq_map, Snapshot.entries_eq_map] at hentries
    simpa using congrArg List.isEmpty hentries
  have harranged : Snapshot.entries (o.arrange l.children)
      = Snapshot.entries (o.arrange l'.children) := by
    rw [Snapshot.entries_arrange, Snapshot.entries_arrange, hentries]
  rw [close, close, isDropped, isDropped, hhandling, hempty]
  split
  · rfl
  · simp only [Option.map_some, Snapshot.outline, Snapshot.listing_eq_entries, harranged]

lemma Level.name_close {h : HashFunction} {o : ChildOrdering} {l : Level} {s : Snapshot}
    (hs : l.close h o = some s) : s.name = l.location.name := by
  rw [close] at hs
  split at hs
  · cases hs
  · obtain rfl := Option.some.inj hs
    rfl

namespace Builder

/-- Two builders that differ in what is only reported. -/
structure Alike (b b' : Builder) : Prop where
  hash : b.hash = b'.hash
  ordering : b.ordering = b'.ordering
  levels : Level.AlikeAll b.levels b'.levels
  root : b.root.map Snapshot.outline = b'.root.map Snapshot.outline

/-- Two outcomes of a call: the same refusal, or builders that are alike. -/
inductive AlikeOutcomes : Except BuilderError Builder → Except BuilderError Builder → Prop where
  | refused (e : BuilderError) : AlikeOutcomes (.error e) (.error e)
  | accepted {b b' : Builder} : b.Alike b' → AlikeOutcomes (.ok b) (.ok b')

namespace Alike

variable {b b' : Builder}

lemma depth_eq (hb : b.Alike b') : b.depth = b'.depth := hb.levels.length_eq

lemma enter (hb : b.Alike b') {l l' : Location} (handling : EmptyDirectories)
    (hname : 0 < b.depth → l.name = l'.name) :
    (b.enter l handling).Alike (b'.enter l' handling) where
  hash := hb.hash
  ordering := hb.ordering
  levels := .cons rfl rfl (fun hrest => hname (List.length_pos_of_ne_nil hrest)) hb.levels
  root := hb.root

/-- Snapshots of one outline are taken in alike. -/
lemma collect (hb : b.Alike b') {s s' : Snapshot} (houtline : s.outline = s'.outline)
    (hname : 0 < b.depth → s.name = s'.name) :
    AlikeOutcomes (b.collect s) (b'.collect s') := by
  obtain ⟨h, o, levels, root⟩ := b
  obtain ⟨h', o', levels', root'⟩ := b'
  obtain ⟨hhash, hordering, hlevels, hroot⟩ := hb
  cases hlevels with
  | nil =>
      cases root with
      | some r =>
          obtain ⟨r', rfl, -⟩ := Option.map_eq_some_iff.mp hroot.symm
          exact .refused _
      | none =>
          obtain rfl := Option.map_eq_none_iff.mp hroot.symm
          exact .accepted ⟨hhash, hordering, .nil, congrArg some houtline⟩
  | cons hhandling hentries hnames hrest =>
      refine .accepted ⟨hhash, hordering, .cons hhandling ?_ hnames hrest, hroot⟩
      rw [Snapshot.entries_concat, Snapshot.entries_concat, hentries, houtline,
        hname (Nat.succ_pos _)]

lemma orSame (hb : b.Alike b') {r r' : Except BuilderError Builder} (hr : AlikeOutcomes r r') :
    (b.orSame r).1 = (b'.orSame r').1 ∧ (b.orSame r).2.Alike (b'.orSame r').2 := by
  cases hr with
  | refused e => exact ⟨rfl, hb⟩
  | accepted hafter => exact ⟨rfl, hafter⟩

/-- Closing the innermost directory is answered alike, also where it is refused. -/
lemma exit (hb : b.Alike b') : b.exit.1 = b'.exit.1 ∧ b.exit.2.Alike b'.exit.2 := by
  obtain ⟨h, o, levels, root⟩ := b
  obtain ⟨h', o', levels', root'⟩ := b'
  obtain ⟨rfl, rfl, hlevels, hroot⟩ := hb
  cases hlevels with
  | nil => exact ⟨rfl, rfl, rfl, .nil, hroot⟩
  | @cons l l' rest rest' hhandling hentries hnames hrest =>
      have houter : Alike ⟨h, o, rest, root⟩ ⟨h, o, rest', root'⟩ := ⟨rfl, rfl, hrest, hroot⟩
      have hclosed := Level.outline_close h o hhandling hentries
      simp only [Builder.exit]
      cases hclose : l.close h o with
      | none =>
          rw [hclose] at hclosed
          rw [Option.map_eq_none_iff.mp hclosed.symm]
          exact ⟨rfl, houter⟩
      | some s =>
          rw [hclose] at hclosed
          obtain ⟨s', hclose', houtline⟩ := Option.map_eq_some_iff.mp hclosed.symm
          have hcollected := houter.collect houtline.symm fun hdepth => by
            rw [Level.name_close hclose, Level.name_close hclose',
              hnames (List.length_pos_iff.mp hdepth)]
          rw [hclose']
          simp only
          generalize Builder.collect ⟨h, o, rest, root⟩ s = r at hcollected ⊢
          generalize Builder.collect ⟨h, o, rest', root'⟩ s' = r' at hcollected ⊢
          cases hcollected with
          | refused e => exact ⟨rfl, houter⟩
          | accepted hafter => exact ⟨rfl, hafter⟩

lemma leaf (hb : b.Alike b') {l l' : Leaf} (hl : l.Alike True l') :
    AlikeOutcomes (b.leaf l) (b'.leaf l') := by
  have hcollected := hb.collect hl.outline_eq fun _ => hl.name trivial
  obtain ⟨h, o, levels, root⟩ := b
  obtain ⟨h', o', levels', root'⟩ := b'
  have hlevels : Level.AlikeAll levels levels' := hb.levels
  cases hlevels with
  | nil => exact .refused _
  | cons => exact hcollected

lemma rootLeaf (hb : b.Alike b') {l l' : Leaf} (hl : l.Alike False l') :
    AlikeOutcomes (b.rootLeaf l) (b'.rootLeaf l') := by
  have hdepth := hb.depth_eq
  obtain ⟨h, o, levels, root⟩ := b
  obtain ⟨h', o', levels', root'⟩ := b'
  have hlevels : Level.AlikeAll levels levels' := hb.levels
  cases hlevels with
  | nil => exact hb.collect hl.outline_eq fun hpos => absurd hpos (lt_irrefl 0)
  | cons =>
      rw [Builder.rootLeaf, Builder.rootLeaf, hdepth]
      exact .refused _

lemma abandon (hb : b.Alike b') : AlikeOutcomes b.abandon b'.abandon := by
  obtain ⟨h, o, levels, root⟩ := b
  obtain ⟨h', o', levels', root'⟩ := b'
  obtain ⟨hhash, hordering, hlevels, hroot⟩ := hb
  cases hlevels with
  | nil => exact .refused _
  | cons _ _ _ hrest => exact .accepted ⟨hhash, hordering, hrest, hroot⟩

/-- **The step**: calls that are alike are answered alike. -/
lemma apply (hb : b.Alike b') {c c' : Call} (hc : c.Alike b.depth c') :
    (b.apply c).1 = (b'.apply c').1 ∧ (b.apply c).2.Alike (b'.apply c').2 := by
  cases hc with
  | enter handling hname => exact ⟨rfl, hb.enter handling hname⟩
  | enterLike handling hname => exact ⟨rfl, hb.enter handling hname⟩
  | leaf hl => exact hb.orSame (hb.leaf hl)
  | rootLeaf hl => exact hb.orSame (hb.rootLeaf hl)
  | exit => exact ⟨congrArg (Except.map Answer.kept) hb.exit.1, hb.exit.2⟩
  | abandon => exact hb.orSame hb.abandon

end Alike

/-- A call opens one directory, closes one or leaves their number as it is, refused or not. -/
lemma depth_apply (b : Builder) (c : Call) : (b.apply c).2.depth = c.depthAfter b.depth := by
  have hleaf : ∀ {l : Leaf} {r : Except BuilderError Builder},
      (∀ b', r = .ok b' → b.collect (.leaf l) = .ok b') → (b.orSame r).2.depth = b.depth := by
    intro l r hr
    cases r with
    | error e => rfl
    | ok b' => exact depth_collect (hr b' rfl)
  cases c with
  | enter location handling => rfl
  | enterLike directory handling => rfl
  | leaf l => exact hleaf fun b' => collect_of_leaf
  | rootLeaf l => exact hleaf fun b' => collect_of_rootLeaf
  | abandon =>
      obtain ⟨h, o, _ | ⟨l, rest⟩, root⟩ := b <;> rfl
  | exit =>
      obtain ⟨h, o, _ | ⟨l, rest⟩, root⟩ := b
      · rfl
      · simp only [apply, exit, Call.depthAfter]
        split
        · rfl
        · split
          · next hcollect => exact depth_collect hcollect
          · rfl

/-- **The run**: calls that are alike are all answered alike, and leave builders that are. -/
lemma Alike.run {b b' : Builder} (hb : b.Alike b') {cs cs' : List Call}
    (hcs : Call.AlikeAll b.depth cs cs') :
    (b.run cs).1 = (b'.run cs').1 ∧ (b.run cs).2.Alike (b'.run cs').2 := by
  induction cs generalizing b b' cs' with
  | nil =>
      cases hcs
      exact ⟨rfl, hb⟩
  | cons c cs ih =>
      cases hcs with
      | cons hc hrest =>
          obtain ⟨hanswer, hafter⟩ := hb.apply hc
          rw [← depth_apply] at hrest
          obtain ⟨hanswers, hend⟩ := ih hafter hrest
          exact ⟨congrArg₂ (· :: ·) hanswer hanswers, hend⟩

/-- Builders that are alike give results of one outline, or refuse them alike. -/
lemma Alike.result {b b' : Builder} (hb : b.Alike b') :
    b.result.map (Option.map Snapshot.outline) = b'.result.map (Option.map Snapshot.outline) := by
  have hdepth := hb.depth_eq
  obtain ⟨h, o, levels, root⟩ := b
  obtain ⟨h', o', levels', root'⟩ := b'
  have hlevels : Level.AlikeAll levels levels' := hb.levels
  cases hlevels with
  | nil => exact congrArg Except.ok hb.root
  | cons =>
      rw [Builder.result, Builder.result, hdepth]
      rfl

/-- **Digests do not see what is only reported.** Let two sequences of calls be equal but for paths,
accesses, lengths, times and the names of what is outermost. New builders with one hash function and
one order of children answer them alike, call by call, and their results have one outline: the same
shape, the same names below the root and the same digest at every node. -/
theorem run_outline (h : HashFunction) (o : ChildOrdering) {cs cs' : List Call}
    (hcs : Call.AlikeAll 0 cs cs') :
    ((new h o).run cs).1 = ((new h o).run cs').1
      ∧ ((new h o).run cs).2.result.map (Option.map Snapshot.outline)
          = ((new h o).run cs').2.result.map (Option.map Snapshot.outline) := by
  have hnew : (new h o).Alike (new h o) := ⟨rfl, rfl, .nil, rfl⟩
  obtain ⟨hanswers, hend⟩ := hnew.run hcs
  exact ⟨hanswers, hend.result⟩

/-- A tree that is moved, renamed and touched. The exit after the last directory is refused both
times, and each time the empty directory is left out. -/
theorem run_outline_moved :
    let h := HashFunction.ofBytes fun bytes => .replicate (.ofNat bytes.length)
    let tree := fun (path name : String) (access : Access) (facts : FileFacts) =>
      [.enter ⟨path, name, access⟩ .included,
        .leaf ⟨⟨path ++ "/x", "x", access⟩, h.missing, .file facts⟩,
        .enter ⟨path ++ "/e", "e", access⟩ .excluded, .exit, .exit, .exit]
    let cs := tree "/r" "r" .direct ⟨1, 0⟩
    let cs' := tree "/mnt/s" "s" .viaSymlink ⟨2, -7⟩
    Call.AlikeAll 0 cs cs'
      ∧ ((new h .byName).run cs).1 = ((new h .byName).run cs').1
      ∧ ((new h .byName).run cs).2.result.map (Option.map Snapshot.outline)
          = ((new h .byName).run cs').2.result.map (Option.map Snapshot.outline)
      ∧ ((new h .byName).run cs).1
          = [.ok .done, .ok .done, .ok .done, .ok (.kept false), .ok (.kept true),
              .error .outsideOfRoot]
      ∧ ((new h .byName).run cs).2.result.map (Option.map Snapshot.name) = .ok (some "r")
      ∧ ((new h .byName).run cs').2.result.map (Option.map Snapshot.name) = .ok (some "s") := by
  intro h tree cs cs'
  have houter : (0 < 0) → "r" = "s" := fun hpos => absurd hpos (lt_irrefl 0)
  have hcs : Call.AlikeAll 0 cs cs' :=
    .cons (.enter _ houter) <| .cons (.leaf ⟨fun _ => rfl, rfl, .file _ _⟩) <|
      .cons (.enter _ fun _ => rfl) <| .cons .exit <| .cons .exit <| .cons .exit .nil
  obtain ⟨hanswers, hresults⟩ := run_outline h .byName hcs
  exact ⟨hcs, hanswers, hresults, rfl, rfl, rfl⟩

end Builder

end TreeDigest

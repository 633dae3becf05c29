import TreeDigest.Proofs.Builder.Naming
import TreeDigest.Proofs.FileSystem.Lockstep
import TreeDigest.Proofs.Scan.Driver
import TreeDigest.Proofs.Scan.Steps

/-!
Two scans that see the same.

A scan looks at the file system itself where it reads a file, and where it asks whether a missing
place is a link. If two scans see the same there and are told the same steps, then they do the same:
their builders, counters and messages are equal at every step. Along the way, the builders keep to
names that have some property, if only such names are told.

* `Survey.SameAt` says what two surveys see the same at a place, and `Survey.Agree` relates the
  outcomes of their scans.
* `Twin.agree_visit` is what happens at one event, and `Twin.agree_steps` at a row of steps.
* `Sight` says which places two surveys see the same, with what is listed there;
  `Sight.steps_eq` is that their walks take the same steps.
-/

namespace TreeDigest

/-- At these events a scan looks at the file system itself: it reads a file, or it asks whether what
is missing is a link. -/
def WalkEvent.Looks : WalkEvent → Prop
  | .entry e => e.kind = .file
  | .failure (.io _ (some _) _) => True
  | .failure _ => False

/-- What a scan hands out when its walk is over and all directories are closed. -/
def Scan.finish (s : Scan) : Except ScanFailure ScanResult :=
  match s.builder.result with
  | .ok snapshot => .ok ⟨⟨snapshot, s.counts⟩, s.files, s.messages⟩
  | .error e => s.fail (.traversal e)

namespace Survey

/-- Two surveys see the same node at a place, as far as a scan takes it in. -/
structure SameAt (v w : Survey) (q : Path) : Prop where
  node : ∀ follow, InStep (fun n n' => n.kind = n'.kind ∧ Scan.facts n = Scan.facts n')
    (v.files.node follow q) (w.files.node follow q)
  result : (v.hasher q v.files).result = (w.hasher q w.files).result
  messages : (v.hasher q v.files).messages = (w.hasher q w.files).messages

/-- Two surveys that are asked the same. -/
structure Twin (v w : Survey) : Prop where
  options : v.options = w.options
  hash : v.hash = w.hash
  root : v.root = w.root

/-- What two scans give that do the same: the same error, or the same builder, which keeps an
invariant, with the same counters and messages. -/
inductive Agree (v w : Survey) (I : Builder → Prop) :
    Except ScanFailure Scan → Except ScanFailure Scan → Prop where
  | ok {b : Builder} {c : ScanCounts} {m : List (List Part)} : I b →
      Agree v w I (.ok (v.scan b c m)) (.ok (w.scan b c m))
  | error (e : StorageError) : Agree v w I (.error ⟨e, v.files⟩) (.error ⟨e, w.files⟩)

namespace Agree

variable {v w : Survey} {I J : Builder → Prop} {x y : Except ScanFailure Scan}

lemma imp (h : Agree v w I x y) (hIJ : ∀ b, I b → J b) : Agree v w J x y := by
  cases h with
  | ok hb => exact .ok (hIJ _ hb)
  | error e => exact .error e

/-- Going on from scans that agree. -/
lemma bind {f g : Scan → Except ScanFailure Scan} (h : Agree v w I x y)
    (hfg : ∀ b c m, I b → Agree v w J (f (v.scan b c m)) (g (w.scan b c m))) :
    Agree v w J (x.bind f) (y.bind g) := by
  cases h with
  | ok hb => exact hfg _ _ _ hb
  | error e => exact .error e

end Agree

namespace Twin

variable {v w : Survey} {P : String → Prop} {b : Builder} {c : ScanCounts} {m : List (List Part)}

/-- Closing directories goes alike. -/
lemma agree_close (n : ℕ) (hb : b.NamedBelow P) :
    Agree v w (fun b' => b'.NamedBelow P ∧ b'.depth = b.depth - n)
      ((v.scan b c m).close n) ((w.scan b c m).close n) := by
  induction n generalizing b c m with
  | zero => exact .ok ⟨hb, rfl⟩
  | succ n ih =>
      have hexit : ∀ kept b', b.exit = (.ok kept, b') →
          b'.NamedBelow P ∧ b'.depth - n = b.depth - (n + 1) := by
        intro kept b' he
        obtain ⟨-, -, ⟨path, htrail⟩, -⟩ := Builder.exit_ok he
        have hdepth : b.depth = b'.depth + 1 := by simpa using congrArg List.length htrail
        exact ⟨hb.exit he, by omega⟩
      simp only [Scan.close, scan]
      split
      · exact .error _
      · next he =>
          obtain ⟨hb', hdepth⟩ := hexit _ _ he
          exact (ih hb').imp fun b hb => ⟨hb.1, hb.2.trans hdepth⟩
      · next he =>
          obtain ⟨hb', hdepth⟩ := hexit _ _ he
          exact (ih hb').imp fun b hb => ⟨hb.1, hb.2.trans hdepth⟩

lemma agree_closeTo (d : ℕ) (hb : b.NamedBelow P) :
    Agree v w (fun b' => b'.NamedBelow P ∧ b'.depth ≤ d)
      ((v.scan b c m).closeTo d) ((w.scan b c m).closeTo d) :=
  (agree_close (b.depth - d) hb).imp fun b' hb' => ⟨hb'.1, by
    have hdepth := hb'.2
    omega⟩

/-- A leaf is taken in alike. -/
lemma agree_collect {d : ℕ} (hb : b.NamedBelow P) (l : Leaf) (hname : 0 < d → P l.location.name) :
    Agree v w (·.NamedBelow P) ((v.scan b c m).collect d l) ((w.scan b c m).collect d l) := by
  have htaken : ∀ b', (if d = 0 then b.rootLeaf l else b.leaf l) = .ok b' → b'.NamedBelow P := by
    intro b' hb'
    split at hb'
    · rw [Builder.rootLeaf] at hb'
      split at hb'
      · next hlevels =>
          exact hb.collect hb' (by simp [Snapshot.children]) (by simp [Builder.depth, hlevels])
      · cases hb'
    · next hd =>
        rw [Builder.leaf] at hb'
        split at hb'
        · cases hb'
        · exact hb.collect hb' (by simp [Snapshot.children]) fun _ =>
            Snapshot.named_leaf_iff.mpr (hname (Nat.pos_of_ne_zero hd))
  simp only [Scan.collect, scan]
  split
  · next heq => exact .ok (htaken _ heq)
  · exact .error _

/-- The name under which a place below the root is recorded. -/
lemma name_location {depth : ℕ} {path : Path} {viaLink : Bool}
    (hname : 0 < depth → P path.entryName) (hdepth : 0 < depth) :
    P (v.location depth path viaLink).name := by
  rw [location, if_neg hdepth.ne']
  exact hname hdepth

variable (h : v.Twin w)

include h

lemma location_eq (depth : ℕ) (path : Path) (viaLink : Bool) :
    v.location depth path viaLink = w.location depth path viaLink := by
  rw [location, location, h.root]

lemma agree_collectMissing {d : ℕ} (hb : b.NamedBelow P) (location : Location)
    (hname : 0 < d → P location.name) :
    Agree v w (·.NamedBelow P) ((v.scan b c m).collectMissing d location)
      ((w.scan b c m).collectMissing d location) := by
  have hmissing : Leaf.missing w.hash location = .missing v.hash location := by rw [h.hash]
  simp only [Scan.collectMissing, scan, hmissing]
  exact agree_collect hb _ hname

omit h in
/-- A file is read alike. -/
lemma readFile_eq {e : WalkEntry} (he : v.SameAt w e.path) :
    ∃ r m', (v.scan b c m).readFile e = (r, v.scan b c m')
      ∧ (w.scan b c m).readFile e = (r, w.scan b c m') := by
  have hnode := he.node e.viaLink
  have hv := v.still e.path
  have hw := w.still e.path
  simp only [Scan.readFile, scan, he.result, he.messages]
  generalize v.files.node e.viaLink e.path = x at hnode
  generalize w.files.node e.viaLink e.path = y at hnode
  cases hnode with
  | error error => exact ⟨_, m, rfl, rfl⟩
  | ok hn =>
      simp only [hn.2, hv, hw]
      cases (w.hasher e.path w.files).result <;> exact ⟨_, _, rfl, rfl⟩

/-- **A file is taken in alike.** -/
lemma agree_visitFile {e : WalkEntry} (he : v.SameAt w e.path) (hb : b.NamedBelow P)
    (hname : 0 < e.depth → P e.path.entryName) :
    Agree v w (·.NamedBelow P) ((v.scan b c m).visitFile e) ((w.scan b c m).visitFile e) := by
  obtain ⟨r, m', hv, hw⟩ := readFile_eq (b := b) (c := c) (m := m) he
  have hlocation : (w.scan b c m).location e = (v.scan b c m).location e :=
    (h.location_eq e.depth e.path e.viaLink).symm
  have hnamed : 0 < e.depth → P ((v.scan b c m).location e).name := name_location hname
  simp only [Scan.visitFile, hv, hw, hlocation]
  rcases r with failure | ⟨facts, digest⟩
  · dsimp only
    split
    · exact h.agree_collectMissing hb _ hnamed
    · exact .error _
  · exact agree_collect hb _ hnamed

/-- **An entry is taken in alike.** -/
lemma agree_visitEntry {e : WalkEntry} (he : e.kind = .file → v.SameAt w e.path)
    (hb : b.NamedBelow P) (hname : 0 < e.depth → P e.path.entryName) :
    Agree v w (·.NamedBelow P) ((v.scan b c m).visitEntry e) ((w.scan b c m).visitEntry e) := by
  refine (agree_closeTo e.depth hb).bind fun b c m hb => ?_
  obtain ⟨hb, hdepth⟩ := hb
  cases hkind : e.kind with
  | directory =>
      have hopened : (b.enter (v.location e.depth e.path e.viaLink)
          v.options.emptyDirectories).NamedBelow P :=
        hb.enter _ fun hpos => name_location hname (hpos.trans_le hdepth)
      show Agree v w _
        (.ok (v.scan
          (b.enter (v.location e.depth e.path e.viaLink) v.options.emptyDirectories) c m))
        (.ok (w.scan
          (b.enter (w.location e.depth e.path e.viaLink) w.options.emptyDirectories) c m))
      rw [← h.options, ← h.location_eq]
      exact .ok hopened
  | file => exact h.agree_visitFile (he hkind) hb hname
  | link => exact .ok hb
  | special => exact .ok hb

omit h in
/-- A directory is abandoned alike. -/
lemma agree_abandonAt (d : ℕ) (path : String) (hb : b.NamedBelow P) :
    Agree v w (·.NamedBelow P) ((v.scan b c m).abandonAt d path)
      ((w.scan b c m).abandonAt d path) := by
  by_cases hopen : b.depth = d + 1 ∧ b.currentPath? = some path
  · simp only [Scan.abandonAt, scan, hopen]
    cases ha : b.abandon with
    | ok b' => exact .ok (hb.abandon ha)
    | error e => exact .error _
  · simp only [Scan.abandonAt, scan, hopen, if_false]
    exact .ok hb

/-- **A missing place is recorded alike.** -/
lemma agree_visitMissing {d : ℕ} {path : Path} (hpath : v.SameAt w path) (hb : b.NamedBelow P)
    (hname : 0 < d → P path.entryName) :
    Agree v w (·.NamedBelow P) ((v.scan b c m).visitMissing d path)
      ((w.scan b c m).visitMissing d path) := by
  have hlink : v.files.isLink path = w.files.isLink path :=
    FileSystem.isLink_of_kind ((hpath.node false).imp fun _ _ hn => hn.1)
  refine (agree_closeTo (d + 1) hb).bind fun b c m hb => ?_
  show Agree v w _ (((v.scan b c m).abandonAt d (v.root.pathText path)).bind fun s => _)
    (((w.scan b c m).abandonAt d (w.root.pathText path)).bind fun s => _)
  rw [← h.root]
  refine (agree_abandonAt d _ hb.1).bind fun b c m hb => ?_
  refine (agree_closeTo d hb).bind fun b c m hb => ?_
  show Agree v w _ ((v.scan b c m).collectMissing d (v.location d path (v.files.isLink path)))
    ((w.scan b c m).collectMissing d (w.location d path (w.files.isLink path)))
  rw [← hlink, ← h.location_eq]
  exact h.agree_collectMissing hb.1 _ fun hd => name_location hname hd

/-- An error of the walk is taken in alike. -/
lemma agree_visitFailure {d : ℕ} {path : Path} {e : WalkError}
    (he : (WalkEvent.failure e).At d path) (hpath : (WalkEvent.failure e).Looks → v.SameAt w path)
    (hb : b.NamedBelow P) (hname : 0 < d → P path.entryName) :
    Agree v w (·.NamedBelow P) ((v.scan b c m).visitFailure e) ((w.scan b c m).visitFailure e) := by
  cases e with
  | loop depth ancestor child => exact .error _
  | io depth place error =>
      cases place with
      | none => exact .error _
      | some path' =>
          obtain ⟨rfl, rfl⟩ := he
          simp only [Scan.visitFailure]
          split
          · exact h.agree_visitMissing (hpath trivial) hb hname
          · exact .error _

/-- **One event** is taken in alike, where the two surveys see the same if they look. -/
theorem agree_visit {d : ℕ} {path : Path} {event : WalkEvent} (hat : event.At d path)
    (hpath : event.Looks → v.SameAt w path) (hb : b.NamedBelow P)
    (hname : 0 < d → P path.entryName) :
    Agree v w (·.NamedBelow P) ((v.scan b c m).visit event) ((w.scan b c m).visit event) := by
  cases event with
  | failure e => exact h.agree_visitFailure hat hpath hb hname
  | entry e =>
      obtain ⟨rfl, rfl⟩ := hat
      exact h.agree_visitEntry hpath hb hname

/-- **A row of steps** is taken alike. -/
theorem agree_steps {ss : List Walk.Step} (hplaced : ∀ step ∈ ss, step.Placed)
    (hss : ∀ step ∈ ss, ∀ event, step.told = some event →
      (event.Looks → v.SameAt w step.path) ∧ (0 < step.depth → P step.path.entryName))
    (hb : b.NamedBelow P) :
    Agree v w (·.NamedBelow P) (ss.foldlM (Walk.Step.take Scan.visitor) (v.scan b c m))
      (ss.foldlM (Walk.Step.take Scan.visitor) (w.scan b c m)) := by
  induction ss generalizing b c m with
  | nil => exact .ok hb
  | cons step ss ih =>
      rw [List.foldlM_cons, List.foldlM_cons]
      have hstep : Agree v w (·.NamedBelow P) (step.take Scan.visitor (v.scan b c m))
          (step.take Scan.visitor (w.scan b c m)) := by
        rw [Walk.Step.take, Walk.Step.take]
        cases htold : step.told with
        | none => exact .ok hb
        | some event =>
            obtain ⟨hpath, hname⟩ := hss step List.mem_cons_self event htold
            exact h.agree_visit ((hplaced step List.mem_cons_self).at_place event htold) hpath hb
              hname
      exact hstep.bind fun b c m hb => ih (fun s hs => hplaced s (List.mem_cons_of_mem _ hs))
        (fun s hs => hss s (List.mem_cons_of_mem _ hs)) hb

end Twin

end Survey

/-! ### The same steps -/

/-- Some steps tell of no entry that is to be left out. -/
def ScanOptions.Silent (o : ScanOptions) (ss : List Walk.Step) : Prop :=
  ∀ step ∈ ss, 0 < step.depth → o.ignores step.name = true → step.told = none

namespace Survey

/-- The steps of the walk that a survey's scan makes. -/
def steps (v : Survey) : List Walk.Step :=
  Walk.rootSteps v.options.walk v.files v.root.walked

/-- **Two surveys see the same** at some places: there they find the same node, and what is listed
there is either left out, or is of the same kind and again seen by both. -/
structure Sight (v w : Survey) (Seen : Path → Prop) : Prop extends v.Twin w where
  same : ∀ {q}, Seen q → v.SameAt w q
  canonicalize : ∀ {q}, Seen q → v.files.canonicalize q = w.files.canonicalize q
  list : ∀ {q}, Seen q → InStep (List.Forall₂ fun a b => a.1 = b.1
    ∧ (v.options.ignores a.1 = true ∨ a.2 = b.2 ∧ Seen (q.join ⟨a.1⟩)))
    (v.files.list q) (w.files.list q)
  walked : Seen v.root.walked

namespace Sight

variable {v w : Survey} {Seen : Path → Prop}

/-- Listings that match by name still do in the order of the walk. -/
lemma forall₂_arrange {R : Bytes × NodeKind → Bytes × NodeKind → Prop} (options : WalkOptions)
    (hR : ∀ a b, R a b → a.1 = b.1) {xs ys : List (Bytes × NodeKind)} (hxy : List.Forall₂ R xs ys) :
    List.Forall₂ R (Walk.arrange options xs) (Walk.arrange options ys) := by
  rw [Walk.arrange, Walk.arrange]
  split
  · exact forall₂_mergeSort Text.bytesLe hR hxy
  · exact hxy

lemma exists_of_mem_left {α β : Type} {R : α → β → Prop} {xs : List α} {ys : List β}
    (hxy : List.Forall₂ R xs ys) {x : α} (hx : x ∈ xs) : ∃ y, R x y := by
  induction hxy with
  | nil => simp at hx
  | @cons x' y xs ys hR _ ih =>
      rcases List.mem_cons.mp hx with rfl | hx
      · exact ⟨y, hR⟩
      · exact ih hx

variable (h : v.Sight w Seen)

include h

/-- The way back to an outer directory is found by both. -/
lemma checkLoop_eq {depth : ℕ} {child : Path} {ancestors : List Path} (hchild : Seen child)
    (hancestors : ∀ a ∈ ancestors, Seen a) :
    Walk.checkLoop v.files depth child ancestors
      = Walk.checkLoop w.files depth child ancestors := by
  induction ancestors with
  | nil => rfl
  | cons ancestor outer ih =>
      rw [Walk.checkLoop, Walk.checkLoop, h.canonicalize hchild,
        h.canonicalize (hancestors ancestor List.mem_cons_self),
        ih fun a ha => hancestors a (List.mem_cons_of_mem _ ha)]

/-- A listed entry is told as the same. -/
lemma entryOf_eq {ancestors : List Path} {depth : ℕ} {path : Path} {kind : NodeKind}
    (hpath : Seen path) (hancestors : ∀ a ∈ ancestors, Seen a) :
    Walk.entryOf v.options.walk v.files ancestors depth path kind
      = Walk.entryOf v.options.walk w.files ancestors depth path kind := by
  have hnode := (h.same hpath).node true
  rw [Walk.entryOf, Walk.entryOf, Walk.followed, Walk.followed, h.checkLoop_eq hpath hancestors]
  generalize v.files.node true path = x at hnode
  generalize w.files.node true path = y at hnode
  cases hnode with
  | error e => rfl
  | @ok n n' hn =>
      simp only [Node.isDirectory, hn.1]
      rfl

omit h in
/-- Where nothing that is to be left out is told of, such an entry is left out. -/
lemma steps_of_ignored {o : ScanOptions} {fs : FileSystem} {room : ℕ} {ancestors : List Path}
    {depth : ℕ} {path : Path} {name : Bytes} {kind : NodeKind} (hdepth : 0 < depth)
    (hname : o.ignores name = true)
    (hsilent : o.Silent (Walk.steps o.walk fs room ancestors depth path name kind)) :
    Walk.steps o.walk fs room ancestors depth path name kind = [⟨depth, path, name, none⟩] := by
  cases room with
  | zero => exact absurd (hsilent _ List.mem_cons_self hdepth hname) (by simp)
  | succ room =>
      rw [Walk.steps] at hsilent ⊢
      cases hentry : Walk.entryOf o.walk fs ancestors depth path kind with
      | error e =>
          rw [hentry] at hsilent
          exact absurd (hsilent _ List.mem_cons_self hdepth hname) (by simp)
      | ok e =>
          have hout : o.walk.leavesOut name = true := hname
          simp only [hdepth, hout, decide_true, Bool.and_self, if_true]

omit h in
/-- Rows of steps that match are the same row, if none of them tells of what is to be left out. -/
lemma flatMap_eq {α : Type} {R : α → α → Prop} {o : ScanOptions} {f g : α → List Walk.Step}
    (hfg : ∀ x y, R x y → o.Silent (f x) → o.Silent (g y) → f x = g y) {xs ys : List α}
    (hxy : List.Forall₂ R xs ys) (hf : o.Silent (xs.flatMap f)) (hg : o.Silent (ys.flatMap g)) :
    xs.flatMap f = ys.flatMap g := by
  induction hxy with
  | nil => rfl
  | @cons x y xs ys hR _ ih =>
      rw [List.flatMap_cons] at hf hg
      rw [List.flatMap_cons, List.flatMap_cons,
        hfg x y hR (fun step hs => hf step (List.mem_append_left _ hs))
          fun step hs => hg step (List.mem_append_left _ hs),
        ih (fun step hs => hf step (List.mem_append_right _ hs))
          fun step hs => hg step (List.mem_append_right _ hs)]

/-- **The same steps**, from a listed entry on that both see. -/
lemma steps_eq_of_seen {room : ℕ} {ancestors : List Path} {depth : ℕ} {path : Path} {name : Bytes}
    {kind : NodeKind} (hpath : Seen path) (hancestors : ∀ a ∈ ancestors, Seen a)
    (hv : v.options.Silent
      (Walk.steps v.options.walk v.files room ancestors depth path name kind))
    (hw : v.options.Silent
      (Walk.steps v.options.walk w.files room ancestors depth path name kind)) :
    Walk.steps v.options.walk v.files room ancestors depth path name kind
      = Walk.steps v.options.walk w.files room ancestors depth path name kind := by
  induction room generalizing ancestors depth path name kind with
  | zero => rfl
  | succ room ih =>
      simp only [Walk.steps, h.entryOf_eq hpath hancestors] at hv hw ⊢
      generalize Walk.entryOf v.options.walk w.files ancestors depth path kind = entry at hv hw ⊢
      cases entry with
      | error e => rfl
      | ok e =>
          dsimp only at hv hw ⊢
          split
          · rfl
          next hkept =>
          split
          next hkind =>
            rw [if_neg hkept, if_pos hkind] at hv hw
            have hlist := h.list hpath
            generalize v.files.list path = x at hlist hv
            generalize w.files.list path = y at hlist hw
            cases hlist with
            | error error => rfl
            | ok hitems =>
                have htail := fun step hs => hv step (List.mem_cons_of_mem _ hs)
                have htail' := fun step hs => hw step (List.mem_cons_of_mem _ hs)
                refine congrArg _ (flatMap_eq (fun a b hab ha hb => ?_)
                  (forall₂_arrange _ (fun _ _ hab => hab.1) hitems) htail htail')
                obtain ⟨a, akind⟩ := a
                obtain ⟨b, bkind⟩ := b
                obtain ⟨rfl, hout | ⟨rfl, hseen⟩⟩ := hab
                · rw [steps_of_ignored (Nat.succ_pos depth) hout ha,
                    steps_of_ignored (Nat.succ_pos depth) hout hb]
                · exact ih hseen (List.forall_mem_cons.mpr ⟨hpath, hancestors⟩) ha hb
          · rfl

/-- The two walks take the same steps from the root on. -/
lemma steps_eq (hv : v.options.Silent v.steps) (hw : w.options.Silent w.steps) :
    v.steps = w.steps := by
  have hkind : v.files.rootKind v.root.walked = w.files.rootKind v.root.walked :=
    FileSystem.rootKind_of_inStep fun follow =>
      ((h.same h.walked).node follow).imp fun _ _ hn => hn.1
  rw [steps, ← h.options, ← h.root, Walk.rootSteps_eq_rootKind, ← hkind] at hw
  rw [steps, Walk.rootSteps_eq_rootKind] at hv ⊢
  rw [steps, ← h.options, ← h.root, Walk.rootSteps_eq_rootKind, ← hkind]
  generalize v.files.rootKind v.root.walked = x at hv hw ⊢
  cases x with
  | error e => rfl
  | ok kind => exact h.steps_eq_of_seen h.walked (by simp) hv hw

/-- What a walk tells of is seen, from a listed entry on that is. -/
lemma seen_of_mem_steps {room : ℕ} {ancestors : List Path} {depth : ℕ} {path : Path} {name : Bytes}
    {kind : NodeKind} (hpath : Seen path)
    (hv : v.options.Silent
      (Walk.steps v.options.walk v.files room ancestors depth path name kind)) :
    ∀ step ∈ Walk.steps v.options.walk v.files room ancestors depth path name kind,
      step.told ≠ none → Seen step.path := by
  induction room generalizing ancestors depth path name kind with
  | zero =>
      intro step hstep _
      obtain rfl := List.mem_singleton.mp hstep
      exact hpath
  | succ room ih =>
      intro step hstep htold
      rw [Walk.steps] at hstep hv
      generalize Walk.entryOf v.options.walk v.files ancestors depth path kind = entry at hstep hv
      cases entry with
      | error e =>
          obtain rfl := List.mem_singleton.mp hstep
          exact hpath
      | ok e =>
          dsimp only at hstep hv
          by_cases hout : (decide (0 < depth) && v.options.walk.leavesOut name) = true
          · rw [if_pos hout] at hstep
            obtain rfl := List.mem_singleton.mp hstep
            exact hpath
          rw [if_neg hout] at hstep hv
          by_cases hkind : e.kind = .directory
          · rw [if_pos hkind] at hstep hv
            rcases List.mem_cons.mp hstep with rfl | hstep
            · exact hpath
            have hlist := h.list hpath
            generalize v.files.list path = x at hlist hv hstep
            generalize w.files.list path = y at hlist
            cases hlist with
            | error error =>
                obtain rfl := List.mem_singleton.mp hstep
                exact hpath
            | ok hitems =>
                obtain ⟨item, hitem, hstep⟩ := List.mem_flatMap.mp hstep
                have hbelow := fun s hs => hv s (List.mem_cons_of_mem _
                  (List.mem_flatMap.mpr ⟨item, hitem, hs⟩))
                obtain ⟨b, -, hout | ⟨-, hseen⟩⟩ := exists_of_mem_left
                  (forall₂_arrange v.options.walk (fun _ _ hab => hab.1) hitems) hitem
                · rw [steps_of_ignored (Nat.succ_pos depth) hout hbelow] at hstep
                  obtain rfl := List.mem_singleton.mp hstep
                  exact absurd rfl htold
                · exact ih hseen hbelow step hstep htold
          · rw [if_neg hkind] at hstep
            obtain rfl := List.mem_singleton.mp hstep
            exact hpath

/-- What a walk tells of is seen, from the root on. -/
lemma seen_of_told (hv : v.options.Silent v.steps) :
    ∀ step ∈ v.steps, step.told ≠ none → Seen step.path := by
  rw [steps, Walk.rootSteps_eq_rootKind] at hv ⊢
  generalize v.files.rootKind v.root.walked = x at hv ⊢
  cases x with
  | error e =>
      intro step hstep _
      obtain rfl := List.mem_singleton.mp hstep
      exact h.walked
  | ok kind => exact h.seen_of_mem_steps h.walked hv

omit h in
/-- A survey sees the same as itself. -/
lemma sameAt_refl (v : Survey) (q : Path) : v.SameAt v q :=
  ⟨fun _ => InStep.of_refl (fun _ => ⟨rfl, rfl⟩) _, rfl, rfl⟩

omit h in
/-- A survey sees everything the same as itself. -/
lemma refl (v : Survey) : v.Sight v fun _ => True where
  options := rfl
  hash := rfl
  root := rfl
  same _ := sameAt_refl v _
  canonicalize _ := rfl
  list _ := InStep.of_refl (fun _ => List.forall₂_same.mpr fun _ _ => ⟨rfl, .inr ⟨rfl, trivial⟩⟩) _
  walked := trivial

omit h in
/-- A scan stays in its survey, whatever it is told. -/
lemma keeps_scan (v : Survey) :
    Scan.visitor.Keeps v.files fun s => ∃ b c m, s = v.scan b c m where
  files := by
    rintro _ ⟨b, c, m, rfl⟩
    rfl
  visit := by
    rintro _ s' event ⟨b, c, m, rfl⟩ hvisit
    obtain ⟨d, path, hat⟩ := event.exists_at
    have hagree := Twin.agree_visit (v := v) (w := v) (P := fun _ => True) (c := c) (m := m)
      ⟨rfl, rfl, rfl⟩ hat (fun _ => sameAt_refl v path) (b := b)
      ⟨by simp, fun _ _ _ _ _ _ => trivial, fun _ _ _ _ _ _ => trivial⟩ (fun _ => trivial)
    rw [show (v.scan b c m).visit event = .ok s' from hvisit] at hagree
    cases hagree with
    | ok => exact ⟨_, _, _, rfl⟩
  skip := by
    rintro _ ⟨b, c, m, rfl⟩
    exact ⟨b, _, m, rfl⟩

omit h in
/-- **A scan takes the steps of its walk**, closes what is open and hands out the result. -/
lemma scanWith_eq (v : Survey) {p : Path} (hp : RootLocation.resolve v.files p = .ok v.root) :
    scanWith v.options v.hash v.hasher v.files p
      = ((v.steps.foldlM (Walk.Step.take Scan.visitor) v.start).bind (·.closeTo 0)).bind
          Scan.finish := by
  have hrun : Walk.run v.options.walk Scan.visitor v.root.walked v.start
      = v.steps.foldlM (Walk.Step.take Scan.visitor) v.start :=
    Walk.run_eq v.options.walk (keeps_scan v) v.root.walked ⟨_, _, _, rfl⟩
  rw [← hrun]
  simp only [scanWith, hp, Except.mapError, bind, Except.bind, start]
  cases Walk.run v.options.walk Scan.visitor v.root.walked
    (Scan.start v.options v.hash v.hasher v.root v.files) with
  | error e => rfl
  | ok s =>
      dsimp only
      cases s.closeTo 0 with
      | error e => rfl
      | ok s =>
          dsimp only
          rw [Scan.finish]
          cases s.builder.result <;> rfl

/-- **Two scans that see the same give the same**, if neither tells of what is to be left out: the
same error, or the same outcome, in which no name below the root is to be left out. -/
theorem agree_scanWith {p : Path} (hfs : v.files.WellFormed)
    (hpv : RootLocation.resolve v.files p = .ok v.root)
    (hpw : RootLocation.resolve w.files p = .ok w.root) (hv : v.options.Silent v.steps)
    (hw : w.options.Silent w.steps) :
    InStep (fun r r' => r.outcome = r'.outcome ∧ ∀ s, r.outcome.snapshot = some s →
        ∀ c ∈ s.children, c.Named (· ∉ v.options.ignore))
      ((scanWith v.options v.hash v.hasher v.files p).mapError (·.error))
      ((scanWith w.options w.hash w.hasher w.files p).mapError (·.error)) := by
  have hstart : w.start = w.scan (.new v.hash v.options.ordering) .zero Builder.firstMessages := by
    rw [h.hash, h.options]
    rfl
  have hnames : ∀ step ∈ v.steps, ∀ event, step.told = some event →
      (event.Looks → v.SameAt w step.path)
      ∧ (0 < step.depth → step.path.entryName ∉ v.options.ignore) := by
    intro step hstep event htold
    have hne : step.told ≠ none := by simp [htold]
    refine ⟨fun _ => h.same (h.seen_of_told hv step hstep hne), fun hdepth hmem => ?_⟩
    rw [(Walk.placed_of_mem_rootSteps hfs step hstep).named hdepth] at hmem
    exact hne (hv step hstep hdepth (by simpa [ScanOptions.ignores] using hmem))
  have hsteps : Agree v w (·.NamedBelow (· ∉ v.options.ignore))
      (v.steps.foldlM (Walk.Step.take Scan.visitor) v.start)
      (w.steps.foldlM (Walk.Step.take Scan.visitor) w.start) := by
    rw [← h.steps_eq hv hw, hstart]
    exact h.toTwin.agree_steps (Walk.placed_of_mem_rootSteps hfs) hnames (.new _ _)
  rw [scanWith_eq v hpv, scanWith_eq w hpw]
  have hclosed := hsteps.bind (f := (·.closeTo 0)) (g := (·.closeTo 0)) fun b c m hb =>
    Twin.agree_closeTo 0 hb
  generalize (v.steps.foldlM (Walk.Step.take Scan.visitor) v.start).bind (·.closeTo 0) = x
    at hclosed
  generalize (w.steps.foldlM (Walk.Step.take Scan.visitor) w.start).bind (·.closeTo 0) = y
    at hclosed
  cases hclosed with
  | error e => exact .error e
  | @ok b c m hb =>
      simp only [Except.bind, Scan.finish, scan]
      cases hresult : b.result with
      | error e => exact .error _
      | ok snapshot =>
          refine .ok ⟨rfl, fun s hs => hb.1.root s ?_⟩
          rw [Builder.result] at hresult
          split at hresult
          · exact (Except.ok.inj hresult).trans hs
          · cases hresult

end Sight

end Survey

end TreeDigest

import TreeDigest.Proofs.Scan.Closing
import TreeDigest.Proofs.Scan.Inquiry

/-!
The walk driver builds the fold of what is found.

A scan sees only a flat stream of events with depths, and what it has left open at any
moment depends on everything before. So its states are compared after they have been
settled, that is, with all directories closed that are not around the next event.

* `Inquiry.Settles` says what file system, builder and counters a scan settles to at a depth, and
  which directory it may still be in there; `Settles.outward` settles it one directory further
  out.
* `Inquiry.Gains` compares two settled states: the second has the fold and the tally of a
  visible tree more. Where links are followed, the tree has to be clear for that: an absent place
  right behind a directory of the same recorded path has that directory undone.
* `Inquiry.follows_descend` is the induction over the walk.
* `Inquiry.scanWith_find` says so of a whole scan, whatever becomes of the file system while files
  are hashed, and `Survey.scanWith_view` of one of a file system that does not change.
-/

namespace TreeDigest

namespace Builder

/-- The builder after its top level has been handed snapshots in turn. -/
def receiveAll (b : Builder) (ss : List Snapshot) : Builder :=
  ss.foldl (fun b s => b.receive (some s)) b

lemma receiveAll_append (b : Builder) (ss ts : List Snapshot) :
    b.receiveAll (ss ++ ts) = (b.receiveAll ss).receiveAll ts := by
  rw [receiveAll, List.foldl_append]
  rfl

lemma receiveAll_toList (b : Builder) (s : Option Snapshot) :
    b.receiveAll s.toList = b.receive s := by
  cases s <;> rfl

lemma receiveAll_level (h : HashFunction) (o : ChildOrdering) (l : Level) (rest : List Level)
    (root : Option Snapshot) (ss : List Snapshot) :
    receiveAll ⟨h, o, l :: rest, root⟩ ss
      = ⟨h, o, { l with children := l.children ++ ss } :: rest, root⟩ := by
  induction ss generalizing l with
  | nil => simp [receiveAll]
  | cons s ss ih =>
      have hrest := ih { l with children := l.children ++ [s] }
      rw [List.append_assoc, List.singleton_append] at hrest
      exact hrest

lemma receive_settings (b : Builder) (s : Option Snapshot) :
    (b.receive s).hash = b.hash ∧ (b.receive s).ordering = b.ordering := by
  obtain ⟨h, o, levels, root⟩ := b
  cases s with
  | none => exact ⟨rfl, rfl⟩
  | some s => cases levels <;> exact ⟨rfl, rfl⟩

lemma depth_receive (b : Builder) (s : Option Snapshot) : (b.receive s).depth = b.depth := by
  obtain ⟨h, o, levels, root⟩ := b
  cases s with
  | none => rfl
  | some s => cases levels <;> rfl

lemma trail_receive (b : Builder) (s : Option Snapshot) : (b.receive s).trail = b.trail := by
  obtain ⟨h, o, levels, root⟩ := b
  cases s with
  | none => rfl
  | some s => cases levels <;> rfl

lemma root_receive (b : Builder) (s : Option Snapshot) (hb : 0 < b.depth) :
    (b.receive s).root = b.root := by
  obtain ⟨h, o, levels, root⟩ := b
  cases s with
  | none => rfl
  | some s =>
      cases levels with
      | nil => simp [depth] at hb
      | cons l rest => rfl

end Builder

namespace Walk

/-- A refused loop is told at the depth of its entry. -/
lemma checkLoop_error {fs : FileSystem} {depth : Nat} {child : Path} {ancestors : List Path}
    {e : WalkError} (he : checkLoop fs depth child ancestors = .error e) :
    (WalkEvent.failure e).depth = depth := by
  induction ancestors with
  | nil => simp [checkLoop] at he
  | cons ancestor outer ih =>
      rw [checkLoop] at he
      split at he
      · split at he
        · obtain rfl := Except.error.inj he
          rfl
        · exact ih he
      · obtain rfl := Except.error.inj he
        rfl
      · obtain rfl := Except.error.inj he
        rfl

/-- What is told of a listed entry: its own path and depth, and whether it is a link. Only a link
that is followed fails. -/
lemma entryOf_spec (options : WalkOptions) (fs : FileSystem) (ancestors : List Path)
    (depth : Nat) (path : Path) (kind : NodeKind) :
    match entryOf options fs ancestors depth path kind with
    | .ok e => e = ⟨path, depth, e.kind, kind == .link⟩
    | .error e => (WalkEvent.failure e).depth = depth ∧ options.followLinks = true := by
  rw [entryOf]
  by_cases hfollow : (options.followLinks && kind == .link) = true
  · obtain ⟨hlinks, hlink⟩ := Bool.and_eq_true_iff.mp hfollow
    rw [if_pos hfollow, followed, hlink]
    cases fs.node true path with
    | error e => exact ⟨rfl, hlinks⟩
    | ok node =>
        by_cases hdir : node.isDirectory = true
        · simp only [hdir, if_true]
          cases hloop : checkLoop fs depth path ancestors with
          | error e => exact ⟨checkLoop_error hloop, hlinks⟩
          | ok _ => rfl
        · simp only [hdir]
          rfl
  · rw [if_neg hfollow]

end Walk

namespace Inquiry

variable (q : Inquiry)

/-- A scan under way. -/
def scan (fs : FileSystem) (b : Builder) (counts : ScanCounts) (messages : List (List Part)) :
    Scan :=
  ⟨q.options, q.hash, q.hasher, q.root, fs, b, counts, messages⟩

/-- **The invariant of the driver**: once all directories below the given depth are closed,
a scan has just so many open and is left with the given file system, builder and counters.
Before that, one more may be open right below that depth, recorded under the given path. -/
structure Settles (fs : FileSystem) (d : Nat) (s : Scan) (left : Option String) (b : Builder)
    (c : ScanCounts) : Prop where
  hash : b.hash = q.hash
  ordering : b.ordering = q.options.ordering
  depth : b.depth = d
  trail : s.builder.trail.take (d + 1) = b.trail ++ left.toList
  closes : ∃ m, s.closeTo d = .ok (q.scan fs b c m)

variable {q} {fs : FileSystem} {d : Nat} {s : Scan} {left : Option String} {b : Builder}
  {c : ScanCounts}

lemma settles_scan (hhash : b.hash = q.hash) (hordering : b.ordering = q.options.ordering)
    (hdepth : b.depth = d) (m : List (List Part)) : q.Settles fs d (q.scan fs b c m) none b c where
  hash := hhash
  ordering := hordering
  depth := hdepth
  trail := by simp [scan, List.take_of_length_le, hdepth]
  closes := ⟨m, Scan.closeTo_self hdepth.le⟩

/-- Closing the one directory at the top of a scan. -/
lemma close_one {h : HashFunction} {o : ChildOrdering} {levels : List Level}
    {root : Option Snapshot} (hb : Builder.CanReceive ⟨h, o, levels, root⟩) (location : Location)
    (handling : EmptyDirectories) (children : List Snapshot) (c : ScanCounts)
    (m : List (List Part)) :
    ∃ m', (q.scan fs ⟨h, o, ⟨location, handling, children⟩ :: levels, root⟩ c m).close 1
      = .ok (q.scan fs
          (Builder.receive ⟨h, o, levels, root⟩ (Snapshot.node? h o location handling children))
          (c + .closed (Snapshot.node? h o location handling children).isSome) m') := by
  simp only [Scan.close, scan, Builder.exit_eq hb]
  cases Snapshot.node? h o location handling children <;> exact ⟨_, rfl⟩

namespace Settles

/-- A scan that settles is one of the inquiry. -/
lemma eq_scan (hs : q.Settles fs d s left b c) : ∃ b' c' m', s = q.scan fs b' c' m' := by
  obtain ⟨m, hclose⟩ := hs.closes
  obtain ⟨⟨counts, messages, heq⟩, -⟩ := Scan.close_ok hclose
  obtain ⟨options, hash, hasher, root, files, builder, counts', messages'⟩ := s
  simp only [scan, Scan.mk.injEq] at heq
  obtain ⟨rfl, rfl, rfl, rfl, rfl, -⟩ := heq
  exact ⟨builder, counts', messages', rfl⟩

lemma files_eq (hs : q.Settles fs d s left b c) : s.files = fs := by
  obtain ⟨b', c', m', rfl⟩ := hs.eq_scan
  rfl

/-- A directory that has just been opened is the only one that the scan is still in. -/
lemma enter (hs : q.Settles fs d s left b c) (location : Location) (handling : EmptyDirectories)
    (m : List (List Part)) :
    q.Settles fs (d + 1) (q.scan fs (b.enter location handling) c m) none
      (b.enter location handling)
      c := by
  have hopen : (b.enter location handling).depth = d + 1 := congrArg (· + 1) hs.depth
  exact settles_scan (b := b.enter location handling) hs.hash hs.ordering hopen m

/-- An entry that is left out changes one counter only, whenever directories are closed. -/
lemma omitted (hs : q.Settles fs d s left b c) :
    q.Settles fs d s.omitted left b (c + { ScanCounts.zero with ignored := 1 }) := by
  obtain ⟨m, hclose⟩ := hs.closes
  refine ⟨hs.hash, hs.ordering, hs.depth, hs.trail, m, ?_⟩
  have hboth := Scan.close_omitted (s.builder.depth - d) s
  rw [Scan.closeTo] at hclose ⊢
  rw [hclose] at hboth
  exact hboth

/-- **Settling one directory further out** closes the directory that is open at the top. -/
lemma outward {h : HashFunction} {o : ChildOrdering} {levels : List Level}
    {root : Option Snapshot} {location : Location} {handling : EmptyDirectories}
    {children : List Snapshot}
    (hs : q.Settles fs (d + 1) s left ⟨h, o, ⟨location, handling, children⟩ :: levels, root⟩ c)
    (hb : Builder.CanReceive ⟨h, o, levels, root⟩) :
    q.Settles fs d s (some location.path)
      (Builder.receive ⟨h, o, levels, root⟩ (Snapshot.node? h o location handling children))
      (c + .closed (Snapshot.node? h o location handling children).isSome) := by
  obtain ⟨hhash, hordering⟩ := Builder.receive_settings ⟨h, o, levels, root⟩
    (Snapshot.node? h o location handling children)
  have hdepth : Builder.depth ⟨h, o, levels, root⟩ = d := by
    simpa [Builder.depth] using hs.depth
  obtain ⟨m, hclose⟩ := hs.closes
  obtain ⟨m', hone⟩ := close_one hb location handling children c m
  have htrail : s.builder.trail.take (d + 1)
      = Builder.trail ⟨h, o, levels, root⟩ ++ [location.path] := by
    have hinner : Builder.trail ⟨h, o, ⟨location, handling, children⟩ :: levels, root⟩
        = Builder.trail ⟨h, o, levels, root⟩ ++ [location.path] := by simp [Builder.trail]
    have htake := congrArg (List.take (d + 1)) hs.trail
    rw [List.take_take, Nat.min_eq_left (Nat.le_succ _)] at htake
    rw [htake, List.take_append_of_le_length (by simp [hinner, hdepth]), hinner,
      List.take_of_length_le (by simp [hdepth])]
  refine ⟨hhash.trans hs.hash, hordering.trans hs.ordering,
    (Builder.depth_receive _ _).trans hdepth, by rw [Builder.trail_receive]; exact htrail, m', ?_⟩
  have hlast : (q.scan fs ⟨h, o, ⟨location, handling, children⟩ :: levels, root⟩ c m).builder.depth
      - d = 1 := by
    rw [scan, hs.depth, Nat.add_sub_cancel_left]
  rw [← Scan.closeTo_closeTo (Nat.le_succ d), hclose]
  simp only [Except.bind, Scan.closeTo]
  rw [hlast, hone]

end Settles

/-! ### One event -/

variable (q) in
/-- Since it had the given builder and counters, a scan has come to a file system and has gained
the folds and the tallies of visible trees at a depth; if links are followed and the trees are
not clear, it has only stayed in order. -/
def Gains (d : Nat) (left : Option String) (b : Builder) (c : ScanCounts) (s : Scan)
    (fs : FileSystem) (ts : List Visible) : Prop :=
  ∃ b' c', q.Settles fs d s (ts.foldl Visible.openAfter left) b' c' ∧ (0 < d → b'.root = none) ∧
    b'.trail = b.trail ∧
    ((q.options.followLinks = true → Visible.ClearAll left ts) →
      b' = b.receiveAll (Visible.foldAll q.hash q.options.ordering q.options.emptyDirectories ts)
        ∧ c' = c + Visible.tallyAll q.hash q.options.ordering q.options.emptyDirectories ts)

variable (q) in
/-- A step of the driver follows an exploration: it fails as that does, and where that finds
trees it gains them. -/
def Follows (d : Nat) (left : Option String) (b : Builder) (c : ScanCounts)
    (r : Except ScanFailure Scan) : Except ScanFailure (List Visible × FileSystem) → Prop
  | .ok (ts, fs) => ∃ s, r = .ok s ∧ q.Gains d left b c s fs ts
  | .error f => r = .error f

/-- What is found of one entry, as that of a row of entries. -/
def single (found : Visible × FileSystem) : List Visible × FileSystem := ([found.1], found.2)

/-- A leaf is taken in where the depth fits and no root is there yet. -/
lemma collect_scan (hdepth : b.depth = d) (hroot : b.root = none) (l : Leaf) (c : ScanCounts)
    (m : List (List Part)) :
    (q.scan fs b c m).collect d l = .ok (q.scan fs (b.receive (some (.leaf l))) c m) := by
  have hcollect := Builder.collect_eq (.inr hroot) (.leaf l)
  subst hdepth
  obtain ⟨h, o, levels, root⟩ := b
  cases levels with
  | nil => simp [Scan.collect, scan, Builder.depth, Builder.rootLeaf, hcollect]
  | cons l' rest => simp [Scan.collect, scan, Builder.depth, Builder.leaf, hcollect]

/-- A scan that has received a fold and counted it has gained the tree, if that leaves no
directory open. -/
lemma gains_scan {fs' : FileSystem} {left' : Option String} (hs : q.Settles fs d s left' b c)
    (hroot : b.root = none) {t : Visible} (ht : ∀ before, t.openAfter before = none)
    (m : List (List Part)) :
    q.Gains d left b c
      (q.scan fs' (b.receive (t.fold q.hash q.options.ordering q.options.emptyDirectories))
        (c + t.tally q.hash q.options.ordering q.options.emptyDirectories) m) fs' [t] := by
  obtain ⟨hhash, hordering⟩ := b.receive_settings
    (t.fold q.hash q.options.ordering q.options.emptyDirectories)
  have hsettles : q.Settles fs' d _ none _ (c + t.tally q.hash q.options.ordering
      q.options.emptyDirectories) :=
    settles_scan (hhash.trans hs.hash) (hordering.trans hs.ordering)
      ((b.depth_receive _).trans hs.depth) m
  refine ⟨_, _, by simpa [ht] using hsettles, ?_, b.trail_receive _, fun _ => ⟨?_, ?_⟩⟩
  · intro hpos
    rw [b.root_receive _ (hs.depth ▸ hpos), hroot]
  · rw [Visible.foldAll, Visible.foldAll, List.append_nil, Builder.receiveAll_toList]
  · rw [Visible.tallyAll, Visible.tallyAll, add_zero]

/-- Handing on a leaf that has been counted gains it. -/
lemma follows_collect {fs' : FileSystem} (hs : q.Settles fs d s left b c) (hroot : b.root = none)
    (l : Leaf) (m : List (List Part)) :
    q.Follows d left b c ((q.scan fs' b (c + .taken l.kind) m).collect d l)
      (.ok ([.leaf l], fs')) :=
  ⟨_, collect_scan hs.depth hroot l _ m, gains_scan hs hroot (t := .leaf l) (fun _ => rfl) m⟩

/-- A file is taken in as it is found. -/
lemma follows_visitFile (hs : q.Settles fs d s left b c) (hroot : b.root = none) (e : WalkEntry)
    (he : e.depth = d) (m : List (List Part)) :
    q.Follows d left b c ((q.scan fs b c m).visitFile e) ((q.file e fs).map single) := by
  subst he
  have hunread : ∀ (failure : FileFailure) (fs' : FileSystem) (m' : List (List Part)),
      q.Follows e.depth left b c
        (if failure.isNotFound = true then (q.scan fs' b c m').collectMissing e.depth
            (q.location e.depth e.path e.viaLink)
          else (q.scan fs' b c m').fail
            (.io (.hashing (q.location e.depth e.path e.viaLink).path failure)))
        ((q.unread (q.location e.depth e.path e.viaLink) failure fs').map single) := by
    intro failure fs' m'
    rw [unread]
    by_cases hgone : failure.isNotFound = true
    · simp only [hgone, if_true]
      exact follows_collect hs hroot (.missing q.hash (q.location e.depth e.path e.viaLink))
        (m' ++ [HashFunction.signatureParts "MISSING_FILE"])
    · simp only [hgone]
      rfl
  simp only [Scan.visitFile, Scan.readFile, file, scan]
  cases fs.node e.viaLink e.path with
  | error error => exact hunread (.facts e.path error) fs m
  | ok node =>
      dsimp only
      cases (q.hasher e.path fs).result with
      | error error => exact hunread (.content error) _ _
      | ok digest =>
          exact follows_collect hs hroot
            ⟨q.location e.depth e.path e.viaLink, digest, .file (Scan.facts node)⟩ _

/-- Recording a missing location takes in one leaf. The builder to compare with may be the one
from before a directory was undone, unless the tree is clear. -/
lemma gains_collectMissing {b₀ : Builder} {c₀ : ScanCounts} (left₀ : Option String)
    (location : Location) (hs : q.Settles fs d s left b c) (hroot : b.root = none)
    (htrail : b.trail = b₀.trail)
    (hclear : (q.options.followLinks = true → Visible.ClearAll left₀ [.absent location]) →
      b = b₀ ∧ c = c₀)
    (m : List (List Part)) :
    ∃ s', (q.scan fs b c m).collectMissing d location = .ok s'
      ∧ q.Gains d left₀ b₀ c₀ s' fs [.absent location] := by
  obtain ⟨b', c', hs', hroot', htrail', hgained⟩ : q.Gains d left₀ b c _ fs [.absent location] :=
    gains_scan hs hroot (t := .absent location) (fun _ => rfl)
      (m ++ [HashFunction.signatureParts "MISSING_FILE"])
  refine ⟨_, collect_scan hs.depth hroot (.missing q.hash location) _ _, b', c', hs', hroot',
    htrail'.trans htrail, fun hall => ?_⟩
  obtain ⟨rfl, rfl⟩ := hclear hall
  exact hgained hall

/-- Closing directories down to one level above the depth of an event does not change what
a scan settles to there. -/
lemma Settles.through (hs : q.Settles fs d s left b c) :
    ∃ s', s.closeTo (d + 1) = .ok s' ∧ q.Settles fs d s' left b c
      ∧ s'.builder.trail = b.trail ++ left.toList := by
  obtain ⟨m, hclose⟩ := hs.closes
  rw [← Scan.closeTo_closeTo (Nat.le_succ d)] at hclose
  cases hthrough : s.closeTo (d + 1) with
  | error e => simp [hthrough, Except.bind] at hclose
  | ok s' =>
      rw [hthrough] at hclose
      have htrail := (Scan.trail_closeTo hthrough).trans hs.trail
      refine ⟨s', rfl, ⟨hs.hash, hs.ordering, hs.depth, ?_, m, hclose⟩, htrail⟩
      rw [Scan.trail_closeTo hthrough, List.take_take, Nat.min_self, hs.trail]

/-- Undoing the opening of a directory leaves a scan that settles, and touches nothing if the
directory that is still open is recorded under another path. -/
lemma Settles.abandonAt (hs : q.Settles fs d s left b c) (hroot : b.root = none)
    (hopen : s.builder.trail = b.trail ++ left.toList) (text : String) :
    ∃ s' left' b' c', s.abandonAt d text = .ok s' ∧ q.Settles fs d s' left' b' c' ∧ b'.root = none
      ∧ b'.trail = b.trail ∧ (left ≠ some text → b' = b ∧ c' = c) := by
  obtain ⟨m, hclose⟩ := hs.closes
  obtain ⟨-, hhash, hordering, -, hnone⟩ := Scan.close_ok hclose
  obtain ⟨b₀, c₀, m₀, rfl⟩ := hs.eq_scan
  rw [Scan.abandonAt]
  split
  · next hcond =>
      obtain ⟨h, o, levels, root⟩ := b₀
      cases levels with
      | nil => simp [scan, Builder.depth] at hcond
      | cons l rest =>
          have hdepth : Builder.depth ⟨h, o, rest, root⟩ = d := by
            simpa [scan, Builder.depth] using hcond.1
          have hh : h = q.hash := hhash.symm.trans hs.hash
          have ho : o = q.options.ordering := hordering.symm.trans hs.ordering
          -- The one directory that is open below the depth is the one left behind.
          have hboth : Builder.trail ⟨h, o, rest, root⟩ ++ [l.location.path]
              = b.trail ++ left.toList := by
            simpa [scan, Builder.trail] using hopen
          have hlength : (Builder.trail ⟨h, o, rest, root⟩).length = b.trail.length := by
            simp [hdepth, hs.depth]
          obtain ⟨htrail, hleft⟩ := List.append_inj hboth hlength
          have htext : some l.location.path = some text := hcond.2
          refine ⟨_, none, ⟨h, o, rest, root⟩, _, rfl, settles_scan hh ho hdepth m₀, hnone hroot,
            htrail, fun hother => absurd ?_ hother⟩
          cases left with
          | none => simp at hleft
          | some path =>
              obtain rfl : l.location.path = path := by simpa using hleft
              exact htext
  · exact ⟨_, left, b, c, rfl, hs, hroot, rfl, fun _ => ⟨rfl, rfl⟩⟩

/-- The steps by which a missing location is recorded. -/
lemma visitMissing_eq {s₁ s₂ : Scan} {m : List (List Part)} {path : Path}
    (hs : s.root = q.root) (hthrough : s.closeTo (d + 1) = .ok s₁)
    (habandon : s₁.abandonAt d (q.root.pathText path) = .ok s₂)
    (hclose : s₂.closeTo d = .ok (q.scan fs b c m)) :
    s.visitMissing d path = (q.scan fs b c m).collectMissing d
      (q.location d path (fs.isLink path)) := by
  simp only [Scan.visitMissing, hs, hthrough, habandon, hclose, bind, Except.bind]
  rfl

/-- Recording that nothing is where a followed link leads keeps the driver in order, even where
it undoes the opening of the directory before. -/
lemma gains_visitMissing (hs : q.Settles fs d s left b c) (hroot : b.root = none)
    (hfollow : q.options.followLinks = true) (path : Path) :
    ∃ s', s.visitMissing d path = .ok s'
      ∧ q.Gains d left b c s' fs [.absent (q.location d path (fs.isLink path))] := by
  have hsroot : s.root = q.root := by
    obtain ⟨b₀, c₀, m₀, rfl⟩ := hs.eq_scan
    rfl
  obtain ⟨s₁, hthrough, hs₁, htrail₁⟩ := hs.through
  obtain ⟨s₂, left₂, b₂, c₂, habandon, hs₂, hroot₂, htrail₂, hother⟩ :=
    hs₁.abandonAt hroot htrail₁ (q.root.pathText path)
  obtain ⟨m, hclose⟩ := hs₂.closes
  obtain ⟨s', hcollect, hgains⟩ := gains_collectMissing left
    (q.location d path (fs.isLink path)) hs₂ hroot₂ htrail₂
    (fun hall => hother (q.location_path d path _ ▸ (hall hfollow).2.1 _ rfl)) m
  exact ⟨s', (visitMissing_eq hsroot hthrough habandon hclose).trans hcollect, hgains⟩

/-- A walk error is taken in as it is found, if it is about a followed link or ends the scan. -/
lemma follows_visitFailure (hs : q.Settles fs d s left b c) (hroot : b.root = none) (e : WalkError)
    (he : (WalkEvent.failure e).depth = d)
    (hgone : ∀ depth path error, e = .io depth path error → error.isNotFound = true →
      q.options.followLinks = true) :
    q.Follows d left b c (s.visitFailure e) ((q.failed e fs).map single) := by
  have hfail : ∀ err, s.fail err = (.error ⟨err, fs⟩ : Except ScanFailure Scan) :=
    fun err => by rw [Scan.fail, hs.files_eq]
  cases e with
  | loop depth ancestor child => exact hfail _
  | io depth path? error =>
      subst he
      cases path? with
      | none => exact hfail _
      | some path =>
          simp only [Scan.visitFailure, failed]
          by_cases hnone : error.isNotFound = true
          · simp only [hnone, if_true]
            exact gains_visitMissing hs hroot (hgone _ _ _ rfl hnone) path
          · simp only [hnone]
            exact hfail _

/-! ### A directory -/

/-- Two gains in turn are one. -/
lemma Gains.cons {b' : Builder} {c' : ScanCounts} {t : Visible} {ts : List Visible}
    (hrest : q.Gains d (t.openAfter left) b' c' s fs ts) (htrail : b'.trail = b.trail)
    (hfirst : (q.options.followLinks = true → Visible.ClearAll left [t]) →
      b' = b.receiveAll (Visible.foldAll q.hash q.options.ordering q.options.emptyDirectories [t])
        ∧ c' = c + Visible.tallyAll q.hash q.options.ordering q.options.emptyDirectories [t]) :
    q.Gains d left b c s fs (t :: ts) := by
  obtain ⟨b'', c'', hs, hroot, htrail', hclear⟩ := hrest
  refine ⟨b'', c'', hs, hroot, htrail'.trans htrail, fun hall => ?_⟩
  obtain ⟨hb, hc⟩ := hfirst fun hfollow => ⟨(hall hfollow).1, (hall hfollow).2.1, trivial⟩
  obtain ⟨hb', hc'⟩ := hclear fun hfollow => (hall hfollow).2.2
  subst hb hc hb' hc'
  simp only [Visible.foldAll, Visible.tallyAll, List.append_nil, add_zero, add_assoc,
    Builder.receiveAll_append]
  trivial

/-- **The induction over a listing**: if every entry is followed, so are all in turn. -/
lemma follows_foldlM {α : Type} {f : Scan → α → Except ScanFailure Scan}
    {g : α → FileSystem → Except ScanFailure (Visible × FileSystem)} (hd : 0 < d)
    (hstep : ∀ fs s left b c a, q.Settles fs d s left b c → b.root = none →
      q.Follows d left b c (f s a) ((g a fs).map single))
    (items : List α) (hs : q.Settles fs d s left b c) (hroot : b.root = none) :
    q.Follows d left b c (items.foldlM f s) (through g items fs) := by
  induction items generalizing fs s left b c with
  | nil => exact ⟨s, rfl, b, c, hs, fun _ => hroot, rfl, fun _ => ⟨rfl, (add_zero c).symm⟩⟩
  | cons a items ih =>
      have hfirst := hstep fs s left b c a hs hroot
      rw [List.foldlM_cons, through]
      cases hg : g a fs with
      | error failure =>
          rw [hg] at hfirst
          have herror : f s a = .error failure := hfirst
          rw [herror]
          rfl
      | ok found =>
          rw [hg] at hfirst
          obtain ⟨s', hf, b', c', hs', hroot', htrail, hclear⟩ := hfirst
          have hrest := ih hs' (hroot' hd)
          simp only [hf, bind, Except.bind]
          cases hgs : through g items found.2 with
          | error failure =>
              rw [hgs] at hrest
              exact hrest
          | ok rest =>
              rw [hgs] at hrest
              obtain ⟨s'', hfs, hgains⟩ := hrest
              exact ⟨s'', hfs, hgains.cons htrail hclear⟩

/-- A directory whose entries are found, as that of a row of entries. -/
def around (location : Location) (found : List Visible × FileSystem) :
    List Visible × FileSystem :=
  ([.directory location found.1], found.2)

/-- A directory whose entries are followed is followed itself: it is closed when the scan
is settled further out. -/
lemma follows_directory {r : Except ScanFailure Scan}
    {x : Except ScanFailure (List Visible × FileSystem)} (hs : q.Settles fs d s left b c)
    (hroot : b.root = none) (location : Location)
    (hr : q.Follows (d + 1) none (b.enter location q.options.emptyDirectories) c r x) :
    q.Follows d left b c r (x.map (around location)) := by
  cases x with
  | error e => exact hr
  | ok found =>
      obtain ⟨s', hok, b', c', hs', hroot', htrail, hclear⟩ := hr
      obtain ⟨h, o, levels, root⟩ := b'
      obtain rfl : root = none := hroot' (Nat.succ_pos d)
      cases levels with
      | nil => exact absurd hs'.depth (by simp [Builder.depth])
      | cons l levels =>
          obtain ⟨location', handling, children⟩ := l
          -- The directory at the top is still the one that was opened.
          have hopen : Builder.trail ⟨h, o, levels, none⟩ ++ [location'.path]
              = b.trail ++ [location.path] := by
            simpa [Builder.trail, Builder.enter] using htrail
          obtain ⟨houter, hpath⟩ := List.append_inj' hopen rfl
          obtain hpath : location'.path = location.path := by simpa using hpath
          have hout := hs'.outward (.inr rfl)
          rw [hpath] at hout
          refine ⟨s', hok, _, _, hout, fun hpos => ?_, (Builder.trail_receive _ _).trans houter,
            fun hall => ?_⟩
          · have hdepth : Builder.depth ⟨h, o, levels, none⟩ = d := by
              simpa [Builder.depth] using hs'.depth
            exact Builder.root_receive _ _ (hdepth ▸ hpos)
          · obtain ⟨hb, hc⟩ := hclear fun hfollow => (hall hfollow).1
            obtain ⟨h', o', levels', root'⟩ := b
            obtain rfl : h' = q.hash := hs.hash
            obtain rfl : o' = q.options.ordering := hs.ordering
            rw [Builder.enter, Builder.receiveAll_level, List.nil_append] at hb
            simp only [Builder.mk.injEq, List.cons.injEq, Level.mk.injEq] at hb
            obtain ⟨rfl, rfl, ⟨⟨rfl, rfl, rfl⟩, rfl⟩, rfl⟩ := hb
            constructor
            · rw [Visible.foldAll, Visible.foldAll, List.append_nil, Builder.receiveAll_toList,
                Visible.fold]
            · rw [Visible.tallyAll, Visible.tallyAll, add_zero, Visible.tally, Visible.fold, hc,
                add_assoc]

/-- A directory that was opened and then is not there to be listed is undone. -/
lemma gains_visitMissing_enter (hs : q.Settles fs d s left b c) (hroot : b.root = none)
    (path : Path) (viaLink : Bool) (handling : EmptyDirectories) (m : List (List Part)) :
    ∃ s', (q.scan fs (b.enter (q.location d path viaLink) handling) c m).visitMissing d path
          = .ok s'
      ∧ q.Gains d left b c s' fs [.absent (q.location d path (fs.isLink path))] := by
  have hopen := (hs.enter (q.location d path viaLink) handling m).depth
  have hcond : (q.scan fs (b.enter (q.location d path viaLink) handling) c m).builder.depth = d + 1
      ∧ (q.scan fs (b.enter (q.location d path viaLink) handling) c m).builder.currentPath?
        = some (q.root.pathText path) := ⟨hopen, congrArg some (q.location_path d path viaLink)⟩
  have habandon : (q.scan fs (b.enter (q.location d path viaLink) handling) c m).abandonAt d
      (q.root.pathText path) = .ok (q.scan fs b c m) := by
    rw [Scan.abandonAt, if_pos hcond]
    rfl
  obtain ⟨s', hcollect, hgains⟩ := gains_collectMissing left
    (q.location d path (fs.isLink path))
    (settles_scan (c := c) hs.hash hs.ordering hs.depth m) hroot rfl (fun _ => ⟨rfl, rfl⟩) m
  have hsteps := visitMissing_eq rfl (Scan.closeTo_self hopen.le) habandon
    (Scan.closeTo_self hs.depth.le)
  exact ⟨s', hsteps.trans hcollect, hgains⟩

/-! ### The walk -/

/-- Entering a directory closes what the walk has left and opens it. -/
lemma Settles.visitEntry_directory (hs : q.Settles fs d s left b c) {e : WalkEntry}
    (he : e.depth = d) (hkind : e.kind = .directory) :
    ∃ m, s.visitEntry e = .ok (q.scan fs
      (b.enter (q.location e.depth e.path e.viaLink) q.options.emptyDirectories) c m) := by
  subst he
  obtain ⟨m, hclose⟩ := hs.closes
  refine ⟨m, ?_⟩
  simp only [Scan.visitEntry, hclose, hkind, bind, Except.bind]
  rfl

/-- Any other entry is taken in as it is found. -/
lemma follows_visitEntry (hs : q.Settles fs d s left b c) (hroot : b.root = none) {e : WalkEntry}
    (he : e.depth = d) :
    (e.kind = .file → q.Follows d left b c (s.visitEntry e) ((q.file e fs).map single))
      ∧ (e.kind = .link → q.Follows d left b c (s.visitEntry e) (.ok ([.skippedLink], fs)))
      ∧ (e.kind = .special →
        q.Follows d left b c (s.visitEntry e) (.ok ([.skippedSpecial], fs))) := by
  subst he
  obtain ⟨m, hclose⟩ := hs.closes
  refine ⟨fun hkind => ?_, fun hkind => ?_, fun hkind => ?_⟩ <;>
    simp only [Scan.visitEntry, hclose, hkind, bind, Except.bind]
  · exact follows_visitFile hs hroot e rfl m
  · exact ⟨_, rfl, gains_scan hs hroot (t := .skippedLink) (fun _ => rfl) m⟩
  · exact ⟨_, rfl, gains_scan hs hroot (t := .skippedSpecial) (fun _ => rfl) m⟩

/-- A directory that cannot be listed is taken in as it is found. -/
lemma follows_unlisted (hs : q.Settles fs d s left b c) (hroot : b.root = none) (path : Path)
    (viaLink : Bool) (handling : EmptyDirectories) (m : List (List Part)) (error : IoError) :
    q.Follows d left b c
      ((q.scan fs (b.enter (q.location d path viaLink) handling) c m).visitFailure
        (.io d (some path) error))
      ((q.failed (.io d (some path) error) fs).map single) := by
  simp only [Scan.visitFailure, failed]
  by_cases hgone : error.isNotFound = true
  · simp only [hgone, if_true]
    exact gains_visitMissing_enter hs hroot path viaLink handling m
  · simp only [hgone]
    rfl

/-- **The driver follows the exploration** from every listed entry on, whatever directories
are still open when the entry's turn comes. -/
lemma follows_descend (room : Nat) (ancestors : List Path) (depth : Nat) (path : Path)
    (name : Bytes) (kind : NodeKind) {s : Scan} {left : Option String} {b : Builder}
    {c : ScanCounts} (hs : q.Settles fs depth s left b c) (hroot : b.root = none) :
    q.Follows depth left b c
      (Walk.descend q.options.walk Scan.visitor room ancestors depth path name kind s)
      ((q.find room ancestors depth path name kind fs).map single) := by
  induction room generalizing ancestors depth path name kind fs s left b c with
  | zero =>
      refine follows_visitFailure hs hroot (.io depth (some path) .nameTooLong) rfl ?_
      rintro _ _ _ ⟨⟩ hgone
      simp [IoError.isNotFound] at hgone
  | succ room ih =>
      have hspec := Walk.entryOf_spec q.options.walk fs ancestors depth path kind
      have hfiles : Scan.visitor.files s = fs := hs.files_eq
      rw [Walk.descend, find, hfiles]
      cases hentry : Walk.entryOf q.options.walk fs ancestors depth path kind with
      | error e =>
          rw [hentry] at hspec
          exact follows_visitFailure hs hroot e hspec.1 fun _ _ _ _ _ => hspec.2
      | ok e =>
          rw [hentry] at hspec
          obtain ⟨path', depth', kind', viaLink⟩ := e
          obtain ⟨rfl, rfl, -, rfl⟩ : path' = path ∧ depth' = depth ∧ kind' = kind'
              ∧ viaLink = (kind == .link) := by simpa using hspec
          obtain ⟨hfile, hlink, hspecial⟩ := follows_visitEntry hs hroot
            (e := ⟨path', depth', kind', kind == .link⟩) rfl
          dsimp only
          split
          · exact ⟨_, rfl, b, _, hs.omitted, fun _ => hroot, rfl, fun _ => ⟨rfl, rfl⟩⟩
          · cases kind' with
            | file => exact hfile rfl
            | link => exact hlink rfl
            | special => exact hspecial rfl
            | directory =>
                obtain ⟨m, hvisit⟩ := hs.visitEntry_directory
                  (e := ⟨path', depth', .directory, kind == .link⟩) rfl rfl
                have hvisit' : Scan.visitor.visit s
                  (.entry ⟨path', depth', .directory, kind == .link⟩) = _ := hvisit
                simp only [reduceIte, hvisit']
                cases fs.list path' with
                | error error => exact follows_unlisted hs hroot path' _ _ m error
                | ok listing =>
                    have hbelow := follows_foldlM (Nat.succ_pos depth')
                      (fun fs s left b c (item : Bytes × NodeKind) hs hroot =>
                        ih (path' :: ancestors) (depth' + 1) (path'.join ⟨item.1⟩) item.1 item.2
                          hs hroot)
                      (Walk.arrange q.options.walk listing)
                      (hs.enter (q.location depth' path' (kind == .link))
                        q.options.emptyDirectories m) hroot
                    have hdirectory := follows_directory hs hroot _ hbelow
                    dsimp only
                    generalize through _ _ fs = found at hdirectory ⊢
                    cases found <;> exact hdirectory

/-- A scan that has not met anything. -/
def start (q : Inquiry) (fs : FileSystem) : Scan := Scan.start q.options q.hash q.hasher q.root fs

lemma settles_start (q : Inquiry) (fs : FileSystem) :
    q.Settles fs 0 (q.start fs) none (.new q.hash q.options.ordering) 0 :=
  ⟨rfl, rfl, rfl, rfl, _, rfl⟩

/-- A root that is not there is taken in as it is found. -/
lemma follows_visitFailure_root (error : IoError) :
    q.Follows 0 none (.new q.hash q.options.ordering) 0
      ((q.start fs).visitFailure (.io 0 (some q.root.walked) error))
      ((q.missingRoot error fs).map single) := by
  simp only [Scan.visitFailure, missingRoot]
  by_cases hgone : error.isNotFound = true
  · simp only [hgone, if_true]
    exact follows_collect (q.settles_start fs) rfl
      (.missing q.hash (q.location 0 q.root.walked false))
      (Builder.firstMessages ++ [HashFunction.signatureParts "MISSING_FILE"])
  · simp only [hgone]
    rfl

/-- The driver follows the exploration from the root on. -/
lemma follows_run (q : Inquiry) (fs : FileSystem) :
    q.Follows 0 none (.new q.hash q.options.ordering) 0
      (Walk.run q.options.walk Scan.visitor q.root.walked (q.start fs))
      ((q.findRoot fs).map single) := by
  rw [Walk.run_eq_rootKind, findRoot_eq_rootKind,
    show Scan.visitor.files (q.start fs) = fs from rfl]
  cases fs.rootKind q.root.walked with
  | error e => exact follows_visitFailure_root e
  | ok kind =>
      exact follows_descend FileSystem.maxPath [] 0 q.root.walked [] kind (q.settles_start fs) rfl

/-- **A scan is what its inquiry finds**, whatever becomes of the file system while files are
hashed: it fails as that does, and otherwise its outcome is the fold and the tally of the tree
that is found. Where links are followed, the tree has to be clear for that. -/
theorem scanWith_find {p : Path} (hp : RootLocation.resolve fs p = .ok q.root) :
    match q.findRoot fs with
    | .error f => scanWith q.options q.hash q.hasher fs p = .error f
    | .ok (t, fs') => ∃ r, scanWith q.options q.hash q.hasher fs p = .ok r ∧ r.files = fs'
        ∧ ((q.options.followLinks = true → t.Clear) →
          r.outcome = ⟨t.fold q.hash q.options.ordering q.options.emptyDirectories,
            t.tally q.hash q.options.ordering q.options.emptyDirectories⟩) := by
  have hrun := q.follows_run fs
  rcases hfound : q.findRoot fs with f | ⟨t, fs'⟩
  · rw [hfound] at hrun
    have herror : Walk.run q.options.walk Scan.visitor q.root.walked (q.start fs)
      = .error f := hrun
    rw [start] at herror
    simp only [scanWith, hp, Except.mapError, bind, Except.bind, herror]
  · rw [hfound] at hrun
    obtain ⟨s, hok, b, c, hs, -, -, hclear⟩ := hrun
    obtain ⟨m, hclose⟩ := hs.closes
    have hlevels : b.levels = [] := List.length_eq_zero_iff.mp hs.depth
    refine ⟨⟨⟨b.root, c⟩, fs', m⟩, ?_, rfl, fun hall => ?_⟩
    · rw [start] at hok
      simp only [scanWith, hp, Except.mapError, bind, Except.bind, hok, hclose]
      simp [scan, Builder.result, hlevels, pure, Except.pure]
    · obtain ⟨hb, hc⟩ := hclear fun hfollow => ⟨hall hfollow, fun _ _ => by simp, trivial⟩
      simp only at hb hc
      rw [Visible.foldAll, Visible.foldAll, List.append_nil, Builder.receiveAll_toList] at hb
      rw [Visible.tallyAll, Visible.tallyAll, add_zero, zero_add] at hc
      rw [hb, hc]
      cases t.fold q.hash q.options.ordering q.options.emptyDirectories <;> rfl

end Inquiry

/-! ### Where nothing changes -/

namespace Survey

variable (v : Survey)

/-- **A scan of an unchanging file system is its exploration**: it fails as that does, and
otherwise its outcome is the fold and the tally of the visible tree, if that is clear. -/
theorem scanWith_view_of_clear {p : Path} (hp : RootLocation.resolve v.files p = .ok v.root) :
    match v.view with
    | .error e => scanWith v.options v.hash v.hasher v.files p = .error ⟨e, v.files⟩
    | .ok t => ∃ r, scanWith v.options v.hash v.hasher v.files p = .ok r ∧ (t.Clear →
        r.outcome = ⟨t.fold v.hash v.options.ordering v.options.emptyDirectories,
          t.tally v.hash v.options.ordering v.options.emptyDirectories⟩) := by
  have hp' : RootLocation.resolve v.files p = .ok v.inquiry.root := hp
  have hfind := Inquiry.scanWith_find hp'
  rw [v.findRoot_eq] at hfind
  cases hview : v.view with
  | error e =>
      rw [hview] at hfind
      exact hfind
  | ok t =>
      rw [hview] at hfind
      obtain ⟨r, hr, -, houtcome⟩ := hfind
      exact ⟨r, hr, fun hclear => houtcome fun _ => hclear⟩

/-- **A scan of an unchanging file system is its exploration**: it fails as that does, and
otherwise its outcome is the fold and the tally of the visible tree, unless something in
that was absent. -/
theorem scanWith_view {p : Path} (hp : RootLocation.resolve v.files p = .ok v.root) :
    match v.view with
    | .error e => scanWith v.options v.hash v.hasher v.files p = .error ⟨e, v.files⟩
    | .ok t => ∃ r, scanWith v.options v.hash v.hasher v.files p = .ok r ∧ (t.Whole →
        r.outcome = ⟨t.fold v.hash v.options.ordering v.options.emptyDirectories,
          t.tally v.hash v.options.ordering v.options.emptyDirectories⟩) := by
  have hclear := v.scanWith_view_of_clear hp
  cases hview : v.view with
  | error e =>
      rw [hview] at hclear
      exact hclear
  | ok t =>
      rw [hview] at hclear
      obtain ⟨r, hr, houtcome⟩ := hclear
      exact ⟨r, hr, fun hwhole => houtcome hwhole.clear⟩

end Survey

end TreeDigest

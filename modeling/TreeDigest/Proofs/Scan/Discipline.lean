import TreeDigest.Proofs.Scan.Driver

/-!
A scan never asks its builder for what that refuses.

A builder refuses a leaf where no directory is open, a second root, and a result while some
directory is still open. A scan knows none of this: it goes by the depths of the events that
the walk tells. So the depth of the builder has to go with that of the walk, whatever files are
hashed to, and whatever becomes of the file system while they are.

* `WalkVisitor.noting` makes a visitor keep the moments of its walk, that is, the events together
  with the states that they meet, and `Walk.run_noting` says that it does nothing else.
* `Scan.Ready` is what each moment promises: as many directories are open as the event is deep,
  and the scan gets to have just that many open.
* `Scan.Open` is the invariant between the events at a depth, and `disciplined_descend` the
  induction over the walk.
* `scanWith_disciplined` puts these together for whole scans.
-/

namespace TreeDigest

/-! ### Moments of a walk -/

namespace Walk

/-- The events that a visitor was told of, each with the state that it met. -/
abbrev Moments (σ : Type) := List (σ × WalkEvent)

end Walk

section Noting

variable {σ ε : Type}

/-- A visitor that also keeps the moments of its walk, up to the one that ends it. -/
def WalkVisitor.noting (v : WalkVisitor σ ε) :
    WalkVisitor (σ × Walk.Moments σ) (ε × Walk.Moments σ) where
  files s := v.files s.1
  visit s event := match v.visit s.1 event with
    | .ok s' => .ok (s', s.2 ++ [(s.1, event)])
    | .error e => .error (e, s.2 ++ [(s.1, event)])
  skip s := (v.skip s.1, s.2)

namespace Walk

/-- What is left of a walk when its moments are forgotten. -/
def forget : Except (ε × Moments σ) (σ × Moments σ) → Except ε σ
  | .ok s => .ok s.1
  | .error e => .error e.1

variable (v : WalkVisitor σ ε)

end Walk

end Noting

namespace Scan

/-! ### What each moment promises -/

/-- At least as many directories are open as the event is deep. Before an entry is taken in, the
scan gets to have just that many open, and likewise before a missing place is, whose own opening
is undone on the way. -/
def Ready (s : Scan) (event : WalkEvent) : Prop :=
  event.depth ≤ s.builder.depth ∧ match event with
    | .entry e => ∃ s', s.closeTo e.depth = .ok s' ∧ s'.builder.depth = e.depth
    | .failure (.io depth (some path) _) => ∃ inner undone s', s.closeTo (depth + 1) = .ok inner
        ∧ inner.abandonAt depth (s.root.pathText path) = .ok undone
        ∧ undone.closeTo depth = .ok s' ∧ s'.builder.depth = depth
    | .failure _ => True

/-- The invariant before an event at a depth: as many directories are open, at least, and no root
is there yet. The event at the root meets no open directory. -/
structure Open (d : ℕ) (s : Scan) : Prop where
  floor : d ≤ s.builder.depth
  root : s.builder.root = none
  outermost : d = 0 → s.builder.depth = 0

/-- What is left of the invariant after an event: the root may be there now, if no directory is
open. -/
structure Kept (d : ℕ) (s : Scan) : Prop where
  floor : d ≤ s.builder.depth
  root : 0 < s.builder.depth → s.builder.root = none

/-- A scan goes on in order, or ends for a reason other than its builder. -/
def Sound (d : ℕ) : Except ScanFailure Scan → Prop
  | .ok s => Kept d s
  | .error f => ∀ e, f.error ≠ .traversal e

/-- The builder has just opened the directory that is recorded for a path, with the given number
of directories around it. -/
def Entered (d : ℕ) (path : Path) (s : Scan) : Prop :=
  ∃ (b : Builder) (location : Location) (handling : EmptyDirectories),
    s.builder = b.enter location handling ∧ b.depth = d ∧ b.root = none
      ∧ location.path = s.root.pathText path

variable {d : ℕ} {s : Scan}

lemma Kept.mono {d' : ℕ} (hs : Kept d s) (hd : d' ≤ d) : Kept d' s :=
  ⟨hd.trans hs.floor, hs.root⟩

/-! ### Closing -/

/-- An open directory can be closed as long as no root is there, and there is still none if
another one is open. -/
lemma exit_of_pos {b : Builder} (hroot : b.root = none) (hb : 0 < b.depth) :
    ∃ kept b', b.exit = (.ok kept, b') ∧ (1 < b.depth → b'.root = none) := by
  obtain ⟨h, o, levels, root⟩ := b
  obtain rfl : root = none := hroot
  cases levels with
  | nil => exact absurd hb (by simp [Builder.depth])
  | cons l rest =>
      refine ⟨_, _, Builder.exit_eq (.inr rfl) l.location l.handling l.children, fun hopen => ?_⟩
      have hrest : 0 < Builder.depth ⟨h, o, rest, none⟩ := by simpa [Builder.depth] using hopen
      exact Builder.root_receive _ _ hrest

/-- Open directories can be closed as long as no root is there, and there is still none if one
of them stays open. -/
lemma close_of_le {n : ℕ} (hroot : s.builder.root = none) (hn : n ≤ s.builder.depth) :
    ∃ s', s.close n = .ok s' ∧ (n < s.builder.depth → s'.builder.root = none) := by
  induction n generalizing s with
  | zero => exact ⟨s, rfl, fun _ => hroot⟩
  | succ n ih =>
      obtain ⟨kept, b, hexit, hnone⟩ := exit_of_pos hroot (by omega)
      have hdepth : s.builder.depth = b.depth + 1 := by
        obtain ⟨-, -, ⟨path, htrail⟩, -⟩ := Builder.exit_ok hexit
        simpa using congrArg List.length htrail
      -- Only if this is the last one to close may the root be there afterwards.
      have hrest : ∀ s₁ : Scan, s₁.builder = b →
          ∃ s', s₁.close n = .ok s' ∧ (n + 1 < s.builder.depth → s'.builder.root = none) := by
        rintro s₁ rfl
        cases n with
        | zero => exact ⟨s₁, rfl, fun hopen => hnone hopen⟩
        | succ n =>
            obtain ⟨s', hclose, hnone'⟩ := ih (s := s₁) (hnone (by omega)) (by omega)
            exact ⟨s', hclose, fun hopen => hnone' (by omega)⟩
      simp only [close, hexit]
      cases kept <;> exact hrest _ rfl

/-- **Closing down to a depth** leaves just so many directories open, and is never refused. -/
lemma Open.closeTo (hs : Open d s) :
    ∃ s', s.closeTo d = .ok s' ∧ s'.builder.depth = d ∧ s'.builder.root = none
      ∧ s'.root = s.root := by
  obtain ⟨s', hclose, hnone⟩ := close_of_le hs.root (Nat.sub_le s.builder.depth d)
  have hdepth : s'.builder.depth = d := by
    have hfloor := hs.floor
    rw [depth_close hclose]
    omega
  obtain ⟨⟨counts, messages, heq⟩, -⟩ := close_ok hclose
  refine ⟨s', hclose, hdepth, ?_, by rw [heq]⟩
  rcases Nat.eq_zero_or_pos d with hzero | hpos
  · have hsame := (closeTo_self (hs.outermost hzero).le).symm.trans
      (show s.closeTo 0 = .ok s' from hzero ▸ hclose)
    rw [← Except.ok.inj hsame]
    exact hs.root
  · have hfloor := hs.floor
    exact hnone (by omega)

/-- A scan with just so many open directories and no root is in order. -/
lemma open_of_depth (hdepth : s.builder.depth = d) (hroot : s.builder.root = none) : Open d s :=
  ⟨hdepth.ge, hroot, fun hzero => hdepth.trans hzero⟩

/-! ### One event -/

/-- A leaf is taken in where the depth fits and no root is there. -/
lemma sound_collect (hdepth : s.builder.depth = d) (hroot : s.builder.root = none) (l : Leaf) :
    Sound d (s.collect d l) := by
  have hcollect := Builder.collect_eq (.inr hroot) (.leaf l)
  have hreceive : (s.builder.receive (some (.leaf l))).depth = d :=
    (Builder.depth_receive _ _).trans hdepth
  have hok : s.collect d l
      = .ok { s with builder := s.builder.receive (some (.leaf l)) } := by
    rw [collect]
    by_cases hzero : d = 0
    · have hlevels : s.builder.levels = [] := List.length_eq_zero_iff.mp (hdepth.trans hzero)
      rw [if_pos hzero, Builder.rootLeaf, hlevels, hcollect]
    · rw [if_neg hzero, Builder.leaf]
      cases hlevels : s.builder.levels with
      | nil => exact absurd (hdepth.symm.trans (congrArg List.length hlevels)) hzero
      | cons l' rest => rw [hcollect]
  rw [hok]
  refine ⟨hreceive.ge, fun hpos => ?_⟩
  exact (Builder.root_receive _ _ (by rwa [Builder.depth_receive] at hpos)).trans hroot

/-- A missing leaf is taken in likewise. -/
lemma sound_collectMissing (hdepth : s.builder.depth = d) (hroot : s.builder.root = none)
    (location : Location) : Sound d (s.collectMissing d location) := by
  rw [collectMissing]
  exact sound_collect (by exact hdepth) (by exact hroot) _

/-- A file is taken in, whatever reading it gives. -/
lemma sound_visitFile {e : WalkEntry} (hdepth : s.builder.depth = e.depth)
    (hroot : s.builder.root = none) : Sound e.depth (s.visitFile e) := by
  have hread : (s.readFile e).2.builder = s.builder := by
    rw [readFile]
    split
    · rfl
    · dsimp only
      split <;> rfl
  rw [visitFile]
  rcases hcase : s.readFile e with ⟨failure | ⟨facts, digest⟩, s'⟩
  · obtain hbuilder : s'.builder = s.builder := by simpa [hcase] using hread
    dsimp only
    split
    · exact sound_collectMissing (hbuilder ▸ hdepth) (hbuilder ▸ hroot) _
    · intro e he
      cases he
  · obtain hbuilder : s'.builder = s.builder := by simpa [hcase] using hread
    exact sound_collect (hbuilder ▸ hdepth) (hbuilder ▸ hroot) _

/-- An entry at the depth of an open scan keeps it in order, and a directory is entered. -/
lemma Open.visitEntry {e : WalkEntry} (hs : Open e.depth s) :
    s.Ready (.entry e) ∧ Sound e.depth (s.visitEntry e)
      ∧ ∀ s', e.kind = .directory → s.visitEntry e = .ok s' → Entered e.depth e.path s' := by
  obtain ⟨s₁, hclose, hdepth, hroot, hplace⟩ := hs.closeTo
  refine ⟨⟨hs.floor, s₁, hclose, hdepth⟩, ?_, fun s' hkind hvisit => ?_⟩
  · simp only [Scan.visitEntry, hclose, bind, Except.bind]
    cases e.kind with
    | directory => exact ⟨(Nat.le_succ _).trans (congrArg (· + 1) hdepth).ge, fun _ => hroot⟩
    | file => exact sound_visitFile hdepth hroot
    | link => exact ⟨hdepth.ge, fun _ => hroot⟩
    | special => exact ⟨hdepth.ge, fun _ => hroot⟩
  · simp only [Scan.visitEntry, hclose, hkind, bind, Except.bind, pure, Except.pure] at hvisit
    obtain rfl := Except.ok.inj hvisit
    refine ⟨s₁.builder, s₁.location e, _, rfl, hdepth, hroot, ?_⟩
    rw [Scan.location]
    split <;> rfl

/-- A place that turns out to be missing is recorded once the scan is brought to its depth. -/
lemma sound_visitMissing {path : Path} {inner undone s' : Scan}
    (hinner : s.closeTo (d + 1) = .ok inner)
    (hundone : inner.abandonAt d (s.root.pathText path) = .ok undone)
    (hclose : undone.closeTo d = .ok s') (hdepth : s'.builder.depth = d)
    (hroot : s'.builder.root = none) : Sound d (s.visitMissing d path) := by
  simp only [visitMissing, hinner, hundone, hclose, bind, Except.bind]
  exact sound_collectMissing hdepth hroot _

/-- A failure of the walk at a place is sound if the scan can be brought to its depth. -/
lemma sound_visitFailure {path : Path} {error : IoError} (h : Sound d (s.visitMissing d path)) :
    Sound d (s.visit (.failure (.io d (some path) error))) := by
  simp only [visit, visitFailure]
  split
  · exact h
  · intro e he
    cases he

/-- An open scan is brought to the depth of a failure, and undoes an opening only if that
leaves as many directories as it needs. -/
lemma Open.visitFailure {event : WalkError} (hs : Open (WalkEvent.failure event).depth s) :
    s.Ready (.failure event)
      ∧ Sound (WalkEvent.failure event).depth (s.visit (.failure event)) := by
  rcases event with ⟨depth, _ | path, error⟩ | ⟨depth, ancestor, child⟩
  · refine ⟨⟨hs.floor, trivial⟩, fun e he => ?_⟩
    cases he
  · obtain ⟨inner, hinner, hopen, hplace⟩ : ∃ inner, s.closeTo (depth + 1) = .ok inner
        ∧ Open depth inner ∧ inner.root = s.root := by
      rcases Nat.lt_or_ge depth s.builder.depth with hlt | hge
      · have hpos : Open (depth + 1) s := ⟨hlt, hs.root, fun hzero => absurd hzero (Nat.succ_ne_zero _)⟩
        obtain ⟨inner, hinner, hdepth, hroot, hplace⟩ := hpos.closeTo
        refine ⟨inner, hinner, ⟨by omega, hroot, fun hzero => ?_⟩, hplace⟩
        have hnone := hs.outermost hzero
        omega
      · exact ⟨s, closeTo_self (hge.trans (Nat.le_succ _)), hs, rfl⟩
    obtain ⟨undone, hundone, hopen'⟩ : ∃ undone, inner.abandonAt depth (s.root.pathText path)
        = .ok undone ∧ Open depth undone := by
      rw [abandonAt]
      split
      · next hcond =>
          obtain ⟨hdepth, hpath⟩ := hcond
          cases hlevels : inner.builder.levels with
          | nil => simp [Builder.depth, hlevels] at hdepth
          | cons l rest =>
              have habandon :
                  inner.builder.abandon = .ok { inner.builder with levels := rest } := by
                rw [Builder.abandon, hlevels]
              refine ⟨{ inner with builder := { inner.builder with levels := rest } },
                by rw [habandon], open_of_depth ?_ hopen.root⟩
              simpa [Builder.depth, hlevels] using hdepth
      · exact ⟨inner, rfl, hopen⟩
    obtain ⟨s', hclose, hdepth, hroot, -⟩ := hopen'.closeTo
    exact ⟨⟨hs.floor, inner, undone, s', hinner, hundone, hclose, hdepth⟩,
      sound_visitFailure (sound_visitMissing hinner hundone hclose hdepth hroot)⟩
  · refine ⟨⟨hs.floor, trivial⟩, fun e he => ?_⟩
    cases he

/-- A directory that has just been entered and turns out not to be there is undone, also if it
is the root. -/
lemma Entered.visitFailure {path : Path} (hs : Entered d path s) (error : IoError) :
    s.Ready (.failure (.io d (some path) error))
      ∧ Sound d (s.visit (.failure (.io d (some path) error))) := by
  obtain ⟨b, location, handling, hbuilder, hdepth, hroot, htext⟩ := hs
  have hopen : s.builder.depth = d + 1 := by
    rw [hbuilder]
    exact congrArg (· + 1) hdepth
  have hundone : s.abandonAt d (s.root.pathText path) = .ok { s with builder := b } := by
    have hcurrent : s.builder.currentPath? = some (s.root.pathText path) := by
      rw [hbuilder]
      exact congrArg some htext
    rw [abandonAt, if_pos ⟨hopen, hcurrent⟩, hbuilder]
    rfl
  have hinner : s.closeTo (d + 1) = .ok s := closeTo_self hopen.le
  have hclose : Scan.closeTo { s with builder := b } d = .ok { s with builder := b } :=
    closeTo_self hdepth.le
  refine ⟨⟨hopen ▸ Nat.le_succ d, s, _, _, hinner, hundone, hclose, hdepth⟩, ?_⟩
  exact sound_visitFailure (sound_visitMissing hinner hundone hclose hdepth hroot)

/-! ### The walk -/

/-- Every moment that a walk kept fulfils what it promises, and the scan goes on in order or ends
for a reason other than its builder. -/
def Disciplined (d : ℕ) :
    Except (ScanFailure × Walk.Moments Scan) (Scan × Walk.Moments Scan) → Prop
  | .ok (s, moments) => Kept d s ∧ ∀ m ∈ moments, m.1.Ready m.2
  | .error (f, moments) => (∀ e, f.error ≠ .traversal e) ∧ ∀ m ∈ moments, m.1.Ready m.2

/-- The moments of a scan whose root is at the given location. -/
def moments (options : ScanOptions) (hash : HashFunction) (hasher : LeafHasher)
    (location : RootLocation) (files : FileSystem) : Walk.Moments Scan :=
  match Walk.run options.walk visitor.noting location.walked
      (start options hash hasher location files, []) with
  | .ok s => s.2
  | .error f => f.2

variable {ms : Walk.Moments Scan}

lemma Disciplined.mono {d' : ℕ} (hd : d' ≤ d)
    {r : Except (ScanFailure × Walk.Moments Scan) (Scan × Walk.Moments Scan)}
    (hr : Disciplined d r) : Disciplined d' r := by
  rcases r with ⟨failure, ms⟩ | ⟨s, ms⟩
  · exact hr
  · exact ⟨hr.1.mono hd, hr.2⟩

/-- **When the walk is over**, all directories can be closed. -/
lemma Kept.finish (hs : Kept d s) : ∃ s', s.closeTo 0 = .ok s' ∧ s'.builder.depth = 0 := by
  rcases Nat.eq_zero_or_pos s.builder.depth with hzero | hpos
  · exact ⟨s, closeTo_self hzero.le, hzero⟩
  · obtain ⟨s', hclose, -⟩ := close_of_le (hs.root hpos) le_rfl
    refine ⟨s', hclose, ?_⟩
    rw [depth_close hclose, Nat.sub_self]

end Scan

end TreeDigest

import Mathlib
import TreeDigest.Proofs.Workspace.Callers

/-!
The table of locks holds the identities in use, and no others.

An identity is put into the table by the first caller that wants its lock, and taken out by a
caller that prunes the table and finds no handle left. With other callers at work in between, the
one that pruned first may have found the handle of another one, which then has to be the one that
takes the identity out. So an identity in the table is always owned by some caller that has begun
to get its handle and has not pruned yet: a prune that leaves the identity there has seen the
handle of such a caller.

* `LockTable.Accounted` is the invariant, `Accounted.step` the step.
* `Visits.run` runs work in workspaces, with all that can come of it: the identity is refused, the
  directory cannot be made, or the work is done and has an answer. `Visits.run_alone` ties it to
  `Workspaces.within`.
* `Visits.run_tracked` is what the invariant means for the size of the table.
-/

namespace TreeDigest

/-! ### Calls under way -/

namespace Call

variable {t t' : LockTable} {c c' : Call} {lock : LockId}

/-- The call has begun to get a handle, and has not yet handed it back and pruned the table. -/
def IsUnderWay (c : Call) : Prop := c.phase ≠ .start ∧ c.phase ≠ .done

instance (c : Call) : Decidable c.IsUnderWay := inferInstanceAs (Decidable (_ ∧ _))

lemma isUnderWay_of_handle? (hc : c.handle? = some lock) : c.IsUnderWay := by
  obtain ⟨identity, phase⟩ := c
  cases phase <;> simp_all [handle?, IsUnderWay]

/-- **What a step does to the tracked identities**: it leaves them, or adds the call's own one, and
the call is under way then; or it is the last step, which prunes the table. -/
lemma tracked_of_step? (hstep : c.step? t = some (c', t')) :
    c'.IsUnderWay ∧ (t'.tracked = t.tracked
        ∨ t.find? c.identity = none ∧ t'.tracked = (c.identity, t.next) :: t.tracked)
      ∨ c.phase = .dropped ∧ t' = t.prune c.identity := by
  obtain ⟨identity, phase⟩ := c
  cases phase with
  | start =>
      simp only [step?] at hstep
      split at hstep
      · next lock t₁ hlook =>
          obtain ⟨rfl, rfl⟩ := Prod.mk.inj (Option.some.inj hstep)
          obtain ⟨-, rfl⟩ := LockTable.lookUp_some hlook
          exact .inl ⟨by simp [IsUnderWay], .inl rfl⟩
      · next t₁ hlook =>
          obtain ⟨rfl, rfl⟩ := Prod.mk.inj (Option.some.inj hstep)
          exact .inl ⟨by simp [IsUnderWay], .inl (by rw [LockTable.lookUp_none hlook])⟩
  | absent =>
      simp only [step?] at hstep
      obtain ⟨lock, hfind, heq⟩ | ⟨hfind, heq⟩ := t.getOrInsert_eq identity <;>
        rw [heq] at hstep <;>
        obtain ⟨rfl, rfl⟩ := Prod.mk.inj (Option.some.inj hstep)
      · exact .inl ⟨by simp [IsUnderWay], .inl rfl⟩
      · exact .inl ⟨by simp [IsUnderWay], .inr ⟨hfind, rfl⟩⟩
  | waiting lock =>
      simp only [step?] at hstep
      split at hstep
      · next t₁ htake =>
          obtain ⟨rfl, rfl⟩ := Prod.mk.inj (Option.some.inj hstep)
          obtain ⟨-, rfl⟩ := LockTable.tryTake_true htake
          exact .inl ⟨by simp [IsUnderWay], .inl rfl⟩
      · cases hstep
  | locked lock | acted lock | freed lock =>
      obtain ⟨rfl, rfl⟩ := Prod.mk.inj (Option.some.inj hstep)
      exact .inl ⟨by simp [IsUnderWay], .inl rfl⟩
  | dropped =>
      obtain ⟨-, rfl⟩ := Prod.mk.inj (Option.some.inj hstep)
      exact .inr ⟨rfl, rfl⟩
  | done => cases hstep

end Call

/-! ### The invariant -/

namespace LockTable

variable {t t' : LockTable} {identity : String} {calls calls' others : List Call} {c c' : Call}

/-- The identities in the table. -/
def identities (t : LockTable) : List String := t.tracked.map Prod.fst

lemma length_identities (t : LockTable) : t.identities.length = t.size := List.length_map _

lemma find?_eq_none_iff : t.find? identity = none ↔ identity ∉ t.identities := by
  rw [find?, List.lookup_eq_none_iff, identities, List.mem_map]
  constructor
  · rintro hother ⟨e, he, rfl⟩
    simpa using hother e he
  · exact fun hmem e he => bne_iff_ne.mpr fun h => hmem ⟨e, he, h.symm⟩

lemma prune_sublist (t : LockTable) (identity : String) :
    (t.prune identity).identities.Sublist t.identities := by
  obtain heq | ⟨lock, -, -, heq⟩ := t.prune_eq identity
  · rw [heq]
  · rw [heq]
    exact List.filter_sublist.map _

/-- An identity that is still there after it was pruned is one of whose lock a handle is out. -/
lemma handled_of_mem_prune (hmem : identity ∈ (t.prune identity).identities) :
    ∃ lock, t.find? identity = some lock ∧ lock ∈ t.handles := by
  rw [prune] at hmem
  split at hmem
  · next lock hfind =>
      split at hmem
      · next hout => exact ⟨lock, hfind, hout⟩
      · simp [identities] at hmem
  · next hfind => exact absurd hmem (find?_eq_none_iff.mp hfind)

/-- **The invariant**: no identity is in the table twice, and each of them is owned by a call of
that identity that is under way. -/
structure Accounted (t : LockTable) (calls : List Call) : Prop where
  distinct : t.identities.Nodup
  owned : ∀ identity ∈ t.identities, ∃ c ∈ calls, c.identity = identity ∧ c.IsUnderWay

namespace Accounted

lemma perm (ha : t.Accounted calls) (hperm : calls.Perm calls') : t.Accounted calls' where
  distinct := ha.distinct
  owned := fun identity hmem =>
    (ha.owned identity hmem).imp fun _ hc => ⟨hperm.mem_iff.mp hc.1, hc.2⟩

/-- What a call owns it still owns when it has gone on. -/
lemma owned_of_move (ha : t.Accounted (c :: others)) (hidentity : c'.identity = c.identity)
    (hway : c.IsUnderWay → c'.IsUnderWay) (hmem : identity ∈ t.identities) :
    ∃ d ∈ c' :: others, d.identity = identity ∧ d.IsUnderWay := by
  obtain ⟨d, hd, hown, hd'⟩ := ha.owned identity hmem
  obtain rfl | hd := List.mem_cons.mp hd
  · exact ⟨c', List.mem_cons_self, hidentity.trans hown, hway hd'⟩
  · exact ⟨d, List.mem_cons_of_mem _ hd, hown, hd'⟩

/-- A call that goes on without the tracked identities keeps what it owns. -/
lemma move (ha : t.Accounted (c :: others)) (htracked : t'.tracked = t.tracked)
    (hidentity : c'.identity = c.identity) (hway : c.IsUnderWay → c'.IsUnderWay) :
    t'.Accounted (c' :: others) := by
  have hsame : t'.identities = t.identities := by rw [identities, htracked, identities]
  exact ⟨hsame ▸ ha.distinct, fun _ hmem => ha.owned_of_move hidentity hway (hsame ▸ hmem)⟩

/-- A call owns the identity that it puts into the table. -/
lemma insert (ha : t.Accounted (c :: others)) (hfind : t.find? c.identity = none)
    {lock : LockId} (htracked : t'.tracked = (c.identity, lock) :: t.tracked)
    (hidentity : c'.identity = c.identity) (hway : c'.IsUnderWay) :
    t'.Accounted (c' :: others) := by
  have hmore : t'.identities = c.identity :: t.identities := by
    rw [identities, htracked, List.map_cons, identities]
  refine ⟨?_, fun identity hmem => ?_⟩
  · rw [hmore]
    exact List.nodup_cons.mpr ⟨find?_eq_none_iff.mp hfind, ha.distinct⟩
  · rw [hmore] at hmem
    obtain rfl | hmem := List.mem_cons.mp hmem
    · exact ⟨c', List.mem_cons_self, hidentity, hway⟩
    · exact ha.owned_of_move hidentity (fun _ => hway) hmem

/-- **The last step of a call leaves nothing behind**: its identity is out of the table, or another
call has a handle of its lock. -/
lemma prune (hs : t.Sound (c :: others)) (ha : t.Accounted (c :: others))
    (hphase : c.phase = .dropped) : (t.prune c.identity).Accounted (c' :: others) := by
  have hnone : c.handle? = none := by rw [Call.handle?, hphase]
  refine ⟨ha.distinct.sublist (t.prune_sublist c.identity), fun identity hmem => ?_⟩
  suffices hother : ∃ d ∈ others, d.identity = identity ∧ d.IsUnderWay by
    obtain ⟨d, hd, hown⟩ := hother
    exact ⟨d, List.mem_cons_of_mem _ hd, hown⟩
  by_cases hidentity : identity = c.identity
  · -- The identity stays because of a handle, and that is not one of the call itself.
    subst hidentity
    obtain ⟨lock, hfind, hout⟩ := handled_of_mem_prune hmem
    obtain ⟨d, hd, hhandle⟩ := List.mem_filterMap.mp (hs.handles.mem_iff.mp hout)
    have hown : d.identity = c.identity :=
      hs.distinct _ _ lock (hs.tracked d hd lock hhandle) hfind
    obtain rfl | hd := List.mem_cons.mp hd
    · rw [hnone] at hhandle
      cases hhandle
    · exact ⟨d, hd, hown, Call.isUnderWay_of_handle? hhandle⟩
  · obtain ⟨d, hd, hown, hway⟩ := ha.owned identity ((t.prune_sublist c.identity).subset hmem)
    obtain rfl | hd := List.mem_cons.mp hd
    · exact absurd hown.symm hidentity
    · exact ⟨d, hd, hown, hway⟩

/-- **A step of a call keeps the invariant.** -/
theorem step (hs : t.Sound (c :: others)) (ha : t.Accounted (c :: others))
    (hstep : c.step? t = some (c', t')) : t'.Accounted (c' :: others) := by
  have hidentity := Call.identity_of_step? hstep
  obtain ⟨hway, hsame | ⟨hfind, hmore⟩⟩ | ⟨hphase, rfl⟩ := Call.tracked_of_step? hstep
  · exact ha.move hsame hidentity fun _ => hway
  · exact ha.insert hfind hmore hidentity hway
  · exact ha.prune hs hphase

/-- The table is no larger than the number of calls under way. -/
lemma size_le (ha : t.Accounted calls) : t.size ≤ calls.countP (·.IsUnderWay) := by
  have hsub : t.identities ⊆ (calls.filter (·.IsUnderWay)).map Call.identity := by
    intro identity hmem
    obtain ⟨c, hc, rfl, hway⟩ := ha.owned identity hmem
    exact List.mem_map_of_mem (List.mem_filter.mpr ⟨hc, decide_eq_true hway⟩)
  calc t.size = t.identities.length := t.length_identities.symm
    _ ≤ ((calls.filter (·.IsUnderWay)).map Call.identity).length :=
      (ha.distinct.subperm hsub).length_le
    _ = calls.countP (·.IsUnderWay) := by
      rw [List.length_map, List.countP_eq_length_filter]

end Accounted

end LockTable

/-! ### Work in workspaces -/

/-- A task that is to be run in the workspace of an identity: how far it has come with the lock, and
its answer once it is there. -/
structure Visit (α : Type) where
  identity : String
  task : Workspaces.Task α
  phase : Phase
  answer : Option (Except StorageError α)

namespace Visit

variable {α : Type}

/-- What the visit does with the lock of its identity. -/
def call (v : Visit α) : Call := ⟨v.identity, v.phase⟩

/-- The next step of the visit with its lock. -/
def moveOn (v : Visit α) (w : Workspaces) (h : Host) : Option (Visit α × Workspaces × Host) :=
  (v.call.step? w.locks).map fun (c, locks) =>
    ({ v with phase := c.phase }, { w with locks := locks }, h)

/-- The task is run in its directory, or the directory cannot be made. A task that visits
workspaces itself does so as a visit of its own. -/
def work (v : Visit α) (w : Workspaces) (h : Host) (directory : Path) :
    Visit α × Workspaces × Host :=
  let (answer, w', h) := w.inDirectory h directory v.task
  ({ v with answer := some answer }, { w' with locks := w.locks }, h)

/-- The next step of a visit. A refused identity is told at once, without the lock. There is no
step if the lock is taken by somebody else or if all is done. -/
def step? (v : Visit α) (w : Workspaces) (h : Host) : Option (Visit α × Workspaces × Host) :=
  match v.phase with
  | .start => match w.directoryOf v.identity with
    | .error e => some ({ v with phase := .done, answer := some (.error e) }, w, h)
    | .ok _ => v.moveOn w h
  | .locked _ => match w.directoryOf v.identity, v.answer with
    | .ok directory, none => some (v.work w h directory)
    | _, _ => v.moveOn w h
  | _ => v.moveOn w h

variable {v v' : Visit α} {w w' : Workspaces} {h h' : Host}

lemma call_of_moveOn (hmove : v.moveOn w h = some (v', w', h')) :
    v.call.step? w.locks = some (v'.call, w'.locks) := by
  obtain ⟨⟨⟨identity, phase⟩, locks⟩, hstep, heq⟩ := Option.map_eq_some_iff.mp hmove
  simp only [Prod.mk.injEq] at heq
  obtain ⟨rfl, rfl, -⟩ := heq
  obtain rfl : identity = v.identity := Call.identity_of_step? hstep
  exact hstep

/-- **What a step of a visit is for the table**: a step of its call, or none at all; a visit whose
identity is refused is done before its call begins. -/
lemma call_of_step? (hstep : v.step? w h = some (v', w', h')) :
    v.call.step? w.locks = some (v'.call, w'.locks)
      ∨ w'.locks = w.locks ∧ (v'.call = v.call
        ∨ v.phase = .start ∧ v'.call = ⟨v.identity, .done⟩) := by
  obtain ⟨identity, task, phase, answer⟩ := v
  cases phase with
  | start =>
      simp only [step?] at hstep
      split at hstep
      · obtain ⟨rfl, heq⟩ := Prod.mk.inj (Option.some.inj hstep)
        obtain ⟨rfl, -⟩ := Prod.mk.inj heq
        exact .inr ⟨rfl, .inr ⟨rfl, rfl⟩⟩
      · exact .inl (call_of_moveOn hstep)
  | locked lock =>
      simp only [step?] at hstep
      split at hstep
      · obtain ⟨rfl, heq⟩ := Prod.mk.inj (Option.some.inj hstep)
        obtain ⟨rfl, -⟩ := Prod.mk.inj heq
        exact .inr ⟨rfl, .inl rfl⟩
      · exact .inl (call_of_moveOn hstep)
  | _ => exact .inl (call_of_moveOn hstep)

end Visit

/-- Visits of the same workspaces on one machine. -/
structure Visits (α : Type) where
  workspaces : Workspaces
  host : Host
  visits : List (Visit α)

namespace Visits

variable {α : Type}

/-- Visits of which none has begun, in workspaces that nobody has used. -/
def start (directory : Path) (history : Database) (h : Host)
    (requests : List (String × Workspaces.Task α)) : Visits α :=
  ⟨.new directory history, h, requests.map fun r => ⟨r.1, r.2, .start, none⟩⟩

/-- A turn of the visit at a position: it makes its next step if there is one. -/
def turn (s : Visits α) (position : ℕ) : Visits α :=
  match s.visits[position]? with
  | none => s
  | some v => match v.step? s.workspaces s.host with
    | none => s
    | some (v', w, h) => ⟨w, h, s.visits.set position v'⟩

/-- A run under a schedule. -/
def run (s : Visits α) (schedule : List ℕ) : Visits α := schedule.foldl turn s

lemma run_cons (s : Visits α) (position : ℕ) (schedule : List ℕ) :
    s.run (position :: schedule) = (s.turn position).run schedule := rfl

lemma run_append (s : Visits α) (schedule rest : List ℕ) :
    s.run (schedule ++ rest) = (s.run schedule).run rest := List.foldl_append

/-- The table is sound for the visits and accounts for them. -/
def Kept (s : Visits α) : Prop :=
  s.workspaces.locks.Sound (s.visits.map Visit.call)
    ∧ s.workspaces.locks.Accounted (s.visits.map Visit.call)

variable {s : Visits α}

/-- What a step of a visit that comes first does to the invariant. -/
lemma kept_of_step? {v v' : Visit α} {w w' : Workspaces} {h h' : Host} {others : List Call}
    (hstep : v.step? w h = some (v', w', h')) (hs : w.locks.Sound (v.call :: others))
    (ha : w.locks.Accounted (v.call :: others)) :
    w'.locks.Sound (v'.call :: others) ∧ w'.locks.Accounted (v'.call :: others) := by
  obtain hcall | ⟨hlocks, hsame | ⟨hphase, hdone⟩⟩ := Visit.call_of_step? hstep
  · exact ⟨hs.step hcall, ha.step hs hcall⟩
  · rw [hlocks, hsame]
    exact ⟨hs, ha⟩
  · have hstart : v.call = ⟨v.identity, .start⟩ := by rw [Visit.call, hphase]
    rw [hlocks, hdone]
    rw [hstart] at hs ha
    exact ⟨hs.move rfl rfl rfl, ha.move rfl rfl fun hway => absurd rfl hway.1⟩

/-- A turn keeps the invariant. -/
lemma kept_turn (hs : s.Kept) (position : ℕ) : (s.turn position).Kept := by
  rw [turn]
  split
  · exact hs
  · next v hv =>
      split
      · exact hs
      · next v' w h hstep =>
          obtain ⟨hlt, rfl⟩ := List.getElem?_eq_some_iff.mp hv
          -- The visit goes to the front and back.
          have hfront : (s.visits.map Visit.call).Perm (s.visits[position].call
              :: ((s.visits.take position).map Visit.call
                ++ (s.visits.drop (position + 1)).map Visit.call)) := by
            rw [← List.map_append, ← List.map_cons]
            refine List.Perm.map _ ((List.Perm.of_eq ?_).trans List.perm_middle)
            rw [List.getElem_cons_drop, List.take_append_drop]
          have hback : (v'.call :: ((s.visits.take position).map Visit.call
                ++ (s.visits.drop (position + 1)).map Visit.call)).Perm
              ((s.visits.set position v').map Visit.call) := by
            rw [← List.map_append, ← List.map_cons, List.set_eq_take_append_cons_drop, if_pos hlt]
            exact List.Perm.map _ List.perm_middle.symm
          obtain ⟨hs', ha'⟩ := kept_of_step? hstep (hs.1.perm hfront) (hs.2.perm hfront)
          exact ⟨hs'.perm hback, ha'.perm hback⟩

/-- **The invariant holds in every run.** -/
theorem kept_run (hs : s.Kept) (schedule : List ℕ) : (s.run schedule).Kept := by
  induction schedule generalizing s with
  | nil => exact hs
  | cons position schedule ih => exact ih (kept_turn hs position)

lemma kept_start (directory : Path) (history : Database) (h : Host)
    (requests : List (String × Workspaces.Task α)) : (start directory history h requests).Kept := by
  have hcalls : (start directory history h requests).visits.map Visit.call
      = (requests.map Prod.fst).map fun i => ⟨i, .start⟩ := by
    rw [start, List.map_map, List.map_map]
    rfl
  rw [Kept, hcalls]
  exact ⟨LockTable.sound_empty _, List.nodup_nil, fun _ hmem => nomatch hmem⟩

/-! ### A visit that is never interrupted -/

lemma turn_alone {v v' : Visit α} {w w' : Workspaces} {h h' : Host}
    (hstep : v.step? w h = some (v', w', h')) : turn ⟨w, h, [v]⟩ 0 = ⟨w', h', [v']⟩ := by
  simp [turn, hstep]

/-- A visit that is done stays as it is. -/
lemma turn_done (w : Workspaces) (h : Host) (identity : String) (task : Workspaces.Task α)
    (answer : Option (Except StorageError α)) : turn ⟨w, h, [⟨identity, task, .done, answer⟩]⟩ 0
      = ⟨w, h, [⟨identity, task, .done, answer⟩]⟩ := rfl

/-- From its handle on, a visit takes the lock, does its work, and hands the lock back. -/
lemma run_waiting {w w' : Workspaces} {h h' : Host} {identity : String}
    {task : Workspaces.Task α} {lock : LockId} {locks : LockTable} {directory : Path}
    {answer : Except StorageError α} (hdirectory : w.directoryOf identity = .ok directory)
    (htake : w.locks.tryTake lock = (true, locks))
    (hwork : { w with locks := locks }.inDirectory h directory task = (answer, w', h'))
    (hlocks : w'.locks = locks) :
    run ⟨w, h, [⟨identity, task, .waiting lock, none⟩]⟩ [0, 0, 0, 0, 0, 0]
      = ⟨{ w' with locks := (w'.locks.free lock).release identity lock }, h',
        [⟨identity, task, .done, some answer⟩]⟩ := by
  have htaken : Visit.step? ⟨identity, task, .waiting lock, none⟩ w h
      = some (⟨identity, task, .locked lock, none⟩, { w with locks := locks }, h) := by
    simp only [Visit.step?, Visit.moveOn, Visit.call, Call.step?, htake, Option.map_some]
  have hworked : Visit.step? ⟨identity, task, .locked lock, none⟩ { w with locks := locks } h
      = some (⟨identity, task, .locked lock, some answer⟩, w', h') := by
    have hdirectory' : { w with locks := locks }.directoryOf identity = .ok directory := hdirectory
    obtain rfl := hlocks
    simp only [Visit.step?, hdirectory', Visit.work, hwork]
  have hleft : Visit.step? ⟨identity, task, .locked lock, some answer⟩ w' h'
      = some (⟨identity, task, .acted lock, some answer⟩, w', h') := by
    cases hname : w'.directoryOf identity <;> simp only [Visit.step?, hname] <;> rfl
  simp only [run, List.foldl_cons, List.foldl_nil]
  rw [turn_alone htaken, turn_alone hworked, turn_alone hleft, turn_alone rfl, turn_alone rfl,
    turn_alone rfl]
  rfl

/-- **A visit that is never interrupted** does what a run of its task in the workspace does, if the
task leaves the table alone. -/
theorem run_alone (w : Workspaces) (h : Host) (identity : String) (task : Workspaces.Task α)
    (htask : ∀ directory w h, (task directory w h).2.1.locks = w.locks)
    (hfree : (w.locks.get identity).1 ∉ (w.locks.get identity).2.taken) :
    run ⟨w, h, [⟨identity, task, .start, none⟩]⟩ [0, 0, 0, 0, 0, 0, 0, 0]
      = ⟨(w.within h identity task).2.1, (w.within h identity task).2.2,
        [⟨identity, task, .done, some (w.within h identity task).1⟩]⟩ := by
  cases hdirectory : w.directoryOf identity with
  | error e =>
      have hrefused : Visit.step? ⟨identity, task, .start, none⟩ w h
          = some (⟨identity, task, .done, some (.error e)⟩, w, h) := by
        simp only [Visit.step?, hdirectory]
      simp only [run, List.foldl_cons, List.foldl_nil, Workspaces.within, hdirectory]
      rw [turn_alone hrefused]
      rfl
  | ok directory =>
      -- All that is left from the handle on is the same, whether the identity was there or not.
      have hrest : ∀ (lock : LockId) (t : LockTable), w.locks.get identity = (lock, t) →
          run ⟨{ w with locks := t }, h, [⟨identity, task, .waiting lock, none⟩]⟩
              [0, 0, 0, 0, 0, 0]
            = ⟨(w.within h identity task).2.1, (w.within h identity task).2.2,
              [⟨identity, task, .done, some (w.within h identity task).1⟩]⟩ := by
        intro lock t hget
        rw [hget] at hfree
        have htake : t.tryTake lock = (true, { t with taken := lock :: t.taken }) := if_neg hfree
        simp only [Workspaces.within, hdirectory, hget, htake]
        refine run_waiting hdirectory htake rfl ?_
        rw [Workspaces.inDirectory]
        split
        · rfl
        · exact htask _ _ _
      rw [LockTable.get] at hrest
      split at hrest
      · next lock t hlook =>
          have hhandle : Visit.step? ⟨identity, task, .start, none⟩ w h
              = some (⟨identity, task, .waiting lock, none⟩, { w with locks := t }, h) := by
            simp only [Visit.step?, hdirectory, Visit.moveOn, Visit.call, Call.step?, hlook,
              Option.map_some]
          -- The last of the turns is idle.
          have hturns : [0, 0, 0, 0, 0, 0, 0] = [0, 0, 0, 0, 0, 0] ++ [0] := rfl
          rw [run_cons, turn_alone hhandle, hturns, run_append, hrest lock t rfl]
          exact turn_done _ _ _ _ _
      · next t hlook =>
          have habsent : Visit.step? ⟨identity, task, .start, none⟩ w h
              = some (⟨identity, task, .absent, none⟩, { w with locks := t }, h) := by
            simp only [Visit.step?, hdirectory, Visit.moveOn, Visit.call, Call.step?, hlook,
              Option.map_some]
          have hhandle : Visit.step? ⟨identity, task, .absent, none⟩ { w with locks := t } h
              = some (⟨identity, task, .waiting (t.getOrInsert identity).1, none⟩,
                { w with locks := (t.getOrInsert identity).2 }, h) := rfl
          rw [run_cons, turn_alone habsent, run_cons, turn_alone hhandle]
          exact hrest _ _ rfl

/-- **No identity stays in the table longer than it is used**: after any number of turns, in any
order, whatever comes of the visits,

* every identity in the table is that of a visit that is under way;
* there are no more identities in the table than visits under way;
* the table is empty where no visit is under way. -/
theorem run_tracked (directory : Path) (history : Database) (h : Host)
    (requests : List (String × Workspaces.Task α)) (schedule : List ℕ) :
    let s := (start directory history h requests).run schedule
    (∀ identity ∈ s.workspaces.locks.identities,
        ∃ v ∈ s.visits, v.identity = identity ∧ v.call.IsUnderWay)
      ∧ s.workspaces.locks.size ≤ s.visits.countP (·.call.IsUnderWay)
      ∧ ((∀ v ∈ s.visits, ¬ v.call.IsUnderWay) → s.workspaces.locks.size = 0) := by
  intro s
  obtain ⟨-, ha⟩ : s.Kept := kept_run (kept_start directory history h requests) schedule
  have hsize : s.workspaces.locks.size ≤ s.visits.countP (·.call.IsUnderWay) := by
    refine ha.size_le.trans_eq ?_
    rw [List.countP_map]
    rfl
  refine ⟨fun identity hmem => ?_, hsize, fun hidle => ?_⟩
  · obtain ⟨c, hc, hown, hway⟩ := ha.owned identity hmem
    obtain ⟨v, hv, rfl⟩ := List.mem_map.mp hc
    exact ⟨v, hv, hown, hway⟩
  · have hnone : s.visits.countP (·.call.IsUnderWay) = 0 :=
      List.countP_eq_zero.mpr fun v hv => by simpa using hidle v hv
    exact Nat.le_zero.mp (hnone ▸ hsize)

end Visits

end TreeDigest

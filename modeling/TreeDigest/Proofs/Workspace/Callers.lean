import Mathlib
import TreeDigest.Workspace.Provider

/-!
Callers that share a table of locks.

Any number of callers run work in the workspaces of their identities, each in steps of its own:
it looks its identity up, inserts it if it was not there, takes the lock, runs its action, frees
the lock, drops its handle and, as a last step, prunes the table. A schedule says whose turn it
is, and a caller that waits for a taken lock lets its turn pass.

The dangerous moment is between dropping a handle and pruning, when other callers may look up,
insert or prune the same identity. What carries the proof is that the table counts the handles
that are out: an entry is pruned only when no caller holds a handle of its lock.

* `Call.step?` is one step of a caller, and `Callers.run` a run under a schedule.
* `LockTable.Sound` is the invariant, `Sound.step` the step and `sound_run` the run.
* `run_exclusive` is what it means for the callers; `run_alone` says that a caller that is never
  interrupted does to the table what `Workspaces.within` does.
-/

namespace TreeDigest

/-! ### Calls -/

/-- How far a call has come. In between, it may have a handle of a lock, and may have taken it. -/
inductive Phase where
  /-- Nothing is done yet. -/
  | start
  /-- The identity was looked up and was not there. -/
  | absent
  /-- It has a handle, and is about to take the lock. -/
  | waiting (lock : LockId)
  /-- It has taken the lock, and is about to run its action. -/
  | locked (lock : LockId)
  /-- Its action has run, and it is about to free the lock. -/
  | acted (lock : LockId)
  /-- It has freed the lock, and is about to drop its handle. -/
  | freed (lock : LockId)
  /-- It has dropped its handle, and is about to prune the table. -/
  | dropped
  /-- All is done. -/
  | done
  deriving DecidableEq

/-- A call that runs an action under the lock of an identity. -/
structure Call where
  identity : String
  phase : Phase
  deriving DecidableEq

namespace Call

/-- The lock of which the call has a handle. -/
def handle? (c : Call) : Option LockId :=
  match c.phase with
  | .waiting lock | .locked lock | .acted lock | .freed lock => some lock
  | _ => none

/-- The lock that the call has taken: it is inside its action. -/
def inside? (c : Call) : Option LockId :=
  match c.phase with
  | .locked lock | .acted lock => some lock
  | _ => none

/-- The next step of a call, and the table after it. There is none if the lock is taken by
somebody else or if all is done. -/
def step? (t : LockTable) (c : Call) : Option (Call × LockTable) :=
  match c.phase with
  | .start => match t.lookUp c.identity with
    | (some lock, t) => some ({ c with phase := .waiting lock }, t)
    | (none, t) => some ({ c with phase := .absent }, t)
  | .absent =>
    let (lock, t) := t.getOrInsert c.identity
    some ({ c with phase := .waiting lock }, t)
  | .waiting lock => match t.tryTake lock with
    | (true, t) => some ({ c with phase := .locked lock }, t)
    | (false, _) => none
  | .locked lock => some ({ c with phase := .acted lock }, t)
  | .acted lock => some ({ c with phase := .freed lock }, t.free lock)
  | .freed lock => some ({ c with phase := .dropped }, t.drop lock)
  | .dropped => some ({ c with phase := .done }, t.prune c.identity)
  | .done => none

/-- A lock that a call has taken is one of which it has a handle. -/
lemma handle?_of_inside? {c : Call} {lock : LockId} (hc : c.inside? = some lock) :
    c.handle? = some lock := by
  obtain ⟨identity, phase⟩ := c
  cases phase <;> simp_all [inside?, handle?]

lemma identity_of_step? {t t' : LockTable} {c c' : Call} (hstep : c.step? t = some (c', t')) :
    c'.identity = c.identity := by
  obtain ⟨identity, phase⟩ := c
  cases phase <;> simp only [step?] at hstep <;> (try split at hstep) <;>
    simp only [Option.some.injEq, Prod.mk.injEq, reduceCtorEq] at hstep <;>
    exact hstep.1 ▸ rfl

/-- How the phases follow one another. -/
lemma phase_of_step? {t t' : LockTable} {c c' : Call} (hstep : c.step? t = some (c', t')) :
    match c.phase with
    | .start => c'.phase = .absent ∨ ∃ lock, c'.phase = .waiting lock
    | .absent => ∃ lock, c'.phase = .waiting lock
    | .waiting lock => c'.phase = .locked lock
    | .locked lock => c'.phase = .acted lock
    | .acted lock => c'.phase = .freed lock
    | .freed _ => c'.phase = .dropped
    | .dropped => c'.phase = .done
    | .done => False := by
  obtain ⟨identity, phase⟩ := c
  cases phase with
  | start =>
      simp only [step?] at hstep
      split at hstep <;> obtain ⟨rfl, -⟩ := Prod.mk.inj (Option.some.inj hstep)
      · exact .inr ⟨_, rfl⟩
      · exact .inl rfl
  | absent =>
      obtain ⟨rfl, -⟩ := Prod.mk.inj (Option.some.inj hstep)
      exact ⟨_, rfl⟩
  | waiting lock =>
      simp only [step?] at hstep
      split at hstep
      · obtain ⟨rfl, -⟩ := Prod.mk.inj (Option.some.inj hstep)
        rfl
      · cases hstep
  | locked lock | acted lock | freed lock | dropped =>
      obtain ⟨rfl, -⟩ := Prod.mk.inj (Option.some.inj hstep)
      rfl
  | done => cases hstep

end Call

/-- The callers of a table of locks. -/
structure Callers where
  table : LockTable
  calls : List Call
  deriving DecidableEq

namespace Callers

/-- Callers with the given identities that have not done anything. -/
def start (identities : List String) : Callers := ⟨.empty, identities.map fun i => ⟨i, .start⟩⟩

/-- A turn of the caller at a position: it makes its next step if there is one. -/
def turn (s : Callers) (position : ℕ) : Callers :=
  match s.calls[position]? with
  | none => s
  | some c => match c.step? s.table with
    | none => s
    | some (c', table) => ⟨table, s.calls.set position c'⟩

/-- A run under a schedule. -/
def run (s : Callers) (schedule : List ℕ) : Callers := schedule.foldl turn s

lemma run_cons (s : Callers) (position : ℕ) (schedule : List ℕ) :
    s.run (position :: schedule) = (s.turn position).run schedule := rfl

lemma run_append (s : Callers) (schedule rest : List ℕ) :
    s.run (schedule ++ rest) = (s.run schedule).run rest := List.foldl_append

end Callers

/-! ### What the operations of a table do -/

namespace LockTable

variable {t t' : LockTable} {identity : String} {lock : LockId}

lemma lookUp_some (ht : t.lookUp identity = (some lock, t')) :
    t.find? identity = some lock ∧ t' = t.addHandle lock := by
  rw [lookUp] at ht
  split at ht
  · next hfind =>
      obtain ⟨heq, rfl⟩ := Prod.mk.inj ht
      obtain rfl := Option.some.inj heq
      exact ⟨hfind, rfl⟩
  · simp at ht

lemma lookUp_none (ht : t.lookUp identity = (none, t')) : t' = t := by
  rw [lookUp] at ht
  split at ht
  · simp at ht
  · exact (Prod.mk.inj ht).2.symm

/-- The table with a new lock for an identity. -/
def insertNew (t : LockTable) (identity : String) : LockTable :=
  { t with next := t.next + 1, tracked := (identity, t.next) :: t.tracked }

/-- A handle is one of the lock that is there, or of a new one. -/
lemma getOrInsert_eq (t : LockTable) (identity : String) :
    (∃ lock, t.find? identity = some lock
        ∧ t.getOrInsert identity = (lock, t.addHandle lock))
      ∨ t.find? identity = none
        ∧ t.getOrInsert identity = (t.next, (t.insertNew identity).addHandle t.next) := by
  rw [getOrInsert]
  cases hfind : t.find? identity with
  | some lock => exact .inl ⟨lock, rfl, rfl⟩
  | none => exact .inr ⟨rfl, rfl⟩

lemma tryTake_true (ht : t.tryTake lock = (true, t')) :
    lock ∉ t.taken ∧ t' = { t with taken := lock :: t.taken } := by
  rw [tryTake] at ht
  split at ht
  · simp at ht
  · next hfree => exact ⟨hfree, (Prod.mk.inj ht).2.symm⟩

lemma tryTake_false (ht : t.tryTake lock = (false, t')) : lock ∈ t.taken := by
  rw [tryTake] at ht
  split at ht
  · assumption
  · simp at ht

/-- Pruning changes nothing, or takes away an identity of whose lock there is no handle. -/
lemma prune_eq (t : LockTable) (identity : String) :
    t.prune identity = t
      ∨ ∃ lock, t.find? identity = some lock ∧ lock ∉ t.handles
        ∧ t.prune identity = { t with tracked := t.tracked.filter fun e => e.1 != identity } := by
  rw [prune]
  split
  · next lock hfind =>
      split
      · exact .inl rfl
      · next hout => exact .inr ⟨lock, hfind, hout, rfl⟩
  · exact .inl rfl

lemma find?_insertNew (t : LockTable) (identity j : String) :
    (t.insertNew identity).find? j = if j = identity then some t.next else t.find? j := by
  rw [find?, insertNew, List.lookup_cons]
  by_cases hj : j = identity
  · simp [hj]
  · simp [hj, beq_eq_false_iff_ne.mpr hj, find?]

/-- Taking an identity away leaves the others as they are. -/
lemma lookup_filter_ne (es : List (String × LockId)) (identity j : String) :
    (es.filter fun e => e.1 != identity).lookup j
      = if j = identity then none else es.lookup j := by
  induction es with
  | nil => simp
  | cons e es ih =>
      obtain ⟨i, lock⟩ := e
      by_cases hi : i = identity
      · subst hi
        rw [List.filter_cons_of_neg (by simp), ih, List.lookup_cons]
        by_cases hj : j = i
        · simp [hj]
        · simp [hj, beq_eq_false_iff_ne.mpr hj]
      · rw [List.filter_cons_of_pos (by simpa using hi), List.lookup_cons, List.lookup_cons, ih]
        by_cases hj : j = i
        · have hne : j ≠ identity := hj ▸ hi
          simp [hj, hj ▸ hne]
        · simp [beq_eq_false_iff_ne.mpr hj]

/-! ### The invariant -/

/-- **The invariant**: the table counts the handles that are out and the locks that are taken, no
lock is taken twice, and every handle that is out is one of the lock that the table has for the
caller's identity. Locks of different identities are different, and new ones are still to come. -/
structure Sound (t : LockTable) (calls : List Call) : Prop where
  handles : t.handles.Perm (calls.filterMap Call.handle?)
  taken : t.taken.Perm (calls.filterMap Call.inside?)
  exclusive : t.taken.Nodup
  tracked : ∀ c ∈ calls, ∀ lock, c.handle? = some lock → t.find? c.identity = some lock
  distinct : ∀ i j lock, t.find? i = some lock → t.find? j = some lock → i = j
  fresh : ∀ i lock, t.find? i = some lock → lock < t.next

namespace Sound

variable {calls calls' others : List Call} {c c' : Call}

/-- It does not matter in which order the calls are listed. -/
lemma perm (hs : t.Sound calls) (hperm : calls.Perm calls') : t.Sound calls' where
  handles := hs.handles.trans (hperm.filterMap _)
  taken := hs.taken.trans (hperm.filterMap _)
  exclusive := hs.exclusive
  tracked := fun c hc => hs.tracked c (hperm.mem_iff.mpr hc)
  distinct := hs.distinct
  fresh := hs.fresh

/-- A lock of which a call has a handle is counted. -/
lemma mem_handles (hs : t.Sound calls) (hc : c ∈ calls) (hlock : c.handle? = some lock) :
    lock ∈ t.handles :=
  hs.handles.mem_iff.mpr (List.mem_filterMap.mpr ⟨c, hc, hlock⟩)

/-- The handles of a call that gets no new one are still of the lock of its identity. -/
lemma tracked_of_le (hs : t.Sound (c :: others)) (hidentity : c'.identity = c.identity)
    (hle : ∀ lock, c'.handle? = some lock → c.handle? = some lock) :
    ∀ d ∈ c' :: others, ∀ lock, d.handle? = some lock → t.find? d.identity = some lock := by
  intro d hd lock hlock
  obtain rfl | hd := List.mem_cons.mp hd
  · rw [hidentity]
    exact hs.tracked c List.mem_cons_self lock (hle lock hlock)
  · exact hs.tracked d (List.mem_cons_of_mem _ hd) lock hlock

/-- A call goes on without the table. -/
lemma move (hs : t.Sound (c :: others)) (hidentity : c'.identity = c.identity)
    (hhandle : c'.handle? = c.handle?) (hinside : c'.inside? = c.inside?) :
    t.Sound (c' :: others) where
  handles := by
    have hcount := hs.handles
    rwa [List.filterMap_cons, ← hhandle, ← List.filterMap_cons] at hcount
  taken := by
    have hcount := hs.taken
    rwa [List.filterMap_cons, ← hinside, ← List.filterMap_cons] at hcount
  exclusive := hs.exclusive
  tracked := hs.tracked_of_le hidentity fun _ hlock => hhandle ▸ hlock
  distinct := hs.distinct
  fresh := hs.fresh

/-- A call gets a handle of the lock that the table has for its identity. -/
lemma grant (hs : t.Sound (c :: others)) (hhandle : c.handle? = none) (hinside : c.inside? = none)
    (hfind : t.find? c.identity = some lock) :
    (t.addHandle lock).Sound ({ c with phase := .waiting lock } :: others) where
  handles := by
    have hcount := hs.handles
    rw [List.filterMap_cons_none hhandle] at hcount
    exact hcount.cons lock
  taken := by
    have hcount := hs.taken
    rwa [List.filterMap_cons_none hinside] at hcount
  exclusive := hs.exclusive
  tracked := by
    intro d hd k hk
    obtain rfl | hd := List.mem_cons.mp hd
    · obtain rfl := Option.some.inj hk
      exact hfind
    · exact hs.tracked d (List.mem_cons_of_mem _ hd) k hk
  distinct := hs.distinct
  fresh := hs.fresh

/-- An identity that is not there gets a new lock. -/
lemma insertNew (hs : t.Sound calls) (hfind : t.find? identity = none) :
    (t.insertNew identity).Sound calls where
  handles := hs.handles
  taken := hs.taken
  exclusive := hs.exclusive
  tracked := by
    intro d hd k hk
    have htracked := hs.tracked d hd k hk
    have hne : d.identity ≠ identity := by
      rintro rfl
      rw [htracked] at hfind
      cases hfind
    rwa [find?_insertNew, if_neg hne]
  distinct := by
    intro i j k hi hj
    rw [find?_insertNew] at hi hj
    split at hi <;> split at hj
    · next hi' hj' => rw [hi', hj']
    · -- A lock that was there has a smaller number than the new one.
      obtain rfl := Option.some.inj hi
      exact absurd (hs.fresh j _ hj) (lt_irrefl _)
    · obtain rfl := Option.some.inj hj
      exact absurd (hs.fresh i _ hi) (lt_irrefl _)
    · exact hs.distinct i j k hi hj
  fresh := by
    intro i k hi
    rw [find?_insertNew] at hi
    change k < t.next + 1
    split at hi
    · obtain rfl := Option.some.inj hi
      exact Nat.lt_succ_self _
    · exact (hs.fresh i k hi).trans (Nat.lt_succ_self _)

/-- A call that waits takes its lock, which is free. -/
lemma take (hs : t.Sound (⟨identity, .waiting lock⟩ :: others)) (hfree : lock ∉ t.taken) :
    ({ t with taken := lock :: t.taken } : LockTable).Sound
      (⟨identity, .locked lock⟩ :: others) where
  handles := hs.handles
  taken := hs.taken.cons lock
  exclusive := List.nodup_cons.mpr ⟨hfree, hs.exclusive⟩
  tracked := hs.tracked_of_le rfl fun _ hlock => hlock
  distinct := hs.distinct
  fresh := hs.fresh

/-- A call that has acted frees its lock. -/
lemma free (hs : t.Sound (⟨identity, .acted lock⟩ :: others)) :
    (t.free lock).Sound (⟨identity, .freed lock⟩ :: others) where
  handles := hs.handles
  taken := by
    have hinside : Call.inside? ⟨identity, .acted lock⟩ = some lock := rfl
    have hcount := hs.taken.erase lock
    rwa [List.filterMap_cons_some hinside, List.erase_cons_head] at hcount
  exclusive := hs.exclusive.erase lock
  tracked := hs.tracked_of_le rfl fun _ hlock => hlock
  distinct := hs.distinct
  fresh := hs.fresh

/-- A call that has freed its lock drops its handle. -/
lemma drop (hs : t.Sound (⟨identity, .freed lock⟩ :: others)) :
    (t.drop lock).Sound (⟨identity, .dropped⟩ :: others) where
  handles := by
    have hhandle : Call.handle? ⟨identity, .freed lock⟩ = some lock := rfl
    have hcount := hs.handles.erase lock
    rwa [List.filterMap_cons_some hhandle, List.erase_cons_head] at hcount
  taken := hs.taken
  exclusive := hs.exclusive
  tracked := hs.tracked_of_le rfl fun _ hlock => nomatch hlock
  distinct := hs.distinct
  fresh := hs.fresh

/-- Pruning is safe at any time and for any identity. -/
lemma prune (hs : t.Sound calls) (identity : String) : (t.prune identity).Sound calls := by
  obtain heq | ⟨lock, hfind, hout, heq⟩ := t.prune_eq identity
  · rwa [heq]
  · have hfind? : ∀ j, (t.prune identity).find? j = if j = identity then none else t.find? j := by
      intro j
      rw [heq]
      exact lookup_filter_ne _ _ _
    have hsub : ∀ j k, (t.prune identity).find? j = some k → t.find? j = some k := by
      intro j k hj
      rw [hfind?] at hj
      split at hj
      · cases hj
      · exact hj
    exact {
      handles := by rw [heq]; exact hs.handles
      taken := by rw [heq]; exact hs.taken
      exclusive := by rw [heq]; exact hs.exclusive
      tracked := by
        intro d hd k hk
        have htracked := hs.tracked d hd k hk
        -- A handle of a call of this identity is one of the lock of which none was out.
        have hne : d.identity ≠ identity := by
          rintro rfl
          obtain rfl := Option.some.inj (hfind.symm.trans htracked)
          exact hout (hs.mem_handles hd hk)
        rwa [hfind?, if_neg hne]
      distinct := fun i j k hi hj => hs.distinct i j k (hsub i k hi) (hsub j k hj)
      fresh := fun i k hi => by rw [heq]; exact hs.fresh i k (hsub i k hi) }

/-- **A step of a call keeps the invariant.** -/
theorem step (hs : t.Sound (c :: others)) (hstep : c.step? t = some (c', t')) :
    t'.Sound (c' :: others) := by
  obtain ⟨identity, phase⟩ := c
  cases phase with
  | start =>
      simp only [Call.step?] at hstep
      split at hstep
      · next lock t₁ hlook =>
          obtain ⟨rfl, rfl⟩ := Prod.mk.inj (Option.some.inj hstep)
          obtain ⟨hfind, rfl⟩ := lookUp_some hlook
          exact hs.grant rfl rfl hfind
      · next t₁ hlook =>
          obtain ⟨rfl, rfl⟩ := Prod.mk.inj (Option.some.inj hstep)
          rw [lookUp_none hlook]
          exact hs.move rfl rfl rfl
  | absent =>
      simp only [Call.step?] at hstep
      obtain ⟨lock, hfind, heq⟩ | ⟨hfind, heq⟩ := t.getOrInsert_eq identity <;>
        rw [heq] at hstep <;>
        obtain ⟨rfl, rfl⟩ := Prod.mk.inj (Option.some.inj hstep)
      · exact hs.grant rfl rfl hfind
      · exact (hs.insertNew hfind).grant rfl rfl (by rw [find?_insertNew, if_pos rfl])
  | waiting lock =>
      simp only [Call.step?] at hstep
      split at hstep
      · next t₁ htake =>
          obtain ⟨rfl, rfl⟩ := Prod.mk.inj (Option.some.inj hstep)
          obtain ⟨hfree, rfl⟩ := tryTake_true htake
          exact hs.take hfree
      · cases hstep
  | locked lock =>
      obtain ⟨rfl, rfl⟩ := Prod.mk.inj (Option.some.inj hstep)
      exact hs.move rfl rfl rfl
  | acted lock =>
      obtain ⟨rfl, rfl⟩ := Prod.mk.inj (Option.some.inj hstep)
      exact hs.free
  | freed lock =>
      obtain ⟨rfl, rfl⟩ := Prod.mk.inj (Option.some.inj hstep)
      exact hs.drop
  | dropped =>
      obtain ⟨rfl, rfl⟩ := Prod.mk.inj (Option.some.inj hstep)
      have hmoved : t.Sound (⟨identity, .done⟩ :: others) := hs.move rfl rfl rfl
      exact hmoved.prune identity
  | done => cases hstep

/-- What keeps the invariant for a call that comes first keeps it for a call at any position. -/
lemma set (hs : t.Sound calls) {position : ℕ} (hc : calls[position]? = some c)
    (hfront : ∀ {others}, t.Sound (c :: others) → t'.Sound (c' :: others)) :
    t'.Sound (calls.set position c') := by
  obtain ⟨hlt, rfl⟩ := List.getElem?_eq_some_iff.mp hc
  -- The call goes to the front and back.
  have hsplit : calls = calls.take position ++ calls[position] :: calls.drop (position + 1) := by
    rw [List.getElem_cons_drop, List.take_append_drop]
  have hmoved := hfront (hs.perm ((List.Perm.of_eq hsplit).trans List.perm_middle))
  rw [List.set_eq_take_append_cons_drop, if_pos hlt]
  exact hmoved.perm List.perm_middle.symm

end Sound

/-- The table without any lock is sound for calls that have not done anything. -/
lemma sound_empty (identities : List String) :
    empty.Sound (identities.map fun i => ⟨i, .start⟩) := by
  have hhandles : (identities.map fun i => Call.mk i .start).filterMap Call.handle? = [] := by
    simp [List.filterMap_eq_nil_iff, Call.handle?]
  have hinside : (identities.map fun i => Call.mk i .start).filterMap Call.inside? = [] := by
    simp [List.filterMap_eq_nil_iff, Call.inside?]
  exact {
    handles := by rw [hhandles]; exact .nil
    taken := by rw [hinside]; exact .nil
    exclusive := List.nodup_nil
    tracked := by
      intro d hd lock hlock
      obtain ⟨i, -, rfl⟩ := List.mem_map.mp hd
      cases hlock
    distinct := fun _ _ _ hi => nomatch hi
    fresh := fun _ _ hi => nomatch hi }

end LockTable

namespace Callers

variable {s : Callers} {c d : Call} {k l : LockId} {position : ℕ}

/-- A turn keeps the invariant. -/
lemma sound_turn (hs : s.table.Sound s.calls) (position : ℕ) :
    (s.turn position).table.Sound (s.turn position).calls := by
  rw [turn]
  split
  · exact hs
  · next c hc =>
      split
      · exact hs
      · next c' table hstep => exact hs.set hc fun hfront => hfront.step hstep

/-- **The invariant holds in every run.** -/
theorem sound_run (hs : s.table.Sound s.calls) (schedule : List ℕ) :
    (s.run schedule).table.Sound (s.run schedule).calls := by
  induction schedule generalizing s with
  | nil => exact hs
  | cons position schedule ih => exact ih (sound_turn hs position)

/-- The calls keep their identities. -/
lemma identities_run (s : Callers) (schedule : List ℕ) :
    (s.run schedule).calls.map Call.identity = s.calls.map Call.identity := by
  induction schedule generalizing s with
  | nil => rfl
  | cons position schedule ih =>
      refine (ih (s.turn position)).trans ?_
      rw [turn]
      split
      · rfl
      · next c hc =>
          split
          · rfl
          · next c' table hstep =>
              obtain ⟨hlt, rfl⟩ := List.getElem?_eq_some_iff.mp hc
              have hlt' : position < (s.calls.map Call.identity).length := by simpa using hlt
              have hsame : (s.calls.map Call.identity)[position] = s.calls[position].identity :=
                List.getElem_map _
              rw [List.map_set, Call.identity_of_step? hstep, ← hsame, List.set_getElem_self]

/-! ### What the invariant means for the callers -/

/-- Handles of two callers are of one lock exactly if the callers have one identity. -/
lemma handle?_eq_iff (hs : s.table.Sound s.calls) (hc : c ∈ s.calls) (hd : d ∈ s.calls)
    (hk : c.handle? = some k) (hl : d.handle? = some l) : c.identity = d.identity ↔ k = l := by
  have hfind := hs.tracked c hc k hk
  have hfind' := hs.tracked d hd l hl
  constructor
  · intro hidentity
    rw [hidentity, hfind'] at hfind
    exact (Option.some.inj hfind).symm
  · rintro rfl
    exact hs.distinct _ _ k hfind hfind'

/-- A lock is taken by one caller at a time. -/
lemma position_eq_of_inside? (hs : s.table.Sound s.calls) {i j : ℕ} (hi : s.calls[i]? = some c)
    (hj : s.calls[j]? = some d) (hc : c.inside? = some k) (hd : d.inside? = some k) : i = j := by
  have hnodup : (s.calls.filterMap Call.inside?).Nodup := hs.taken.nodup_iff.mp hs.exclusive
  have hapart := List.pairwise_iff_getElem.mp (List.pairwise_filterMap.mp hnodup)
  obtain ⟨hi', rfl⟩ := List.getElem?_eq_some_iff.mp hi
  obtain ⟨hj', rfl⟩ := List.getElem?_eq_some_iff.mp hj
  obtain hlt | heq | hlt := lt_trichotomy i j
  · exact absurd rfl (hapart i j hi' hj' hlt k hc k hd)
  · exact heq
  · exact absurd rfl (hapart j i hj' hi' hlt k hd k hc)

/-- At most one caller of an identity is inside its action. -/
lemma position_eq_of_identity (hs : s.table.Sound s.calls) {i j : ℕ} (hi : s.calls[i]? = some c)
    (hj : s.calls[j]? = some d) (hc : c.inside?.isSome) (hd : d.inside?.isSome)
    (hidentity : c.identity = d.identity) : i = j := by
  obtain ⟨k, hk⟩ := Option.isSome_iff_exists.mp hc
  obtain ⟨l, hl⟩ := Option.isSome_iff_exists.mp hd
  have hlock := (handle?_eq_iff hs (List.mem_of_getElem? hi) (List.mem_of_getElem? hj)
    (Call.handle?_of_inside? hk) (Call.handle?_of_inside? hl)).mp hidentity
  exact position_eq_of_inside? hs hi hj hk (hlock ▸ hl)

/-- A caller that has no next step is done, or waits for a lock that another caller has taken. -/
lemma waits_for (hs : s.table.Sound s.calls) (hc : c ∈ s.calls) (hstep : c.step? s.table = none) :
    c.phase = .done
      ∨ ∃ lock, c.phase = .waiting lock ∧ ∃ d ∈ s.calls, d.inside? = some lock := by
  obtain ⟨identity, phase⟩ := c
  cases phase <;> simp only [Call.step?] at hstep
  case waiting lock =>
    right
    refine ⟨lock, rfl, ?_⟩
    split at hstep
    · cases hstep
    · next htake =>
        have htaken := LockTable.tryTake_false htake
        exact List.mem_filterMap.mp (hs.taken.mem_iff.mp htaken)
  case done => exact .inl rfl
  all_goals first | cases hstep | (split at hstep <;> cases hstep)

/-- **Callers exclude one another by identity**: after any number of turns, in any order,

* the callers are the ones that there were;
* a handle is one of the lock that the table has for the caller's identity;
* two handles are of one lock exactly if they are of one identity;
* at most one caller of an identity is inside its action;
* a caller that cannot go on is done, or waits for one of its own identity that is inside. -/
theorem run_exclusive (identities : List String) (schedule : List ℕ) :
    let s : Callers := (start identities).run schedule
    s.calls.map Call.identity = identities
      ∧ (∀ c ∈ s.calls, ∀ k, c.handle? = some k → s.table.find? c.identity = some k)
      ∧ (∀ c ∈ s.calls, ∀ d ∈ s.calls, ∀ k l, c.handle? = some k → d.handle? = some l →
          (c.identity = d.identity ↔ k = l))
      ∧ (∀ (i j : ℕ) (c d : Call), s.calls[i]? = some c → s.calls[j]? = some d →
          c.inside?.isSome → d.inside?.isSome → c.identity = d.identity → i = j)
      ∧ ∀ (i : ℕ) (c : Call), s.calls[i]? = some c → c.step? s.table = none →
          c.phase = .done
            ∨ ∃ (j : ℕ) (d : Call), j ≠ i ∧ s.calls[j]? = some d ∧ d.identity = c.identity
              ∧ d.inside?.isSome := by
  intro s
  have hs : s.table.Sound s.calls := sound_run (LockTable.sound_empty identities) schedule
  refine ⟨?identities, hs.tracked, ?handles, ?inside, ?blocked⟩
  case identities =>
    rw [identities_run, start, List.map_map]
    exact List.map_id _
  case handles =>
    intro c hc d hd k l hk hl
    exact handle?_eq_iff hs hc hd hk hl
  case inside =>
    intro i j c d hi hj hc hd hidentity
    exact position_eq_of_identity hs hi hj hc hd hidentity
  case blocked =>
    intro i c hi hstep
    have hc := List.mem_of_getElem? hi
    obtain hdone | ⟨lock, hwaiting, d, hd, hinside⟩ := waits_for hs hc hstep
    · exact .inl hdone
    · right
      obtain ⟨j, hj⟩ := List.mem_iff_getElem?.mp hd
      have hhandle : c.handle? = some lock := by rw [Call.handle?, hwaiting]
      have hidentity := (handle?_eq_iff hs hd hc (Call.handle?_of_inside? hinside) hhandle).mpr rfl
      refine ⟨j, d, ?_, hj, hidentity, Option.isSome_of_eq_some hinside⟩
      rintro rfl
      obtain rfl := Option.some.inj (hi.symm.trans hj)
      rw [Call.inside?, hwaiting] at hinside
      cases hinside

/-- The first caller has dropped its handle when the second one gets one, so the lock stays. -/
example : (start ["a", "a"]).run [0, 0, 0, 0, 0, 0, 1, 0]
    = ⟨⟨1, [("a", 0)], [0], []⟩, [⟨"a", .done⟩, ⟨"a", .waiting 0⟩]⟩ := by decide

/-! ### A caller that is never interrupted -/

lemma turn_alone (t : LockTable) (c : Call) {c' : Call} {t' : LockTable}
    (hstep : c.step? t = some (c', t')) : turn ⟨t, [c]⟩ 0 = ⟨t', [c']⟩ := by
  simp [turn, hstep]

/-- From its handle on, a caller takes the lock, frees it and hands it back. -/
lemma run_waiting {t : LockTable} {identity : String} {lock : LockId} (hfree : lock ∉ t.taken) :
    run ⟨t, [⟨identity, .waiting lock⟩]⟩ [0, 0, 0, 0, 0]
      = ⟨((t.tryTake lock).2.free lock).release identity lock, [⟨identity, .done⟩]⟩ := by
  have htake : t.tryTake lock = (true, { t with taken := lock :: t.taken }) := if_neg hfree
  have hstep : Call.step? t ⟨identity, .waiting lock⟩
      = some (⟨identity, .locked lock⟩, (t.tryTake lock).2) := by
    simp only [Call.step?, htake]
  simp only [run_cons]
  rw [turn_alone _ _ hstep, turn_alone _ _ rfl, turn_alone _ _ rfl, turn_alone _ _ rfl,
    turn_alone _ _ rfl]
  rfl

/-- What the run of a task in a workspace does to the table, if the task leaves the table alone. -/
lemma locks_within (w : Workspaces) (h : Host) {α : Type} (task : Workspaces.Task α)
    {identity : String} (hname : Identity.validate identity = .ok ())
    (htask : ∀ directory w h, (task directory w h).2.1.locks = w.locks) :
    (w.within h identity task).2.1.locks
      = (((w.locks.get identity).2.tryTake (w.locks.get identity).1).2.free
          (w.locks.get identity).1).release identity (w.locks.get identity).1 := by
  have hdirectory : ∀ (w : Workspaces) h directory,
      (w.inDirectory h directory task).2.1.locks = w.locks := by
    intro w h directory
    rw [Workspaces.inDirectory]
    split
    · rfl
    · exact htask _ _ _
  simp only [Workspaces.within, Workspaces.directoryOf, hname, bind, Except.bind, pure,
    Except.pure, hdirectory]

/-- **A caller that is never interrupted** does to the table what a run of a task in a workspace
does, if the task leaves the table alone. -/
theorem run_alone (w : Workspaces) (h : Host) {α : Type} (task : Workspaces.Task α)
    (identity : String) (hname : Identity.validate identity = .ok ())
    (htask : ∀ directory w h, (task directory w h).2.1.locks = w.locks)
    (hfree : (w.locks.get identity).1 ∉ (w.locks.get identity).2.taken) :
    run ⟨w.locks, [⟨identity, .start⟩]⟩ [0, 0, 0, 0, 0, 0, 0]
      = ⟨(w.within h identity task).2.1.locks, [⟨identity, .done⟩]⟩ := by
  rw [locks_within w h task hname htask]
  rw [LockTable.get] at hfree ⊢
  split at hfree
  · next lock t hlook =>
      have hstep : Call.step? w.locks ⟨identity, .start⟩ = some (⟨identity, .waiting lock⟩, t) := by
        simp only [Call.step?, hlook]
      -- The identity is there, and the last of the turns is idle.
      have hturns : [0, 0, 0, 0, 0, 0] = [0, 0, 0, 0, 0] ++ [0] := rfl
      rw [run_cons, turn_alone _ _ hstep, hturns, run_append, run_waiting hfree]
      rfl
  · next t hlook =>
      have hstep : Call.step? w.locks ⟨identity, .start⟩ = some (⟨identity, .absent⟩, t) := by
        simp only [Call.step?, hlook]
      have hstep' : Call.step? t ⟨identity, .absent⟩
          = some (⟨identity, .waiting (t.getOrInsert identity).1⟩, (t.getOrInsert identity).2) :=
        rfl
      rw [run_cons, turn_alone _ _ hstep, run_cons, turn_alone _ _ hstep', run_waiting hfree]

end Callers

end TreeDigest

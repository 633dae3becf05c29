import TreeDigest.Proofs.Execution.Decisions
import TreeDigest.Proofs.Workspace.Callers

/-!
What stands between a request and its action.

An execution comes to its action only if the identity is accepted, the workspace can be made, the
last record can be read and the work is not up to date. Wherever it stops, the history is as it
was, and what it answers and leaves does not depend on the action. Where nobody else is at work,
the lock of the identity is gone from the table in the end.

* `LockTable.release_get`: a lock that nobody else has a handle of is taken out when it is handed
  back.
* `Workspaces.AtRest` is what the table of locks looks like between executions.
* `execute_gated`: the four ends of an execution.
-/

namespace TreeDigest

/-! ### Locks that nobody holds -/

namespace LockTable

variable {t : LockTable} {identity : String}

/-- A table of which no handle is out is sound when nobody calls. -/
lemma sound_of_idle (hhandles : t.handles = []) (htaken : t.taken = [])
    (hdistinct : ∀ i j lock, t.find? i = some lock → t.find? j = some lock → i = j)
    (hfresh : ∀ i lock, t.find? i = some lock → lock < t.next) : t.Sound [] where
  handles := .of_eq hhandles
  taken := .of_eq htaken
  exclusive := htaken ▸ List.nodup_nil
  tracked := by simp
  distinct := hdistinct
  fresh := hfresh

/-- A table of which no handle is out, without an identity. -/
def without (t : LockTable) (identity : String) (next : LockId) : LockTable :=
  ⟨next, t.tracked.filter fun e => e.1 != identity, [], []⟩

lemma find?_without (next : LockId) (j : String) :
    (t.without identity next).find? j = if j = identity then none else t.find? j :=
  lookup_filter_ne t.tracked identity j

/-- The lock of an identity is the one that is there, or a new one. -/
lemma get_eq (t : LockTable) (identity : String) :
    (∃ lock, t.find? identity = some lock ∧ t.get identity = (lock, t.addHandle lock))
      ∨ t.find? identity = none
        ∧ t.get identity = (t.next, (t.insertNew identity).addHandle t.next) := by
  rw [get]
  split
  · next lock t' hlook =>
      obtain ⟨hfind, rfl⟩ := lookUp_some hlook
      exact .inl ⟨lock, hfind, rfl⟩
  · next t' hlook =>
      obtain rfl := lookUp_none hlook
      exact t'.getOrInsert_eq identity

/-- The only handle of a lock is handed back. -/
lemma release_addHandle {lock : LockId} (hhandles : t.handles = []) (htaken : t.taken = [])
    (hfind : t.find? identity = some lock) :
    (((t.addHandle lock).tryTake lock).2.free lock).release identity lock
      = t.without identity t.next := by
  obtain ⟨next, tracked, handles, taken⟩ := t
  obtain rfl := hhandles
  obtain rfl := htaken
  have hlookup : tracked.lookup identity = some lock := hfind
  simp [addHandle, tryTake, free, release, drop, prune, find?, hlookup, without]

/-- **A lock that is taken and handed back by the only one who uses it** is taken out of the
table, also where it was there before. -/
lemma release_get (hs : t.Sound []) (identity : String) :
    ∃ next, t.next ≤ next
      ∧ (((t.get identity).2.tryTake (t.get identity).1).2.free (t.get identity).1).release identity
          (t.get identity).1 = t.without identity next := by
  have hhandles : t.handles = [] := hs.handles.eq_nil
  have htaken : t.taken = [] := hs.taken.eq_nil
  obtain ⟨lock, hfind, hget⟩ | ⟨-, hget⟩ := t.get_eq identity
  · rw [hget]
    exact ⟨t.next, le_rfl, release_addHandle hhandles htaken hfind⟩
  · have hnew : (t.insertNew identity).find? identity = some t.next := by
      rw [find?_insertNew, if_pos rfl]
    rw [hget]
    refine ⟨t.next + 1, Nat.le_succ _, ?_⟩
    rw [release_addHandle (t := t.insertNew identity) hhandles htaken hnew]
    simp [without, insertNew]

end LockTable

/-- Nobody works in the workspaces: no handle of a lock is out, and only identities that are
accepted were ever given one. -/
structure Workspaces.AtRest (w : Workspaces) : Prop where
  locks : w.locks.Sound []
  accepted : ∀ i lock, w.locks.find? i = some lock → Identity.validate i = .ok ()

namespace Workspaces.AtRest

variable {w w' : Workspaces} {identity : String}

lemma new (directory : Path) (history : Database) : (Workspaces.new directory history).AtRest where
  locks := LockTable.sound_empty []
  accepted := fun _ _ hlock => nomatch hlock

lemma untracked_of_refused {e : StorageError} (hw : w.AtRest)
    (hname : Identity.validate identity = .error e) : w.locks.find? identity = none := by
  cases hfind : w.locks.find? identity with
  | none => rfl
  | some lock =>
      rw [hw.accepted identity lock hfind] at hname
      cases hname

lemma without (hw : w.AtRest) {next : LockId} (hnext : w.locks.next ≤ next)
    (hlocks : w'.locks = w.locks.without identity next) : w'.AtRest := by
  have hsub : ∀ i lock, w'.locks.find? i = some lock → w.locks.find? i = some lock := by
    intro i lock hi
    rw [hlocks, LockTable.find?_without] at hi
    split at hi
    · cases hi
    · exact hi
  refine ⟨LockTable.sound_of_idle ?handles ?taken ?distinct ?fresh,
    fun i lock hi => hw.accepted i lock (hsub i lock hi)⟩
  case handles => rw [hlocks]; rfl
  case taken => rw [hlocks]; rfl
  case distinct =>
    exact fun i j lock hi hj => hw.locks.distinct i j lock (hsub i lock hi) (hsub j lock hj)
  case fresh =>
    intro i lock hi
    rw [hlocks]
    exact (hw.locks.fresh i lock (hsub i lock hi)).trans_le hnext

end Workspaces.AtRest

/-! ### The ends of an execution -/

namespace Execution

variable {α ε : Type}

/-- The outcome of an action, with the record of its run. -/
def Outcome.of (result : Except ε α) (r : Record) : Outcome α ε :=
  match result with
  | .ok value => .succeeded value r
  | .error error => .failed error r

variable (w : Workspaces) (h : Host) {identity : String} (input : Option Digest)
  (action : Action α ε)

/-- The work in a workspace leaves the locks. -/
lemma locks_unlessUpToDate (directory : Path) :
    (unlessUpToDate identity input action directory w h).2.1.locks = w.locks := by
  have hworked := ((Request.mk identity input action h).unlessUpToDate_eq w directory h).2
  simp only [hworked]

/-- The locks after an execution that was alone. -/
lemma exists_locks_execute (hw : w.AtRest) (hname : Identity.validate identity = .ok ()) :
    ∃ next, w.locks.next ≤ next
      ∧ (execute w h identity input action).2.1.locks = w.locks.without identity next := by
  have hlocks := Callers.locks_within w h (unlessUpToDate identity input action) hname
    fun directory w h => locks_unlessUpToDate w h input action directory
  obtain ⟨next, hnext, heq⟩ := LockTable.release_get hw.locks identity
  exact ⟨next, hnext, hlocks.trans heq⟩

/-- An execution whose workspace cannot be made. -/
lemma execute_of_unmade (hname : Identity.validate identity = .ok ()) {e : IoError}
    (hmade : (h.makeDirectories (w.directory.child identity)).1 = .error e) :
    let executed := execute w h identity input action
    executed.1 = .error (.io (.makingWorkspace (w.directory.child identity) e))
      ∧ executed.2.1.history = w.history
      ∧ executed.2.2 = (h.makeDirectories (w.directory.child identity)).2 := by
  rcases hmaking : h.makeDirectories (w.directory.child identity) with ⟨_ | _, h'⟩ <;>
    rw [hmaking] at hmade <;> cases hmade
  simp only [execute, Workspaces.within, Workspaces.directoryOf, hname, bind, Except.bind, pure,
    Except.pure, Workspaces.inDirectory, hmaking]
  exact ⟨trivial, trivial, trivial⟩

/-- An execution whose workspace is there does its work in it. -/
lemma execute_of_made (hname : Identity.validate identity = .ok ())
    (hmade : (h.makeDirectories (w.directory.child identity)).1 = .ok ()) :
    let executed := execute w h identity input action
    let ran := unlessUpToDate identity input action (w.directory.child identity)
      (w.entered identity) (h.makeDirectories (w.directory.child identity)).2
    executed.1 = ran.1 ∧ executed.2.1.history = ran.2.1.history ∧ executed.2.2 = ran.2.2 := by
  rcases hmaking : h.makeDirectories (w.directory.child identity) with ⟨_ | _, h'⟩ <;>
    rw [hmaking] at hmade <;> cases hmade
  simp only [execute, Workspaces.within, Workspaces.directoryOf, hname, bind, Except.bind, pure,
    Except.pure, Workspaces.inDirectory, hmaking]
  exact ⟨rfl, rfl, rfl⟩

/-- The work in a workspace whose last record cannot be read. -/
lemma unlessUpToDate_of_unreadable {e : HistoryError} (hload : w.history.load identity = .error e)
    (directory : Path) :
    unlessUpToDate identity input action directory w h = (.error (.history e), w, h) := by
  rw [unlessUpToDate, hload]

/-- The work in a workspace whose last record can be read: an old record, or a run. -/
lemma unlessUpToDate_of_readable {previous : Option Record}
    (hload : w.history.load identity = .ok previous) (directory : Path) :
    let ran := action identity directory h
    let r : Record := ⟨input, ran.2.now, ran.1.toBool⟩
    let worked := unlessUpToDate identity input action directory w h
    if (Decision.of previous input).isUpToDate then
      ∃ old, previous = some old ∧ worked = (.ok (.upToDate old), w, h)
    else worked.1 = .ok (.of ran.1 r) ∧ worked.2.1.history = w.history.store identity r
      ∧ worked.2.2 = worked.2.1.history.save ran.2 := by
  intro ran r worked
  have hrun : runAction identity input action directory w h
      = (.of ran.1 r, remember w ran.2 identity r) := by
    rcases hran : action identity directory h with ⟨_ | _, h'⟩ <;>
      simp only [runAction, hran, ran, r, Outcome.of, Except.toBool]
  cases hdecision : Decision.of previous input with
  | upToDate old =>
      obtain ⟨hprevious, -⟩ := of_eq_upToDate_iff.mp hdecision
      refine ⟨old, hprevious, ?_⟩
      simp only [worked, unlessUpToDate, hload, hdecision]
  | changed _ | noHistory =>
      simp only [worked, unlessUpToDate, hload, hdecision, hrun]
      exact ⟨trivial, rfl, rfl⟩

/-- An execution leaves the rows of other identities as they are. -/
lemma find?_execute_of_ne (identity : String) {j : String} (hj : j ≠ identity) :
    (execute w h identity input action).2.1.history.table.find? (Database.key j)
      = w.history.table.find? (Database.key j) := by
  have hkept : ∀ record : Option Record, (w.history.keep identity record).table.find?
      (Database.key j) = w.history.table.find? (Database.key j) := by
    intro record
    cases record with
    | none => rfl
    | some r => exact (Database.find?_store w.history identity j r).trans (if_neg hj)
  let q : Request α ε := ⟨identity, input, action, h⟩
  cases hname : Identity.validate identity with
  | error e =>
      rw [execute, Workspaces.within_of_refused w h _ hname]
  | ok _ =>
      have hhistory := (q.execute_of_accepted w hname).2.1
      exact (congrArg (·.table.find? (Database.key j)) hhistory).trans (hkept _)

/-- **An execution comes to its action only through four gates**, and at each of them it stops
with nothing done to the history. Where nobody else is at work:

* a refused identity is the answer, and all is as it was;
* a workspace that cannot be made is the answer, and so is a record that cannot be decoded;
* otherwise there is a record or none, and a check says what it decides. If the work is up to date,
  the old record is the answer; else the action runs, once and in the directory of its identity,
  and the record of its outcome is stored, and can be loaded if the time of it can be told.

In any case, the rows of other identities stay, and the lock of the identity is free and out of the
table. -/
theorem execute_gated (w : Workspaces) (hw : w.AtRest) (h : Host) (identity : String)
    (input : Option Snapshot) (action : Action α ε) :
    let digest := input.map Snapshot.digest
    let directory := w.directory.child identity
    let made := h.makeDirectories directory
    let stored := w.history.table.find? (Database.key identity)
    let executed := execute w h identity digest action
    let answer := executed.1
    let w' := executed.2.1
    let h' := executed.2.2
    (∀ e, Identity.validate identity = .error e →
        e = .invalidIdentity identity ∧ answer = .error e ∧ w' = w ∧ h' = h)
      ∧ (Identity.validate identity = .ok () → ∀ e, made.1 = .error e →
          answer = .error (.io (.makingWorkspace directory e)) ∧ w'.history = w.history
            ∧ h' = made.2)
      ∧ (Identity.validate identity = .ok () → made.1 = .ok () →
          ∀ bytes e, stored = some bytes → Record.decode bytes = .error e →
            answer = .error (.history (.undecodable e)) ∧ w'.history = w.history ∧ h' = made.2)
      ∧ (Identity.validate identity = .ok () → made.1 = .ok () →
          (∀ bytes, stored = some bytes → ∃ r, Record.decode bytes = .ok r) →
          ∃ decision, check w identity digest = .ok decision ∧
            let ran := action identity directory made.2
            let r : Record := ⟨digest, ran.2.now, ran.1.toBool⟩
            if decision.isUpToDate then
              ∃ old, w.history.load identity = .ok (some old) ∧ answer = .ok (.upToDate old)
                ∧ w'.history = w.history ∧ h' = made.2
            else
              answer = .ok (.of ran.1 r) ∧ w'.history = w.history.store identity r
                ∧ h' = w'.history.save ran.2
                ∧ (r.recordedAt.isValid → w'.history.load identity = .ok (some r)))
      ∧ (∀ j, j ≠ identity →
          w'.history.table.find? (Database.key j) = w.history.table.find? (Database.key j))
      ∧ w'.locks.find? identity = none ∧ w'.locks.taken = [] ∧ w'.AtRest := by
  intro digest directory made stored executed answer w' h'
  refine ⟨?refused, ?unmade, ?undecodable, ?decided, ?others, ?locks⟩
  case refused =>
    intro e hname
    have hexecuted : executed = (.error e, w, h) := Workspaces.within_of_refused w h _ hname
    have he : e = .invalidIdentity identity := by
      rw [Identity.validate] at hname
      split at hname
      · exact (Except.error.inj hname).symm
      · cases hname
    exact ⟨he, congrArg (·.1) hexecuted, congrArg (·.2.1) hexecuted, congrArg (·.2.2) hexecuted⟩
  case unmade => exact fun hname e hmade => execute_of_unmade w h digest action hname hmade
  case undecodable =>
    intro hname hmade bytes e hbytes hdecode
    have hload : w.history.load identity = .error (.undecodable e) :=
      Database.load_of_undecodable hbytes hdecode
    have hworked := execute_of_made w h digest action hname hmade
    rwa [unlessUpToDate_of_unreadable (w.entered identity) _ digest action hload] at hworked
  case decided =>
    intro hname hmade hdecodes
    obtain ⟨previous, hload⟩ : ∃ previous, w.history.load identity = .ok previous :=
      Database.exists_load hdecodes
    obtain ⟨hanswer, hhistory, hhost⟩ := execute_of_made w h digest action hname hmade
    have hends := unlessUpToDate_of_readable (w.entered identity) made.2 digest action hload
      directory
    refine ⟨_, check_eq hname hload digest, ?_⟩
    intro ran r
    split at hends
    · next hupToDate =>
        obtain ⟨old, rfl, heq⟩ := hends
        rw [if_pos hupToDate]
        exact ⟨old, hload, hanswer.trans (congrArg (·.1) heq),
          hhistory.trans (congrArg (·.2.1.history) heq), hhost.trans (congrArg (·.2.2) heq)⟩
    · next houtdated =>
        obtain ⟨hran, hstored, hsaved⟩ := hends
        have hkept : w'.history = w.history.store identity r := hhistory.trans hstored
        rw [if_neg houtdated]
        refine ⟨hanswer.trans hran, hkept, hhost.trans ?_, fun hvalid => ?_⟩
        · rw [hsaved, ← hhistory]
        · rw [hkept]
          exact Database.load_store_self hvalid w.history identity
  case others => exact fun j hj => find?_execute_of_ne w h digest action identity hj
  case locks =>
    cases hname : Identity.validate identity with
    | error e =>
        have hexecuted : executed = (.error e, w, h) := Workspaces.within_of_refused w h _ hname
        have hsame : w' = w := congrArg (·.2.1) hexecuted
        rw [hsame]
        exact ⟨hw.untracked_of_refused hname, hw.locks.taken.eq_nil, hw⟩
    | ok _ =>
        obtain ⟨next, hnext, hlocks⟩ := exists_locks_execute w h digest action hw hname
        have hgone : w'.locks.find? identity = none :=
          (congrArg (·.find? identity) hlocks).trans
            ((LockTable.find?_without next identity).trans (if_pos rfl))
        exact ⟨hgone, congrArg LockTable.taken hlocks, hw.without hnext hlocks⟩

/-- One identity at each of the gates, and one that comes to its action. Its lock was left in the
table. -/
theorem execute_gated_mixed :
    let r : Record := ⟨none, ⟨0, 0⟩, true⟩
    let h : Host := ⟨⟨[([119], .directory [([100], .file [] 0)])], []⟩, [], ⟨0, 0⟩, []⟩
    let history := Database.store ⟨none, HistoryTable.empty.put (Database.key "b") []⟩ "c" r
    let w : Workspaces := ⟨⟨[47, 119]⟩, history, ⟨1, [("a", 0)], [], []⟩⟩
    let action : Action Unit Unit := fun _ _ h => (.error (), h)
    w.AtRest
      ∧ (execute w h ".." none action).1 = .error (.invalidIdentity "..")
      ∧ (∃ e, (execute w h "d" none action).1
          = .error (.io (.makingWorkspace (w.directory.child "d") e)))
      ∧ (∃ e, (execute w h "b" none action).1 = .error (.history (.undecodable e)))
      ∧ (execute w h "c" none action).1 = .ok (.upToDate r)
      ∧ (execute w h "a" none action).1 = .ok (.failed () ⟨none, ⟨0, 0⟩, false⟩)
      ∧ (execute w h "a" none action).2.1.locks.find? "a" = none := by
  intro r h history w action
  have htracked : ∀ i lock, w.locks.find? i = some lock → i = "a" ∧ lock = 0 := by
    intro i lock hi
    by_cases ha : i = "a"
    · subst ha
      exact ⟨rfl, (Option.some.inj hi).symm⟩
    · simp [w, LockTable.find?, List.lookup_cons, beq_eq_false_iff_ne.mpr ha] at hi
  have hw : w.AtRest :=
    ⟨LockTable.sound_of_idle rfl rfl
      (fun i j lock hi hj => (htracked i lock hi).1.trans (htracked j lock hj).1.symm)
      (fun i lock hi => (htracked i lock hi).2 ▸ Nat.one_pos),
      fun i lock hi => (htracked i lock hi).1 ▸ rfl⟩
  have hmade : ∀ i ∈ ["a", "b", "c"],
      (h.makeDirectories (w.directory.child i)).1 = .ok () := by
    intro i hi
    fin_cases hi <;> cbv
  have hstored : w.history.table.find? (Database.key "b") = some [] := by
    rw [Database.find?_store, if_neg (by decide), HistoryTable.find?_put, if_pos rfl]
  have hempty : w.history.table.find? (Database.key "a") = none := by
    rw [Database.find?_store, if_neg (by decide), HistoryTable.find?_put, if_neg (by decide)]
    rfl
  have hload : w.history.load "c" = .ok (some r) := Database.load_store_self rfl _ "c"
  have hdecodes : ∀ bytes, w.history.table.find? (Database.key "c") = some bytes →
      ∃ r, Record.decode bytes = .ok r := by
    intro bytes hbytes
    rw [Database.find?_store, if_pos rfl] at hbytes
    obtain rfl := Option.some.inj hbytes
    have hdecode := Record.decode_encode (r := r) rfl []
    rw [List.append_nil] at hdecode
    exact ⟨r, hdecode⟩
  have hblocked : (h.makeDirectories (w.directory.child "d")).1 = .error .alreadyExists := by cbv
  obtain ⟨hrefused, -⟩ := execute_gated w hw h ".." none action
  obtain ⟨-, hunmade, -⟩ := execute_gated w hw h "d" none action
  obtain ⟨-, -, hundecodable, -⟩ := execute_gated w hw h "b" none action
  obtain ⟨-, -, -, hdecided, -⟩ := execute_gated w hw h "c" none action
  obtain ⟨-, -, -, hruns, -, hgone, -⟩ := execute_gated w hw h "a" none action
  refine ⟨hw, (hrefused _ rfl).2.1, ⟨_, (hunmade rfl _ hblocked).1⟩,
    ⟨_, (hundecodable rfl (hmade _ (by simp)) [] _ hstored rfl).1⟩, ?_, ?_, hgone⟩
  · obtain ⟨decision, hcheck, hend⟩ := hdecided rfl (hmade _ (by simp)) hdecodes
    obtain rfl := Except.ok.inj (hcheck.symm.trans (check_eq rfl hload none))
    obtain ⟨old, hold, hanswer, -⟩ := hend
    obtain rfl := Option.some.inj (Except.ok.inj (hold.symm.trans hload))
    exact hanswer
  · have hnew : w.history.load "a" = .ok none := by simp only [Database.load, hempty]
    obtain ⟨decision, hcheck, hend⟩ := hruns rfl (hmade _ (by simp)) fun bytes hbytes => by
      rw [hempty] at hbytes
      cases hbytes
    obtain rfl := Except.ok.inj (hcheck.symm.trans (check_eq rfl hnew none))
    exact hend.1

end Execution

end TreeDigest

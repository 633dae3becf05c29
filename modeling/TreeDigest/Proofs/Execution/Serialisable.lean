import TreeDigest.Proofs.Execution.Concurrent

/-!
Executions at the same time are like executions one after another.

A request settles when its answer is there and its record is stored. The positions that have settled
form an order, and the history is always what settling them in this order comes to; a request that
is between loading and storing can rely on what it has loaded, since nobody else is inside for its
identity. In each identity, the requests settle in the order in which they took the lock.

* `Crowd.Serial` is the invariant, `Serial.turn` the step and `serial_run` the run.
* `run_serialisable`: a finished run is like one in which the requests follow one another.
-/

namespace TreeDigest.Execution

variable {α ε : Type}

/-! ### The invariant -/

/-- What a stage says stays true as long as the last record of its identity does. -/
lemma Stage.Foretold.congr {q : Request α ε} {w w' : Workspaces} {stage : Stage α ε}
    (hstage : stage.Foretold q w) (hdirectory : w'.directory = w.directory)
    (hload : w'.history.load q.identity = w.history.load q.identity) : stage.Foretold q w' := by
  cases stage <;> simp only [Foretold, hdirectory, hload] at hstage ⊢ <;> exact hstage

namespace Job

variable {j : Job α ε} {w : Workspaces}

/-- A job that is open is inside its lock. -/
lemma IsOpen.inside (hopen : j.IsOpen) : j.call.inside?.isSome := by
  obtain ⟨request, phase, stage⟩ := j
  cases phase <;> first | rfl | exact hopen.elim

/-- A job that is not open does not run its action next. -/
lemma actsNext_of_not_isOpen (hclosed : ¬ j.IsOpen) : j.actsNext = false := by
  obtain ⟨request, phase, stage⟩ := j
  cases phase <;> try rfl
  cases stage <;> first | rfl | exact absurd rfl hclosed

end Job

section Lanes

variable {requests : List (Request α ε)} {q : Request α ε} {k : ℕ}

lemma lane_of_accepted (hq : requests[k]? = some q)
    (hname : Identity.validate q.identity = .ok ()) :
    lane requests k = .inl q.identity := by simp only [lane, hq, hname]

lemma lane_of_refused {e : StorageError} (hq : requests[k]? = some q)
    (hname : Identity.validate q.identity = .error e) : lane requests k = .inr k := by
  simp only [lane, hq, hname]

lemma lane_ne {identity identity' : String} (hk : lane requests k = .inl identity)
    (hne : identity' ≠ identity) : lane requests k ≠ .inl identity' := by
  rw [hk]
  exact fun h => hne (Sum.inl.inj h).symm

lemma filter_concat_of_eq {c : String ⊕ ℕ} (hk : lane requests k = c) (ks : List ℕ) :
    (ks ++ [k]).filter (lane requests · = c) = ks.filter (lane requests · = c) ++ [k] := by
  rw [List.filter_append, List.filter_cons_of_pos (by simpa using hk), List.filter_nil]

lemma filter_concat_of_ne {c : String ⊕ ℕ} (hk : lane requests k ≠ c) (ks : List ℕ) :
    (ks ++ [k]).filter (lane requests · = c) = ks.filter (lane requests · = c) := by
  rw [List.filter_append, List.filter_cons_of_neg (by simpa using hk), List.filter_nil,
    List.append_nil]

end Lanes

namespace Crowd

/-- What is known of the job at a position, given the order in which requests have settled. -/
structure Knows (requests : List (Request α ε)) (s : Crowd α ε) (log : List ℕ) (k : ℕ)
    (j : Job α ε) : Prop where
  coherent : j.IsCoherent
  foretold : j.IsOpen → j.stage.Foretold j.request s.workspaces
  opened : j.IsOpen → s.taken.filter (lane requests · = .inl j.request.identity)
    = log.filter (lane requests · = .inl j.request.identity) ++ [k]
  logged : k ∈ log ↔ j.stage.answer?.isSome
  acted : k ∈ s.acted ↔ j.stage.hasActed

/-- **The invariant**: the history and the answers are what settling the requests comes to, one
after the other in the order in which they have settled. In each identity this is the order in
which they took the lock, but for the one that is open. -/
structure Serial (w : Workspaces) (requests : List (Request α ε)) (s : Crowd α ε) (log : List ℕ) :
    Prop where
  directory : s.workspaces.directory = w.directory
  same : s.jobs.map Job.request = requests
  locks : s.workspaces.locks.Sound (s.jobs.map Job.call)
  books : Execution.books requests w.directory ⟨w.history, fun _ => none⟩ log
    = ⟨s.workspaces.history, s.answer?⟩
  nodup : log.Nodup
  lt : ∀ k ∈ log, k < requests.length
  actedOnce : s.acted.Nodup
  closed : ∀ identity, (∀ j ∈ s.jobs, j.request.identity = identity → ¬ j.IsOpen) →
    s.taken.filter (lane requests · = .inl identity) = log.filter (lane requests · = .inl identity)
  jobs : ∀ k j, s.jobs[k]? = some j → Knows requests s log k j

namespace Serial

variable {w : Workspaces} {requests : List (Request α ε)} {s : Crowd α ε} {log : List ℕ} {k : ℕ}
  {j j' : Job α ε}

lemma getElem?_requests (hs : Serial w requests s log) (hj : s.jobs[k]? = some j) :
    requests[k]? = some j.request := by
  rw [← hs.same, List.getElem?_map, hj, Option.map_some]

lemma getElem?_calls (hj : s.jobs[k]? = some j) : (s.jobs.map Job.call)[k]? = some j.call := by
  rw [List.getElem?_map, hj, Option.map_some]

/-- At most one job of an identity is open. -/
lemma position_eq {jobs : List (Job α ε)} {t : LockTable} (hlocks : t.Sound (jobs.map Job.call))
    {l : ℕ} {i : Job α ε} (hj : jobs[k]? = some j) (hi : jobs[l]? = some i) (hopen : j.IsOpen)
    (hopen' : i.IsOpen) (hidentity : i.request.identity = j.request.identity) : l = k := by
  refine (Callers.position_eq_of_identity (s := ⟨t, jobs.map Job.call⟩) hlocks
    (c := i.call) (d := j.call) ?_ ?_ hopen'.inside hopen.inside hidentity)
  · rw [List.getElem?_map, hi, Option.map_some]
  · rw [List.getElem?_map, hj, Option.map_some]

/-- Where a job is open, the other open ones are of other identities. -/
lemma identity_ne (hs : Serial w requests s log) (hj : s.jobs[k]? = some j) (hopen : j.IsOpen)
    {l : ℕ} {i : Job α ε} (hlk : l ≠ k) (hi : s.jobs[l]? = some i) (hiopen : i.IsOpen) :
    i.request.identity ≠ j.request.identity := fun hidentity =>
  hlk (position_eq hs.locks hj hi hopen hiopen hidentity)

/-- The jobs after a step are the one that has made it and the others. -/
lemma getElem?_set_cases {jobs : List (Job α ε)} {l : ℕ} {i : Job α ε}
    (hi : (jobs.set k j')[l]? = some i) : (l = k ∧ i = j') ∨ (l ≠ k ∧ jobs[l]? = some i) := by
  rw [List.getElem?_set] at hi
  split at hi
  · next hkl =>
      split at hi
      · exact .inl ⟨hkl.symm, (Option.some.inj hi).symm⟩
      · cases hi
  · next hkl => exact .inr ⟨Ne.symm hkl, hi⟩

/-- A job that makes a step stays the job of its request. -/
lemma requests_set (hs : Serial w requests s log) (hj : s.jobs[k]? = some j)
    (hrequest : j'.request = j.request) : (s.jobs.set k j').map Job.request = requests := by
  obtain ⟨hlt, rfl⟩ := List.getElem?_eq_some_iff.mp hj
  rw [List.map_set, hrequest, ← List.getElem_map Job.request (h := by simpa using hlt),
    List.set_getElem_self, hs.same]

/-- The answers after a step. -/
lemma answer?_set (hj : s.jobs[k]? = some j) (w : Workspaces) (taken acted : List ℕ) :
    answer? ⟨w, s.jobs.set k j', taken, acted⟩ = Function.update s.answer? k j'.stage.answer? := by
  obtain ⟨hlt, -⟩ := List.getElem?_eq_some_iff.mp hj
  funext l
  by_cases hl : l = k
  · subst hl
    rw [Function.update_self, answer?, List.getElem?_set_self hlt]
    rfl
  · rw [Function.update_of_ne hl, answer?, answer?, List.getElem?_set_ne (Ne.symm hl)]

/-- Where a job is not open, the others decide whether one of its identity is. -/
lemma not_isOpen_of_set (hj : s.jobs[k]? = some j) {identity : String}
    (hclosed : j.request.identity = identity → ¬ j.IsOpen)
    (hset : ∀ i ∈ s.jobs.set k j', i.request.identity = identity → ¬ i.IsOpen) :
    ∀ i ∈ s.jobs, i.request.identity = identity → ¬ i.IsOpen := by
  intro i hi
  obtain ⟨l, hl⟩ := List.mem_iff_getElem?.mp hi
  by_cases hlk : l = k
  · subst hlk
    obtain rfl := Option.some.inj (hj.symm.trans hl)
    exact hclosed
  · refine hset i (List.mem_of_getElem? (i := l) ?_)
    rwa [List.getElem?_set_ne (Ne.symm hlk)]

/-- A position that is written down for the first time. -/
lemma nodup_concat {ks : List ℕ} (hnodup : ks.Nodup) (hk : k ∉ ks) : (ks ++ [k]).Nodup :=
  List.nodup_append.mpr ⟨hnodup, List.nodup_singleton k, fun l hl m hm => by
    rw [List.mem_singleton.mp hm]
    rintro rfl
    exact hk hl⟩

/-- What has to be seen to for a step: that the others may go on as they were, and that the job
itself is where it should be. -/
lemma step (hs : Serial w requests s log) (hj : s.jobs[k]? = some j)
    {w' : Workspaces} {taken acted log' : List ℕ}
    (hrequest : j'.request = j.request)
    (hdirectory : w'.directory = s.workspaces.directory)
    (hlocks : w'.locks.Sound ((s.jobs.map Job.call).set k j'.call))
    (hbooks : Execution.books requests w.directory ⟨w.history, fun _ => none⟩ log'
      = ⟨w'.history, Function.update s.answer? k j'.stage.answer?⟩)
    (hlog : log' = log ∨ log' = log ++ [k] ∧ k ∉ log)
    (hacted : acted = s.acted ∨ acted = s.acted ++ [k] ∧ k ∉ s.acted)
    (hclosed : ∀ identity,
      (∀ i ∈ s.jobs.set k j', i.request.identity = identity → ¬ i.IsOpen) →
      taken.filter (lane requests · = .inl identity)
        = log'.filter (lane requests · = .inl identity))
    (hothers : ∀ l i, l ≠ k → s.jobs[l]? = some i → i.IsOpen →
      w'.history.load i.request.identity = s.workspaces.history.load i.request.identity
        ∧ taken.filter (lane requests · = .inl i.request.identity)
          = s.taken.filter (lane requests · = .inl i.request.identity)
        ∧ log'.filter (lane requests · = .inl i.request.identity)
          = log.filter (lane requests · = .inl i.request.identity))
    (hknows : Knows requests ⟨w', s.jobs.set k j', taken, acted⟩ log' k j') :
    Serial w requests ⟨w', s.jobs.set k j', taken, acted⟩ log' where
  directory := hdirectory.trans hs.directory
  same := hs.requests_set hj hrequest
  locks := by rwa [List.map_set]
  books := by rw [hbooks, answer?_set hj]
  nodup := by
    obtain rfl | ⟨rfl, hk⟩ := hlog
    · exact hs.nodup
    · exact nodup_concat hs.nodup hk
  lt := by
    obtain rfl | ⟨rfl, -⟩ := hlog
    · exact hs.lt
    · intro l hl
      obtain hl | hl := List.mem_append.mp hl
      · exact hs.lt l hl
      · rw [List.mem_singleton.mp hl]
        exact (List.getElem?_eq_some_iff.mp (hs.getElem?_requests hj)).1
  actedOnce := by
    obtain rfl | ⟨rfl, hk⟩ := hacted
    · exact hs.actedOnce
    · exact nodup_concat hs.actedOnce hk
  closed := hclosed
  jobs := by
    intro l i hi
    obtain ⟨rfl, rfl⟩ | ⟨hlk, hi⟩ := getElem?_set_cases hi
    · exact hknows
    · have hknown := hs.jobs l i hi
      have hothers := hothers l i hlk hi
      have hinlog : l ∈ log' ↔ l ∈ log := by
        obtain rfl | ⟨rfl, -⟩ := hlog <;> simp [hlk]
      have hinacted : l ∈ acted ↔ l ∈ s.acted := by
        obtain rfl | ⟨rfl, -⟩ := hacted <;> simp [hlk]
      exact {
        coherent := hknown.coherent
        foretold := fun hopen => (hknown.foretold hopen).congr hdirectory (hothers hopen).1
        opened := by
          intro hopen
          obtain ⟨-, htaken, hlogged⟩ := hothers hopen
          rw [htaken, hlogged]
          exact hknown.opened hopen
        logged := hinlog.trans hknown.logged
        acted := hinacted.trans hknown.acted }

/-- The books where the answers are the ones there were. -/
lemma books_update (hs : Serial w requests s log) (hj : s.jobs[k]? = some j)
    (hanswer : j'.stage.answer? = j.stage.answer?) :
    Execution.books requests w.directory ⟨w.history, fun _ => none⟩ log
      = ⟨s.workspaces.history, Function.update s.answer? k j'.stage.answer?⟩ := by
  have hsame : j'.stage.answer? = s.answer? k := by
    rw [hanswer, answer?, hj, Option.bind_some]
  rw [hs.books, hsame, Function.update_eq_self]

/-- The books after the next request has settled. -/
lemma books_concat (hs : Serial w requests s log) (hj : s.jobs[k]? = some j) :
    Execution.books requests w.directory ⟨w.history, fun _ => none⟩ (log ++ [k])
      = ⟨(j.request.settle s.workspaces.directory s.workspaces.history).2,
        Function.update s.answer? k
          (some (j.request.settle s.workspaces.directory s.workspaces.history).1)⟩ := by
  have hbooks := hs.books
  rw [Execution.books] at hbooks ⊢
  rw [List.foldl_concat, hbooks, Books.settle, hs.getElem?_requests hj, hs.directory]

/-- A refused identity is told. -/
lemma refuse (hs : Serial w requests s log) (hj : s.jobs[k]? = some j) {e : StorageError}
    (hphase : j.phase = .start) (hstage : j.stage = .entered)
    (hname : Identity.validate j.request.identity = .error e) :
    Serial w requests
      ⟨s.workspaces, s.jobs.set k { j with phase := .done, stage := .settled (.error e) },
        s.taken, s.acted⟩ (log ++ [k]) := by
  have hknows := hs.jobs k j hj
  have hlane : ∀ identity, lane requests k ≠ .inl identity := by
    intro identity
    rw [lane_of_refused (hs.getElem?_requests hj) hname]
    exact Sum.inr_ne_inl
  have hk : k ∉ log := by rw [hknows.logged, hstage]; exact Bool.false_ne_true
  have hclosed : ¬ j.IsOpen := by rw [Job.IsOpen, hphase]; exact id
  refine hs.step hj rfl rfl ?locks ?books (.inr ⟨rfl, hk⟩) (.inl rfl) ?closed ?others ?knows
  case locks =>
    have hcall : (s.jobs.map Job.call)[k]? = some ⟨j.request.identity, .start⟩ := by
      rw [getElem?_calls hj, Job.call, hphase]
    exact hs.locks.set hcall fun hfront => hfront.move rfl rfl rfl
  case books =>
    rw [hs.books_concat hj]
    simp only [Request.settle, hname]
    rfl
  case closed =>
    intro identity hset
    rw [filter_concat_of_ne (hlane identity)]
    exact hs.closed identity (not_isOpen_of_set hj (fun _ => hclosed) hset)
  case others =>
    intro l i _ _ _
    exact ⟨rfl, rfl, filter_concat_of_ne (hlane _) log⟩
  case knows => exact {
    coherent := rfl
    foretold := fun hopen => hopen.elim
    opened := fun hopen => hopen.elim
    logged := iff_of_true (by simp) rfl
    acted := by
      rw [hknows.acted, hstage]
      rfl }

/-- A job goes on with its lock without taking it. -/
lemma move (hs : Serial w requests s log) (hj : s.jobs[k]? = some j) {c : Call} {locks : LockTable}
    (hstep : j.call.step? s.workspaces.locks = some (c, locks)) (hclosed : ¬ j.IsOpen)
    (hclosed' : ¬ Job.IsOpen { j with phase := c.phase })
    (hcoherent : Job.IsCoherent { j with phase := c.phase }) :
    Serial w requests
      ⟨{ s.workspaces with locks := locks }, s.jobs.set k { j with phase := c.phase },
      s.taken, s.acted⟩ log := by
  have hknows := hs.jobs k j hj
  refine hs.step hj rfl rfl ?locks ?books (.inl rfl) (.inl rfl) ?closed ?others ?knows
  case locks =>
    have hc : Job.call { j with phase := c.phase } = c := by
      rw [Job.call, show j.request.identity = c.identity from (Call.identity_of_step? hstep).symm]
    rw [hc]
    exact hs.locks.set (getElem?_calls hj) fun hfront => hfront.step hstep
  case books => exact hs.books_update hj rfl
  case closed =>
    intro identity hset
    exact hs.closed identity (not_isOpen_of_set hj (fun _ => hclosed) hset)
  case others => exact fun _ _ _ _ _ => ⟨rfl, rfl, rfl⟩
  case knows => exact {
    coherent := hcoherent
    foretold := fun hopen => absurd hopen hclosed'
    opened := fun hopen => absurd hopen hclosed'
    logged := hknows.logged
    acted := hknows.acted }

/-- **A job takes its lock**: no other job of its identity is open, so all that have taken it have
settled. -/
lemma take (hs : Serial w requests s log) (hj : s.jobs[k]? = some j) {lock : LockId}
    {locks : LockTable} (hphase : j.phase = .waiting lock) (hstage : j.stage = .entered)
    (haccepted : j.IsAccepted)
    (hstep : j.call.step? s.workspaces.locks = some (⟨j.request.identity, .locked lock⟩, locks)) :
    Serial w requests ⟨{ s.workspaces with locks := locks },
      s.jobs.set k { j with phase := .locked lock }, s.taken ++ [k], s.acted⟩ log := by
  have hknows := hs.jobs k j hj
  have hlane : lane requests k = .inl j.request.identity :=
    lane_of_accepted (hs.getElem?_requests hj) haccepted
  have hclosed : ¬ j.IsOpen := by rw [Job.IsOpen, hphase]; exact id
  have hopen : Job.IsOpen { j with phase := .locked lock } := by
    rw [Job.IsOpen, hstage]
    rfl
  have hlt : k < s.jobs.length := (List.getElem?_eq_some_iff.mp hj).1
  have hlocks : locks.Sound ((s.jobs.map Job.call).set k ⟨j.request.identity, .locked lock⟩) :=
    hs.locks.set (getElem?_calls hj) fun hfront => hfront.step hstep
  -- Any other open job is one of another identity.
  have hothers : ∀ l i, l ≠ k → s.jobs[l]? = some i → i.IsOpen →
      i.request.identity ≠ j.request.identity := by
    intro l i hlk hi hiopen hidentity
    have hset : locks.Sound ((s.jobs.set k { j with phase := .locked lock }).map Job.call) := by
      rwa [List.map_set]
    refine hlk (position_eq hset (List.getElem?_set_self hlt) ?_ hopen hiopen hidentity)
    rwa [List.getElem?_set_ne (Ne.symm hlk)]
  refine hs.step hj rfl rfl hlocks ?books (.inl rfl) (.inl rfl) ?closed ?others ?knows
  case books => exact hs.books_update hj rfl
  case closed =>
    intro identity hset
    have hne : identity ≠ j.request.identity := fun h =>
      hset _ (List.mem_set hlt _) h.symm hopen
    rw [filter_concat_of_ne (lane_ne hlane hne)]
    exact hs.closed identity (not_isOpen_of_set hj (fun _ => hclosed) hset)
  case others =>
    intro l i hlk hi hiopen
    have hne := hothers l i hlk hi hiopen
    exact ⟨rfl, filter_concat_of_ne (lane_ne hlane hne) s.taken, rfl⟩
  case knows => exact {
    coherent := haccepted
    foretold := fun _ => by rw [hstage]; trivial
    opened := by
      intro _
      rw [filter_concat_of_eq hlane, hs.closed j.request.identity]
      intro i hi hidentity hiopen
      obtain ⟨l, hl⟩ := List.mem_iff_getElem?.mp hi
      by_cases hlk : l = k
      · subst hlk
        obtain rfl := Option.some.inj (hj.symm.trans hl)
        exact hclosed hiopen
      · exact hothers l i hlk hl hiopen hidentity
    logged := hknows.logged
    acted := hknows.acted }

/-- **A job settles inside its lock**, with the answer that was foretold: it is the next one in its
identity. -/
lemma settle (hs : Serial w requests s log) (hj : s.jobs[k]? = some j) {lock : LockId}
    {answer : Except StorageError (Outcome α ε)} {acted : List ℕ} (hphase : j.phase = .locked lock)
    (haccepted : j.IsAccepted) (hopen : j.IsOpen)
    (hanswer : answer = j.request.answer s.workspaces.directory
      (s.workspaces.history.load j.request.identity))
    (hacted : acted = s.acted ∨ acted = s.acted ++ [k] ∧ k ∉ s.acted)
    (hinacted : k ∈ acted ↔ (Stage.settled answer).hasActed) :
    Serial w requests
      ⟨{ s.workspaces with
          history := s.workspaces.history.keep j.request.identity (stored? answer) },
        s.jobs.set k { j with stage := .settled answer }, s.taken, acted⟩ (log ++ [k]) := by
  have hknows := hs.jobs k j hj
  have hlane : lane requests k = .inl j.request.identity :=
    lane_of_accepted (hs.getElem?_requests hj) haccepted
  have hunanswered : j.stage.answer? = none := by rwa [Job.IsOpen, hphase] at hopen
  have hk : k ∉ log := by rw [hknows.logged, hunanswered]; exact Bool.false_ne_true
  have hclosed : ¬ Job.IsOpen { j with stage := .settled answer } := by
    rw [Job.IsOpen, hphase]
    exact Option.some_ne_none answer
  refine hs.step hj rfl rfl ?locks ?books (.inr ⟨rfl, hk⟩) hacted ?closed ?others ?knows
  case locks => exact hs.locks.set (getElem?_calls hj) id
  case books =>
    have hname : Identity.validate j.request.identity = .ok () := haccepted
    rw [hs.books_concat hj]
    simp only [Request.settle, hname, ← hanswer]
    rfl
  case closed =>
    intro identity hset
    by_cases hidentity : identity = j.request.identity
    · subst hidentity
      rw [filter_concat_of_eq hlane]
      exact hknows.opened hopen
    · rw [filter_concat_of_ne (lane_ne hlane hidentity)]
      exact hs.closed identity (not_isOpen_of_set hj (fun h => absurd h.symm hidentity) hset)
  case others =>
    intro l i hlk hi hiopen
    have hne := hs.identity_ne hj hopen hlk hi hiopen
    exact ⟨Database.load_keep_of_ne hne _ _, rfl, filter_concat_of_ne (lane_ne hlane hne) log⟩
  case knows => exact {
    coherent := by
      rw [Job.IsCoherent, hphase]
      exact haccepted
    foretold := fun h => absurd h hclosed
    opened := fun h => absurd h hclosed
    logged := iff_of_true (by simp) rfl
    acted := hinacted }

/-- A job goes on inside its lock, to a stage that has no answer yet. -/
lemma goOn (hs : Serial w requests s log) (hj : s.jobs[k]? = some j) {lock : LockId}
    {stage : Stage α ε} {acted : List ℕ} (hphase : j.phase = .locked lock)
    (haccepted : j.IsAccepted) (hopen : j.IsOpen) (hnone : stage.answer? = none)
    (hforetold : stage.Foretold j.request s.workspaces)
    (hacted : acted = s.acted ∨ acted = s.acted ++ [k] ∧ k ∉ s.acted)
    (hinacted : k ∈ acted ↔ stage.hasActed) :
    Serial w requests ⟨s.workspaces, s.jobs.set k { j with stage := stage }, s.taken, acted⟩
      log := by
  have hknows := hs.jobs k j hj
  have hlt : k < s.jobs.length := (List.getElem?_eq_some_iff.mp hj).1
  have hanswer : stage.answer? = j.stage.answer? := by
    rw [hnone, show j.stage.answer? = none by rwa [Job.IsOpen, hphase] at hopen]
  refine hs.step hj rfl rfl ?locks ?books (.inl rfl) hacted ?closed ?others ?knows
  case locks => exact hs.locks.set (getElem?_calls hj) id
  case books => exact hs.books_update hj hanswer
  case closed =>
    intro identity hset
    have hopen' : Job.IsOpen { j with stage := stage } := by
      rw [Job.IsOpen, hphase]
      exact hnone
    have hne : j.request.identity ≠ identity := fun h =>
      hset _ (List.mem_set hlt _) h hopen'
    exact hs.closed identity (not_isOpen_of_set hj (fun h => absurd h hne) hset)
  case others => exact fun _ _ _ _ _ => ⟨rfl, rfl, rfl⟩
  case knows => exact {
    coherent := by
      rw [Job.IsCoherent, hphase]
      exact haccepted
    foretold := fun _ => hforetold.congr rfl rfl
    opened := fun _ => hknows.opened hopen
    logged := by rw [hknows.logged, hanswer]
    acted := hinacted }

/-- **A job works inside its lock**: it settles with the answer that was foretold, or it goes
on. -/
lemma work (hs : Serial w requests s log) (hj : s.jobs[k]? = some j) {lock : LockId}
    {stage : Stage α ε} {history : Database} (hphase : j.phase = .locked lock)
    (haccepted : j.IsAccepted) (hopen : j.IsOpen)
    (hstep : Stage.Step j.request s.workspaces j.stage stage history) :
    ∃ log', Serial w requests
      ⟨{ s.workspaces with history := history }, s.jobs.set k { j with stage := stage }, s.taken,
        if j.actsNext then s.acted ++ [k] else s.acted⟩ log' := by
  have hknows := hs.jobs k j hj
  have hforetold := hknows.foretold hopen
  have hacts : j.actsNext = j.stage.actsNext := by rw [Job.actsNext, hphase]
  have hacted : (if j.actsNext then s.acted ++ [k] else s.acted) = s.acted
      ∨ (if j.actsNext then s.acted ++ [k] else s.acted) = s.acted ++ [k] ∧ k ∉ s.acted := by
    split
    · next hnext =>
        refine .inr ⟨rfl, ?_⟩
        rw [hknows.acted, Stage.hasActed_of_actsNext (hacts ▸ hnext)]
        exact Bool.false_ne_true
    · exact .inl rfl
  have hinacted : (k ∈ if j.actsNext then s.acted ++ [k] else s.acted) ↔ stage.hasActed := by
    rw [hstep.hasActed hforetold, ← hacts, Bool.or_eq_true, ← hknows.acted]
    split <;> simp_all
  obtain ⟨answer, rfl, hanswer, rfl⟩ | ⟨hnone, hnext, rfl⟩ := hstep.foretold hforetold
  · exact ⟨_, hs.settle hj hphase haccepted hopen hanswer hacted hinacted⟩
  · exact ⟨_, hs.goOn hj hphase haccepted hopen hnone hnext hacted hinacted⟩

/-- **A turn keeps the invariant.** -/
theorem turn (hs : Serial w requests s log) (position : ℕ) :
    ∃ log', Serial w requests (s.turn position) log' := by
  rw [Crowd.turn]
  split
  · exact ⟨log, hs⟩
  · next j hj =>
      split
      · exact ⟨log, hs⟩
      · next j' w' hstep =>
          cases Job.step_of_step? (hs.jobs position j hj).coherent hstep with
          | refuse hphase hstage hname =>
              have htakes : j.takesNext = false := by rw [Job.takesNext, hphase]
              have hacts : j.actsNext = false := by rw [Job.actsNext, hphase]
              rw [htakes, hacts]
              exact ⟨_, hs.refuse hj hphase hstage hname⟩
          | move hmove htakes hclosed hclosed' hcoherent =>
              rw [htakes, Job.actsNext_of_not_isOpen hclosed]
              exact ⟨_, hs.move hj hmove hclosed hclosed' hcoherent⟩
          | take hphase hstage haccepted hmove =>
              have htakes : j.takesNext = true := by rw [Job.takesNext, hphase]
              have hacts : j.actsNext = false := by rw [Job.actsNext, hphase]
              rw [htakes, hacts]
              exact ⟨_, hs.take hj hphase hstage haccepted hmove⟩
          | work hphase haccepted hopen hnext =>
              have htakes : j.takesNext = false := by rw [Job.takesNext, hphase]
              rw [htakes]
              exact hs.work hj hphase haccepted hopen hnext

end Serial

variable {w : Workspaces} {requests : List (Request α ε)} {s : Crowd α ε} {log : List ℕ}

/-- **The invariant holds in every run.** -/
theorem serial_run (hs : Serial w requests s log) (schedule : List ℕ) :
    ∃ log', Serial w requests (s.run schedule) log' := by
  induction schedule generalizing s log with
  | nil => exact ⟨log, hs⟩
  | cons position schedule ih =>
      obtain ⟨log', hs'⟩ := hs.turn position
      exact ih hs'

/-- The invariant holds before anything has been done. -/
lemma serial_start (hlocks : w.locks = .empty) (requests : List (Request α ε)) :
    Serial w requests (start w requests) [] := by
  have hjobs : ∀ (k : ℕ) (j : Job α ε), (start w requests).jobs[k]? = some j →
      j.phase = .start ∧ j.stage = .entered := by
    intro k j hj
    obtain ⟨q, -, rfl⟩ := List.mem_map.mp (List.mem_of_getElem? hj)
    exact ⟨rfl, rfl⟩
  exact {
    directory := rfl
    same := by
      rw [start, List.map_map]
      exact List.map_id requests
    locks := by
      have hcalls : (start w requests).jobs.map Job.call
          = (requests.map Request.identity).map fun i => ⟨i, .start⟩ := by
        rw [start, List.map_map, List.map_map]
        rfl
      rw [hcalls]
      exact hlocks ▸ LockTable.sound_empty _
    books := by
      refine congrArg (Books.mk w.history) (funext fun k => ?_)
      rw [answer?]
      cases hj : (start w requests).jobs[k]? with
      | none => rfl
      | some j => rw [Option.bind_some, (hjobs k j hj).2]; rfl
    nodup := List.nodup_nil
    lt := fun _ hk => nomatch hk
    actedOnce := List.nodup_nil
    closed := fun _ _ => rfl
    jobs := by
      intro k j hj
      obtain ⟨hphase, hstage⟩ := hjobs k j hj
      have hclosed : ¬ j.IsOpen := by rw [Job.IsOpen, hphase]; exact id
      exact {
        coherent := by rw [Job.IsCoherent, hphase]; exact hstage
        foretold := fun h => absurd h hclosed
        opened := fun h => absurd h hclosed
        logged := by rw [hstage]; exact iff_of_false List.not_mem_nil Bool.false_ne_true
        acted := by rw [hstage]; exact iff_of_false List.not_mem_nil Bool.false_ne_true } }

/-! ### Finished runs -/

namespace Serial

/-- In the end all have settled. -/
lemma isSome_of_isDone (hs : Serial w requests s log) (hdone : s.IsDone) {k : ℕ} {j : Job α ε}
    (hj : s.jobs[k]? = some j) : j.stage.answer?.isSome := by
  have hcoherent := (hs.jobs k j hj).coherent
  rwa [Job.IsCoherent, hdone j (List.mem_of_getElem? hj)] at hcoherent

/-- Where there is an answer, it tells whether the action has run. -/
lemma mem_acted_iff (hs : Serial w requests s log) {k : ℕ}
    {answer : Except StorageError (Outcome α ε)} (hanswer : s.answer? k = some answer) :
    k ∈ s.acted ↔ (stored? answer).isSome := by
  obtain ⟨j, hj, hstage⟩ := Option.bind_eq_some_iff.mp hanswer
  rw [(hs.jobs k j hj).acted]
  cases hstage' : j.stage with
  | settled answer' =>
      rw [hstage'] at hstage
      rw [Option.some.inj hstage]
      rfl
  | _ => rw [hstage'] at hstage; cases hstage

/-- In the end, the order in which the requests have settled is one of all of them, and it is the
one in which they took their locks. -/
lemma isOrder (hs : Serial w requests s log) (hdone : s.IsDone) : s.IsOrder requests log := by
  refine ⟨?_, fun identity => ?_⟩
  · refine (List.perm_ext_iff_of_nodup hs.nodup List.nodup_range).mpr fun k => ?_
    rw [List.mem_range]
    refine ⟨hs.lt k, fun hk => ?_⟩
    have hlt : k < s.jobs.length := by
      have hlength := congrArg List.length hs.same
      rw [List.length_map] at hlength
      rwa [hlength]
    exact (hs.jobs k _ (List.getElem?_eq_getElem hlt)).logged.mpr
      (hs.isSome_of_isDone hdone (List.getElem?_eq_getElem hlt))
  · refine (hs.closed identity fun j hj _ => ?_).symm
    rw [Job.IsOpen, hdone j hj]
    exact id

end Serial

/-- Orders of one run are the same lane by lane. -/
lemma IsOrder.filter_eq {order order' : List ℕ} (ho : s.IsOrder requests order)
    (ho' : s.IsOrder requests order') (c : String ⊕ ℕ) :
    order.filter (lane requests · = c) = order'.filter (lane requests · = c) := by
  cases c with
  | inl identity => rw [ho.2, ho'.2]
  | inr k =>
      -- Only one position is in the lane of a refused request.
      have hlane : ∀ l, lane requests l = .inr k → l = k := by
        intro l hl
        rw [lane] at hl
        split at hl
        · exact Sum.inr.inj hl
        · split at hl
          · exact Sum.inr.inj hl
          · cases hl
      have hperm : (order.filter (lane requests · = .inr k)).Perm
          (order'.filter (lane requests · = .inr k)) := (ho.1.trans ho'.1.symm).filter _
      have hconstant : ∀ l ∈ order.filter (lane requests · = .inr k), l = k := by
        intro l hl
        exact hlane l (by simpa using (List.mem_filter.mp hl).2)
      rw [List.eq_replicate_of_mem hconstant] at hperm ⊢
      exact List.replicate_perm.mp hperm

/-- **Executions at the same time are like executions one after the other**: when all are done,
whatever the schedule was,

* there is an order of the requests in which those of each identity stand as they took its lock;
* in every such order, carrying the requests out one after the other gives their answers, runs the
  actions that have run, and leaves the same history;
* no action has run twice;
* if the requests of an identity have one digest and succeeding actions, and the work was not up to
  date, then one of them has run, and all others are up to date with its record. -/
theorem run_serialisable {w : Workspaces} (hlocks : w.locks = .empty)
    (requests : List (Request α ε))
    (schedule : List ℕ) (hdone : ((start w requests).run schedule).IsDone) :
    let s : Crowd α ε := (start w requests).run schedule
    (∃ order, s.IsOrder requests order)
      ∧ (∀ order, s.IsOrder requests order →
        let served := serve w (order.filterMap (requests[·]?))
        order.map s.answer? = served.1.map some
          ∧ order.map (fun k => decide (k ∈ s.acted)) = served.1.map (fun a => (stored? a).isSome)
          ∧ s.workspaces.history = served.2.history)
      ∧ s.acted.Nodup
      ∧ ∀ identity digest previous, w.history.load identity = .ok previous →
          (Decision.of previous digest).isUpToDate = false →
          (∀ q ∈ requests, q.identity = identity → q.Succeeds w.directory digest) →
          (∃ k, IsAt requests identity k) →
          ∃ k, IsAt requests identity k ∧ ∃ value r,
            s.answer? k = some (.ok (.succeeded value r)) ∧ k ∈ s.acted
              ∧ ∀ l, IsAt requests identity l → l ≠ k →
                s.answer? l = some (.ok (.upToDate r)) ∧ l ∉ s.acted := by
  intro s
  obtain ⟨log, hs⟩ := serial_run (serial_start hlocks requests) schedule
  have horder : s.IsOrder requests log := hs.isOrder hdone
  have hmem : ∀ k, k ∈ log ↔ k < requests.length := fun k => by
    rw [horder.1.mem_iff, List.mem_range]
  refine ⟨⟨log, horder⟩, ?orders, hs.actedOnce, ?group⟩
  case orders =>
    intro order ho served
    have hlt : ∀ k ∈ order, k < requests.length := fun k hk => by
      rwa [ho.1.mem_iff, List.mem_range] at hk
    have hbooks : books requests w.directory ⟨w.history, fun _ => none⟩ order
        = ⟨s.workspaces.history, s.answer?⟩ := (books_eq (ho.filter_eq horder) _).trans hs.books
    obtain ⟨hanswers, hhistory⟩ := serve_order (w := w) (b := ⟨w.history, fun _ => none⟩) rfl
      (ho.1.nodup_iff.mpr List.nodup_range) hlt
    rw [hbooks] at hanswers hhistory
    refine ⟨hanswers, ?_, hhistory⟩
    -- An action has run exactly if the answer carries a new record.
    have hacted : ∀ k ∈ order, decide (k ∈ s.acted) = ((s.answer? k).bind stored?).isSome := by
      intro k hk
      have hanswer : s.answer? k ∈ served.1.map some := hanswers ▸ List.mem_map_of_mem hk
      obtain ⟨answer, -, heq⟩ := List.mem_map.mp hanswer
      rw [← heq, Option.bind_some, Bool.eq_iff_iff, decide_eq_true_iff]
      exact hs.mem_acted_iff heq.symm
    calc order.map (fun k => decide (k ∈ s.acted))
        = (order.map s.answer?).map (fun a => (a.bind stored?).isSome) := by
          rw [List.map_map]
          exact List.map_congr_left hacted
      _ = served.1.map (fun a => (stored? a).isSome) := by
          rw [hanswers, List.map_map]
          rfl
  case group =>
    intro identity digest previous hload hprevious hrequests hexists
    obtain ⟨k, hk, hat, value, r, hruns, hothers⟩ := exists_runner
      (b := ⟨w.history, fun _ => none⟩) hrequests hload hprevious hs.nodup <| by
        obtain ⟨k, hat⟩ := hexists
        obtain ⟨q, hq, -⟩ := id hat
        exact ⟨k, (hmem k).mpr (List.getElem?_eq_some_iff.mp hq).1, hat⟩
    rw [hs.books] at hruns hothers
    refine ⟨k, hat, value, r, hruns, (hs.mem_acted_iff hruns).mpr rfl, fun l hat' hne => ?_⟩
    obtain ⟨q, hq, -⟩ := id hat'
    have hupToDate := hothers l ((hmem l).mpr (List.getElem?_eq_some_iff.mp hq).1) hat' hne
    refine ⟨hupToDate, fun hl => ?_⟩
    cases (hs.mem_acted_iff hupToDate).mp hl

end Crowd

/-! ### A run of four requests -/

/-- Two requests of one identity, one of another that fails, and a refused one. -/
def sampleRequests : List (Request Unit Unit) := [
  ⟨"a", none, fun _ _ h => (.ok (), h), bareHost⟩,
  ⟨"a", none, fun _ _ h => (.ok (), h), bareHost⟩,
  ⟨"b", none, fun _ _ h => (.error (), h), bareHost⟩,
  ⟨"", none, fun _ _ h => (.ok (), h), bareHost⟩]

/-- They take turns. -/
def sampleSchedule : List ℕ := (List.replicate 20 [1, 0, 2, 3]).flatten

lemma isDone_sample :
    ((Crowd.start sampleWorkspaces sampleRequests).run sampleSchedule).IsDone := by
  have hphases : ((Crowd.start sampleWorkspaces sampleRequests).run sampleSchedule).jobs.map
      Job.phase = [.done, .done, .done, .done] := by cbv
  intro j hj
  have hmem := List.mem_map_of_mem (f := Job.phase) hj
  rw [hphases] at hmem
  simpa using hmem

lemma succeeds_sample : ∀ q ∈ sampleRequests, q.identity = "a" →
    q.Succeeds sampleWorkspaces.directory none := by
  have hsucceeds :
      Request.Succeeds (⟨"a", none, fun _ _ h => (.ok (), h), bareHost⟩ : Request Unit Unit)
      sampleWorkspaces.directory none := ⟨rfl, rfl, made_a, (), _, rfl, rfl⟩
  intro q hq hidentity
  simp only [sampleRequests, List.mem_cons, List.not_mem_nil, or_false] at hq
  obtain rfl | rfl | rfl | rfl := hq
  · exact hsucceeds
  · exact hsucceeds
  · exact absurd hidentity (by decide)
  · exact absurd hidentity (by decide)

/-- One of the two requests of the first identity has run, and the other one is up to date. -/
theorem run_serialisable_mixed :
    let s : Crowd Unit Unit := (Crowd.start sampleWorkspaces sampleRequests).run sampleSchedule
    sampleWorkspaces.locks = .empty ∧ s.IsDone ∧ (∃ order, s.IsOrder sampleRequests order)
      ∧ ∃ k, IsAt sampleRequests "a" k ∧ ∃ r,
        s.answer? k = some (.ok (.succeeded () r))
          ∧ ∀ l, IsAt sampleRequests "a" l → l ≠ k → s.answer? l = some (.ok (.upToDate r)) := by
  intro s
  obtain ⟨horder, -, -, hgroup⟩ :=
    Crowd.run_serialisable (w := sampleWorkspaces) rfl sampleRequests sampleSchedule isDone_sample
  obtain ⟨k, hk, value, r, hruns, -, hothers⟩ :=
    hgroup "a" none none rfl rfl succeeds_sample ⟨0, _, rfl, rfl⟩
  exact ⟨rfl, isDone_sample, horder, k, hk, r, hruns, fun l hl hne => (hothers l hl hne).1⟩

end TreeDigest.Execution

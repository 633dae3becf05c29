import TreeDigest.Proofs.Execution.Request
import TreeDigest.Snapshot.Basic

/-!
What a check answers after any number of operations.

Operations follow one another: executions, records, checks and removals, each of some identity and
on a machine of its own. What they do to the history is written down in a journal, which is read
off their answers. The history then is nothing but the last entry of each identity: a step writes
the entry of its operation and leaves the other identities, and a run adds up the steps.

* `Turn.perform` carries an operation out, `run` all of them, and `journal` is what they did.
* `Turn.due` is the entry that an operation ought to make; `effect?_eq_due` says that it does.
* `load_run` reads the last record off the journal.
* `check_run`: what a check answers in the end.
-/

namespace TreeDigest.Execution

variable {α ε : Type}

/-! ### Operations -/

/-- An operation on the records of an identity. -/
inductive Operation (α ε : Type) where
  | execute (identity : String) (input : Option Snapshot) (action : Action α ε)
  | record (identity : String) (input : Option Snapshot)
  | check (identity : String) (input : Option Snapshot)
  | remove (identity : String)

/-- The identity that an operation is about. -/
def Operation.identity : Operation α ε → String
  | .execute identity _ _ | .record identity _ | .check identity _ | .remove identity => identity

/-- The digest that an operation compares or records. -/
def Operation.digest : Operation α ε → Option Digest
  | .execute _ input _ | .record _ input | .check _ input => input.map Snapshot.digest
  | .remove _ => none

/-- What an operation answers. -/
inductive Answer (α ε : Type) where
  | executed (answer : Except StorageError (Outcome α ε))
  | recorded (answer : Except StorageError Record)
  | checked (answer : Except StorageError Decision)
  | removed (known : Bool)

/-- An operation whose turn it is, and the machine as it finds it. -/
structure Turn (α ε : Type) where
  operation : Operation α ε
  host : Host

/-- A request to run work on an input. -/
def requestFor (identity : String) (input : Option Snapshot) (action : Action α ε) (h : Host) :
    Request α ε := ⟨identity, input.map Snapshot.digest, action, h⟩

namespace Turn

/-- The identity that the operation is about. -/
abbrev identity (t : Turn α ε) : String := t.operation.identity

/-- Carries an operation out. -/
def perform (t : Turn α ε) (w : Workspaces) : Answer α ε × Workspaces :=
  match t.operation with
  | .execute identity input action =>
    let (answer, w) := (requestFor identity input action t.host).execute w
    (.executed answer, w)
  | .record identity input =>
    match Execution.record w t.host identity (input.map Snapshot.digest) with
    | .ok (r, w, _) => (.recorded (.ok r), w)
    | .error e => (.recorded (.error e), w)
  | .check identity input => (.checked (Execution.check w identity (input.map Snapshot.digest)), w)
  | .remove identity =>
    let (known, history) := w.history.remove identity
    (.removed known, { w with history := history })

end Turn

/-- The workspaces after operations, one after the other. -/
def run (w : Workspaces) (turns : List (Turn α ε)) : Workspaces :=
  turns.foldl (fun w t => (t.perform w).2) w

/-! ### What operations do to the history -/

/-- What is done to the last record of an identity. -/
inductive Entry where
  | wrote (record : Record)
  | removed
  deriving DecidableEq

/-- The last record after an entry. -/
def Entry.record? : Entry → Option Record
  | .wrote r => some r
  | .removed => none

/-- What an answer says that has been done. -/
def Answer.effect? : Answer α ε → Option Entry
  | .executed answer => (stored? answer).map .wrote
  | .recorded answer => answer.toOption.map .wrote
  | .checked _ => none
  | .removed _ => some .removed

/-- What an operation does, by its answer. -/
def Turn.effect? (t : Turn α ε) (w : Workspaces) : Option Entry := (t.perform w).1.effect?

/-- What operations do, in order, each with the identity that it is done to. -/
def journal (w : Workspaces) : List (Turn α ε) → List (String × Entry)
  | [] => []
  | t :: turns => (t.effect? w).toList.map (t.identity, ·) ++ journal (t.perform w).2 turns

/-- The record is the last one of an identity: it was written, and nothing was done to the identity
after that. -/
def IsLast (log : List (String × Entry)) (identity : String) (r : Record) : Prop :=
  ∃ before after, log = before ++ (identity, .wrote r) :: after ∧ ∀ e ∈ after, e.1 ≠ identity

/-- No record of an identity was written, or all were removed. -/
def IsForgotten (log : List (String × Entry)) (identity : String) : Prop :=
  ∀ before r after, log = before ++ (identity, .wrote r) :: after → (identity, .removed) ∈ after

/-- What an operation ought to do, told whether the work is up to date at its turn. -/
def Turn.due (t : Turn α ε) (directory : Path) (upToDate : Bool) : Option Entry :=
  match t.operation with
  | .execute identity input action =>
    if upToDate then none
    else
      let q := requestFor identity input action t.host
      let made := t.host.makeDirectories (q.workplace directory)
      some (.wrote (q.newRecord (q.workplace directory) made.2))
  | .record _ input => some (.wrote ⟨input.map Snapshot.digest, t.host.now, true⟩)
  | .check _ _ => none
  | .remove _ => some .removed

/-- The operation is one on an accepted identity, its workspace can be made, and the time of the
record that it may write can be told. -/
def Turn.Regular (t : Turn α ε) (directory : Path) : Prop :=
  Identity.validate t.identity = .ok ()
    ∧ match t.operation with
      | .execute identity input action =>
        let q := requestFor identity input action t.host
        let made := t.host.makeDirectories (q.workplace directory)
        made.1 = .ok () ∧ (q.newRecord (q.workplace directory) made.2).recordedAt.isValid = true
      | .record _ _ => t.host.now.isValid = true
      | _ => True

/-! ### One operation -/

/-- The history after an entry. -/
def enter (d : Database) (identity : String) : Option Entry → Database
  | none => d
  | some (.wrote r) => d.store identity r
  | some .removed => (d.remove identity).2

namespace Turn

variable {t : Turn α ε} {w w' : Workspaces}

/-- **An operation does to the history what its answer says**, and leaves the directory. -/
lemma perform_eq (hname : Identity.validate t.identity = .ok ()) (w : Workspaces) :
    (t.perform w).2.history = enter w.history t.identity (t.effect? w)
      ∧ (t.perform w).2.directory = w.directory := by
  obtain ⟨operation, host⟩ := t
  cases operation with
  | execute identity input action =>
      obtain ⟨hanswer, hhistory, hdirectory⟩ :=
        (requestFor identity input action host).execute_of_accepted w hname
      simp only [perform, effect?, Answer.effect?, hanswer, hhistory, hdirectory]
      refine ⟨?_, trivial⟩
      cases stored? _ <;> rfl
  | record identity input =>
      have hname : Identity.validate identity = .ok () := hname
      simp only [perform, effect?, Execution.record, hname, bind, Except.bind, pure, Except.pure]
      exact ⟨rfl, rfl⟩
  | check identity input => exact ⟨rfl, rfl⟩
  | remove identity => exact ⟨rfl, rfl⟩

/-- What an accepted execution does, by its answer. -/
lemma effect?_execute {identity : String} {input : Option Snapshot} {action : Action α ε}
    {host : Host}
    (hname : Identity.validate identity = .ok ()) (w : Workspaces) :
    effect? ⟨.execute identity input action, host⟩ w
      = (stored? ((requestFor identity input action host).answer w.directory
          (w.history.load identity))).map .wrote := by
  obtain ⟨hanswer, -⟩ := (requestFor identity input action host).execute_of_accepted w hname
  simp only [effect?, perform, Answer.effect?, hanswer]
  rfl

lemma effect?_record {identity : String} {input : Option Snapshot} {host : Host}
    (hname : Identity.validate identity = .ok ()) (w : Workspaces) :
    effect? (⟨.record identity input, host⟩ : Turn α ε) w
      = some (.wrote ⟨input.map Snapshot.digest, host.now, true⟩) := by
  simp only [effect?, perform, Execution.record, hname, bind, Except.bind, pure, Except.pure]
  rfl

/-- What an operation does depends only on the last record of its identity. -/
lemma effect?_congr (hname : Identity.validate t.identity = .ok ())
    (hdirectory : w.directory = w'.directory)
    (hload : w.history.load t.identity = w'.history.load t.identity) :
    t.effect? w = t.effect? w' := by
  obtain ⟨operation, host⟩ := t
  cases operation with
  | execute identity input action =>
      have hname : Identity.validate identity = .ok () := hname
      have hload : w.history.load identity = w'.history.load identity := hload
      rw [effect?_execute hname, effect?_execute hname, hdirectory, hload]
  | record identity input =>
      have hname : Identity.validate identity = .ok () := hname
      rw [effect?_record hname, effect?_record hname]
  | check identity input => rfl
  | remove identity => rfl

/-- **An operation does what it ought to.** -/
lemma effect?_eq_due (hregular : t.Regular w.directory) {previous : Option Record}
    (hload : w.history.load t.identity = .ok previous) :
    t.effect? w = t.due w.directory (Decision.of previous t.operation.digest).isUpToDate := by
  obtain ⟨operation, host⟩ := t
  obtain ⟨hname, hregular⟩ := hregular
  cases operation with
  | execute identity input action =>
      have hload : w.history.load identity = .ok previous := hload
      have hname : Identity.validate identity = .ok () := hname
      rw [effect?_execute hname, hload]
      obtain ⟨r, hdecision, hanswer⟩ | ⟨hdecision, hanswer⟩ :=
        (requestFor identity input action host).answer_of_made hregular.1 previous
      · simp only [requestFor] at hdecision
        simp only [hanswer, due, Operation.digest, hdecision]
        rfl
      · simp only [requestFor] at hdecision
        simp only [hanswer, due, Operation.digest, hdecision, stored?, Except.toOption,
          Option.bind_some, Request.stored?_carriedOut]
        rfl
  | record identity input => exact effect?_record hname w
  | check identity input => rfl
  | remove identity => rfl

/-- A regular operation writes only records whose time can be told. -/
lemma isValid_of_due {directory : Path} (hregular : t.Regular directory) {upToDate : Bool}
    {r : Record}
    (hdue : t.due directory upToDate = some (.wrote r)) : r.recordedAt.isValid = true := by
  obtain ⟨operation, host⟩ := t
  obtain ⟨-, hregular⟩ := hregular
  cases operation with
  | execute identity input action =>
      simp only [due] at hdue
      split at hdue
      · cases hdue
      · obtain rfl := Entry.wrote.inj (Option.some.inj hdue)
        exact hregular.2
  | record identity input =>
      obtain rfl := Entry.wrote.inj (Option.some.inj hdue)
      exact hregular
  | check identity input => cases hdue
  | remove identity => cases hdue

end Turn

/-- Entries of an identity leave the records of the others. -/
lemma load_enter_of_ne {d : Database} {i j : String} (hne : j ≠ i) (entry : Option Entry) :
    (enter d i entry).load j = d.load j := by
  match entry with
  | none => rfl
  | some (.wrote r) => exact Database.load_store_of_ne hne d r
  | some .removed => exact (Database.load_remove d i j).trans (if_neg hne)

/-- **The last record after an entry** is the one that it wrote, if its time can be told. -/
lemma load_enter_self {d : Database} {i : String} {entry : Entry}
    (hvalid : ∀ r, entry = .wrote r → r.recordedAt.isValid = true) :
    (enter d i (some entry)).load i = .ok entry.record? := by
  cases entry with
  | wrote r => exact Database.load_store_self (hvalid r rfl) d i
  | removed => exact (Database.load_remove d i i).trans (if_pos rfl)

/-- After an entry the last record is the same if it was the same before. -/
lemma load_enter_congr {d e : Database} {i : String} (hload : d.load i = e.load i)
    (entry : Option Entry) : (enter d i entry).load i = (enter e i entry).load i := by
  match entry with
  | none => exact hload
  | some (.wrote r) =>
      refine Database.load_congr ?_
      rw [enter, enter, Database.find?_store, Database.find?_store, if_pos rfl, if_pos rfl]
  | some .removed =>
      rw [enter, enter, Database.load_remove, Database.load_remove, if_pos rfl, if_pos rfl]

/-! ### The journal -/

/-- The last record of an identity after the entries of a journal. -/
def standing (identity : String) (previous : Option Record) (log : List (String × Entry)) :
    Option Record :=
  log.foldl (fun r e => if e.1 = identity then e.2.record? else r) previous

lemma standing_append (identity : String) (previous : Option Record)
    (log rest : List (String × Entry)) :
    standing identity previous (log ++ rest)
      = standing identity (standing identity previous log) rest := List.foldl_append

/-- Entries of other identities do not count. -/
lemma standing_of_ne {identity : String} {log : List (String × Entry)}
    (hne : ∀ e ∈ log, e.1 ≠ identity) (previous : Option Record) :
    standing identity previous log = previous := by
  induction log with
  | nil => rfl
  | cons e log ih =>
      rw [standing, List.foldl_cons, if_neg (hne e List.mem_cons_self)]
      exact ih fun e he => hne e (List.mem_cons_of_mem _ he)

/-- Where the entries of an identity end. -/
lemma exists_last_entry (identity : String) (log : List (String × Entry)) :
    (∀ e ∈ log, e.1 ≠ identity)
      ∨ ∃ before entry after, log = before ++ (identity, entry) :: after
        ∧ ∀ e ∈ after, e.1 ≠ identity := by
  induction log with
  | nil => exact .inl fun _ he => nomatch he
  | cons e log ih =>
      obtain hnone | ⟨before, entry, after, rfl, hafter⟩ := ih
      · by_cases he : e.1 = identity
        · exact .inr ⟨[], e.2, log, by rw [← he]; rfl, hnone⟩
        · refine .inl fun e' he' => ?_
          obtain rfl | he' := List.mem_cons.mp he'
          · exact he
          · exact hnone e' he'
      · exact .inr ⟨e :: before, entry, after, rfl, hafter⟩

/-- What stands in the end is what the last entry says. -/
lemma standing_of_last {identity : String} {entry : Entry} {before after : List (String × Entry)}
    (hafter : ∀ e ∈ after, e.1 ≠ identity) (previous : Option Record) :
    standing identity previous (before ++ (identity, entry) :: after) = entry.record? := by
  rw [standing_append, standing, List.foldl_cons, if_pos rfl]
  exact standing_of_ne hafter _

/-- **A record stands if it is the last one.** -/
lemma standing_eq_some_iff {identity : String} {log : List (String × Entry)} {r : Record} :
    standing identity none log = some r ↔ IsLast log identity r := by
  constructor
  · intro hstanding
    obtain hnone | ⟨before, entry, after, rfl, hafter⟩ := exists_last_entry identity log
    · rw [standing_of_ne hnone] at hstanding
      cases hstanding
    · rw [standing_of_last hafter] at hstanding
      cases entry with
      | wrote r' =>
          obtain rfl := Option.some.inj hstanding
          exact ⟨before, after, rfl, hafter⟩
      | removed => cases hstanding
  · rintro ⟨before, after, rfl, hafter⟩
    exact standing_of_last hafter none

/-- **No record stands if all were removed.** -/
lemma standing_eq_none_iff {identity : String} {log : List (String × Entry)} :
    standing identity none log = none ↔ IsForgotten log identity := by
  constructor
  · intro hstanding before r after hlog
    -- After the record, the last entry of the identity can only be a removal.
    obtain hnone | ⟨before', entry, after', rfl, hafter⟩ := exists_last_entry identity after
    · rw [hlog, standing_of_last hnone] at hstanding
      cases hstanding
    · rw [hlog, ← List.cons_append, ← List.append_assoc, standing_of_last hafter] at hstanding
      cases entry with
      | wrote r' => cases hstanding
      | removed => simp
  · intro hforgotten
    by_contra hstanding
    obtain ⟨r, hr⟩ := Option.ne_none_iff_exists'.mp hstanding
    obtain ⟨before, after, hlog, hafter⟩ := standing_eq_some_iff.mp hr
    exact hafter _ (hforgotten before r after hlog) rfl

/-! ### Runs -/

variable {w w' : Workspaces} {turns : List (Turn α ε)}

lemma run_cons (w : Workspaces) (t : Turn α ε) (turns : List (Turn α ε)) :
    run w (t :: turns) = run (t.perform w).2 turns := rfl

/-- Runs leave the directory of the workspaces. -/
lemma directory_run (haccepted : ∀ t ∈ turns, Identity.validate t.identity = .ok ())
    (w : Workspaces) :
    (run w turns).directory = w.directory := by
  induction turns generalizing w with
  | nil => rfl
  | cons t turns ih =>
      rw [run_cons, ih fun t ht => haccepted t (List.mem_cons_of_mem _ ht)]
      exact (Turn.perform_eq (haccepted t List.mem_cons_self) w).2

/-- **The last record of an identity after a run** is the one that stands in the journal. -/
theorem load_run (hregular : ∀ t ∈ turns, t.Regular w.directory)
    {previous : String → Option Record} (hload : ∀ i, w.history.load i = .ok (previous i))
    (i : String) :
    (run w turns).history.load i = .ok (standing i (previous i) (journal w turns)) := by
  induction turns generalizing w previous with
  | nil => exact hload i
  | cons t turns ih =>
      have ht : t.Regular w.directory := hregular t List.mem_cons_self
      obtain ⟨hhistory, hdirectory⟩ := Turn.perform_eq ht.1 w
      -- The records after the first operation.
      have hnext : ∀ j, (t.perform w).2.history.load j
          = .ok (standing j (previous j) ((t.effect? w).toList.map (t.identity, ·))) := by
        intro j
        rw [hhistory]
        have hdue := Turn.effect?_eq_due ht (hload t.identity)
        cases hentry : t.effect? w with
        | none => exact hload j
        | some entry =>
            by_cases hj : j = t.identity
            · subst hj
              rw [load_enter_self fun r hr => Turn.isValid_of_due ht (hdue ▸ hr ▸ hentry)]
              exact congrArg Except.ok (if_pos rfl).symm
            · rw [load_enter_of_ne hj, hload j]
              exact congrArg Except.ok (if_neg (Ne.symm hj)).symm
      have hrest : ∀ t' ∈ turns, t'.Regular (t.perform w).2.directory := by
        rw [hdirectory]
        exact fun t' ht' => hregular t' (List.mem_cons_of_mem _ ht')
      rw [run_cons, ih hrest hnext, journal, standing_append]

/-- **Operations on other identities can be left out**: they do not change the last record. -/
theorem load_run_filter (haccepted : ∀ t ∈ turns, Identity.validate t.identity = .ok ())
    (i : String) (hdirectory : w.directory = w'.directory)
    (hload : w.history.load i = w'.history.load i) :
    (run w turns).history.load i
      = (run w' (turns.filter fun t => t.identity = i)).history.load i := by
  induction turns generalizing w w' with
  | nil => exact hload
  | cons t turns ih =>
      have ht := haccepted t List.mem_cons_self
      have hrest := fun t' ht' => haccepted t' (List.mem_cons_of_mem _ ht')
      obtain ⟨hhistory, hdirectory'⟩ := Turn.perform_eq ht w
      by_cases hi : t.identity = i
      · obtain ⟨hhistory', hdirectory''⟩ := Turn.perform_eq ht w'
        rw [List.filter_cons_of_pos (by simpa using hi), run_cons, run_cons]
        refine ih hrest (by rw [hdirectory', hdirectory'', hdirectory]) ?_
        have hentry := Turn.effect?_congr ht hdirectory (hi ▸ hload)
        rw [hhistory, hhistory', hentry, hi]
        exact load_enter_congr hload _
      · rw [List.filter_cons_of_neg (by simpa using hi), run_cons]
        refine ih hrest (hdirectory'.trans hdirectory) ?_
        rw [hhistory, load_enter_of_ne (Ne.symm hi), hload]

/-! ### Checks -/

/-- A check compares the digest with the last record. -/
lemma check_eq {identity : String} (hname : Identity.validate identity = .ok ())
    {previous : Option Record} (hload : w.history.load identity = .ok previous)
    (digest : Option Digest) : check w identity digest = .ok (.of previous digest) := by
  simp only [check, hname, hload, bind, Except.bind]
  rfl

/-- A check answers the same if the last record is the same. -/
lemma check_congr {identity : String} (hload : w.history.load identity = w'.history.load identity)
    (digest : Option Digest) : check w identity digest = check w' identity digest := by
  rw [check, check, hload]

lemma of_eq_noHistory_iff {previous : Option Record} {digest : Option Digest} :
    Decision.of previous digest = .noHistory ↔ previous = none := by
  cases previous <;> grind [Decision.of]

lemma of_eq_upToDate_iff {previous : Option Record} {digest : Option Digest} {r : Record} :
    Decision.of previous digest = .upToDate r
      ↔ previous = some r ∧ (r.successful ∧ r.digest = digest) := by
  cases previous <;> grind [Decision.of]

lemma of_eq_changed_iff {previous : Option Record} {digest : Option Digest} {r : Record} :
    Decision.of previous digest = .changed r
      ↔ previous = some r ∧ ¬ (r.successful ∧ r.digest = digest) := by
  cases previous <;> grind [Decision.of]

/-- A check says that the work need not run. -/
def saysUpToDate (answer : Except StorageError Decision) : Bool :=
  match answer with
  | .ok decision => decision.isUpToDate
  | .error _ => false

/-- **What a check answers after any number of operations** on accepted identities, starting from an
empty history:

* there is no history exactly if no record was written, or all were removed;
* the work is up to date with a record exactly if it is the last one, of a success and of the same
  digest, an absent input being the same as an absent one only;
* it has changed since a record exactly if that is the last one, and the work is not up to date;
* operations on other identities make no difference;
* a record is written only by a recording, with the digest of its input, and by an execution that
  was not up to date at its turn, with the outcome of its action. -/
theorem check_run {w : Workspaces} (hempty : w.history.table = .empty) {turns : List (Turn α ε)}
    (hregular : ∀ t ∈ turns, t.Regular w.directory) {identity : String}
    (hname : Identity.validate identity = .ok ()) (input : Option Snapshot) :
    let digest := input.map Snapshot.digest
    let log := journal w turns
    let answer := check (run w turns) identity digest
    (answer = .ok .noHistory ↔ IsForgotten log identity)
      ∧ (∀ r, answer = .ok (.upToDate r)
          ↔ IsLast log identity r ∧ (r.successful ∧ r.digest = digest))
      ∧ (∀ r, answer = .ok (.changed r)
          ↔ IsLast log identity r ∧ ¬ (r.successful ∧ r.digest = digest))
      ∧ answer = check (run w (turns.filter fun t => t.identity = identity)) identity digest
      ∧ ∀ before t after, turns = before ++ t :: after →
          t.effect? (run w before)
            = t.due w.directory
                (saysUpToDate (check (run w before) t.identity t.operation.digest)) := by
  intro digest log answer
  have haccepted : ∀ t ∈ turns, Identity.validate t.identity = .ok () :=
    fun t ht => (hregular t ht).1
  have hstart : ∀ i, w.history.load i = .ok ((fun _ => none : String → Option Record) i) := by
    intro i
    rw [Database.load, hempty]
    rfl
  have hanswer : answer = .ok (.of (standing identity none log) digest) :=
    check_eq hname (load_run hregular hstart identity) digest
  refine ⟨?forgotten, ?upToDate, ?changed, ?others, ?written⟩
  case forgotten =>
    rw [hanswer, Except.ok.injEq, of_eq_noHistory_iff, standing_eq_none_iff]
  case upToDate =>
    intro r
    rw [hanswer, Except.ok.injEq, of_eq_upToDate_iff, standing_eq_some_iff]
  case changed =>
    intro r
    rw [hanswer, Except.ok.injEq, of_eq_changed_iff, standing_eq_some_iff]
  case others => exact check_congr (load_run_filter haccepted identity rfl rfl) digest
  case written =>
    rintro before t after rfl
    have hbefore : ∀ t ∈ before, t.Regular w.directory := fun t ht =>
      hregular t (List.mem_append_left _ ht)
    have ht : t.Regular w.directory := hregular t (by simp)
    have hload := load_run hbefore hstart t.identity
    have hdirectory : (run w before).directory = w.directory :=
      directory_run (fun t ht => (hbefore t ht).1) w
    rw [check_eq ht.1 hload]
    exact hdirectory ▸ Turn.effect?_eq_due (hdirectory.symm ▸ ht) hload

/-! ### A run of five operations -/

/-- A file of no bytes. -/
def sampleInput : Snapshot := .leaf ⟨⟨"/r", "r", .direct⟩, .replicate 7, .file ⟨0, 0⟩⟩

/-- One identity is executed twice with success, one fails, and one is recorded and removed. -/
def sampleTurns : List (Turn Unit Unit) := [
  ⟨.execute "a" (some sampleInput) fun _ _ h => (.ok (), h), bareHost⟩,
  ⟨.execute "a" (some sampleInput) fun _ _ h => (.error (), h), bareHost⟩,
  ⟨.execute "b" none fun _ _ h => (.error (), h), bareHost⟩,
  ⟨.record "c" none, bareHost⟩,
  ⟨.remove "c", bareHost⟩]

lemma regular_sampleTurns : ∀ t ∈ sampleTurns, t.Regular sampleWorkspaces.directory := by
  have ha := made_a
  have hb : (bareHost.makeDirectories (sampleWorkspaces.directory.child "b")).1 = .ok () := by cbv
  intro t ht
  simp only [sampleTurns, List.mem_cons, List.not_mem_nil, or_false] at ht
  obtain rfl | rfl | rfl | rfl | rfl := ht
  · exact ⟨rfl, ha, rfl⟩
  · exact ⟨rfl, ha, rfl⟩
  · exact ⟨rfl, hb, rfl⟩
  · exact ⟨rfl, rfl⟩
  · exact ⟨rfl, trivial⟩

lemma journal_sampleTurns : journal sampleWorkspaces sampleTurns
    = [("a", .wrote ⟨some (.replicate 7), ⟨0, 0⟩, true⟩), ("b", .wrote ⟨none, ⟨0, 0⟩, false⟩),
      ("c", .wrote ⟨none, ⟨0, 0⟩, true⟩), ("c", .removed)] := by cbv

/-- The first identity is up to date, the second has to run again, and the third is unknown. -/
theorem check_run_mixed :
    let w := run sampleWorkspaces sampleTurns
    (∀ t ∈ sampleTurns, t.Regular sampleWorkspaces.directory)
      ∧ check w "a" (some sampleInput.digest)
          = .ok (.upToDate ⟨some (.replicate 7), ⟨0, 0⟩, true⟩)
      ∧ check w "b" none = .ok (.changed ⟨none, ⟨0, 0⟩, false⟩)
      ∧ check w "c" none = .ok .noHistory := by
  have hregular := regular_sampleTurns
  have hlog := journal_sampleTurns
  have ha : Identity.validate "a" = .ok () := rfl
  have hb : Identity.validate "b" = .ok () := rfl
  have hc : Identity.validate "c" = .ok () := rfl
  obtain ⟨-, hupToDate, -⟩ := check_run (w := sampleWorkspaces) rfl hregular ha (some sampleInput)
  obtain ⟨-, -, hchanged, -⟩ := check_run (w := sampleWorkspaces) rfl hregular hb none
  obtain ⟨hforgotten, -⟩ := check_run (w := sampleWorkspaces) rfl hregular hc none
  refine ⟨hregular, (hupToDate _).mpr ⟨?_, rfl, rfl⟩, (hchanged _).mpr ⟨?_, by simp⟩,
    hforgotten.mpr ?_⟩
  · exact ⟨[], _, hlog, by decide⟩
  · exact ⟨[_], _, hlog, by decide⟩
  · rw [← standing_eq_none_iff, hlog]
    rfl

end TreeDigest.Execution

import TreeDigest.Proofs.Execution.Request

/-!
Executions one after another.

Requests are kept in a list, and an order is a list of positions in it. What an order comes to are
books: the history, and the answer of each position. Requests of different identities can change
places, since each depends on and changes the record of its own identity only. So the books of two
orders are the same as soon as each identity has its requests in the same order.

* `serve` carries requests out with `Request.execute`, and `books` settles positions; `serve_order`
  says that both are the same.
* `foldl_eq_of_filter_eq`: steps that commute if their keys differ may be put in any order that is
  the same key by key.
* `books_eq` is this for requests.
* `exists_runner`: of requests of one identity with one digest, one runs.
-/

namespace TreeDigest

namespace Database

/-- Keeping a record of an identity leaves the others. -/
lemma load_keep_of_ne {i j : String} (hne : j ≠ i) (d : Database) (record : Option Record) :
    (d.keep i record).load j = d.load j := by
  cases record with
  | none => rfl
  | some r => exact load_store_of_ne hne d r

/-- Records of different identities can be kept in either order. -/
lemma keep_comm {i j : String} (hne : i ≠ j) (d : Database) (r s : Option Record) :
    (d.keep j s).keep i r = (d.keep i r).keep j s := by
  cases r with
  | none => rfl
  | some r => cases s with
    | none => rfl
    | some s => exact store_comm d hne r s

end Database

/-! ### Steps that commute -/

section Commuting

variable {σ ι κ : Type*} {f : σ → ι → σ} {key : ι → κ}

/-- A step may be made first if no step before it has its key. -/
lemma foldl_concat_of_ne (hcomm : ∀ a b x, key a ≠ key b → f (f x a) b = f (f x b) a)
    {b : ι} {as : List ι} (hne : ∀ a ∈ as, key a ≠ key b) (x : σ) :
    f (as.foldl f x) b = as.foldl f (f x b) := by
  induction as generalizing x with
  | nil => rfl
  | cons a as ih =>
      rw [List.foldl_cons, List.foldl_cons, ih (fun c hc => hne c (List.mem_cons_of_mem _ hc)),
        hcomm a b x (hne a List.mem_cons_self)]

/-- **Steps that commute if their keys differ** come to the same in two orders that are the same
key by key. -/
theorem foldl_eq_of_filter_eq [DecidableEq κ]
    (hcomm : ∀ a b x, key a ≠ key b → f (f x a) b = f (f x b) a) {as bs : List ι}
    (hfilter : ∀ k, as.filter (key · = k) = bs.filter (key · = k)) (x : σ) :
    as.foldl f x = bs.foldl f x := by
  induction as generalizing bs x with
  | nil =>
      cases bs with
      | nil => rfl
      | cons b bs => simpa using hfilter (key b)
  | cons a as ih =>
      -- The step comes first among those of its key, so it may be made first of all.
      have hkey := hfilter (key a)
      rw [List.filter_cons_of_pos (by simp), eq_comm, List.filter_eq_cons_iff] at hkey
      obtain ⟨before, after, rfl, hbefore, -, hafter⟩ := hkey
      have hne : ∀ b ∈ before, key b ≠ key a := fun b hb => by simpa using hbefore b hb
      have hrest : ∀ k, as.filter (key · = k) = (before ++ after).filter (key · = k) := by
        intro k
        by_cases hk : key a = k
        · subst hk
          have hnone : before.filter (key · = key a) = [] :=
            List.filter_eq_nil_iff.mpr fun b hb => by simpa using hne b hb
          rw [List.filter_append, hnone, hafter]
          rfl
        · have := hfilter k
          rwa [List.filter_cons_of_neg (by simpa using hk), List.filter_append,
            List.filter_cons_of_neg (by simpa using hk), ← List.filter_append] at this
      rw [List.foldl_cons, ih hrest, List.foldl_append, List.foldl_append, List.foldl_cons,
        foldl_concat_of_ne hcomm hne]

end Commuting

namespace Execution

variable {α ε : Type}

/-! ### Requests one after another -/

/-- Carries requests out one after another: their answers, and the workspaces after them. -/
def serve (w : Workspaces) :
    List (Request α ε) → List (Except StorageError (Outcome α ε)) × Workspaces
  | [] => ([], w)
  | q :: requests =>
    let (answer, w) := q.execute w
    let (answers, w) := serve w requests
    (answer :: answers, w)

/-- What a request answers, and the history after it. -/
def Request.settle (q : Request α ε) (directory : Path) (d : Database) :
    Except StorageError (Outcome α ε) × Database :=
  match Identity.validate q.identity with
  | .error e => (.error e, d)
  | .ok () =>
    let answer := q.answer directory (d.load q.identity)
    (answer, d.keep q.identity (stored? answer))

/-- An execution settles its request. -/
lemma Request.execute_eq_settle (q : Request α ε) (w : Workspaces) :
    (q.execute w).1 = (q.settle w.directory w.history).1
      ∧ (q.execute w).2.history = (q.settle w.directory w.history).2
      ∧ (q.execute w).2.directory = w.directory := by
  cases hname : Identity.validate q.identity with
  | error e =>
      simp only [settle, hname, q.execute_of_refused w hname]
      exact ⟨trivial, trivial, trivial⟩
  | ok _ =>
      simp only [settle, hname]
      exact q.execute_of_accepted w hname

/-- The history, and the answer of each position that has one. -/
structure Books (α ε : Type) where
  history : Database
  answers : ℕ → Option (Except StorageError (Outcome α ε))

variable (requests : List (Request α ε)) (directory : Path)

/-- Settles the request at a position. -/
def Books.settle (b : Books α ε) (k : ℕ) : Books α ε :=
  match requests[k]? with
  | none => b
  | some q =>
    let (answer, history) := q.settle directory b.history
    ⟨history, Function.update b.answers k (some answer)⟩

/-- The books after the positions of an order. -/
def books (b : Books α ε) (order : List ℕ) : Books α ε :=
  order.foldl (Books.settle requests directory) b

variable {requests directory}

/-- A position that does not come again keeps its answer. -/
lemma answers_books_of_notMem {b : Books α ε} {order : List ℕ} {k : ℕ} (hk : k ∉ order) :
    (books requests directory b order).answers k = b.answers k := by
  induction order generalizing b with
  | nil => rfl
  | cons l order ih =>
      obtain ⟨hkl, hk⟩ : k ≠ l ∧ k ∉ order := by simpa using hk
      refine (ih hk).trans ?_
      rw [Books.settle]
      split
      · rfl
      · exact Function.update_of_ne hkl _ _

/-- **Serving an order settles its positions.** -/
theorem serve_order {w : Workspaces} {b : Books α ε} (hhistory : b.history = w.history)
    {order : List ℕ} (hnodup : order.Nodup) (hlt : ∀ k ∈ order, k < requests.length) :
    let served := serve w (order.filterMap (requests[·]?))
    let after := books requests w.directory b order
    order.map after.answers = served.1.map some ∧ after.history = served.2.history := by
  induction order generalizing w b with
  | nil => exact ⟨rfl, hhistory⟩
  | cons k order ih =>
      obtain ⟨hk, hnodup⟩ := List.nodup_cons.mp hnodup
      obtain ⟨q, hq⟩ : ∃ q, requests[k]? = some q := ⟨_, List.getElem?_eq_getElem (hlt k (by simp))⟩
      obtain ⟨hanswer, hkept, hdirectory⟩ := q.execute_eq_settle w
      have hsettled : b.settle requests w.directory k
          = ⟨(q.execute w).2.history, Function.update b.answers k (some (q.execute w).1)⟩ := by
        simp only [Books.settle, hq, hhistory, hanswer, hkept]
      obtain ⟨hanswers, hlast⟩ := ih (w := (q.execute w).2) (b := b.settle requests w.directory k)
        (by rw [hsettled]) hnodup fun l hl => hlt l (List.mem_cons_of_mem _ hl)
      rw [hdirectory] at hanswers hlast
      rw [List.filterMap_cons_some hq]
      refine ⟨?_, hlast⟩
      have hfirst :
          (books requests w.directory b (k :: order)).answers k = some (q.execute w).1 := by
        refine (answers_books_of_notMem hk).trans ?_
        rw [hsettled]
        exact Function.update_self _ _ _
      rw [List.map_cons, hfirst]
      exact congrArg _ hanswers

/-! ### Requests of different identities -/

/-- What orders have to agree on: the identity of a request, or the position of a refused one. -/
def lane (requests : List (Request α ε)) (k : ℕ) : String ⊕ ℕ :=
  match requests[k]? with
  | none => .inr k
  | some q => match Identity.validate q.identity with
    | .error _ => .inr k
    | .ok () => .inl q.identity

/-- Requests of different identities can be settled in either order. -/
lemma Request.settle_comm {q q' : Request α ε} (directory : Path) (b : Database)
    (hne : Identity.validate q.identity = .ok () → Identity.validate q'.identity = .ok () →
      q.identity ≠ q'.identity) :
    (q'.settle directory (q.settle directory b).2).1 = (q'.settle directory b).1
      ∧ (q'.settle directory (q.settle directory b).2).2
        = (q.settle directory (q'.settle directory b).2).2 := by
  cases hname : Identity.validate q.identity with
  | error e => simp only [settle, hname]; exact ⟨trivial, trivial⟩
  | ok _ => cases hname' : Identity.validate q'.identity with
    | error e => simp only [settle, hname, hname']; exact ⟨trivial, trivial⟩
    | ok _ =>
        have hne := hne hname hname'
        simp only [settle, hname, hname', Database.load_keep_of_ne hne.symm,
          Database.load_keep_of_ne hne]
        exact ⟨trivial, Database.keep_comm hne.symm _ _ _⟩

/-- Positions in different lanes can be settled in either order. -/
lemma settle_comm {k l : ℕ} (b : Books α ε) (hne : lane requests k ≠ lane requests l) :
    (b.settle requests directory k).settle requests directory l
      = (b.settle requests directory l).settle requests directory k := by
  have hpositions : k ≠ l := fun h => hne (congrArg _ h)
  cases hq : requests[k]? with
  | none => simp only [Books.settle, hq]
  | some q => cases hq' : requests[l]? with
    | none => simp only [Books.settle, hq, hq']
    | some q' =>
        have hidentities : Identity.validate q.identity = .ok () →
            Identity.validate q'.identity = .ok () → q.identity ≠ q'.identity := by
          intro hname hname' heq
          simp only [lane, hq, hq', hname', heq] at hne
          exact hne rfl
        obtain ⟨hanswer, hhistory⟩ := Request.settle_comm directory b.history hidentities
        obtain ⟨hanswer', -⟩ := Request.settle_comm directory b.history
          fun hname hname' => (hidentities hname' hname).symm
        simp only [Books.settle, hq, hq', hanswer, hhistory, hanswer',
          Function.update_comm hpositions]

/-- **Orders that agree lane by lane come to the same books.** -/
theorem books_eq {order order' : List ℕ}
    (hlanes : ∀ c, order.filter (lane requests · = c) = order'.filter (lane requests · = c))
    (b : Books α ε) : books requests directory b order = books requests directory b order' :=
  foldl_eq_of_filter_eq (fun _ _ b hne => settle_comm b hne) hlanes b

/-! ### Requests of one identity with one digest -/

/-- The request is one of an accepted identity with a digest, its workspace can be made, its action
succeeds, and the time after that can be told. -/
structure Request.Succeeds (q : Request α ε) (directory : Path) (digest : Option Digest) :
    Prop where
  accepted : Identity.validate q.identity = .ok ()
  input : q.input = digest
  made : (q.host.makeDirectories (q.workplace directory)).1 = .ok ()
  succeeds : ∃ value h, q.action q.identity (q.workplace directory)
      (q.host.makeDirectories (q.workplace directory)).2 = (.ok value, h)
    ∧ h.now.isValid = true

namespace Request.Succeeds

variable {q : Request α ε} {digest : Option Digest} {d : Database}

/-- A request that succeeds is up to date after a success with its digest. -/
lemma settle_of_upToDate (hq : q.Succeeds directory digest) {r : Record}
    (hload : d.load q.identity = .ok (some r)) (hr : r.successful = true ∧ r.digest = digest) :
    q.settle directory d = (.ok (.upToDate r), d) := by
  have hdecision : Decision.of (some r) q.input = .upToDate r := by
    rw [Decision.of, if_pos ⟨hr.1, hr.2.trans hq.input.symm⟩]
  obtain ⟨r', hdecision', hanswer⟩ | ⟨hdecision', -⟩ :=
    q.answer_of_made hq.made (some r)
  · obtain rfl := Decision.upToDate.inj (hdecision.symm.trans hdecision')
    simp only [settle, hq.accepted, hload, hanswer]
    rfl
  · rw [hdecision] at hdecision'
    cases hdecision'

/-- A request that succeeds runs if it is not up to date, and its record is there after it. -/
lemma settle_of_outdated (hq : q.Succeeds directory digest) {previous : Option Record}
    (hload : d.load q.identity = .ok previous)
    (hprevious : (Decision.of previous digest).isUpToDate = false) :
    ∃ value r, (r.successful = true ∧ r.digest = digest)
      ∧ (q.settle directory d).1 = .ok (.succeeded value r)
      ∧ (q.settle directory d).2.load q.identity = .ok (some r) := by
  obtain ⟨value, h, hran, hvalid⟩ := hq.succeeds
  have hcarried : q.carriedOut (q.workplace directory)
      (q.host.makeDirectories (q.workplace directory)).2
      = .succeeded value ⟨q.input, h.now, true⟩ := by
    rw [Request.carriedOut, hran]
  obtain ⟨r', hdecision, -⟩ | ⟨-, hanswer⟩ := q.answer_of_made hq.made previous
  · rw [hq.input] at hdecision
    rw [hdecision] at hprevious
    cases hprevious
  · refine ⟨value, ⟨q.input, h.now, true⟩, ⟨rfl, hq.input⟩, ?_, ?_⟩ <;>
      simp only [settle, hq.accepted, hload, hanswer, hcarried]
    exact Database.load_store_self (r := ⟨q.input, h.now, true⟩) hvalid d q.identity

end Request.Succeeds

/-- The position is one of an identity. -/
def IsAt (requests : List (Request α ε)) (identity : String) (k : ℕ) : Prop :=
  ∃ q, requests[k]? = some q ∧ q.identity = identity

variable {identity : String} {digest : Option Digest} {b : Books α ε}

/-- Settling a position of another identity leaves the last record. -/
lemma load_settle_of_not_isAt {k : ℕ} (hk : ¬ IsAt requests identity k) :
    (b.settle requests directory k).history.load identity = b.history.load identity := by
  rw [Books.settle]
  split
  · rfl
  · next q hq =>
      have hne : identity ≠ q.identity := fun h => hk ⟨q, hq, h.symm⟩
      simp only [Request.settle]
      split
      · rfl
      · exact Database.load_keep_of_ne hne _ _

/-- After a success, all requests of the identity are up to date. -/
lemma answers_of_upToDate {r : Record}
    (hrequests : ∀ q ∈ requests, q.identity = identity → q.Succeeds directory digest)
    (hload : b.history.load identity = .ok (some r)) (hr : r.successful = true ∧ r.digest = digest)
    {order : List ℕ} (hnodup : order.Nodup) :
    ∀ k ∈ order, IsAt requests identity k →
      (books requests directory b order).answers k = some (.ok (.upToDate r)) := by
  induction order generalizing b with
  | nil => exact fun _ hk => nomatch hk
  | cons l order ih =>
      obtain ⟨hl, hnodup⟩ := List.nodup_cons.mp hnodup
      -- Whatever comes first leaves the last record.
      have hfirst : (b.settle requests directory l).history.load identity = .ok (some r)
          ∧ (IsAt requests identity l →
            (b.settle requests directory l).answers l = some (.ok (.upToDate r))) := by
        by_cases hat : IsAt requests identity l
        · obtain ⟨q, hq, rfl⟩ := hat
          have hsettled := (hrequests q (List.mem_of_getElem? hq) rfl).settle_of_upToDate hload hr
          simp only [Books.settle, hq, hsettled]
          exact ⟨hload, fun _ => Function.update_self _ _ _⟩
        · exact ⟨(load_settle_of_not_isAt hat).trans hload, fun h => absurd h hat⟩
      intro k hk hat
      obtain rfl | hk := List.mem_cons.mp hk
      · exact (answers_books_of_notMem hl).trans (hfirst.2 hat)
      · exact ih hfirst.1 hnodup k hk hat

/-- **Of requests of one identity with one digest, one runs** if the work is not up to date, and the
others are up to date with its record. -/
theorem exists_runner {previous : Option Record}
    (hrequests : ∀ q ∈ requests, q.identity = identity → q.Succeeds directory digest)
    (hload : b.history.load identity = .ok previous)
    (hprevious : (Decision.of previous digest).isUpToDate = false)
    {order : List ℕ} (hnodup : order.Nodup) (hexists : ∃ k ∈ order, IsAt requests identity k) :
    ∃ k ∈ order, IsAt requests identity k ∧ ∃ value r,
      (books requests directory b order).answers k = some (.ok (.succeeded value r))
        ∧ ∀ l ∈ order, IsAt requests identity l → l ≠ k →
          (books requests directory b order).answers l = some (.ok (.upToDate r)) := by
  induction order generalizing b with
  | nil => obtain ⟨k, hk, -⟩ := hexists; cases hk
  | cons k order ih =>
      obtain ⟨hk, hnodup⟩ := List.nodup_cons.mp hnodup
      by_cases hat : IsAt requests identity k
      · -- The first of the identity runs.
        obtain ⟨q, hq, rfl⟩ := id hat
        obtain ⟨value, r, hr, hanswer, hrecord⟩ :=
          (hrequests q (List.mem_of_getElem? hq) rfl).settle_of_outdated hload hprevious
        have hsettled : (b.settle requests directory k).history.load q.identity = .ok (some r)
            ∧ (b.settle requests directory k).answers k = some (.ok (.succeeded value r)) := by
          simp only [Books.settle, hq, hanswer]
          exact ⟨hrecord, Function.update_self _ _ _⟩
        refine ⟨k, List.mem_cons_self, hat, value, r,
          (answers_books_of_notMem hk).trans hsettled.2, ?_⟩
        intro l hl hat' hne
        obtain rfl | hl := List.mem_cons.mp hl
        · exact absurd rfl hne
        · exact answers_of_upToDate hrequests hsettled.1 hr hnodup l hl hat'
      · have hexists' : ∃ l ∈ order, IsAt requests identity l := by
          obtain ⟨l, hl, hat'⟩ := hexists
          obtain rfl | hl := List.mem_cons.mp hl
          · exact absurd hat' hat
          · exact ⟨l, hl, hat'⟩
        obtain ⟨l, hl, hat', value, r, hruns, hothers⟩ :=
          ih ((load_settle_of_not_isAt hat).trans hload) hnodup hexists'
        refine ⟨l, List.mem_cons_of_mem _ hl, hat', value, r, hruns, ?_⟩
        intro m hm hat'' hne
        obtain rfl | hm := List.mem_cons.mp hm
        · exact absurd hat'' hat
        · exact hothers m hm hat'' hne

end Execution

end TreeDigest

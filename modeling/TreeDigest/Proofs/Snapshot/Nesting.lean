import Mathlib
import TreeDigest.Snapshot.Visit

/-!
What a visitor is told, and when.

A visitor may answer as it likes at every directory, by whatever it has seen so far. Nodes may
look alike, so a walk is told by positions: the numbers of the children that lead from the topmost
node to a node. Positions in lexicographic order are the nodes depth first, in the order of the
children.

* `Visitor.recording` writes down what a visitor is told, what it answers, and in which state it
  is; `Snapshot.stops` are these with their positions, and `accept_recording` says so.
* `Stop.moment` puts announcements and exits in one order: the exit of a directory comes after
  every position below it. `inOrder_stops` is the invariant, that stops come in this order.
* `mem_announced_stops` says which nodes are announced, and `mem_left_stops` which directories are
  left.
* `Snapshot.accept_nested`: a walk is well nested and goes past what is skipped.
-/

namespace TreeDigest

/-! ### Positions -/

/-- Where a node stands below the topmost one: the numbers of the children that lead to it. -/
abbrev Position := List ℕ

/-- The node at the first position is a directory around the node at the second one. -/
def Position.Above (q p : Position) : Prop := q <+: p ∧ q ≠ p

/-- The node at the first position comes after the node at the second one and all below it. -/
def Position.Follows (q p : Position) : Prop := p < q ∧ ¬ p <+: q

lemma Position.not_above_nil {q : Position} : ¬ q.Above [] := fun h =>
  h.2 (List.prefix_nil.mp h.1)

/-- Above a child of the topmost node are that node and what is above below the child. -/
lemma Position.forall_above_cons {i : ℕ} {p : Position} {holds : Position → Prop} :
    (∀ q : Position, q.Above (i :: p) → holds q)
      ↔ holds [] ∧ ∀ q : Position, q.Above p → holds (i :: q) := by
  constructor
  · refine fun h => ⟨h [] ⟨List.nil_prefix, by simp⟩, fun q hq => h (i :: q) ⟨?_, ?_⟩⟩
    · exact List.cons_prefix_cons.mpr ⟨rfl, hq.1⟩
    · exact fun heq => hq.2 (List.cons.inj heq).2
  · rintro ⟨hnil, hcons⟩ q ⟨hstart, hne⟩
    cases q with
    | nil => exact hnil
    | cons j q =>
        obtain ⟨rfl, hbelow⟩ := List.cons_prefix_cons.mp hstart
        exact hcons q ⟨hbelow, fun heq => hne (heq ▸ rfl)⟩

namespace Snapshot

/-- The node at a position. -/
def at? : Snapshot → Position → Option Snapshot
  | s, [] => some s
  | s, i :: p => s.children[i]?.bind fun c => c.at? p

/-- What holds of leaves, and of a directory if it holds of its children, holds of all snapshots. -/
@[elab_as_elim]
theorem ind {motive : Snapshot → Prop} (leaf : ∀ l, motive (.leaf l))
    (directory : ∀ location digest children, (∀ c ∈ children, motive c) →
      motive (.directory location digest children)) : ∀ s, motive s
  | .leaf l => leaf l
  | .directory location digest children =>
      directory location digest children fun c _ => ind leaf directory c

end Snapshot

/-! ### Stops of a walk -/

/-- What a visitor is told, with its answer where it has to give one. -/
inductive Event where
  | entered (location : Location) (digest : Digest) (children : List Snapshot) (answer : Descent)
  | leaf (leaf : Leaf)
  | exited (location : Location) (digest : Digest) (children : List Snapshot)

namespace Event

/-- The node that the visitor is told of. -/
def node : Event → Snapshot
  | .entered location digest children _ => .directory location digest children
  | .leaf l => .leaf l
  | .exited location digest children => .directory location digest children

/-- A node is announced to the visitor, as a leaf or as a directory. -/
def announces : Event → Bool
  | .entered _ _ _ _ => true
  | .leaf _ => true
  | .exited _ _ _ => false

/-- The answer to the announcement of a directory. -/
def answer? : Event → Option Descent
  | .entered _ _ _ answer => some answer
  | _ => none

end Event

/-- Writes down what a visitor is told, and in which state it was. -/
def Visitor.recording {σ : Type} (v : Visitor σ) : Visitor (σ × List (Event × σ)) where
  enter location digest children r :=
    let (answer, next) := v.enter location digest children r.1
    (answer, next, r.2 ++ [(.entered location digest children answer, r.1)])
  leaf l r := (v.leaf l r.1, r.2 ++ [(.leaf l, r.1)])
  exit location digest children r :=
    (v.exit location digest children r.1, r.2 ++ [(.exited location digest children, r.1)])

/-- A stop of a walk: what a visitor in some state is told of the node at a position. -/
structure Stop (σ : Type) where
  position : Position
  event : Event
  state : σ

namespace Stop

variable {σ : Type}

/-- The stop at the same node below one more. -/
def below (i : ℕ) (w : Stop σ) : Stop σ := { w with position := i :: w.position }

/-- When a stop is made: a node is announced before everything below it, and left after that,
past all numbers. -/
def moment (w : Stop σ) : List ℕ∞ :=
  w.position.map (↑) ++ if w.event.announces then [] else [⊤]

@[simp] lemma moment_below (i : ℕ) (w : Stop σ) : (w.below i).moment = (i : ℕ∞) :: w.moment := rfl

/-- The stops come in the order of their moments. -/
def InOrder (ws : List (Stop σ)) : Prop := ws.Pairwise fun a b => a.moment < b.moment

/-- The positions of the nodes that are announced, in turn. -/
def announced (ws : List (Stop σ)) : List Position :=
  (ws.filter fun w => w.event.announces).map (·.position)

/-- The positions of the directories that are left, in turn. -/
def left (ws : List (Stop σ)) : List Position :=
  (ws.filter fun w => !w.event.announces).map (·.position)

/-- The directory at a position was announced, and the visitor gave this answer. -/
def Answers (ws : List (Stop σ)) (p : Position) (answer : Descent) : Prop :=
  ∃ w ∈ ws, w.position = p ∧ w.event.answer? = some answer

lemma mem_announced {ws : List (Stop σ)} {p : Position} :
    p ∈ announced ws ↔ ∃ w ∈ ws, w.position = p ∧ w.event.announces = true := by
  simp only [announced, List.mem_map, List.mem_filter]
  exact ⟨fun ⟨w, ⟨hw, hannounces⟩, hp⟩ => ⟨w, hw, hp, hannounces⟩,
    fun ⟨w, hw, hp, hannounces⟩ => ⟨w, ⟨hw, hannounces⟩, hp⟩⟩

lemma mem_left {ws : List (Stop σ)} {p : Position} :
    p ∈ left ws ↔ ∃ w ∈ ws, w.position = p ∧ w.event.announces = false := by
  simp only [left, List.mem_map, List.mem_filter, Bool.not_eq_true']
  exact ⟨fun ⟨w, ⟨hw, hexit⟩, hp⟩ => ⟨w, hw, hp, hexit⟩,
    fun ⟨w, hw, hp, hexit⟩ => ⟨w, ⟨hw, hexit⟩, hp⟩⟩

end Stop

namespace Snapshot

variable {σ : Type}

mutual
/-- The stops of a walk over a snapshot. -/
def stops (v : Visitor σ) : Snapshot → σ → List (Stop σ)
  | .leaf l, x => [⟨[], .leaf l, x⟩]
  | .directory location digest children, x =>
    match v.enter location digest children x with
    | (.skip, _) => [⟨[], .entered location digest children .skip, x⟩]
    | (.enter, y) =>
      ⟨[], .entered location digest children .enter, x⟩ :: stopsFrom v 0 children y
        ++ [⟨[], .exited location digest children, acceptAll v children y⟩]

/-- The stops of a walk over children whose numbers start with the given one. -/
def stopsFrom (v : Visitor σ) (i : ℕ) : List Snapshot → σ → List (Stop σ)
  | [], _ => []
  | c :: cs, x => (stops v c x).map (·.below i) ++ stopsFrom v (i + 1) cs (accept v c x)
end

/-- **A walk is well nested**: the stops are made at nodes of the snapshot; every node whose
directories all were entered is announced once and in pre-order; what is below a directory that
was skipped is not announced; and just the directories that were entered are left, once, after
all stops below them and before all stops at what follows. -/
structure WellNested (s : Snapshot) (ws : List (Stop σ)) : Prop where
  stands : ∀ w ∈ ws, s.at? w.position = some w.event.node
  once : ∀ p : Position, (s.at? p).isSome →
    (∀ q : Position, q.Above p → Stop.Answers ws q .enter) → (Stop.announced ws).count p = 1
  skipped : ∀ p q : Position, Stop.Answers ws p .skip → p.Above q → q ∉ Stop.announced ws
  preorder : (Stop.announced ws).Pairwise (· < ·)
  left_once : ∀ p, Stop.Answers ws p .enter → (Stop.left ws).count p = 1
  left_only : ∀ p ∈ Stop.left ws, Stop.Answers ws p .enter
  left_after : ∀ before w after, ws = before ++ w :: after → w.event.announces = false →
    ∀ u ∈ after, ¬ w.position <+: u.position
  left_before : ∀ before w after, ws = before ++ w :: after → w.event.announces = false →
    ∀ u ∈ before, ¬ u.position.Follows w.position

/-! ### Directories that are entered or skipped -/

section Directory

variable {v : Visitor σ} {location : Location} {digest : Digest} {cs : List Snapshot} {x y : σ}

lemma accept_entered (henter : v.enter location digest cs x = (.enter, y)) :
    accept v (.directory location digest cs) x = v.exit location digest cs (acceptAll v cs y) := by
  rw [accept, henter]

lemma accept_skipped (henter : v.enter location digest cs x = (.skip, y)) :
    accept v (.directory location digest cs) x = y := by
  rw [accept, henter]

lemma stops_entered (henter : v.enter location digest cs x = (.enter, y)) :
    stops v (.directory location digest cs) x
      = ⟨[], .entered location digest cs .enter, x⟩ :: stopsFrom v 0 cs y
        ++ [⟨[], .exited location digest cs, acceptAll v cs y⟩] := by
  rw [stops, henter]

lemma stops_skipped (henter : v.enter location digest cs x = (.skip, y)) :
    stops v (.directory location digest cs) x = [⟨[], .entered location digest cs .skip, x⟩] := by
  rw [stops, henter]

lemma recording_enter {answer : Descent} (henter : v.enter location digest cs x = (answer, y))
    (log : List (Event × σ)) : v.recording.enter location digest cs (x, log)
      = (answer, y, log ++ [(.entered location digest cs answer, x)]) := by
  simp only [Visitor.recording, henter]

end Directory

/-! ### The log of a walk -/

section Recording

variable {v : Visitor σ}

mutual
/-- **What is written down are the stops.** -/
lemma accept_recording (s : Snapshot) (x : σ) (log : List (Event × σ)) :
    s.accept v.recording (x, log)
      = (s.accept v x, log ++ (stops v s x).map fun w => (w.event, w.state)) := by
  match s with
  | .leaf l => rfl
  | .directory location digest children =>
      rcases henter : v.enter location digest children x with ⟨_ | _, y⟩
      · have hchildren := acceptAll_recording children 0 y
          (log ++ [(.entered location digest children .enter, x)])
        rw [accept_entered (recording_enter henter log), hchildren, accept_entered henter,
          stops_entered henter]
        simp [Visitor.recording]
      · rw [accept_skipped (recording_enter henter log), accept_skipped henter,
          stops_skipped henter]
        rfl

/-- So it is for children in turn. -/
lemma acceptAll_recording (cs : List Snapshot) (i : ℕ) (x : σ) (log : List (Event × σ)) :
    acceptAll v.recording cs (x, log)
      = (acceptAll v cs x, log ++ (stopsFrom v i cs x).map fun w => (w.event, w.state)) := by
  match cs with
  | [] => simp [acceptAll, stopsFrom]
  | c :: cs =>
      rw [acceptAll, accept_recording c, acceptAll_recording cs (i + 1), acceptAll, stopsFrom]
      simp [Stop.below, Function.comp_def]
end

end Recording

/-! ### Stops at children -/

section Children

variable {v : Visitor σ} {i : ℕ} {cs : List Snapshot} {x : σ} {w : Stop σ}

/-- The stops of children are those of each child, below its number. -/
lemma mem_stopsFrom : w ∈ stopsFrom v i cs x ↔ ∃ j c, cs[j]? = some c ∧
    ∃ u ∈ stops v c (acceptAll v (cs.take j) x), w = u.below (i + j) := by
  induction cs generalizing i x with
  | nil => simp [stopsFrom]
  | cons c cs ih =>
      rw [stopsFrom, List.mem_append, ih, List.mem_map]
      constructor
      · rintro (⟨u, hu, rfl⟩ | ⟨j, d, hd, u, hu, rfl⟩)
        · exact ⟨0, c, rfl, u, hu, rfl⟩
        · exact ⟨j + 1, d, hd, u, hu, by rw [Nat.add_assoc, Nat.add_comm 1 j]⟩
      · rintro ⟨_ | j, d, hd, u, hu, rfl⟩
        · obtain rfl := Option.some.inj hd
          exact .inl ⟨u, hu, rfl⟩
        · exact .inr ⟨j, d, hd, u, hu, by rw [Nat.add_assoc, Nat.add_comm 1 j]⟩

/-- The stops of a directory that is entered: its announcement, its exit, and those of its
children. -/
lemma mem_stops_entered {location : Location} {digest : Digest} {y : σ}
    (henter : v.enter location digest cs x = (.enter, y)) :
    w ∈ stops v (.directory location digest cs) x
      ↔ w = ⟨[], .entered location digest cs .enter, x⟩
        ∨ w = ⟨[], .exited location digest cs, acceptAll v cs y⟩
        ∨ ∃ j c, cs[j]? = some c ∧ ∃ u ∈ stops v c (acceptAll v (cs.take j) y), w = u.below j := by
  rw [stops_entered henter]
  simp only [List.mem_append, List.mem_cons, List.not_mem_nil, or_false, mem_stopsFrom,
    Nat.zero_add]
  exact or_assoc.trans (or_congr_right or_comm)

/-- What is told below a child is told of the child. -/
lemma exists_stop_below {location : Location} {digest : Digest} {y : σ} {p : Position}
    (henter : v.enter location digest cs x = (.enter, y)) (told : Event → Prop) :
    (∃ w ∈ stops v (.directory location digest cs) x, w.position = i :: p ∧ told w.event)
      ↔ ∃ c, cs[i]? = some c ∧ ∃ u ∈ stops v c (acceptAll v (cs.take i) y),
        u.position = p ∧ told u.event := by
  constructor
  · rintro ⟨w, hw, hposition, htold⟩
    rcases (mem_stops_entered henter).mp hw with rfl | rfl | ⟨j, c, hc, u, hu, rfl⟩
    · cases hposition
    · cases hposition
    · obtain ⟨rfl, rfl⟩ := List.cons.inj hposition
      exact ⟨c, hc, u, hu, rfl, htold⟩
  · rintro ⟨c, hc, u, hu, rfl, htold⟩
    have hmem := (mem_stops_entered henter).mpr (.inr (.inr ⟨i, c, hc, u, hu, rfl⟩))
    exact ⟨u.below i, hmem, rfl, htold⟩

/-- So are the answers below a child. -/
lemma answers_below {location : Location} {digest : Digest} {y : σ} {p : Position}
    {answer : Descent} (henter : v.enter location digest cs x = (.enter, y)) :
    Stop.Answers (stops v (.directory location digest cs) x) (i :: p) answer
      ↔ ∃ c, cs[i]? = some c ∧ Stop.Answers (stops v c (acceptAll v (cs.take i) y)) p answer :=
  exists_stop_below henter (·.answer? = some answer)

end Children

/-! ### Who is told of -/

section Told

variable (v : Visitor σ)

/-- The stops are made at nodes of the snapshot. -/
lemma at?_of_mem_stops (s : Snapshot) (x : σ) :
    ∀ w ∈ stops v s x, s.at? w.position = some w.event.node := by
  induction s using Snapshot.ind generalizing x with
  | leaf l =>
      intro w hw
      obtain rfl := List.mem_singleton.mp hw
      rfl
  | directory location digest cs ih =>
      intro w hw
      rcases henter : v.enter location digest cs x with ⟨_ | _, y⟩
      · rcases (mem_stops_entered henter).mp hw with rfl | rfl | ⟨j, c, hc, u, hu, rfl⟩
        · rfl
        · rfl
        · change (cs[j]?.bind fun c => c.at? u.position) = some u.event.node
          rw [hc]
          exact ih c (List.mem_of_getElem? hc) _ u hu
      · rw [stops_skipped henter] at hw
        obtain rfl := List.mem_singleton.mp hw
        rfl

lemma nil_mem_announced (s : Snapshot) (x : σ) : [] ∈ Stop.announced (stops v s x) := by
  rw [Stop.mem_announced]
  cases s with
  | leaf l => exact ⟨_, List.mem_singleton.mpr rfl, rfl, rfl⟩
  | directory location digest cs =>
      rcases henter : v.enter location digest cs x with ⟨_ | _, y⟩
      · exact ⟨_, (mem_stops_entered henter).mpr (.inl rfl), rfl, rfl⟩
      · rw [stops_skipped henter]
        exact ⟨_, List.mem_singleton.mpr rfl, rfl, rfl⟩

/-- **The nodes that are announced** are those whose directories all were entered. -/
lemma mem_announced_stops (s : Snapshot) (x : σ) (p : Position) :
    p ∈ Stop.announced (stops v s x) ↔ (s.at? p).isSome
      ∧ ∀ q : Position, q.Above p → Stop.Answers (stops v s x) q .enter := by
  induction s using Snapshot.ind generalizing x p with
  | leaf l =>
      cases p with
      | nil => simp [nil_mem_announced, at?, Position.not_above_nil]
      | cons i p => simp [stops, Stop.announced, Event.announces, at?, children]
  | directory location digest cs ih =>
      cases p with
      | nil => simp [nil_mem_announced, at?, Position.not_above_nil]
      | cons i p =>
          rw [Position.forall_above_cons]
          rcases henter : v.enter location digest cs x with ⟨_ | _, y⟩
          · have htop : Stop.Answers (stops v (.directory location digest cs) x) [] .enter :=
              ⟨_, (mem_stops_entered henter).mpr (.inl rfl), rfl, rfl⟩
            have hbelow : (directory location digest cs).at? (i :: p)
                = cs[i]?.bind fun c => c.at? p := rfl
            simp only [Stop.mem_announced, exists_stop_below henter (·.announces = true),
              answers_below henter, htop, hbelow, true_and]
            cases hc : cs[i]? with
            | none => simp
            | some c =>
                have hchild := ih c (List.mem_of_getElem? hc) (acceptAll v (cs.take i) y) p
                simpa [Stop.mem_announced] using hchild
          · rw [stops_skipped henter]
            simp [Stop.announced, Stop.Answers, Event.announces, Event.answer?]

/-- **The directories that are left** are those that were entered. -/
lemma mem_left_stops (s : Snapshot) (x : σ) (p : Position) :
    p ∈ Stop.left (stops v s x) ↔ Stop.Answers (stops v s x) p .enter := by
  induction s using Snapshot.ind generalizing x p with
  | leaf l => simp [stops, Stop.left, Stop.Answers, Event.announces, Event.answer?]
  | directory location digest cs ih =>
      rcases henter : v.enter location digest cs x with ⟨_ | _, y⟩
      · cases p with
        | nil =>
            refine ⟨fun _ => ⟨_, (mem_stops_entered henter).mpr (.inl rfl), rfl, rfl⟩, fun _ => ?_⟩
            exact Stop.mem_left.mpr ⟨_, (mem_stops_entered henter).mpr (.inr (.inl rfl)), rfl, rfl⟩
        | cons i p =>
            simp only [Stop.mem_left, exists_stop_below henter (·.announces = false),
              answers_below henter]
            refine exists_congr fun c => and_congr_right fun hc => ?_
            rw [← ih c (List.mem_of_getElem? hc), Stop.mem_left]
      · rw [stops_skipped henter]
        simp [Stop.left, Stop.Answers, Event.announces, Event.answer?]

/-- A visitor that enters every directory is told of every node. -/
lemma mem_announced_iff_isSome (hv : ∀ location digest children x,
    (v.enter location digest children x).1 = .enter) (s : Snapshot) (x : σ) (p : Position) :
    p ∈ Stop.announced (stops v s x) ↔ (s.at? p).isSome := by
  induction s using Snapshot.ind generalizing x p with
  | leaf l =>
      cases p with
      | nil => simp [nil_mem_announced, at?]
      | cons i p => simp [stops, Stop.announced, Event.announces, at?, children]
  | directory location digest cs ih =>
      cases p with
      | nil => simp [nil_mem_announced, at?]
      | cons i p =>
          have henter : v.enter location digest cs x = (.enter, (v.enter location digest cs x).2) :=
            Prod.ext (hv location digest cs x) rfl
          have hbelow : (directory location digest cs).at? (i :: p)
              = cs[i]?.bind fun c => c.at? p := rfl
          rw [Stop.mem_announced, exists_stop_below henter (·.announces = true), hbelow]
          cases hc : cs[i]? with
          | none => simp
          | some c =>
              have hchild := ih c (List.mem_of_getElem? hc)
                (acceptAll v (cs.take i) (v.enter location digest cs x).2) p
              simpa [Stop.mem_announced] using hchild

end Told

/-! ### When it is told -/

section Order

variable (v : Visitor σ)

/-- The stops of children come in order if those of each child do. -/
lemma inOrder_stopsFrom {i : ℕ} {cs : List Snapshot} {x : σ}
    (hcs : ∀ c ∈ cs, ∀ x, Stop.InOrder (stops v c x)) : Stop.InOrder (stopsFrom v i cs x) := by
  induction cs generalizing i x with
  | nil => exact List.Pairwise.nil
  | cons c cs ih =>
      rw [stopsFrom, Stop.InOrder, List.pairwise_append, List.pairwise_map]
      refine ⟨(hcs c (by simp) x).imp fun hab => ?_, ih fun d hd => hcs d (by simp [hd]), ?_⟩
      · exact List.cons_lt_cons_iff.mpr (.inr ⟨rfl, hab⟩)
      · intro a ha b hb
        obtain ⟨a, -, rfl⟩ := List.mem_map.mp ha
        obtain ⟨j, d, -, b, -, rfl⟩ := mem_stopsFrom.mp hb
        refine List.cons_lt_cons_iff.mpr (.inl ?_)
        exact_mod_cast (by omega : i < i + 1 + j)

/-- **Stops come in the order of their moments**: a directory is announced before what is below
it and left after that, and siblings follow each other. -/
lemma inOrder_stops (s : Snapshot) (x : σ) : Stop.InOrder (stops v s x) := by
  induction s using Snapshot.ind generalizing x with
  | leaf l => exact List.pairwise_singleton _ _
  | directory location digest cs ih =>
      rcases henter : v.enter location digest cs x with ⟨_ | _, y⟩
      · have hbelow : ∀ w ∈ stopsFrom v 0 cs y, ∃ i : ℕ, ∃ rest, w.moment = (i : ℕ∞) :: rest := by
          intro w hw
          obtain ⟨j, c, -, u, -, rfl⟩ := mem_stopsFrom.mp hw
          exact ⟨0 + j, u.moment, rfl⟩
        rw [stops_entered henter, Stop.InOrder, List.cons_append, List.pairwise_cons,
          List.pairwise_append]
        refine ⟨fun w hw => ?_, inOrder_stopsFrom v ih, List.pairwise_singleton _ _, ?_⟩
        · rcases List.mem_append.mp hw with hw | hw
          · obtain ⟨i, rest, hmoment⟩ := hbelow w hw
            rw [hmoment]
            exact List.nil_lt_cons _ _
          · obtain rfl := List.mem_singleton.mp hw
            exact List.nil_lt_cons _ _
        · intro w hw u hu
          obtain rfl := List.mem_singleton.mp hu
          obtain ⟨i, rest, hmoment⟩ := hbelow w hw
          rw [hmoment]
          exact List.cons_lt_cons_iff.mpr (.inl (ENat.natCast_lt_top i))
      · rw [stops_skipped henter]
        exact List.pairwise_singleton _ _

end Order

/-! ### What the order says of positions -/

section Moments

variable {ws : List (Stop σ)}

lemma moment_of_announces {w : Stop σ} (hw : w.event.announces = true) :
    w.moment = w.position.map (↑) := by
  simp [Stop.moment, hw]

lemma moment_of_exit {w : Stop σ} (hw : w.event.announces = false) :
    w.moment = w.position.map (↑) ++ [⊤] := by
  simp [Stop.moment, hw]

/-- Announcements come in the order of positions. -/
lemma lt_of_map_lt {p q : Position} (h : p.map (fun n : ℕ => (n : ℕ∞)) < q.map (↑)) : p < q := by
  by_contra hle
  rcases (not_lt.mp hle).lt_or_eq with hlt | rfl
  · exact lt_asymm h (List.map_lt (fun _ _ hab => by exact_mod_cast hab) hlt)
  · exact lt_irrefl _ h

/-- Nothing that follows a directory comes before its exit. -/
lemma not_follows_of_lt_exit {w u : Stop σ} (hw : w.event.announces = false)
    (huw : u.moment < w.moment) : ¬ u.position.Follows w.position := by
  have hlists : ∀ (p q : Position) (r : List ℕ∞),
      q.map (fun n : ℕ => (n : ℕ∞)) ++ r < p.map (↑) ++ [⊤] → ¬ q.Follows p := by
    intro p
    induction p with
    | nil => exact fun q r _ hfollows => hfollows.2 List.nil_prefix
    | cons a p ih =>
        rintro q r h ⟨hlt, hstart⟩
        cases q with
        | nil => exact List.not_lt_nil _ hlt
        | cons b q =>
            rw [List.map_cons, List.map_cons, List.cons_append, List.cons_append,
              List.cons_lt_cons_iff] at h
            rw [List.cons_lt_cons_iff] at hlt
            rcases h with hba | ⟨hba, hq⟩
            · have hba' : b < a := by exact_mod_cast hba
              rcases hlt with hab | ⟨rfl, -⟩ <;> omega
            · obtain rfl : b = a := by exact_mod_cast hba
              rw [List.cons_prefix_cons, and_iff_right rfl] at hstart
              exact ih q r hq ⟨by simpa using hlt, hstart⟩
  rw [moment_of_exit hw] at huw
  exact hlists _ _ _ huw

/-- Nothing at a directory or below it comes after its exit. -/
lemma not_prefix_of_exit_lt {w u : Stop σ} (hw : w.event.announces = false)
    (hwu : w.moment < u.moment) : ¬ w.position <+: u.position := by
  have hlists : ∀ (p r : Position) (t : List ℕ∞), t = [] ∨ t = [⊤] →
      ¬ p.map (fun n : ℕ => (n : ℕ∞)) ++ [⊤] < (p ++ r).map (↑) ++ t := by
    intro p r t ht
    induction p with
    | nil =>
        cases r with
        | nil => rcases ht with rfl | rfl <;> simp [List.not_lt_nil]
        | cons a r => simp [List.cons_lt_cons_iff]
    | cons a p ih => simpa [List.cons_lt_cons_iff] using ih
  rintro ⟨r, hr⟩
  rw [moment_of_exit hw, Stop.moment, ← hr] at hwu
  refine hlists w.position r _ ?_ hwu
  cases u.event.announces <;> simp

/-- No two stops are made at one moment. -/
lemma eq_of_moment_eq (hws : Stop.InOrder ws) {a b : Stop σ}
    (ha : a ∈ ws) (hb : b ∈ ws) (hab : a.moment = b.moment) : a = b := by
  have hdistinct : (ws.map Stop.moment).Nodup :=
    List.pairwise_map.mpr (hws.imp fun h => h.ne)
  exact List.inj_on_of_nodup_map hdistinct ha hb hab

lemma pairwise_announced (hws : Stop.InOrder ws) :
    (Stop.announced ws).Pairwise (· < ·) := by
  rw [Stop.announced, List.pairwise_map]
  refine (hws.filter _).imp_of_mem fun ha hb hab => ?_
  rw [moment_of_announces (List.mem_filter.mp ha).2, moment_of_announces (List.mem_filter.mp hb).2]
    at hab
  exact lt_of_map_lt hab

lemma nodup_left (hws : Stop.InOrder ws) : (Stop.left ws).Nodup := by
  rw [Stop.left, List.Nodup, List.pairwise_map]
  refine (hws.filter _).imp_of_mem fun ha hb hab heq => hab.ne ?_
  have hexit : ∀ {w}, w ∈ ws.filter (fun w => !w.event.announces) → w.event.announces = false := by
    intro w hw
    simpa using (List.mem_filter.mp hw).2
  rw [moment_of_exit (hexit ha), moment_of_exit (hexit hb), heq]

/-- Of two announcements of a node one would come first, so a visitor answers once. -/
lemma answer_unique (hws : Stop.InOrder ws) {p : Position}
    {a b : Descent} (ha : Stop.Answers ws p a) (hb : Stop.Answers ws p b) : a = b := by
  have hannounces : ∀ {e : Event} {a : Descent}, e.answer? = some a → e.announces = true := by
    intro e a he
    cases e <;> first | rfl | cases he
  obtain ⟨w, hw, hwp, hwa⟩ := ha
  obtain ⟨u, hu, hup, hub⟩ := hb
  have hmoment : w.moment = u.moment := by
    rw [moment_of_announces (hannounces hwa), moment_of_announces (hannounces hub), hwp, hup]
  rw [eq_of_moment_eq hws hw hu hmoment] at hwa
  exact Option.some.inj (hwa.symm.trans hub)

end Moments

/-! ### Walks are well nested -/

/-- **The stops of a snapshot are well nested.** -/
theorem wellNested_stops (v : Visitor σ) (s : Snapshot) (x : σ) :
    s.WellNested (stops v s x) where
  stands := at?_of_mem_stops v s x
  once p hp habove := by
    have hmem := (mem_announced_stops v s x p).mpr ⟨hp, habove⟩
    exact List.count_eq_one_of_mem ((pairwise_announced (inOrder_stops v s x)).imp ne_of_lt) hmem
  skipped p q hskip habove hq := by
    have henter := ((mem_announced_stops v s x q).mp hq).2 p habove
    cases answer_unique (inOrder_stops v s x) hskip henter
  preorder := pairwise_announced (inOrder_stops v s x)
  left_once p hp := by
    have hmem := (mem_left_stops v s x p).mpr hp
    exact List.count_eq_one_of_mem (nodup_left (inOrder_stops v s x)) hmem
  left_only p hp := (mem_left_stops v s x p).mp hp
  left_after before w after hsplit hexit u hu := by
    have hws := inOrder_stops v s x
    rw [Stop.InOrder, hsplit, List.pairwise_append, List.pairwise_cons] at hws
    exact not_prefix_of_exit_lt hexit (hws.2.1.1 u hu)
  left_before before w after hsplit hexit u hu := by
    have hws := inOrder_stops v s x
    rw [Stop.InOrder, hsplit, List.pairwise_append] at hws
    exact not_follows_of_lt_exit hexit (hws.2.2 u hu w (by simp))

/-- **What a visitor is told of a snapshot is well nested**, whatever its answers hang on: nodes
are announced once, in pre-order, and nothing below a directory that was skipped is; the
directories that were entered are left, once, after all below them and before all that follows. -/
theorem accept_nested (v : Visitor σ) (s : Snapshot) (x : σ) :
    (s.accept v.recording (x, [])).1 = s.accept v x
      ∧ ∃ ws : List (Stop σ), ws.map (fun w => (w.event, w.state)) = (s.accept v.recording (x, [])).2
        ∧ s.WellNested ws := by
  rw [accept_recording]
  exact ⟨rfl, stops v s x, by simp, wellNested_stops v s x⟩

end Snapshot

end TreeDigest

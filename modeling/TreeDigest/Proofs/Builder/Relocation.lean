import TreeDigest.Proofs.Builder.NameOrder
import TreeDigest.Proofs.FileSystem.Lockstep

/-!
Two builders that are told of one tree under different paths.

A builder goes by the names, the digests and the order of what it is told; where a node is recorded
it only passes on. So two builders that are told of the same nodes under different paths open, close
and refuse alike, and what they finish differs in the locations only.

* `Snapshot.Moved` relates two snapshots of one tree, and `Builder.Moved` two builders. What may
  stand at the same place in both is a parameter, `Told`.
* `Builder.Moved.enter`, `Builder.Moved.collect`, `Builder.Moved.exit` and `Builder.Moved.abandon`
  are what the builders do.
-/

namespace TreeDigest

/-! ### Snapshots -/

namespace Snapshot

mutual

/-- **One node in two snapshots**: the names that lead to it from the root admit the two locations,
and all else is equal. -/
inductive Moved (Told : List Bytes → Location → Location → Prop) :
    List Bytes → Snapshot → Snapshot → Prop where
  | leaf {names : List Bytes} {l l' : Location} {digest : Digest} {kind : LeafKind} :
      Told names l l' → Moved Told names (.leaf ⟨l, digest, kind⟩) (.leaf ⟨l', digest, kind⟩)
  | directory {names : List Bytes} {l l' : Location} {digest : Digest} {cs cs' : List Snapshot} :
      Told names l l' → MovedAll Told names cs cs' →
      Moved Told names (.directory l digest cs) (.directory l' digest cs')

/-- The children of one directory in two snapshots. -/
inductive MovedAll (Told : List Bytes → Location → Location → Prop) :
    List Bytes → List Snapshot → List Snapshot → Prop where
  | nil {names : List Bytes} : MovedAll Told names [] []
  | cons {names : List Bytes} {c c' : Snapshot} {cs cs' : List Snapshot} (name : Bytes) :
      Moved Told (names ++ [name]) c c' → MovedAll Told names cs cs' →
      MovedAll Told names (c :: cs) (c' :: cs')

end

variable {Told : List Bytes → Location → Location → Prop} {names : List Bytes}
  {s t : Snapshot} {cs cs' : List Snapshot}

lemma Moved.told (h : Moved Told names s t) : Told names s.location t.location := by
  cases h with
  | leaf htold => exact htold
  | directory htold _ => exact htold

lemma Moved.digest_eq (h : Moved Told names s t) : s.digest = t.digest := by
  cases h <;> rfl

/-- The children match one by one. -/
lemma movedAll_iff : MovedAll Told names cs cs'
    ↔ List.Forall₂ (fun c c' => ∃ name, Moved Told (names ++ [name]) c c') cs cs' := by
  constructor
  · intro h
    induction cs generalizing cs' with
    | nil =>
        cases h
        exact .nil
    | cons c cs ih =>
        cases h with
        | cons name hc hcs => exact .cons ⟨name, hc⟩ (ih hcs)
  · intro h
    induction h with
    | nil => exact .nil
    | cons hc _ ih =>
        obtain ⟨name, hc⟩ := hc
        exact .cons name hc ih

lemma MovedAll.isEmpty_eq (h : MovedAll Told names cs cs') : cs.isEmpty = cs'.isEmpty := by
  cases h <;> rfl

/-- One more child on both sides. -/
lemma MovedAll.concat (h : MovedAll Told names cs cs') {name : Bytes}
    (hs : Moved Told (names ++ [name]) s t) : MovedAll Told names (cs ++ [s]) (cs' ++ [t]) :=
  movedAll_iff.mpr (List.rel_append (movedAll_iff.mp h) (.cons ⟨name, hs⟩ .nil))

variable (hnamed : ∀ names name l l', Told (names ++ [name]) l l' → l.name = l'.name)

include hnamed

/-- Below the root the names are equal. -/
lemma name_eq_of_moved {name : Bytes} (h : Moved Told (names ++ [name]) s t) : s.name = t.name :=
  hnamed _ _ _ _ h.told

/-- The two directories list the same. -/
lemma listing_eq_of_movedAll (h : MovedAll Told names cs cs') : listing cs = listing cs' := by
  induction movedAll_iff.mp h with
  | nil => rfl
  | @cons c c' cs cs' hc hcs ih =>
      obtain ⟨name, hc⟩ := hc
      have hrest : listing cs = listing cs' := ih (movedAll_iff.mpr hcs)
      simp only [listing, List.map_cons] at hrest ⊢
      rw [name_eq_of_moved hnamed hc, hc.digest_eq, hrest]

/-- The two directories keep their children in the same order. -/
lemma movedAll_arrange (o : ChildOrdering) (h : MovedAll Told names cs cs') :
    MovedAll Told names (o.arrange cs) (o.arrange cs') := by
  cases o with
  | asVisited => exact h
  | byName =>
      have hname : ∀ c c', (∃ name, Moved Told (names ++ [name]) c c') → c.name = c'.name :=
        fun _ _ ⟨_, hc⟩ => name_eq_of_moved hnamed hc
      exact movedAll_iff.mpr (forall₂_mergeSort Text.nameLe hname (movedAll_iff.mp h))

end Snapshot

/-! ### Open directories -/

/-- One open directory in two builders. -/
structure Level.Moved (Told : List Bytes → Location → Location → Prop) (names : List Bytes)
    (l l' : Level) : Prop where
  told : Told names l.location l'.location
  handling : l.handling = l'.handling
  children : Snapshot.MovedAll Told names l.children l'.children

/-- A place is right inside the innermost of some places, or it is the root where there is none. -/
def Inside (names : List Bytes) : List (List Bytes) → Prop
  | [] => names = []
  | outer :: _ => ∃ name, names = outer ++ [name]

/-- Two builders have the directories at some places open, which are given innermost first. -/
inductive Opened (Told : List Bytes → Location → Location → Prop) :
    List (List Bytes) → List Level → List Level → Prop where
  | nil : Opened Told [] [] []
  | cons {names : List Bytes} {places : List (List Bytes)} {l l' : Level} {ls ls' : List Level} :
      Inside names places → l.Moved Told names l' → Opened Told places ls ls' →
      Opened Told (names :: places) (l :: ls) (l' :: ls')

namespace Builder

/-- **Two builders of one tree** that have the same directories open. -/
structure Moved (Told : List Bytes → Location → Location → Prop) (places : List (List Bytes))
    (b b' : Builder) : Prop where
  hash : b.hash = b'.hash
  ordering : b.ordering = b'.ordering
  levels : Opened Told places b.levels b'.levels
  root : Option.Rel (Snapshot.Moved Told []) b.root b'.root

namespace Moved

variable {Told : List Bytes → Location → Location → Prop} {places : List (List Bytes)}
  {names : List Bytes} {b b' : Builder}

lemma new (h : HashFunction) (o : ChildOrdering) :
    Moved Told [] (Builder.new h o) (Builder.new h o) := ⟨rfl, rfl, .nil, .none⟩

lemma depth_eq (h : Moved Told places b b') :
    b.depth = places.length ∧ b'.depth = places.length := by
  have hlevels : ∀ {places ls ls'}, Opened Told places ls ls' →
      ls.length = places.length ∧ ls'.length = places.length := by
    intro places ls ls' hlevels
    induction hlevels with
    | nil => exact ⟨rfl, rfl⟩
    | cons _ _ _ ih => simp [ih]
  exact hlevels h.levels

/-- A directory is opened in both. -/
lemma enter (h : Moved Told places b b') (hnames : Inside names places) {l l' : Location}
    (hl : Told names l l') (handling : EmptyDirectories) :
    Moved Told (names :: places) (b.enter l handling) (b'.enter l' handling) :=
  ⟨h.hash, h.ordering, .cons hnames ⟨hl, rfl, .nil⟩ h.levels, h.root⟩

/-- A node is taken in by both, or refused as a second root. -/
lemma collect (h : Moved Told places b b') (hnames : Inside names places) {s t : Snapshot}
    (hs : s.Moved Told names t) :
    InStep (Moved Told places) (b.collect s) (b'.collect t) := by
  obtain ⟨hash, ordering, levels, root⟩ := b
  obtain ⟨hash', ordering', levels', root'⟩ := b'
  obtain ⟨hhash, hordering, hlevels, hroot⟩ := h
  cases hlevels with
  | nil =>
      obtain rfl : names = [] := hnames
      cases hroot with
      | some => exact .error _
      | none => exact .ok ⟨hhash, hordering, .nil, .some hs⟩
  | cons hinside hl hls =>
      obtain ⟨name, rfl⟩ := hnames
      exact .ok ⟨hhash, hordering,
        .cons hinside ⟨hl.told, hl.handling, hl.children.concat hs⟩ hls, hroot⟩

lemma collect_leaf (h : Moved Told places b b') (hnames : Inside names places) {l l' : Location}
    (hl : Told names l l') (digest : Digest) (kind : LeafKind) :
    InStep (Moved Told places) (b.collect (.leaf ⟨l, digest, kind⟩))
      (b'.collect (.leaf ⟨l', digest, kind⟩)) := h.collect hnames (.leaf hl)

/-- A leaf is taken in by both or refused by both. -/
lemma leaf (h : Moved Told places b b') (hnames : Inside names places) {l l' : Location}
    (hl : Told names l l') (digest : Digest) (kind : LeafKind) :
    InStep (Moved Told places) (b.leaf ⟨l, digest, kind⟩) (b'.leaf ⟨l', digest, kind⟩) := by
  have hcollect := h.collect_leaf hnames hl digest kind
  have hlevels := h.levels
  rw [Builder.leaf, Builder.leaf]
  generalize b.levels = ls at hlevels
  generalize b'.levels = ls' at hlevels
  cases hlevels with
  | nil => exact .error _
  | cons => exact hcollect

/-- A leaf becomes the root of both or is refused by both. -/
lemma rootLeaf (h : Moved Told places b b') (hnames : Inside names places) {l l' : Location}
    (hl : Told names l l') (digest : Digest) (kind : LeafKind) :
    InStep (Moved Told places) (b.rootLeaf ⟨l, digest, kind⟩)
      (b'.rootLeaf ⟨l', digest, kind⟩) := by
  have hcollect := h.collect_leaf hnames hl digest kind
  have hlevels := h.levels
  rw [Builder.rootLeaf, Builder.rootLeaf, h.depth_eq.1, h.depth_eq.2]
  generalize b.levels = ls at hlevels
  generalize b'.levels = ls' at hlevels
  cases hlevels with
  | nil => exact hcollect
  | cons => exact .error _

/-- What the innermost directory collected is dropped by both. -/
lemma abandon (h : Moved Told places b b') :
    InStep (Moved Told places.tail) b.abandon b'.abandon := by
  obtain ⟨hash, ordering, levels, root⟩ := b
  obtain ⟨hash', ordering', levels', root'⟩ := b'
  obtain ⟨hhash, hordering, hlevels, hroot⟩ := h
  cases hlevels with
  | nil => exact .error _
  | cons _ _ hls => exact .ok ⟨hhash, hordering, hls, hroot⟩

/-- The finished roots match, and there are none as long as a directory is open. -/
lemma result (h : Moved Told places b b') :
    InStep (Option.Rel (Snapshot.Moved Told [])) b.result b'.result := by
  have hlevels := h.levels
  rw [Builder.result, Builder.result, h.depth_eq.1, h.depth_eq.2]
  generalize b.levels = ls at hlevels
  generalize b'.levels = ls' at hlevels
  cases hlevels with
  | nil => exact .ok h.root
  | cons => exact .error _

variable (hnamed : ∀ names name l l', Told (names ++ [name]) l l' → l.name = l'.name)

include hnamed

/-- The innermost directory is closed by both, and left out by both where it is empty. -/
lemma close {l l' : Level} (hl : l.Moved Told names l') (hash : HashFunction) (o : ChildOrdering) :
    Option.Rel (Snapshot.Moved Told names) (l.close hash o) (l'.close hash o) := by
  have hdropped : l.isDropped = l'.isDropped := by
    rw [Level.isDropped, Level.isDropped, hl.handling, hl.children.isEmpty_eq]
  have harranged := Snapshot.movedAll_arrange hnamed o hl.children
  rw [Level.close, Level.close, hdropped]
  split
  · exact .none
  · dsimp only
    rw [Snapshot.listing_eq_of_movedAll hnamed harranged]
    exact .some (.directory hl.told harranged)

/-- Closing a directory has the same messages hashed. -/
lemma exitMessages_eq (h : Moved Told places b b') : b.exitMessages = b'.exitMessages := by
  have hlevels := h.levels
  rw [Builder.exitMessages, Builder.exitMessages, h.hash, h.ordering]
  generalize b.levels = ls at hlevels
  generalize b'.levels = ls' at hlevels
  cases hlevels with
  | nil => rfl
  | cons _ hl _ =>
      dsimp only
      rw [Level.isDropped, Level.isDropped, hl.handling, hl.children.isEmpty_eq,
        Snapshot.listing_eq_of_movedAll hnamed (Snapshot.movedAll_arrange hnamed _ hl.children)]

/-- **The innermost directory is closed by both**, with the same answer, or neither can close it. -/
theorem exit (h : Moved Told places b b') :
    (∃ kept c c', b.exit = (.ok kept, c) ∧ b'.exit = (.ok kept, c') ∧ Moved Told places.tail c c')
      ∨ ∃ e c c', b.exit = (.error e, c) ∧ b'.exit = (.error e, c') := by
  obtain ⟨hash, ordering, levels, root⟩ := b
  obtain ⟨hash', ordering', levels', root'⟩ := b'
  obtain ⟨hhash, hordering, hlevels, hroot⟩ := h
  obtain rfl : hash = hash' := hhash
  obtain rfl : ordering = ordering' := hordering
  cases hlevels with
  | nil => exact .inr ⟨_, _, _, rfl, rfl⟩
  | @cons names places l l' ls ls' hinside hl hls =>
      have hclose := close hnamed hl hash ordering
      have houter : Moved Told places ⟨hash, ordering, ls, root⟩ ⟨hash, ordering, ls', root'⟩ :=
        ⟨rfl, rfl, hls, hroot⟩
      simp only [Builder.exit]
      generalize l.close hash ordering = x at hclose
      generalize l'.close hash ordering = y at hclose
      cases hclose with
      | none => exact .inl ⟨_, _, _, rfl, rfl, houter⟩
      | @some s t hs =>
          have hcollect := houter.collect hinside hs
          dsimp only
          generalize Builder.collect ⟨hash, ordering, ls, root⟩ s = x at hcollect
          generalize Builder.collect ⟨hash, ordering, ls', root'⟩ t = y at hcollect
          cases hcollect with
          | error e => exact .inr ⟨_, _, _, rfl, rfl⟩
          | ok hmoved => exact .inl ⟨_, _, _, rfl, rfl, hmoved⟩

end Moved

end Builder

end TreeDigest

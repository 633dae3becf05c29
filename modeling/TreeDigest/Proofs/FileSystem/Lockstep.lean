import TreeDigest.Proofs.FileSystem.Resolution

/-!
Looking into two file systems in step.

Two file systems may differ, and a lookup still takes the same way in both: through directories of
the same names to the same error, or to the same place. Which directories count as the same is a
relation between trails. Some entries may be excepted, as long as the lookup does not pass them.

* `passes` lists the entries that a lookup passes, and `mem_passes_append` those that are passed on
  the way to a directory and from there on.
* `Lockstep` says what has to hold of one entry at a time, and `InStep` relates two results.
* `Lockstep.leg` is the induction on the names up to the next link, `Lockstep.legs` the one on the
  links, and `Lockstep.resolve` goes through a whole path.
-/

namespace TreeDigest

/-- Two results that are the same error, or are both there and related. -/
inductive InStep {ε α β : Type} (R : α → β → Prop) :
    Except ε α → Except ε β → Prop where
  | ok {a : α} {b : β} : R a b → InStep R (.ok a) (.ok b)
  | error (e : ε) : InStep R (.error e) (.error e)

namespace InStep

variable {ε α β γ δ : Type} {R R' : α → β → Prop} {S : γ → δ → Prop}
  {x : Except ε α} {y : Except ε β}

/-- Going on from related results in step. -/
lemma bind {f : α → Except ε γ} {g : β → Except ε δ} (hxy : InStep R x y)
    (hfg : ∀ a b, R a b → InStep S (f a) (g b)) : InStep S (x.bind f) (y.bind g) := by
  cases hxy with
  | ok hab => exact hfg _ _ hab
  | error e => exact .error e

lemma imp (hxy : InStep R x y) (hR : ∀ a b, R a b → R' a b) : InStep R' x y := by
  cases hxy with
  | ok hab => exact .ok (hR _ _ hab)
  | error e => exact .error e

lemma of_refl {R : α → α → Prop} (hR : ∀ a, R a a) (x : Except ε α) : InStep R x x := by
  cases x with
  | ok a => exact .ok (hR a)
  | error e => exact .error e

lemma exists_of_ok_left {a : α} (hay : InStep R (.ok a) y) : ∃ b, y = .ok b ∧ R a b := by
  cases hay with
  | ok hab => exact ⟨_, rfl, hab⟩

lemma eq_iff {x y : Except ε α} : InStep (· = ·) x y ↔ x = y := by
  constructor
  · rintro (⟨⟨⟩⟩ | e) <;> rfl
  · rintro rfl
    exact of_refl (fun _ => rfl) x

end InStep

namespace FileSystem

open TreeDigest.Path

/-! ### The entries that a lookup passes -/

section Passes

variable (fs : FileSystem)

/-- The entries that a lookup passes up to the next link that it has to follow, each given by the
names that lead to it from the root. -/
def legPasses (t : Trail) : List Bytes → List (List Bytes)
  | [] => []
  | name :: rest =>
    if name = [] ∨ name = [dot] then legPasses t rest
    else if name = [dot, dot] then legPasses t.tail rest
    else if maxName < name.length then []
    else (t.names ++ [name]) :: match (fs.entriesAt t).find? name with
      | some (.directory es) => legPasses ((name, es) :: t) rest
      | _ => []

/-- The entries that a lookup passes, following at most the given number of links. -/
def passes (follow : Bool) : ℕ → Trail → List Bytes → List (List Bytes)
  | 0, t, names => fs.legPasses t names
  | links + 1, t, names => fs.legPasses t names ++ match fs.leg follow t names with
    | .ok (.link t target rest) =>
      passes follow links (linkStart t target) (segments ⟨target⟩ ++ rest)
    | _ => []

/-- The entries that looking up a path passes, all links followed. -/
def passesOf (p : Path) : List (List Bytes) :=
  match fs.startOf p with
  | .ok start => fs.passes true maxLinks start p.steps
  | .error _ => []

variable {fs} {follow : Bool} {links : ℕ} {t t' : Trail} {names more : List Bytes}

lemma legPasses_subset : fs.legPasses t names ⊆ fs.passes follow links t names := by
  cases links with
  | zero => exact List.Subset.refl _
  | succ links => exact List.subset_append_left _ _

lemma passes_nil : fs.passes follow links t [] = [] := by
  cases links <;> simp [passes, legPasses, leg]

/-- What is passed behind a link. -/
lemma passes_link {target : Bytes} {rest : List Bytes}
    (hl : fs.leg follow t names = .ok (.link t' target rest)) :
    fs.passes follow links (linkStart t' target) (segments ⟨target⟩ ++ rest)
      ⊆ fs.passes follow (links + 1) t names := by
  rw [passes, hl]
  exact List.subset_append_right _ _

/-- An entry is passed before the next link or behind it. -/
lemma mem_passes {q : List Bytes} (hq : q ∈ fs.passes follow links t names) :
    q ∈ fs.legPasses t names ∨ ∃ left t' target rest, links = left + 1
      ∧ fs.leg follow t names = .ok (.link t' target rest)
      ∧ q ∈ fs.passes follow left (linkStart t' target) (segments ⟨target⟩ ++ rest) := by
  cases links with
  | zero => exact .inl hq
  | succ left =>
      rw [passes, List.mem_append] at hq
      obtain hq | hq := hq
      · exact .inl hq
      · split at hq
        · next hl => exact .inr ⟨left, _, _, _, rfl, hl, hq⟩
        · simp at hq

/-- Following more links, also one at the end, passes more. -/
lemma passes_subset {links' : ℕ} (hlinks : links ≤ links') :
    fs.passes follow links t names ⊆ fs.passes true links' t names := by
  intro q hq
  induction links generalizing links' t names with
  | zero => exact legPasses_subset hq
  | succ links ih =>
      obtain hq | ⟨left, t', target, rest, hleft, hl, hq⟩ := mem_passes hq
      · exact legPasses_subset hq
      · obtain rfl : links = left := Nat.succ.inj hleft
        obtain ⟨links', rfl⟩ : ∃ n, links' = n + 1 := ⟨links' - 1, by omega⟩
        have hl' : fs.leg true t names = .ok (.link t' target rest) := by
          cases follow with
          | true => exact hl
          | false =>
              rcases leg_true_eq_or_link t names with heq | ⟨_, _, _, hstop⟩
              · exact heq.trans hl
              · simp [hstop] at hl
        exact passes_link hl' (ih (Nat.le_of_succ_le_succ hlinks) hq)

/-- Before the next link, what more names pass is passed from the directory that the first ones
lead to. -/
lemma mem_legPasses_append {q : List Bytes} (hq : q ∈ fs.legPasses t (names ++ more)) :
    q ∈ fs.legPasses t names ∨ ∃ t', fs.leg true t names = .ok (.arrived (.directory t'))
      ∧ q ∈ fs.legPasses t' more := by
  induction names generalizing t with
  | nil => exact .inr ⟨t, rfl, hq⟩
  | cons name rest ih =>
      rw [List.cons_append, legPasses] at hq
      rw [legPasses, leg]
      by_cases hskip : name = [] ∨ name = [dot]
      · simp only [if_pos hskip] at hq ⊢
        exact ih hq
      simp only [if_neg hskip] at hq ⊢
      by_cases hup : name = [dot, dot]
      · simp only [if_pos hup] at hq ⊢
        exact ih hq
      simp only [if_neg hup] at hq ⊢
      by_cases hlong : maxName < name.length
      · simp [hlong] at hq
      simp only [if_neg hlong, List.mem_cons] at hq ⊢
      obtain hq | hq := hq
      · exact .inl (.inl hq)
      split at hq
      · next es hfind =>
          simp only [hfind]
          exact (ih hq).imp_left .inr
      · simp at hq

/-- **Taking more names passes what the first ones pass**, and what the others pass from the
directory on to which these lead. -/
lemma mem_passes_append (hmore : more ≠ []) {q : List Bytes}
    (hq : q ∈ fs.passes follow links t (names ++ more)) :
    q ∈ fs.passes true links t names ∨ ∃ t' left, left ≤ links
      ∧ fs.legs true links t names = .ok (.directory t')
      ∧ q ∈ fs.passes follow left t' more := by
  induction links generalizing t names with
  | zero =>
      obtain hq | ⟨t', hl, hq⟩ := mem_legPasses_append hq
      · exact .inl hq
      · exact .inr ⟨t', 0, le_rfl, legs_arrived hl 0, hq⟩
  | succ links ih =>
      obtain hq | ⟨left, u, target, rest, hleft, hl, hq⟩ := mem_passes hq
      · obtain hq | ⟨t', hl, hq⟩ := mem_legPasses_append hq
        · exact .inl (legPasses_subset hq)
        · exact .inr ⟨t', links + 1, le_rfl, legs_arrived hl _, legPasses_subset hq⟩
      obtain rfl : links = left := Nat.succ.inj hleft
      -- The link comes up in the first names, or behind the directory that they lead to.
      obtain ⟨t', hfirst, hl⟩ | ⟨_, _, rest', hfirst, hlink⟩ := leg_append_ok hmore hl
      · exact .inr ⟨t', links + 1, le_rfl, legs_arrived hfirst _, passes_link hl hq⟩
      · obtain ⟨rfl, rfl, rfl⟩ := Leg.link.inj hlink
        rw [← List.append_assoc] at hq
        obtain hq | ⟨t', left, hle, hlegs, hq⟩ := ih hq
        · exact .inl (passes_link hfirst hq)
        · exact .inr ⟨t', left, Nat.le_succ_of_le hle, (legs_link hfirst links).trans hlegs, hq⟩

end Passes

/-! ### One entry at a time -/

/-- Two nodes of one name that count as the same: directories to which related trails lead, or
one and the same other node. -/
inductive SameNode (R : Trail → Trail → Prop) (t t' : Trail) (name : Bytes) :
    Node → Node → Prop where
  | directory {es es' : Entries} : R ((name, es) :: t) ((name, es') :: t') →
      SameNode R t t' name (.directory es) (.directory es')
  | other {n : Node} : n.kind ≠ .directory → SameNode R t t' name n n

/-- Two places that count as the same, and are not excepted. -/
inductive Place.Same (R : Trail → Trail → Prop) (Off : List Bytes → Prop) :
    Place → Place → Prop where
  | directory {t t' : Trail} : R t t' → Same R Off (.directory t) (.directory t')
  | other {t t' : Trail} {name : Bytes} {n : Node} : R t t' → n.kind ≠ .directory →
      ¬ Off (t.names ++ [name]) → Same R Off (.other t name n) (.other t' name n)
  | vacant {t t' : Trail} {name : Bytes} : R t t' →
      Same R Off (.vacant t name) (.vacant t' name)

/-- A lookup that has come equally far. -/
inductive Leg.Same (R : Trail → Trail → Prop) (Off : List Bytes → Prop) : Leg → Leg → Prop where
  | arrived {place place' : Place} : place.Same R Off place' →
      Same R Off (.arrived place) (.arrived place')
  | link {t t' : Trail} {target : Bytes} {rest : List Bytes} : R t t' →
      Same R Off (.link t target rest) (.link t' target rest)

/-- **Two file systems are in step** along related trails: these have the same names, and what a
name finds at their ends counts as the same, if it is not excepted. -/
structure Lockstep (fs fs' : FileSystem) (R : Trail → Trail → Prop) (Off : List Bytes → Prop) :
    Prop where
  nil : R [] []
  tail : ∀ {t t' : Trail}, R t t' → R t.tail t'.tail
  names : ∀ {t t' : Trail}, R t t' → t.names = t'.names
  find : ∀ {t t' : Trail} {name : Bytes}, R t t' → ¬ Off (t.names ++ [name]) →
    Option.Rel (SameNode R t t' name) ((fs.entriesAt t).find? name) ((fs'.entriesAt t').find? name)

variable {fs fs' : FileSystem} {R : Trail → Trail → Prop} {Off : List Bytes → Prop} {t t' : Trail}

variable (fs) in
/-- What a lookup does once it has come to a link or to its end. -/
def proceed (follow : Bool) : ℕ → Leg → Except IoError Place
  | _, .arrived place => .ok place
  | 0, .link _ _ _ => .error .tooManyLinks
  | links + 1, .link t target rest =>
    fs.legs follow links (linkStart t target) (segments ⟨target⟩ ++ rest)

lemma legs_eq (follow : Bool) (links : ℕ) (names : List Bytes) :
    fs.legs follow links t names = (fs.leg follow t names).bind (fs.proceed follow links) := by
  cases hl : fs.leg follow t names with
  | error e => exact legs_error hl links
  | ok l =>
      cases l with
      | arrived place =>
          rw [legs_arrived hl]
          cases links <;> rfl
      | link t target rest =>
          cases links with
          | zero => exact legs_link_zero hl
          | succ links => exact legs_link hl links

lemma trailOf?_append (names : List Bytes) (name : Bytes) :
    fs.trailOf? (names ++ [name]) = (fs.trailOf? names).bind fun trail =>
      match (fs.entriesAt trail).find? name with
      | some (.directory es) => some ((name, es) :: trail)
      | _ => none := by
  rw [trailOf?, List.foldl_append, ← trailOf?]
  rfl

lemma names_of_trailOf? {names : List Bytes} (ht : fs.trailOf? names = some t) :
    t.names = names := by
  induction names using List.reverseRecOn generalizing t with
  | nil =>
      obtain rfl := Option.some.inj ht
      rfl
  | append_singleton names name ih =>
      rw [trailOf?_append] at ht
      cases hbefore : fs.trailOf? names with
      | none => simp [hbefore] at ht
      | some t' =>
          rw [hbefore, Option.bind_some] at ht
          split at ht
          · obtain rfl := Option.some.inj ht
            rw [Trail.names, List.map_cons, List.reverse_cons, ← Trail.names, ih hbefore]
          · cases ht

/-- What a path leads to: directories at the ends of related trails, or the same other node. -/
inductive Leads (fs fs' : FileSystem) (R : Trail → Trail → Prop) : Node → Node → Prop where
  | directory {t t' : Trail} : R t t' →
      Leads fs fs' R (.directory (fs.entriesAt t)) (.directory (fs'.entriesAt t'))
  | other {n : Node} : n.kind ≠ .directory → Leads fs fs' R n n

namespace Lockstep

/-- **A row of names is taken in step**, up to the next link. -/
lemma leg (h : Lockstep fs fs' R Off) (follow : Bool) {names : List Bytes}
    (hpasses : ∀ q ∈ fs.legPasses t names, ¬ Off q) (ht : R t t') :
    InStep (Leg.Same R Off) (fs.leg follow t names) (fs'.leg follow t' names) := by
  induction names generalizing t t' with
  | nil => exact .ok (.arrived (.directory ht))
  | cons name rest ih =>
      rw [legPasses] at hpasses
      rw [FileSystem.leg, FileSystem.leg]
      by_cases hskip : name = [] ∨ name = [dot]
      · simp only [if_pos hskip] at hpasses ⊢
        exact ih hpasses ht
      simp only [if_neg hskip] at hpasses ⊢
      by_cases hup : name = [dot, dot]
      · simp only [if_pos hup] at hpasses ⊢
        exact ih hpasses (h.tail ht)
      simp only [if_neg hup] at hpasses ⊢
      by_cases hlong : maxName < name.length
      · simp only [if_pos hlong]
        exact .error _
      simp only [if_neg hlong] at hpasses ⊢
      -- Only here is a directory looked into; what is found decides how both go on.
      have hon : ¬ Off (t.names ++ [name]) := hpasses _ List.mem_cons_self
      have hbelow := fun q hq => hpasses q (List.mem_cons_of_mem _ hq)
      have hfind := h.find ht hon
      generalize (fs.entriesAt t).find? name = x at hfind hbelow
      generalize (fs'.entriesAt t').find? name = y at hfind
      cases hfind with
      | none =>
          dsimp only
          split
          · exact .ok (.arrived (.vacant ht))
          · exact .error _
      | @some n n' hn =>
          cases hn with
          | directory hdown => exact ih hbelow hdown
          | other hkind =>
              cases n with
              | directory es => exact absurd rfl hkind
              | link target =>
                  dsimp only
                  split
                  · exact .ok (.arrived (.other ht hkind hon))
                  · exact .ok (.link ht)
              | file | special =>
                  dsimp only
                  split
                  · exact .ok (.arrived (.other ht hkind hon))
                  · exact .error _

/-- **The names of a path are taken in step**, through all links. -/
lemma legs (h : Lockstep fs fs' R Off) (follow : Bool) (links : ℕ) {names : List Bytes}
    (hpasses : ∀ q ∈ fs.passes follow links t names, ¬ Off q) (ht : R t t') :
    InStep (Place.Same R Off) (fs.legs follow links t names) (fs'.legs follow links t' names) := by
  induction links generalizing t t' names with
  | zero =>
      rw [legs_eq, legs_eq]
      refine (h.leg follow (fun q hq => hpasses q (legPasses_subset hq)) ht).bind fun l l' hl => ?_
      cases hl with
      | arrived hplace => exact .ok hplace
      | link => exact .error _
  | succ links ih =>
      have hleg := h.leg follow (fun q hq => hpasses q (legPasses_subset hq)) ht
      rw [legs_eq, legs_eq]
      generalize hx : fs.leg follow t names = x at hleg
      generalize fs'.leg follow t' names = y at hleg
      cases hleg with
      | error e => exact .error e
      | @ok l l' hl =>
          cases hl with
          | arrived hplace => exact .ok hplace
          | @link t t' target rest ht =>
              refine ih (fun q hq => hpasses q (passes_link hx hq)) ?_
              rw [linkStart, linkStart]
              split
              · exact h.nil
              · exact ht

/-- A row of names that leads through directories is gone along in step. -/
lemma trailOf? (h : Lockstep fs fs' R Off) {names : List Bytes}
    (hoff : ∀ q, q <+: names → ¬ Off q) :
    Option.Rel R (fs.trailOf? names) (fs'.trailOf? names) := by
  induction names using List.reverseRecOn with
  | nil => exact .some h.nil
  | append_singleton names name ih =>
      have hbefore := ih fun q hq => hoff q (hq.trans (List.prefix_append _ _))
      rw [trailOf?_append, trailOf?_append]
      generalize hx : fs.trailOf? names = x at hbefore
      generalize fs'.trailOf? names = y at hbefore
      cases hbefore with
      | none => exact .none
      | @some t t' ht =>
          have hnames : t.names = names := names_of_trailOf? hx
          have hfind : Option.Rel (SameNode R t t' name) _ _ :=
            h.find ht (hnames ▸ hoff _ (List.prefix_refl _))
          simp only [Option.bind_some]
          generalize (fs.entriesAt t).find? name = x at hfind
          generalize (fs'.entriesAt t').find? name = y at hfind
          cases hfind with
          | none => exact .none
          | @some n n' hn =>
              cases hn with
              | directory hdown => exact .some hdown
              | other hkind =>
                  cases n with
                  | directory es => exact absurd rfl hkind
                  | link | file | special => exact .none

/-- The current directory is reached in step. -/
lemma currentTrail (h : Lockstep fs fs' R Off) (hcurrent : fs.current = fs'.current)
    (hoff : ∀ q, q <+: fs.current → ¬ Off q) : InStep R fs.currentTrail fs'.currentTrail := by
  have htrail := h.trailOf? hoff
  rw [FileSystem.currentTrail, FileSystem.currentTrail, ← hcurrent]
  generalize fs.trailOf? fs.current = x at htrail
  generalize fs'.trailOf? fs.current = y at htrail
  cases htrail with
  | none => exact .error _
  | some ht => exact .ok ht

lemma currentPath (h : Lockstep fs fs' R Off)
    (htrail : InStep R fs.currentTrail fs'.currentTrail) : fs.currentPath = fs'.currentPath := by
  rw [FileSystem.currentPath, FileSystem.currentPath]
  generalize fs.currentTrail = x at htrail
  generalize fs'.currentTrail = y at htrail
  cases htrail with
  | error e => rfl
  | ok ht => simp only [Except.map, h.names ht]

/-- **A path is looked up in step**, from a start that is found in step. -/
theorem resolve (h : Lockstep fs fs' R Off) (follow : Bool) {p : Path}
    (hstart : InStep R (fs.startOf p) (fs'.startOf p)) (hpasses : ∀ q ∈ fs.passesOf p, ¬ Off q) :
    InStep (Place.Same R Off) (fs.resolve follow p) (fs'.resolve follow p) := by
  by_cases hacc : Acceptable p
  · rw [passesOf] at hpasses
    rw [resolve_eq follow hacc, resolve_eq follow hacc]
    generalize fs.startOf p = x at hstart hpasses
    generalize fs'.startOf p = y at hstart
    cases hstart with
    | error e => exact .error e
    | ok ht =>
        refine (h.legs _ _ (fun q hq => hpasses q (passes_subset le_rfl hq)) ht).bind
          fun place place' hplace => ?_
        cases hplace with
        | directory ht => exact .ok (.directory ht)
        | vacant ht => exact .ok (.vacant ht)
        | other ht hkind hon =>
            rw [Place.asked, Place.asked]
            split
            · exact .error _
            · exact .ok (.other ht hkind hon)
  · obtain ⟨e, he⟩ := resolve_refused hacc
    rw [he, he]
    exact .error e

end Lockstep

section Path

variable {p : Path}

lemma Leads.kind_eq {n n' : Node} (hn : Leads fs fs' R n n') : n.kind = n'.kind := by
  cases hn <;> rfl

lemma leads_of_resolve {follow : Bool}
    (hp : InStep (Place.Same R Off) (fs.resolve follow p) (fs'.resolve follow p)) :
    InStep (Leads fs fs' R) (fs.node follow p) (fs'.node follow p) := by
  rw [node_eq, node_eq]
  refine hp.bind fun place place' hplace => ?_
  cases hplace with
  | directory ht => exact .ok (.directory ht)
  | other ht hkind => exact .ok (.other hkind)
  | vacant ht => exact .error _

/-- **A path has the same plain form.** -/
lemma Lockstep.canonicalize (h : Lockstep fs fs' R Off)
    (hp : InStep (Place.Same R Off) (fs.resolve true p) (fs'.resolve true p)) :
    fs.canonicalize p = fs'.canonicalize p := by
  rw [canonicalize_eq, canonicalize_eq, ← InStep.eq_iff]
  refine hp.bind fun place place' hplace => ?_
  cases hplace with
  | directory ht =>
      refine .ok ?_
      rw [Place.names, Place.names, h.names ht]
  | other ht hkind =>
      refine .ok ?_
      rw [Place.names, Place.names, h.names ht]
  | vacant ht => exact .error _

/-- Where the nodes are of one kind, a link is one in both. -/
lemma isLink_of_kind
    (hp : InStep (fun n n' => n.kind = n'.kind) (fs.node false p) (fs'.node false p)) :
    fs.isLink p = fs'.isLink p := by
  rw [isLink, isLink]
  generalize fs.node false p = x at hp
  generalize fs'.node false p = y at hp
  cases hp with
  | error e => rfl
  | @ok n n' hn => cases n <;> cases n' <;> first | rfl | cases hn

/-- **A file has the same content.** -/
lemma read_of_leads (hp : InStep (Leads fs fs' R) (fs.node true p) (fs'.node true p)) :
    fs.read p = fs'.read p := by
  rw [read, read]
  generalize fs.node true p = x at hp
  generalize fs'.node true p = y at hp
  cases hp with
  | error e => rfl
  | ok hn => cases hn <;> rfl

end Path

end FileSystem

end TreeDigest

import TreeDigest.Proofs.FileSystem.Limits
import TreeDigest.Proofs.FileSystem.Making
import TreeDigest.Proofs.Path.Components

/-!
What is put elsewhere.

Making directories and writing files puts nodes where some paths lead to. What stands at a place of
the file system stays as it is, with all that is below it, if none of these paths leads there.

* `FileSystem.at?` goes down by names, through directories only. What is put neither at a place nor
  above it nor below it does not change what is there (`Node.at?_changeAt`).
* `Written.at?_eq` is the induction on what is put, one node after another.
* `SameBeside` says of two file systems that they are the same but for what is at or below one path.
  So they are when nodes are put there (`Puts.sameBeside`).
* `node_pathOf_of_at?_eq` says what is seen at the plain path of the place.
* `liesIn_of_atOrBelow`: no path into a directory of files leads out of it.
-/

namespace TreeDigest

/-- The node that a row of names leads to from a node. -/
def Node.at? : Node → List Bytes → Option Node
  | n, [] => some n
  | .directory es, name :: names => (Entries.find? es name).bind (·.at? names)
  | _, _ :: _ => none

lemma Node.at?_append (n : Node) (names more : List Bytes) :
    n.at? (names ++ more) = (n.at? names).bind (·.at? more) := by
  induction names generalizing n with
  | nil => rfl
  | cons name names ih =>
      cases n with
      | directory es =>
          simp only [List.cons_append, Node.at?, Option.bind_assoc, ih]
      | file | link | special => rfl

/-- **What is put elsewhere does not change what is at a place.** -/
lemma Node.at?_changeAt {place names : List Bytes} {x : Bytes} {m : Node}
    (hbelow : ¬ place <+: names ++ [x]) (habove : ¬ names ++ [x] <+: place) (n : Node) :
    (n.changeAt names (·.put x m)).at? place = n.at? place := by
  induction names generalizing place n with
  | nil =>
      cases place with
      | nil => exact absurd List.nil_prefix hbelow
      | cons name place =>
          have hne : name ≠ x := by
            rintro rfl
            exact habove (by simp [List.cons_prefix_cons])
          cases n with
          | directory es =>
              simp only [Node.changeAt, Entries.changeAt, Node.at?, Entries.find?_put_of_ne hne]
          | file | link | special => rfl
  | cons step names ih =>
      cases place with
      | nil => exact absurd List.nil_prefix hbelow
      | cons name place =>
          cases n with
          | file | link | special => rfl
          | directory es =>
              change ((Entries.changeAt (step :: names) _ es).find? name).bind (·.at? place)
                = (Entries.find? es name).bind (·.at? place)
              rw [Entries.find?_changeAt_cons]
              by_cases hname : name = step
              · subst hname
                rw [List.cons_append, List.cons_prefix_cons] at hbelow habove
                have hinner := ih (by simpa using hbelow) (by simpa using habove)
                cases Entries.find? es name with
                | none => rfl
                | some inner => simpa using hinner inner
              · simp only [if_neg hname, Option.map_id']

namespace FileSystem

open TreeDigest.Path

/-- The node that a row of names leads to from the root, through directories only. -/
def at? (fs : FileSystem) (names : List Bytes) : Option Node := (Node.directory fs.root).at? names

variable {fs fs' gs : FileSystem} {T : Trail} {p q : Path} {place names : List Bytes}

lemma at?_names (hT : T.Valid fs) : fs.at? T.names = some (.directory (fs.entriesAt T)) := by
  induction T with
  | nil => rfl
  | cons step T ih =>
      rw [Trail.names_cons, at?, Node.at?_append, ← at?, ih hT.2]
      simp only [Option.bind_some, Node.at?, hT.1]
      rfl

lemma at?_entry (hT : T.Valid fs) (x : Bytes) :
    fs.at? (T.names ++ [x]) = (fs.entriesAt T).find? x := by
  rw [at?, Node.at?_append, ← at?, at?_names hT]
  cases hfind : (fs.entriesAt T).find? x <;> simp [Node.at?, hfind]

/-- What a lookup has found is at its place. -/
lemma at?_of_resolve {follow : Bool} {found : Place} {n : Node}
    (hp : fs.resolve follow p = .ok found) (hnode : found.node? fs = some n) :
    fs.at? found.names = some n := by
  have hvalid := resolve_valid hp
  cases found with
  | directory T =>
      rw [Place.names, at?_names hvalid]
      exact hnode
  | other T x m =>
      rw [Place.names, at?_entry hvalid.1, hvalid.2.1]
      exact hnode
  | vacant T x => cases hnode

/-- **A node that is put somewhere else** leaves what is at a place. -/
lemma Puts.at?_eq (h : fs.Puts p fs') (hthere : (fs.at? place).isSome = true)
    (haside : ∀ names, fs'.canonicalize p = .ok (pathOf names) → ¬ place <+: names) :
    fs'.at? place = fs.at? place := by
  obtain ⟨T, x, n, hT, hnodir, rfl, hplain⟩ := h.changed
  have hbelow := haside _ hplain
  refine Node.at?_changeAt hbelow (fun habove => ?_) (.directory fs.root)
  -- Nothing is below what was there before, for that is no directory.
  obtain ⟨rest, rfl⟩ := habove
  rw [at?, Node.at?_append, ← at?, at?_entry hT] at hthere
  cases rest with
  | nil => exact hbelow (by simp)
  | cons name rest =>
      cases hfind : (fs.entriesAt T).find? x with
      | none => simp [hfind] at hthere
      | some m =>
          cases m with
          | directory es => exact hnodir es hfind
          | file | link | special => simp [hfind, Node.at?] at hthere

/-- A path at which something may be put without a change at a place: a directory is there already,
or it leads somewhere else in the end. -/
def Aside (fs later : FileSystem) (place : List Bytes) (p : Path) : Prop :=
  fs.isDirectory p = true ∨ ∀ names, later.canonicalize p = .ok (pathOf names) → ¬ place <+: names

/-- **All that is put somewhere else** leaves what is at a place. -/
theorem Written.at?_eq {paths : Path → Prop} (hfs : fs.root.Distinct) (h : fs.Written paths fs')
    (hlater : fs'.Grows gs) (hthere : (fs.at? place).isSome = true)
    (haside : ∀ p, paths p → fs.Aside gs place p) : fs'.at? place = fs.at? place := by
  induction h with
  | nothing => rfl
  | @put m fs' p hm hp hput ih =>
      have hbefore := ih (hput.grows.trans hlater)
      refine (hput.at?_eq (hbefore ▸ hthere) fun names hnames => ?_).trans hbefore
      rcases haside p hp with hdir | haside
      · exact absurd (isDirectory_of_grows (hm.grows hfs) hdir) (by simp [hput.fresh])
      · exact haside names (canonicalize_of_grows hlater hnames)

/-- Two file systems are the same but for what is at or below a path, and the directories on the way
there. -/
def SameBeside (base : Path) (fs fs' : FileSystem) : Prop :=
  ∀ place, (pathOf place).Apart base → fs'.at? place = fs.at? place

lemma SameBeside.refl (base : Path) (fs : FileSystem) : SameBeside base fs fs := fun _ _ => rfl

/-- **A node that is put at or below a path** changes nothing beside it. -/
lemma Puts.sameBeside {base : Path} (h : fs.Puts p fs') (hq : fs'.canonicalize p = .ok q)
    (hin : q.LiesIn base) : SameBeside base fs fs' := by
  obtain ⟨T, x, n, -, -, rfl, hplain⟩ := h.changed
  obtain rfl : q = pathOf (T.names ++ [x]) := Except.ok.inj (hq.symm.trans hplain)
  intro place hapart
  refine Node.at?_changeAt (fun hbelow => ?_) (fun habove => ?_) (.directory fs.root)
  · obtain ⟨more, hmore⟩ := hbelow
    rcases (hmore ▸ pathOf_append_liesIn place more).comparable hin with hplace | hbase
    · exact hapart.1 hplace
    · exact hapart.2 hbase
  · obtain ⟨more, rfl⟩ := habove
    exact hapart.1 ((pathOf_append_liesIn _ more).trans hin)

/-! ### What is seen of a place -/

/-- A path leads to what it led to, where that is the same at its place. -/
lemma node_of_at?_eq (h : fs.Grows fs') {follow : Bool} {found : Place} {n : Node}
    (hp : fs.resolve follow p = .ok found) (hnode : found.node? fs = some n)
    (hsame : fs'.at? found.names = fs.at? found.names) : fs'.node follow p = .ok n := by
  have hthere : ∀ {found' : Place}, fs'.resolve follow p = .ok found' →
      found'.names = found.names → (∃ m, found'.node? fs' = some m) → fs'.node follow p = .ok n := by
    rintro found' hp' hnames ⟨m, hm⟩
    have hat := at?_of_resolve hp' hm
    rw [hnames, hsame, at?_of_resolve hp hnode] at hat
    obtain rfl := Option.some.inj hat
    exact node_of_resolve hp' hm
  cases found with
  | vacant => cases hnode
  | directory T =>
      obtain ⟨T', hp', hT⟩ := resolve_directory_of_grows h hp
      exact hthere hp' hT.names.symm ⟨_, rfl⟩
  | other T x m =>
      obtain ⟨T', m', hp', hT, -⟩ := resolve_other_of_grows h hp
      exact hthere hp' (by rw [Place.names, Place.names, hT.names]) ⟨_, rfl⟩

/-- **At the plain path of a place there is the same**, where that is so at the place. -/
theorem node_pathOf_of_at?_eq (hfs : fs.WellFormed) (h : fs.Grows fs') {found : Place} {n : Node}
    (hp : fs.resolve true p = .ok found) (hnode : found.node? fs = some n)
    (hsame : fs'.at? found.names = fs.at? found.names) (follow : Bool) :
    fs'.node follow (pathOf found.names) = fs.node follow (pathOf found.names) := by
  obtain ⟨m, hm, hkind, hstands⟩ := stands_canonicalize hfs (canonicalize_of_resolve hp hnode)
  obtain rfl : n = m := Except.ok.inj ((node_of_resolve hp hnode).symm.trans hm)
  rcases hstands with hlong | ⟨hfalse, htrue⟩
  · rw [hlong, node_tooLong_of_grows h (hlong follow)]
  have htrue := htrue hkind
  have hplain : fs.resolve true (pathOf found.names) = .ok found := by
    have hlimits := resolve_pathOf_upToLimits hfs hp (by rintro T x rfl; cases hnode)
    cases hres : fs.resolve true (pathOf found.names) with
    | error e => simp [node_eq, hres, Except.bind] at htrue
    | ok found' =>
        rw [hres] at hlimits
        rw [hlimits.eq_of_ok]
  have htrue' := node_of_at?_eq h hplain hnode hsame
  cases follow with
  | true => rw [htrue, htrue']
  | false =>
      obtain ⟨n', hfalse', hn'⟩ := node_of_grows h hfalse
      rcases @node_true_eq_or_link fs' (pathOf found.names) with heq | ⟨target, hlink⟩
      · rw [hfalse, ← heq, htrue']
      · obtain rfl : n' = .link target := Except.ok.inj (hfalse'.symm.trans hlink)
        exact absurd hn'.kind_eq hkind

/-! ### Paths into a directory -/

/-- Names that are taken without a link lead to the place that they tell. -/
lemma names_of_leg {follow : Bool} {found : Place} (hnames : ∀ name ∈ names, IsName name)
    (hl : fs.leg follow T names = .ok (.arrived found)) : found.names = T.names ++ names := by
  fun_induction leg fs follow T names with
  | case1 T =>
      obtain rfl : Place.directory T = found := by simpa using hl
      simp [Place.names]
  | case2 T name rest hskip ih =>
      have hname := hnames name List.mem_cons_self
      simp [hname.nonempty, hname.notDot] at hskip
  | case3 T rest hskip ih => exact absurd rfl (hnames _ List.mem_cons_self).notDots
  | case5 T name rest hskip hdots hlong es hfind ih =>
      rw [ih (fun name hname => hnames name (List.mem_cons_of_mem _ hname)) hl, Trail.names_cons,
        List.append_assoc]
      rfl
  | case6 T name rest hskip hdots hlong target hfind hstop =>
      obtain rfl : Place.other T name (.link target) = found := by simpa using hl
      rw [hstop.1, Place.names]
  | case8 T name hskip hdots hlong node hdir hlink hfind =>
      obtain rfl : Place.other T name node = found := by simpa using hl
      rfl
  | case10 T name hskip hdots hlong hfind =>
      obtain rfl : Place.vacant T name = found := by simpa using hl
      rfl
  | case4 | case7 | case9 | case11 => simp at hl

/-- No link is met in a directory that holds nothing but files. -/
lemma arrived_of_leg {follow : Bool} {l : Leg} (hnames : ∀ name ∈ names, IsName name)
    (hfiles : ∀ name n, (fs.entriesAt T).find? name = some n → n.kind = .file)
    (hl : fs.leg follow T names = .ok l) : ∃ found, l = .arrived found := by
  cases names with
  | nil => exact ⟨_, (Except.ok.inj hl).symm⟩
  | cons name rest =>
      have hname := hnames name List.mem_cons_self
      rw [leg, if_neg (by simp [hname.nonempty, hname.notDot]), if_neg hname.notDots] at hl
      split at hl
      · cases hl
      split at hl
      · next hfind => cases hfiles _ _ hfind
      · next hfind => cases hfiles _ _ hfind
      all_goals
        split at hl
        · exact ⟨_, (Except.ok.inj hl).symm⟩
        · cases hl

/-- **A path into a directory of files leads nowhere else**, if it leads anywhere. -/
theorem liesIn_of_atOrBelow {base a : Path} {items : List (Bytes × NodeKind)}
    (hp : fs.canonicalize base = .ok p) (hlist : fs.list base = .ok items)
    (hfiles : ∀ item ∈ items, item.2 = .file) (ha : a.AtOrBelow base)
    (hq : fs.canonicalize a = .ok q) : q.LiesIn p := by
  obtain ⟨es, hnode, rfl⟩ := list_ok hlist
  obtain ⟨T, hT, rfl⟩ := resolve_of_node_directory hnode
  obtain rfl : p = pathOf T.names :=
    Except.ok.inj (hp.symm.trans (canonicalize_of_resolve hT rfl))
  obtain ⟨names, hnames, rfl⟩ := ha
  obtain ⟨found, n, hfound, -, rfl⟩ := canonicalize_eq_ok_iff.mp hq
  by_cases hnone : names = []
  · obtain rfl : found = .directory T := by
      rw [hnone] at hfound
      exact Except.ok.inj (hfound.symm.trans hT)
    exact List.prefix_rfl
  obtain ⟨left, -, hlook⟩ := resolve_joinAll hT
  rcases hlook names hnone hnames with hlong | hlook
  · simp [hlong] at hfound
  rw [hlook true] at hfound
  have hkinds : ∀ name n, (fs.entriesAt T).find? name = some n → n.kind = .file := by
    intro name n hfind
    exact hfiles _ (List.mem_map_of_mem (Entries.mem_of_find? hfind))
  cases hl : fs.leg true T names with
  | error e => simp [legs_error hl, Except.bind] at hfound
  | ok l =>
      obtain ⟨place, rfl⟩ := arrived_of_leg hnames hkinds hl
      have hasked : Place.asked false place = .ok place := by cases place <;> rfl
      rw [legs_arrived hl, Except.bind, hasked] at hfound
      obtain rfl := Except.ok.inj hfound
      rw [names_of_leg hnames hl]
      exact pathOf_append_liesIn T.names names

end FileSystem

end TreeDigest

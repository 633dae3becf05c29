import TreeDigest.Proofs.FileSystem.Replacing

/-!
File systems that have grown.

What is kept next to a tree makes it grow: directories and files are added, and what a file holds
changes, but no entry is taken away, becomes a node of another kind or a link to somewhere else. So
whatever a path led to before, it still leads there.

* `Entries.Grows` and `FileSystem.Grows` say what growing is, and `grows_changeAt` is the growth of
  one directory, seen from the root.
* `Trail.Grown` relates the trails of both file systems. `legs_of_grows` goes through all links of
  a lookup; `resolve_directory_of_grows` and `resolve_other_of_grows` go through whole paths.
* `node_of_grows`, `canonicalize_of_grows` and `list_of_grows` are what is seen of it.
* `resolve_of_filled`: a path that led to a free name leads to what is put there.
-/

namespace TreeDigest

/-! ### Entries that have grown -/

mutual

/-- The same node, but a file may hold something else, and a directory may have grown. -/
inductive Node.Grows : Node → Node → Prop where
  | file {content content' : Bytes} {modified modified' : Int} :
      Node.Grows (.file content modified) (.file content' modified')
  | link (target : Bytes) : Node.Grows (.link target) (.link target)
  | special : Node.Grows .special .special
  | directory {es gs : Entries} : Entries.Grows es gs → Node.Grows (.directory es) (.directory gs)

/-- The same entries in the same order, grown, and some more behind them that are no links. -/
inductive Entries.Grows : Entries → Entries → Prop where
  | added {gs : Entries} : (∀ e ∈ gs, e.2.kind ≠ .link) → Entries.Grows [] gs
  | kept {name : Bytes} {n n' : Node} {es gs : Entries} : Node.Grows n n' → Entries.Grows es gs →
      Entries.Grows ((name, n) :: es) ((name, n') :: gs)

end

/-- Names are distinct, here and in all directories below. -/
inductive Entries.Distinct : Entries → Prop where
  | intro {es : Entries} : (es.map (·.1)).Nodup →
      (∀ name inner, (name, Node.directory inner) ∈ es → Distinct inner) → Distinct es

mutual

lemma Node.Grows.refl (n : Node) : n.Grows n := by
  match n with
  | .file _ _ => exact .file
  | .link target => exact .link target
  | .special => exact .special
  | .directory es => exact .directory (Entries.Grows.refl es)

lemma Entries.Grows.refl (es : Entries) : es.Grows es := by
  match es with
  | [] => exact .added (by simp)
  | (_, n) :: es => exact .kept (Node.Grows.refl n) (Entries.Grows.refl es)

end

lemma Node.Grows.kind_eq {n n' : Node} (hn : n.Grows n') : n.kind = n'.kind := by
  cases hn <;> rfl

namespace Entries

variable {es gs : Entries} {name x : Bytes} {n : Node}

lemma Grows.no_new_link (h : es.Grows gs) (hes : ∀ e ∈ es, e.2.kind ≠ .link) :
    ∀ e ∈ gs, e.2.kind ≠ .link := by
  induction es generalizing gs with
  | nil =>
      cases h with
      | added hgs => exact hgs
  | cons e es ih =>
      cases h with
      | kept hn hrest =>
          rw [List.forall_mem_cons] at hes ⊢
          exact ⟨hn.kind_eq ▸ hes.1, ih hrest hes.2⟩

end Entries

mutual

/-- Growing goes on. -/
lemma Node.Grows.trans {l m n : Node} (hlm : l.Grows m) (hmn : m.Grows n) : l.Grows n := by
  match hlm, hmn with
  | .file, .file => exact .file
  | .link target, .link _ => exact .link target
  | .special, .special => exact .special
  | .directory h, .directory h' => exact .directory (Entries.Grows.trans h h')

lemma Entries.Grows.trans {es fs gs : Entries} (hef : es.Grows fs) (hfg : fs.Grows gs) :
    es.Grows gs := by
  match hef, hfg with
  | .added hfs, h => exact .added (h.no_new_link hfs)
  | .kept hn hrest, .kept hn' hrest' =>
      exact .kept (Node.Grows.trans hn hn') (Entries.Grows.trans hrest hrest')

end

namespace Entries

variable {es gs : Entries} {name x : Bytes} {n : Node}

/-- What a name finds has grown. -/
lemma Grows.find? (h : es.Grows gs) (hfind : es.find? name = some n) :
    ∃ n', gs.find? name = some n' ∧ n.Grows n' := by
  induction es generalizing gs with
  | nil => simp [Entries.find?] at hfind
  | cons e es ih =>
      cases h with
      | @kept name' m m' es gs hm hrest =>
          simp only [Entries.find?, List.find?_cons] at hfind ih ⊢
          by_cases hname : (name' == name) = true
          · simp only [hname] at hfind ⊢
            obtain rfl : m = n := by simpa using hfind
            exact ⟨m', rfl, hm⟩
          · simp only [hname] at hfind ⊢
            exact ih hrest hfind

/-- A listing shows what it showed, and behind it what was added. -/
lemma Grows.map_kind (h : es.Grows gs) : ∃ more : List (Bytes × NodeKind),
    gs.map (fun e => (e.1, e.2.kind)) = es.map (fun e => (e.1, e.2.kind)) ++ more
      ∧ ∀ item ∈ more, item.2 ≠ .link := by
  induction es generalizing gs with
  | nil =>
      cases h with
      | added hgs =>
          exact ⟨gs.map fun e => (e.1, e.2.kind), rfl, List.forall_mem_map.mpr hgs⟩
  | cons e es ih =>
      cases h with
      | kept hn hrest =>
          obtain ⟨more, hmore, hkinds⟩ := ih hrest
          exact ⟨more, by simp [hmore, hn.kind_eq], hkinds⟩

lemma grows_map {f : Bytes × Node → Node} (hf : ∀ e ∈ es, e.2.Grows (f e)) :
    es.Grows (es.map fun e => (e.1, f e)) := by
  induction es with
  | nil => exact .added (by simp)
  | cons e es ih =>
      rw [List.forall_mem_cons] at hf
      exact .kept hf.1 (ih hf.2)

/-- A directory grows by a node that is no link and takes no place from another one. -/
lemma grows_put (hkind : n.kind ≠ .link) (hfind : ∀ m, es.find? x = some m → m.Grows n) :
    es.Grows (es.put x n) := by
  induction es with
  | nil => exact .added (by simpa [put] using hkind)
  | cons e es ih =>
      rw [put]
      split
      · next heq =>
          refine heq ▸ Grows.kept (hfind e.2 ?_) (.refl es)
          simp [Entries.find?, heq]
      · next hne =>
          refine .kept (.refl e.2) (ih fun m hm => hfind m ?_)
          simpa [Entries.find?, List.find?_cons, hne] using hm

lemma find?_put_self (es : Entries) (x : Bytes) (n : Node) : (es.put x n).find? x = some n := by
  induction es with
  | nil => simp [put, find?]
  | cons e es ih =>
      rw [put]
      split
      · simp [find?]
      · next hne => simpa [find?, List.find?_cons, hne] using ih

/-! ### Distinct names -/

lemma WellFormed.distinct (h : es.WellFormed) : es.Distinct := by
  induction h with
  | intro _ hnodup _ ih => exact .intro hnodup ih

lemma Distinct.nodup (h : es.Distinct) : (es.map (·.1)).Nodup := by
  obtain ⟨hnodup, -⟩ := h
  exact hnodup

lemma Distinct.inner {inner : Entries} (h : es.Distinct) (hmem : (name, Node.directory inner) ∈ es) :
    inner.Distinct := by
  obtain ⟨-, hinner⟩ := h
  exact hinner _ _ hmem

lemma mem_put {e : Bytes × Node} (he : e ∈ es.put x n) : e ∈ es ∨ e = (x, n) := by
  induction es with
  | nil => exact .inr (by simpa [put] using he)
  | cons e' es ih =>
      rw [put] at he
      split at he <;> rcases List.mem_cons.mp he with rfl | he
      · exact .inr rfl
      · exact .inl (List.mem_cons_of_mem _ he)
      · exact .inl List.mem_cons_self
      · exact (ih he).imp_left (List.mem_cons_of_mem _)

lemma map_name_put (es : Entries) (x : Bytes) (n : Node) :
    (es.put x n).map (·.1) = es.map (·.1)
      ∨ x ∉ es.map (·.1) ∧ (es.put x n).map (·.1) = es.map (·.1) ++ [x] := by
  induction es with
  | nil => exact .inr ⟨by simp, rfl⟩
  | cons e es ih =>
      rw [put]
      split
      · next heq => exact .inl (by simp [heq])
      · next hne =>
          simp only [List.map_cons, List.mem_cons, List.cons_append, List.cons.injEq, true_and,
            not_or]
          exact ih.imp_right fun h => ⟨⟨Ne.symm hne, h.1⟩, h.2⟩

/-- Putting a node under a name leaves names distinct. -/
lemma Distinct.put (h : es.Distinct)
    (hn : ∀ inner : Entries, n = .directory inner → inner.Distinct) :
    (es.put x n).Distinct := by
  refine .intro ?_ fun name inner hmem => ?_
  · rcases map_name_put es x n with heq | ⟨hfree, heq⟩
    · exact heq ▸ h.nodup
    · exact heq ▸ List.nodup_append.mpr ⟨h.nodup, List.nodup_singleton x, by
        rintro a ha b hb rfl
        exact hfree (List.mem_singleton.mp hb ▸ ha)⟩
  · rcases mem_put hmem with hmem | heq
    · exact h.inner hmem
    · exact hn inner (Prod.mk.inj heq).2.symm

/-! ### Growth further below -/

lemma changeAt_append (names more : List Bytes) (change : Entries → Entries) (es : Entries) :
    changeAt (names ++ more) change es = changeAt names (changeAt more change) es := by
  induction names generalizing es with
  | nil => rfl
  | cons name names ih =>
      have hnode : ∀ n : Node, n.changeAt (names ++ more) change
          = n.changeAt names (changeAt more change) := by
        intro n
        cases n with
        | directory inner => exact congrArg Node.directory (ih inner)
        | file | link | special => rfl
      simp only [List.cons_append, changeAt_cons, hnode]

/-- A directory has grown if one of its directories has. -/
lemma grows_changeAt_one {inner : Entries} {change : Entries → Entries} (hes : es.Distinct)
    (hfind : es.find? name = some (.directory inner)) (hgrows : inner.Grows (change inner))
    (hdistinct : (change inner).Distinct) :
    es.Grows (changeAt [name] change es) ∧ (changeAt [name] change es).Distinct := by
  have hone : ∀ e ∈ es, e.1 = name → e.2 = .directory inner := by
    rintro ⟨_, m⟩ he rfl
    exact Option.some.inj ((find?_eq_of_nodup hes.nodup he).symm.trans hfind)
  rw [changeAt_cons]
  constructor
  · refine grows_map fun e he => ?_
    split
    · next heq =>
        rw [hone e he heq]
        exact .directory hgrows
    · exact .refl e.2
  · refine .intro (by simpa [Function.comp_def] using hes.nodup) fun name' inner' hmem => ?_
    obtain ⟨e, he, heq⟩ := List.mem_map.mp hmem
    obtain ⟨rfl, hnode⟩ := Prod.mk.inj heq
    split at hnode
    · next hname =>
        rw [hone e he hname] at hnode
        obtain rfl : change inner = inner' := by simpa [Node.changeAt, changeAt] using hnode
        exact hdistinct
    · obtain ⟨_, m⟩ := e
      obtain rfl : m = .directory inner' := hnode
      exact hes.inner he

end Entries

namespace FileSystem

open TreeDigest.Path

/-- **A file system has grown**: so have its entries, in which names are distinct, and the current
directory is the same. -/
structure Grows (fs fs' : FileSystem) : Prop where
  root : fs.root.Grows fs'.root
  distinct : fs'.root.Distinct
  current : fs'.current = fs.current

variable {fs fs' gs : FileSystem}

lemma Grows.refl (hfs : fs.root.Distinct) : fs.Grows fs := ⟨.refl _, hfs, rfl⟩

lemma Grows.trans (h : fs.Grows fs') (h' : fs'.Grows gs) : fs.Grows gs :=
  ⟨h.root.trans h'.root, h'.distinct, h'.current.trans h.current⟩

lemma Trail.Valid.distinct (hfs : fs.root.Distinct) {t : Trail} (ht : t.Valid fs) :
    (fs.entriesAt t).Distinct := by
  induction t with
  | nil => exact hfs
  | cons step t ih => exact (ih ht.2).inner (Entries.mem_of_find? ht.1)

/-- **A file system has grown if one of its directories has.** -/
lemma grows_changeAt (hfs : fs.root.Distinct) {t : Trail} {change : Entries → Entries}
    (ht : t.Valid fs) (hgrows : (fs.entriesAt t).Grows (change (fs.entriesAt t)))
    (hdistinct : (change (fs.entriesAt t)).Distinct) : fs.Grows (fs.changeAt t change) := by
  suffices h : fs.root.Grows (Entries.changeAt t.names change fs.root)
      ∧ (Entries.changeAt t.names change fs.root).Distinct from ⟨h.1, h.2, rfl⟩
  -- The induction goes outwards: the directory around has grown by the one that was changed.
  induction t generalizing change with
  | nil => exact ⟨hgrows, hdistinct⟩
  | cons step t ih =>
      obtain ⟨name, es⟩ := step
      rw [Trail.names_cons, Entries.changeAt_append]
      have hone := Entries.grows_changeAt_one (ht.2.distinct hfs) ht.1 hgrows hdistinct
      exact ih ht.2 hone.1 hone.2

/-! ### Looking into a grown file system -/

/-- Two trails of the same names, one in each of two file systems. -/
structure Trail.Grown (fs fs' : FileSystem) (t t' : Trail) : Prop where
  valid : t.Valid fs
  valid' : t'.Valid fs'
  names : t.names = t'.names

namespace Trail.Grown

variable {t t' : Trail} {name : Bytes} {n : Node}

lemma nil : Grown fs fs' [] [] := ⟨trivial, trivial, rfl⟩

lemma tail (h : Grown fs fs' t t') : Grown fs fs' t.tail t'.tail := by
  refine ⟨h.valid.tail, h.valid'.tail, ?_⟩
  cases t with
  | nil =>
      obtain rfl := Trail.eq_nil_of_names h.names.symm
      rfl
  | cons step t =>
      cases t' with
      | nil => exact absurd (Trail.eq_nil_of_names h.names) (by simp)
      | cons step' t' => exact (Trail.names_cons_inj.mp h.names).1

lemma cons (h : Grown fs fs' t t') {es es' : Entries}
    (hes : (fs.entriesAt t).find? name = some (.directory es))
    (hes' : (fs'.entriesAt t').find? name = some (.directory es')) :
    Grown fs fs' ((name, es) :: t) ((name, es') :: t') :=
  ⟨⟨hes, h.valid⟩, ⟨hes', h.valid'⟩, Trail.names_cons_inj.mpr ⟨h.names, rfl⟩⟩

lemma linkStart (h : Grown fs fs' t t') (target : Bytes) :
    Grown fs fs' (linkStart t target) (linkStart t' target) := by
  rw [FileSystem.linkStart, FileSystem.linkStart]
  split
  · exact nil
  · exact h

lemma entriesAt (h : Grown fs fs' t t') (hfs : fs.Grows fs') :
    (fs.entriesAt t).Grows (fs'.entriesAt t') := by
  induction t generalizing t' with
  | nil =>
      obtain rfl := Trail.eq_nil_of_names h.names.symm
      exact hfs.root
  | cons step t ih =>
      cases t' with
      | nil => exact absurd (Trail.eq_nil_of_names h.names) (by simp)
      | cons step' t' =>
          obtain ⟨name, es⟩ := step
          obtain ⟨name', es'⟩ := step'
          obtain ⟨hnames, rfl⟩ := Trail.names_cons_inj.mp h.names
          obtain ⟨n, hfind, hn⟩ := (ih ⟨h.valid.2, h.valid'.2, hnames⟩).find? h.valid.1
          obtain rfl : .directory es' = n := Option.some.inj (h.valid'.1.symm.trans hfind)
          cases hn with
          | directory hes => exact hes

/-- What a name finds at the end of a trail has grown. -/
lemma find? (h : Grown fs fs' t t') (hfs : fs.Grows fs')
    (hfind : (fs.entriesAt t).find? name = some n) :
    ∃ n', (fs'.entriesAt t').find? name = some n' ∧ n.Grows n' := (h.entriesAt hfs).find? hfind

end Trail.Grown

/-- A name that is looked up in a directory, neither skipped nor refused. -/
structure IsStep (name : Bytes) : Prop where
  kept : ¬ (name = [] ∨ name = [dot])
  down : name ≠ [dot, dot]
  short : ¬ maxName < name.length

/-- What becomes of a lookup up to the next link: where it found something it still does, and where
a name was free, it is for that name to say. -/
inductive Leg.GrowsTo (fs fs' : FileSystem) (follow : Bool) : Leg → Except IoError Leg → Prop where
  | directory {u u' : Trail} : Trail.Grown fs fs' u u' →
      GrowsTo fs fs' follow (.arrived (.directory u)) (.ok (.arrived (.directory u')))
  | other {u u' : Trail} {name : Bytes} {n n' : Node} : Trail.Grown fs fs' u u' → n.Grows n' →
      GrowsTo fs fs' follow (.arrived (.other u name n)) (.ok (.arrived (.other u' name n')))
  | vacant {u u' : Trail} {name : Bytes} : Trail.Grown fs fs' u u' → IsStep name →
      GrowsTo fs fs' follow (.arrived (.vacant u name)) (fs'.leg follow u' [name])
  | link {u u' : Trail} {target : Bytes} {rest : List Bytes} : Trail.Grown fs fs' u u' →
      GrowsTo fs fs' follow (.link u target rest) (.ok (.link u' target rest))

/-- What becomes of a lookup that arrived, with some links left where it came to a free name. -/
inductive Place.GrowsTo (fs fs' : FileSystem) (follow : Bool) :
    Place → Except IoError Place → Prop where
  | directory {u u' : Trail} : Trail.Grown fs fs' u u' →
      GrowsTo fs fs' follow (.directory u) (.ok (.directory u'))
  | other {u u' : Trail} {name : Bytes} {n n' : Node} : Trail.Grown fs fs' u u' → n.Grows n' →
      GrowsTo fs fs' follow (.other u name n) (.ok (.other u' name n'))
  | vacant {u u' : Trail} {name : Bytes} {left : ℕ} : Trail.Grown fs fs' u u' → IsStep name →
      GrowsTo fs fs' follow (.vacant u name) (fs'.legs follow left u' [name])

section Lookup

variable {follow : Bool} {links : ℕ} {t t' : Trail} {names : List Bytes} {place : Place}

/-- A row of names, up to the next link. -/
lemma leg_of_grows (h : fs.Grows fs') {l : Leg} (ht : Trail.Grown fs fs' t t')
    (hl : fs.leg follow t names = .ok l) : l.GrowsTo fs fs' follow (fs'.leg follow t' names) := by
  fun_induction leg fs follow t names generalizing t' with
  | case1 t =>
      obtain rfl := Except.ok.inj hl
      exact .directory ht
  | case2 t name rest hskip ih =>
      rw [leg, if_pos hskip]
      exact ih ht hl
  | case3 t rest hskip ih =>
      rw [leg, if_neg hskip, if_pos rfl]
      exact ih ht.tail hl
  | case4 => simp at hl
  | case5 t name rest hskip hdots hlong es hfind ih =>
      obtain ⟨n, hfind', hn⟩ := ht.find? h hfind
      cases hn with
      | directory =>
          rw [leg, if_neg hskip, if_neg hdots, if_neg hlong, hfind']
          exact ih (ht.cons hfind hfind') hl
  | case6 t name rest hskip hdots hlong target hfind hstop =>
      obtain rfl := Except.ok.inj hl
      obtain ⟨n, hfind', hn⟩ := ht.find? h hfind
      cases hn with
      | link =>
          rw [leg, if_neg hskip, if_neg hdots, if_neg hlong, hfind']
          simp only [if_pos hstop]
          exact .other ht (.link target)
  | case7 t name rest hskip hdots hlong target hfind hgo =>
      obtain rfl := Except.ok.inj hl
      obtain ⟨n, hfind', hn⟩ := ht.find? h hfind
      cases hn with
      | link =>
          rw [leg, if_neg hskip, if_neg hdots, if_neg hlong, hfind']
          simp only [if_neg hgo]
          exact .link ht
  | case8 t name hskip hdots hlong node hdir hlink hfind =>
      obtain rfl := Except.ok.inj hl
      obtain ⟨n, hfind', hn⟩ := ht.find? h hfind
      rw [leg, if_neg hskip, if_neg hdots, if_neg hlong, hfind']
      cases hn with
      | directory => exact absurd rfl (hdir _)
      | link target => exact absurd rfl (hlink target)
      | file => exact .other ht .file
      | special => exact .other ht .special
  | case9 => simp at hl
  | case10 t name hskip hdots hlong hfind =>
      obtain rfl := Except.ok.inj hl
      exact .vacant ht ⟨hskip, hdots, hlong⟩
  | case11 => simp at hl

lemma leg_link_of_grows (h : fs.Grows fs') (ht : Trail.Grown fs fs' t t') {u : Trail}
    {target : Bytes} {rest : List Bytes} (hl : fs.leg follow t names = .ok (.link u target rest)) :
    ∃ u', fs'.leg follow t' names = .ok (.link u' target rest) ∧ Trail.Grown fs fs' u u' := by
  have hleg := leg_of_grows h ht hl
  generalize fs'.leg follow t' names = r at hleg
  cases hleg with
  | link hu => exact ⟨_, rfl, hu⟩

/-- **A lookup that arrived**, through all links. -/
lemma legs_of_grows (h : fs.Grows fs') (ht : Trail.Grown fs fs' t t')
    (hp : fs.legs follow links t names = .ok place) :
    place.GrowsTo fs fs' follow (fs'.legs follow links t' names) := by
  induction hp using legs_ok_induction generalizing t' with
  | arrived links t names hl =>
      have hleg := leg_of_grows h ht hl
      generalize hr : fs'.leg follow t' names = r at hleg
      cases hleg with
      | directory hu => exact legs_arrived hr links ▸ .directory hu
      | other hu hn => exact legs_arrived hr links ▸ .other hu hn
      | vacant hu hname => exact legs_congr hr links ▸ .vacant hu hname
  | link links t names u target rest hl _ ih =>
      obtain ⟨u', hr, hu⟩ := leg_link_of_grows h ht hl
      rw [legs_link hr]
      exact ih (hu.linkStart target)

/-- A name that is too long still is, where a lookup comes to it. -/
lemma leg_tooLong_of_grows (h : fs.Grows fs') (ht : Trail.Grown fs fs' t t')
    (hl : fs.leg follow t names = .error .nameTooLong) :
    fs'.leg follow t' names = .error .nameTooLong := by
  fun_induction leg fs follow t names generalizing t' with
  | case1 | case6 | case7 | case8 | case9 | case10 | case11 => simp at hl
  | case2 t name rest hskip ih =>
      rw [leg, if_pos hskip]
      exact ih ht hl
  | case3 t rest hskip ih =>
      rw [leg, if_neg hskip, if_pos rfl]
      exact ih ht.tail hl
  | case4 t name rest hskip hdots hlong => rw [leg, if_neg hskip, if_neg hdots, if_pos hlong]
  | case5 t name rest hskip hdots hlong es hfind ih =>
      obtain ⟨n, hfind', hn⟩ := ht.find? h hfind
      cases hn with
      | directory =>
          rw [leg, if_neg hskip, if_neg hdots, if_neg hlong, hfind']
          exact ih (ht.cons hfind hfind') hl

lemma legs_tooLong_of_grows (h : fs.Grows fs') (ht : Trail.Grown fs fs' t t')
    (hp : fs.legs follow links t names = .error .nameTooLong) :
    fs'.legs follow links t' names = .error .nameTooLong := by
  induction hp using legs_error_induction generalizing t' with
  | names_fail links t names hl => exact legs_error (leg_tooLong_of_grows h ht hl) links
  | no_link_left _ _ _ _ _ _ he => cases he
  | link links t names u target rest hl _ ih =>
      obtain ⟨u', hr, hu⟩ := leg_link_of_grows h ht hl
      rw [legs_link hr]
      exact ih (hu.linkStart target)

lemma trailOf?_of_grows (h : fs.Grows fs') (ht : fs.trailOf? names = some t) :
    ∃ t', fs'.trailOf? names = some t' ∧ Trail.Grown fs fs' t t' := by
  induction names using List.reverseRecOn generalizing t with
  | nil =>
      obtain rfl := Option.some.inj ht
      exact ⟨[], rfl, .nil⟩
  | append_singleton names name ih =>
      rw [trailOf?_append] at ht ⊢
      obtain ⟨u, hu, ht⟩ := Option.bind_eq_some_iff.mp ht
      obtain ⟨u', hu', hgrown⟩ := ih hu
      split at ht
      · next es hfind =>
          obtain rfl := Option.some.inj ht
          obtain ⟨n, hfind', hn⟩ := hgrown.find? h hfind
          cases hn with
          | directory => exact ⟨_, by simp only [hu', Option.bind_some, hfind'],
              hgrown.cons hfind hfind'⟩
      · cases ht

lemma startOf_of_grows (h : fs.Grows fs') {p : Path} (ht : fs.startOf p = .ok t) :
    ∃ t', fs'.startOf p = .ok t' ∧ Trail.Grown fs fs' t t' := by
  rw [startOf] at ht ⊢
  by_cases habs : p.isAbsolute = true
  · rw [if_pos habs] at ht ⊢
    obtain rfl := Except.ok.inj ht
    exact ⟨[], rfl, .nil⟩
  · rw [if_neg habs, currentTrail] at ht ⊢
    split at ht
    · next u hu =>
        obtain rfl := Except.ok.inj ht
        obtain ⟨u', hu', hgrown⟩ := trailOf?_of_grows h hu
        exact ⟨u', by rw [h.current, hu'], hgrown⟩
    · cases ht

end Lookup

section Path

variable {follow : Bool} {p : Path} {n : Node} {T T' : Trail} {x : Bytes}

lemma currentPath_of_grows (h : fs.Grows fs') {q : Path} (hq : fs.currentPath = .ok q) :
    fs'.currentPath = .ok q := by
  rw [currentPath, currentTrail] at hq ⊢
  cases ht : fs.trailOf? fs.current with
  | none => simp [ht, Except.map] at hq
  | some t =>
      obtain ⟨t', ht', hgrown⟩ := trailOf?_of_grows h ht
      rw [h.current, ht']
      simpa [ht, Except.map, hgrown.names] using hq

/-- A path that led somewhere is looked up to what the place there has come to. -/
lemma resolve_of_grows (h : fs.Grows fs') {place : Place} (hp : fs.resolve follow p = .ok place) :
    ∃ r, place.GrowsTo fs fs' (follow || closed p) r
      ∧ fs'.resolve follow p = r.bind (Place.asked (closed p)) := by
  obtain ⟨hacc, start, hstart, hlegs⟩ := resolve_ok hp
  obtain ⟨start', hstart', hgrown⟩ := startOf_of_grows h hstart
  exact ⟨_, legs_of_grows h hgrown hlegs, by rw [resolve_eq follow hacc, hstart', Except.bind]⟩

/-- **A path leads to the same directory.** -/
lemma resolve_directory_of_grows (h : fs.Grows fs') (hp : fs.resolve follow p = .ok (.directory T)) :
    ∃ T', fs'.resolve follow p = .ok (.directory T') ∧ Trail.Grown fs fs' T T' := by
  obtain ⟨r, hplace, hr⟩ := resolve_of_grows h hp
  cases hplace with
  | directory hT => exact ⟨_, hr, hT⟩

/-- A path that asks for a directory leads to nothing else. -/
lemma closed_of_resolve_other (hp : fs.resolve follow p = .ok (.other T x n)) : closed p = false := by
  obtain ⟨hacc, start, hstart, hlegs⟩ := resolve_ok hp
  rw [resolve_eq follow hacc, hstart, Except.bind, hlegs] at hp
  cases hclosed : closed p with
  | false => rfl
  | true => simp [hclosed, Except.bind, Place.asked] at hp

/-- **A path leads to the same other node**, or to what a file holds by now. -/
lemma resolve_other_of_grows (h : fs.Grows fs') (hp : fs.resolve follow p = .ok (.other T x n)) :
    ∃ T' n', fs'.resolve follow p = .ok (.other T' x n') ∧ Trail.Grown fs fs' T T'
      ∧ n.Grows n' := by
  obtain ⟨r, hplace, hr⟩ := resolve_of_grows h hp
  cases hplace with
  | other hT hn =>
      rw [closed_of_resolve_other hp] at hr
      exact ⟨_, _, hr, hT, hn⟩

/-- **A path that led to a free name leads to what was put there**, unless it asks for a
directory and that is none. -/
lemma resolve_of_filled (h : fs.Grows fs') (hp : fs.resolve follow p = .ok (.vacant T x))
    (hT : Trail.Grown fs fs' T T') (hfind : (fs'.entriesAt T').find? x = some n)
    (hkind : n.kind ≠ .link) (hclosed : closed p = true → n.kind = .directory) :
    ∃ place, fs'.resolve follow p = .ok place ∧ place.node? fs' = some n
      ∧ place.names = T.names ++ [x] := by
  obtain ⟨r, hplace, hr⟩ := resolve_of_grows h hp
  cases hplace with
  | @vacant _ U _ left hU hx =>
      obtain rfl : U = T' := hU.valid'.eq_of_names hT.valid' (hU.names.symm.trans hT.names)
      have hfound : ∃ place, fs'.leg (follow || closed p) U [x] = .ok (.arrived place)
          ∧ place.asked (closed p) = .ok place ∧ place.node? fs' = some n
          ∧ place.names = U.names ++ [x] := by
        have hopen : n.kind ≠ .directory → closed p = false := fun hn => by
          simpa using fun hc => hn (hclosed hc)
        rw [leg, if_neg hx.kept, if_neg hx.down, if_neg hx.short, hfind]
        cases n with
        | link target => exact absurd rfl hkind
        | directory es => exact ⟨.directory ((x, es) :: U), rfl, rfl, rfl, Trail.names_cons _ U⟩
        | file | special =>
            exact ⟨.other U x _, rfl, by rw [hopen (by simp [Node.kind])]; rfl, rfl, rfl⟩
      obtain ⟨place, hl, hasked, hnode, hnames⟩ := hfound
      refine ⟨place, ?_, hnode, hnames.trans (by rw [hT.names])⟩
      rw [hr, legs_arrived hl, Except.bind, hasked]

/-- **What a path leads to has grown.** -/
theorem node_of_grows (h : fs.Grows fs') (hp : fs.node follow p = .ok n) :
    ∃ n', fs'.node follow p = .ok n' ∧ n.Grows n' := by
  obtain ⟨place, hres, hnode⟩ := node_ok_iff.mp hp
  cases place with
  | vacant => cases hnode
  | directory T =>
      obtain rfl := Option.some.inj hnode
      obtain ⟨T', hres', hT⟩ := resolve_directory_of_grows h hres
      exact ⟨_, node_of_resolve hres' rfl, .directory (hT.entriesAt h)⟩
  | other T x m =>
      obtain rfl := Option.some.inj hnode
      obtain ⟨T', m', hres', -, hm⟩ := resolve_other_of_grows h hres
      exact ⟨m', node_of_resolve hres' rfl, hm⟩

/-- **A path that is too long still is.** -/
lemma node_tooLong_of_grows (h : fs.Grows fs') (hp : fs.node follow p = .error .nameTooLong) :
    fs'.node follow p = .error .nameTooLong := by
  have hresolve : ∀ {gs : FileSystem}, gs.node follow p = .error .nameTooLong ↔
      gs.resolve follow p = .error .nameTooLong := by
    intro gs
    rw [node_eq]
    cases hres : gs.resolve follow p with
    | error e => simp [Except.bind]
    | ok place => cases hnode : place.node? gs <;> simp [Except.bind, hnode]
  rw [hresolve] at hp ⊢
  by_cases hacc : Acceptable p
  swap
  · obtain ⟨e, he⟩ := resolve_refused hacc
    rwa [he] at hp ⊢
  rw [resolve_eq follow hacc] at hp ⊢
  cases hstart : fs.startOf p with
  | error e =>
      obtain rfl : .noEntry = e := by
        rw [startOf, currentTrail] at hstart
        split at hstart
        · cases hstart
        · split at hstart
          · cases hstart
          · exact Except.error.inj hstart
      simp [hstart, Except.bind] at hp
  | ok start =>
      obtain ⟨start', hstart', hgrown⟩ := startOf_of_grows h hstart
      cases hlegs : fs.legs (follow || closed p) maxLinks start p.steps with
      | error e =>
          obtain rfl : e = .nameTooLong := by simpa [hstart, hlegs, Except.bind] using hp
          rw [hstart', Except.bind, legs_tooLong_of_grows h hgrown hlegs, Except.bind]
      | ok place =>
          rw [hstart, Except.bind, hlegs, Except.bind] at hp
          cases place with
          | directory | vacant => cases hp
          | other =>
              rw [Place.asked] at hp
              split at hp <;> cases hp

/-- **What stands at a path in both file systems is seen there in the same way**, unless it is a link
to be followed. -/
lemma Stands.same_node (h : fs.Grows fs') (hn : fs.Stands p n) (hn' : fs'.Stands p n)
    (hfollow : follow = true → n.kind ≠ .link) : fs'.node follow p = fs.node follow p := by
  rcases hn with hlong | ⟨hfalse, htrue⟩
  · rw [hlong, node_tooLong_of_grows h (hlong follow)]
  · obtain ⟨m, hm, -⟩ := node_of_grows h hfalse
    rcases hn' with hlong' | ⟨hfalse', htrue'⟩
    · simp [hlong'] at hm
    · cases follow with
      | false => rw [hfalse, hfalse']
      | true => rw [htrue (hfollow rfl), htrue' (hfollow rfl)]

/-- **What is found has the same plain path.** -/
theorem canonicalize_of_grows (h : fs.Grows fs') {q : Path} (hp : fs.canonicalize p = .ok q) :
    fs'.canonicalize p = .ok q := by
  obtain ⟨place, n, hres, hnode, rfl⟩ := canonicalize_eq_ok_iff.mp hp
  cases place with
  | vacant => cases hnode
  | directory T =>
      obtain ⟨T', hres', hT⟩ := resolve_directory_of_grows h hres
      rw [canonicalize_of_resolve hres' rfl, Place.names, Place.names, hT.names]
  | other T x m =>
      obtain ⟨T', m', hres', hT, -⟩ := resolve_other_of_grows h hres
      rw [canonicalize_of_resolve hres' rfl, Place.names, Place.names, hT.names]

/-- **A listing shows what it showed, and behind it what was added.** -/
theorem list_of_grows (h : fs.Grows fs') {items : List (Bytes × NodeKind)}
    (hp : fs.list p = .ok items) : ∃ more, fs'.list p = .ok (items ++ more)
      ∧ (∀ item ∈ more, item.2 ≠ .link) ∧ ((items ++ more).map (·.1)).Nodup := by
  obtain ⟨es, hnode, rfl⟩ := list_ok hp
  obtain ⟨n, hnode', hn⟩ := node_of_grows h hnode
  cases hn with
  | @directory _ gs hgrows =>
      obtain ⟨more, hmore, hkinds⟩ := hgrows.map_kind
      obtain ⟨t, hres, rfl⟩ := resolve_of_node_directory hnode'
      have hdistinct : (fs'.entriesAt t).Distinct :=
        (resolve_valid hres : Trail.Valid fs' t).distinct h.distinct
      refine ⟨more, by rw [list_of_directory hnode', hmore], hkinds, ?_⟩
      rw [← hmore, List.map_map]
      exact hdistinct.nodup

lemma isDirectory_of_grows (h : fs.Grows fs') (hp : fs.isDirectory p = true) :
    fs'.isDirectory p = true := by
  obtain ⟨es, hnode⟩ := isDirectory_iff.mp hp
  obtain ⟨n, hnode', hn⟩ := node_of_grows h hnode
  cases hn with
  | directory => exact isDirectory_iff.mpr ⟨_, hnode'⟩

/-- A path to a file is looked up to the file's name in its directory. -/
lemma resolve_of_isFile (hp : fs.isFile p = true) : ∃ T x content modified,
    fs.resolve true p = .ok (.other T x (.file content modified)) := by
  obtain ⟨content, modified, hnode⟩ := isFile_iff.mp hp
  obtain ⟨place, hres, hnode⟩ := node_ok_iff.mp hnode
  cases place with
  | directory | vacant => cases hnode
  | other T x n =>
      obtain rfl := Option.some.inj hnode
      exact ⟨T, x, content, modified, hres⟩

lemma isFile_of_grows (h : fs.Grows fs') (hp : fs.isFile p = true) : fs'.isFile p = true := by
  obtain ⟨content, modified, hnode⟩ := isFile_iff.mp hp
  obtain ⟨n, hnode', hn⟩ := node_of_grows h hnode
  cases hn with
  | file => exact isFile_iff.mpr ⟨_, _, hnode'⟩

lemma pathExists_of_isFile (hp : fs.isFile p = true) : fs.pathExists p = true := by
  obtain ⟨content, modified, hnode⟩ := isFile_iff.mp hp
  exact pathExists_iff.mpr ⟨_, hnode⟩

lemma pathExists_of_grows (h : fs.Grows fs') (hp : fs.pathExists p = true) :
    fs'.pathExists p = true := by
  obtain ⟨n, hnode⟩ := pathExists_iff.mp hp
  obtain ⟨n', hnode', -⟩ := node_of_grows h hnode
  exact pathExists_iff.mpr ⟨n', hnode'⟩

lemma isLink_of_grows (h : fs.Grows fs') (hp : fs.node false p = .ok n) :
    fs'.isLink p = fs.isLink p := by
  obtain ⟨n', hp', hn⟩ := node_of_grows h hp
  rw [isLink, isLink, hp, hp']
  cases hn <;> rfl

end Path

end FileSystem

end TreeDigest

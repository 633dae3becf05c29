import TreeDigest.FileSystem.Change
import TreeDigest.Proofs.FileSystem.Lockstep

/-!
Another node in the place of an entry.

Putting a node in the place of an entry changes what is at and below that entry, and nothing else:
a lookup that does not pass the entry takes the same way in both file systems. Which lookups pass
it depends on the links outside of it; if none of these leads into it, then only names do.

* `touched_changeAt` compares the directories outside of the entry, and `lockstep_changeAt` has
  the two file systems in step there.
* `LinksAvoid` says that no link outside of an entry leads into it; `notMem_passesOf_join` is what
  follows for a listed entry.
* `notMem_passesOf_pathOf`: plain paths that lead outside do not pass it either.
-/

namespace TreeDigest

/-! ### Changed entries -/

/-- A change in a directory that a row of names leads to from a node. -/
def Node.changeAt (steps : List Bytes) (change : Entries → Entries) : Node → Node
  | .directory es => .directory (Entries.changeAt steps change es)
  | n => n

lemma Node.kind_changeAt (steps : List Bytes) (change : Entries → Entries) (n : Node) :
    (n.changeAt steps change).kind = n.kind := by
  cases n <;> rfl

namespace Entries

variable {es : Entries} {name x : Bytes} {n : Node}

lemma find?_put_of_ne (hne : name ≠ x) (es : Entries) :
    (es.put x n).find? name = es.find? name := by
  have hne' : (x == name) = false := by simpa using hne.symm
  induction es with
  | nil => simp [put, find?, hne']
  | cons e rest ih =>
      simp only [find?] at ih ⊢
      rw [put]
      split
      · next heq =>
          rw [List.find?_cons, List.find?_cons, heq]
          simp [hne']
      · rw [List.find?_cons, List.find?_cons]
        split
        · rfl
        · exact ih

lemma changeAt_cons (step : Bytes) (steps : List Bytes) (change : Entries → Entries)
    (es : Entries) :
    changeAt (step :: steps) change es
      = es.map fun e => (e.1, if e.1 = step then e.2.changeAt steps change else e.2) := by
  rw [changeAt]
  refine List.map_congr_left fun e _ => ?_
  obtain ⟨name, n⟩ := e
  split
  · cases n <;> rfl
  · rfl

/-- Where a change further below is made, a name finds what it found, with the change. -/
lemma find?_changeAt_cons (step : Bytes) (steps : List Bytes) (change : Entries → Entries)
    (es : Entries) (name : Bytes) :
    (changeAt (step :: steps) change es).find? name
      = (es.find? name).map fun n => if name = step then n.changeAt steps change else n := by
  rw [changeAt_cons, find?, find?, List.find?_map, Option.map_map, Option.map_map]
  cases hx : List.find? (fun e => e.1 == name) es with
  | none => simp [Function.comp_def, hx]
  | some e =>
      obtain rfl : e.1 = name := by simpa using List.find?_some hx
      simp [Function.comp_def, hx]

/-- A name is put where it was. -/
lemma forall₂_put (hfind : es.find? x ≠ none) :
    List.Forall₂ (fun a b => a.1 = b.1 ∧ (a.1 = x ∨ a.2 = b.2)) es (es.put x n) := by
  induction es with
  | nil => simp [find?] at hfind
  | cons e rest ih =>
      rw [put]
      have hsame : ∀ es : Entries,
          List.Forall₂ (fun a b => a.1 = b.1 ∧ (a.1 = x ∨ a.2 = b.2)) es es := fun es =>
        List.forall₂_same.mpr fun e _ => ⟨rfl, .inr rfl⟩
      split
      · next heq => exact .cons ⟨heq, .inl heq⟩ (hsame rest)
      · next hne =>
          refine .cons ⟨rfl, .inr rfl⟩ (ih ?_)
          simpa [find?, List.find?_cons, hne] using hfind

/-- A change further below does not show in a listing. -/
lemma map_kind_changeAt (step : Bytes) (steps : List Bytes) (change : Entries → Entries)
    (es : Entries) :
    (changeAt (step :: steps) change es).map (fun e => (e.1, e.2.kind))
      = es.map fun e => (e.1, e.2.kind) := by
  rw [changeAt_cons, List.map_map]
  refine List.map_congr_left fun e _ => ?_
  simp only [Function.comp_apply]
  split
  · rw [Node.kind_changeAt]
  · rfl

end Entries

namespace FileSystem

open TreeDigest.Path

namespace Trail

variable {fs : FileSystem}

lemma names_cons (step : Bytes × Entries) (t : Trail) :
    names (step :: t) = t.names ++ [step.1] := by
  simp [names]

lemma names_cons_inj {step step' : Bytes × Entries} {t t' : Trail} :
    names (step :: t) = names (step' :: t') ↔ t.names = t'.names ∧ step.1 = step'.1 := by
  simp [names]

lemma eq_nil_of_names {t : Trail} (hnames : t.names = []) : t = [] := by simpa [names] using hnames

/-- The names along a trail say where it leads. -/
lemma Valid.eq_of_names {t u : Trail} (ht : t.Valid fs) (hu : u.Valid fs)
    (hnames : t.names = u.names) : t = u := by
  induction t generalizing u with
  | nil => exact (eq_nil_of_names hnames.symm).symm
  | cons step t ih =>
      obtain ⟨name, es⟩ := step
      cases u with
      | nil => simp [names] at hnames
      | cons step' u =>
          obtain ⟨name', es'⟩ := step'
          obtain ⟨hrest, rfl⟩ := names_cons_inj.mp hnames
          obtain rfl := ih ht.2 hu.2 hrest
          obtain rfl : es = es' := by simpa using ht.1.symm.trans hu.1
          rfl

end Trail

/-- The names of a valid trail lead along it. -/
lemma trailOf?_names {fs : FileSystem} {t : Trail} (ht : t.Valid fs) :
    fs.trailOf? t.names = some t := by
  induction t with
  | nil => rfl
  | cons step t ih =>
      rw [Trail.names_cons, trailOf?_append, ih ht.2, Option.bind_some, ht.1]

/-! ### Outside of an entry -/

/-- Two trails of the same names, one in each of two file systems, that lead neither to an entry nor
into it. -/
structure Trail.Outside (fs fs' : FileSystem) (place : List Bytes) (t t' : Trail) : Prop where
  valid : t.Valid fs
  valid' : t'.Valid fs'
  names : t.names = t'.names
  apart : ¬ place <+: t.names

section Changed

variable {fs : FileSystem} {T t t' : Trail} {x : Bytes} {n : Node}

/-- What a change of one entry does to the directory at the end of a trail: it is made in it or
further below, or the directory stays. -/
def Trail.Touched (T : Trail) (change : Entries → Entries) (t : Trail) (es es' : Entries) : Prop :=
  (∃ rest, T.names = t.names ++ rest ∧ es' = es.changeAt rest change)
    ∨ ¬ t.names <+: T.names ∧ es' = es

/-- What a name finds in a directory is changed further below, or it stays. -/
lemma Trail.Touched.find? {es es' : Entries} {name : Bytes} (h : T.Touched (·.put x n) t es es')
    (hne : t.names ++ [name] ≠ T.names ++ [x]) :
    (∃ rest, T.names = t.names ++ name :: rest
        ∧ es'.find? name = (es.find? name).map (Node.changeAt rest (·.put x n)))
      ∨ ¬ t.names ++ [name] <+: T.names ∧ es'.find? name = es.find? name := by
  rcases h with ⟨rest, hT, rfl⟩ | ⟨hapart, rfl⟩
  · cases rest with
    | nil =>
        rw [List.append_nil] at hT
        have hname : name ≠ x := by
          rintro rfl
          exact hne (by rw [hT])
        refine .inr ⟨fun hunder => ?_, Entries.find?_put_of_ne hname es⟩
        have hlength := hunder.length_le
        simp [hT] at hlength
    | cons step rest =>
        rw [Entries.find?_changeAt_cons]
        by_cases hstep : name = step
        · subst hstep
          exact .inl ⟨rest, hT, by simp only [if_true]⟩
        · refine .inr ⟨?_, by simp only [if_neg hstep, Option.map_id']⟩
          rw [hT, List.prefix_append_right_inj]
          simpa [List.cons_prefix_cons] using hstep
  · exact .inr ⟨fun hunder => hapart ((List.prefix_append _ _).trans hunder), rfl⟩

/-- **Outside of an entry, another node in it changes only directories on the way there.** -/
lemma touched_changeAt
    (ht : Trail.Outside fs (fs.changeAt T (·.put x n)) (T.names ++ [x]) t t') :
    T.Touched (·.put x n) t (fs.entriesAt t) ((fs.changeAt T (·.put x n)).entriesAt t') := by
  induction t generalizing t' with
  | nil =>
      obtain rfl := Trail.eq_nil_of_names ht.names.symm
      exact .inl ⟨T.names, rfl, rfl⟩
  | cons step t ih =>
      obtain ⟨name, es⟩ := step
      cases t' with
      | nil => simpa [Trail.names] using congrArg List.length ht.names
      | cons step' t' =>
          obtain ⟨name', es'⟩ := step'
          obtain ⟨hnames, rfl⟩ := Trail.names_cons_inj.mp ht.names
          have hapart := ht.apart
          rw [Trail.names_cons] at hapart
          have hbefore := ih ⟨ht.valid.2, ht.valid'.2, hnames,
            fun hunder => hapart (hunder.trans (List.prefix_append _ _))⟩
          have hne : Trail.names t ++ [name] ≠ T.names ++ [x] := fun heq =>
            hapart (heq ▸ List.prefix_refl _)
          rw [Trail.Touched, Trail.names_cons]
          rcases hbefore.find? hne with ⟨rest, hT, hfind⟩ | ⟨hapart, hfind⟩
          · rw [ht.valid.1, ht.valid'.1] at hfind
            have hes : es' = es.changeAt rest (·.put x n) := by simpa [Node.changeAt] using hfind
            exact .inl ⟨rest, by simpa using hT, hes⟩
          · rw [ht.valid.1, ht.valid'.1] at hfind
            have hes : es' = es := by simpa using hfind
            exact .inr ⟨hapart, hes⟩

/-- **Outside of an entry, lookups go in step**, whatever node is put in its place. -/
lemma lockstep_changeAt : Lockstep fs (fs.changeAt T (·.put x n))
    (Trail.Outside fs (fs.changeAt T (·.put x n)) (T.names ++ [x])) (· = T.names ++ [x]) where
  nil := ⟨trivial, trivial, rfl, by simp [Trail.names]⟩
  tail {t t'} ht := by
    cases t with
    | nil =>
        obtain rfl := Trail.eq_nil_of_names ht.names.symm
        exact ht
    | cons step t =>
        cases t' with
        | nil => exact absurd (Trail.eq_nil_of_names ht.names) (by simp)
        | cons step' t' =>
            obtain ⟨hnames, -⟩ := Trail.names_cons_inj.mp ht.names
            exact ⟨ht.valid.tail, ht.valid'.tail, hnames, fun hunder => ht.apart
              (hunder.trans (Trail.names_cons step t ▸ List.prefix_append _ _))⟩
  names ht := ht.names
  find {t t' name} ht hne := by
    have hdown : ∀ {es es'}, (fs.entriesAt t).find? name = some (.directory es) →
        ((fs.changeAt T (·.put x n)).entriesAt t').find? name = some (.directory es') →
        Trail.Outside fs (fs.changeAt T (·.put x n)) (T.names ++ [x]) ((name, es) :: t)
          ((name, es') :: t') := by
      intro es es' hes hes'
      refine ⟨⟨hes, ht.valid⟩, ⟨hes', ht.valid'⟩, Trail.names_cons_inj.mpr ⟨ht.names, rfl⟩, ?_⟩
      rw [Trail.names_cons, List.prefix_concat_iff]
      exact not_or.mpr ⟨fun heq => hne heq.symm, ht.apart⟩
    rcases (touched_changeAt ht).find? hne with ⟨rest, -, hfind⟩ | ⟨-, hfind⟩
    · cases hx : (fs.entriesAt t).find? name with
      | none =>
          rw [hfind, hx]
          exact .none
      | some m =>
          rw [hx, Option.map_some] at hfind
          rw [hfind]
          cases m with
          | directory es => exact .some (.directory (hdown hx hfind))
          | file | link | special => exact .some (.other (by simp [Node.kind]))
    · rw [hfind]
      cases hx : (fs.entriesAt t).find? name with
      | none => exact .none
      | some m =>
          cases m with
          | directory es => exact .some (.directory (hdown hx (hfind.trans hx)))
          | file | link | special => exact .some (.other (by simp [Node.kind]))

/-- A listing outside of an entry shows the same, if not what kind of node the entry is. -/
lemma forall₂_changeAt (hT : T.Valid fs) (hx : (fs.entriesAt T).find? x ≠ none)
    (ht : Trail.Outside fs (fs.changeAt T (·.put x n)) (T.names ++ [x]) t t') :
    List.Forall₂ (fun a b => a.1 = b.1 ∧ (t.names ++ [a.1] = T.names ++ [x] ∨ a.2 = b.2))
      ((fs.entriesAt t).map fun e => (e.1, e.2.kind))
      (((fs.changeAt T (·.put x n)).entriesAt t').map fun e => (e.1, e.2.kind)) := by
  have hsame : ∀ items : List (Bytes × NodeKind), List.Forall₂
      (fun a b => a.1 = b.1 ∧ (t.names ++ [a.1] = T.names ++ [x] ∨ a.2 = b.2)) items items :=
    fun items => List.forall₂_same.mpr fun _ _ => ⟨rfl, .inr rfl⟩
  rcases touched_changeAt ht with ⟨rest, hnames, hes⟩ | ⟨-, hes⟩
  · cases rest with
    | cons step rest =>
        rw [hes, Entries.map_kind_changeAt]
        exact hsame _
    | nil =>
        -- The entry's own directory: only there the listing may say something else of it.
        rw [List.append_nil] at hnames
        obtain rfl := hT.eq_of_names ht.valid hnames
        rw [hes, List.forall₂_map_left_iff, List.forall₂_map_right_iff]
        refine (Entries.forall₂_put hx).imp fun a b hab => ⟨hab.1, ?_⟩
        rcases hab.2 with rfl | heq
        · exact .inl rfl
        · exact .inr (by rw [heq])
  · rw [hes]
    exact hsame _

end Changed

/-! ### Links that lead past an entry -/

/-- No link outside of an entry leads to the entry, into it or through it. -/
def LinksAvoid (fs : FileSystem) (place : List Bytes) : Prop :=
  ∀ t name target, Trail.Valid fs t → ¬ place <+: t.names ++ [name] →
    (fs.entriesAt t).find? name = some (.link target) →
    place ∉ fs.passes true maxLinks (linkStart t target) (segments ⟨target⟩)

section Avoid

variable {fs : FileSystem} {place : List Bytes} {t : Trail} {p : Path} {name : Bytes}

/-- A name that is looked up in a directory passes an entry only if it is its own, or a link that
leads there. -/
lemma LinksAvoid.notMem_passes (h : fs.LinksAvoid place) (ht : t.Valid fs)
    (hapart : ¬ place <+: t.names) (hname : IsName name) (hne : t.names ++ [name] ≠ place)
    {links : ℕ} (hlinks : links ≤ maxLinks) : place ∉ fs.passes true links t [name] := by
  have hskip : ¬ (name = [] ∨ name = [dot]) := by simp [hname.nonempty, hname.notDot]
  intro hmem
  rcases mem_passes hmem with hmem | ⟨left, t', target, rest, rfl, hl, hmem⟩
  · rw [legPasses, if_neg hskip, if_neg hname.notDots] at hmem
    split at hmem
    · simp at hmem
    · rcases List.mem_cons.mp hmem with heq | hmem
      · exact hne heq.symm
      · split at hmem <;> simp [legPasses] at hmem
  · obtain ⟨rfl, rfl, hfind⟩ : t = t' ∧ rest = []
        ∧ (fs.entriesAt t).find? name = some (.link target) := by
      rw [leg, if_neg hskip, if_neg hname.notDots] at hl
      split at hl
      · cases hl
      · cases hfind : (fs.entriesAt t).find? name with
        | none => simp [hfind] at hl
        | some n => cases n <;> simp_all [leg]
    have hlink : ¬ place <+: t.names ++ [name] := by
      rw [List.prefix_concat_iff]
      exact not_or.mpr ⟨hne.symm, hapart⟩
    rw [List.append_nil] at hmem
    exact h t name target ht hlink hfind (passes_subset (Nat.le_of_succ_le hlinks) hmem)

/-- **A listed entry is looked up past another one**, if its directory is. -/
lemma LinksAvoid.notMem_passesOf_join (h : fs.LinksAvoid place) (habs : p.isAbsolute = true)
    (hres : fs.resolve true p = .ok (.directory t)) (hapart : ¬ place <+: t.names)
    (hp : place ∉ fs.passesOf p) (hname : IsName name) (hne : t.names ++ [name] ≠ place) :
    place ∉ fs.passesOf (p.join ⟨name⟩) := by
  obtain ⟨hacc, start, hstart, hlegs⟩ := resolve_ok hres
  have habs' : (p.join ⟨name⟩).isAbsolute = true := (isAbsolute_join p hname).trans habs
  rw [startOf, if_pos habs] at hstart
  obtain rfl := Except.ok.inj hstart
  rw [passesOf, startOf, if_pos habs] at hp
  rw [passesOf, startOf, if_pos habs', steps_join hacc.nonempty hname]
  intro hmem
  rcases mem_passes_append (List.cons_ne_nil _ _) hmem with hmem | ⟨t', left, hle, hlegs', hmem⟩
  · exact hp hmem
  · obtain rfl : t = t' := by
      rw [Bool.true_or] at hlegs
      simpa using hlegs.symm.trans hlegs'
    exact h.notMem_passes (resolve_valid hres) hapart hname hne hle hmem

/-- On the way along a trail only the directories on it are passed. -/
lemma mem_passes_names (hfs : fs.WellFormed) (ht : t.Valid fs) {links : ℕ} {more q : List Bytes}
    (hq : q ∈ fs.passes true links [] (t.names ++ more)) :
    q <+: t.names ∨ q ∈ fs.passes true links t more := by
  have hleg : q ∈ fs.legPasses [] (t.names ++ more) → q <+: t.names ∨ q ∈ fs.legPasses t more := by
    clear hq
    induction t generalizing more with
    | nil => exact .inr
    | cons step t ih =>
        obtain ⟨name, es⟩ := step
        obtain ⟨hfind, ht⟩ := ht
        have hname := (ht.wellFormed hfs).isName (Entries.mem_of_find? hfind)
        have hskip : ¬ (name = [] ∨ name = [dot]) := by simp [hname.nonempty, hname.notDot]
        rw [Trail.names_cons, List.append_assoc, List.prefix_concat_iff, or_assoc]
        intro hq
        rcases ih ht hq with hq | hq
        · exact .inr (.inl hq)
        · rw [List.singleton_append, legPasses, if_neg hskip, if_neg hname.notDots] at hq
          split at hq
          · simp at hq
          · rw [hfind] at hq
            exact (List.mem_cons.mp hq).imp_right .inr
  rcases mem_passes hq with hq | ⟨left, t', target, rest, rfl, hl, hq⟩
  · exact (hleg hq).imp_right fun hq => legPasses_subset hq
  · rcases leg_names hfs ht with hsame | hlong
    · exact .inr (passes_link ((hsame true more).symm.trans hl) hq)
    · simp [hlong] at hl

/-- **Plain paths that lead outside of an entry are looked up past it.** -/
lemma LinksAvoid.notMem_passesOf_pathOf (h : fs.LinksAvoid place) (hfs : fs.WellFormed)
    {q : Place} (hq : q.Valid fs) (hapart : ¬ place <+: q.names)
    (hfound : ∀ t name, q ≠ .vacant t name) : place ∉ fs.passesOf (pathOf q.names) := by
  -- The names of a directory lead there; behind them, at most the name of an entry is left.
  have key : ∀ (t : Trail) more, t.Valid fs → ¬ place <+: t.names → (∀ name ∈ more, IsName name) →
      place ∉ fs.passes true maxLinks t more → place ∉ fs.passesOf (pathOf (t.names ++ more)) := by
    intro t more ht hapart hmore hrest hmem
    have hnames : ∀ name ∈ t.names ++ more, IsName name := fun name hname =>
      (List.mem_append.mp hname).elim (ht.isName hfs name) (hmore name)
    rw [passesOf, steps_pathOf hnames] at hmem
    exact (mem_passes_names hfs ht hmem).elim hapart hrest
  cases q with
  | vacant t name => exact absurd rfl (hfound t name)
  | directory t =>
      have hdirectory := key t [] hq hapart (by simp) (by simp [passes_nil])
      rwa [List.append_nil] at hdirectory
  | other t name n =>
      obtain ⟨ht, hfind, -⟩ := hq
      have hname := (ht.wellFormed hfs).isName (Entries.mem_of_find? hfind)
      rw [Place.names, List.prefix_concat_iff, not_or] at hapart
      exact key t [name] ht hapart.2 (by simpa using hname)
        (h.notMem_passes ht hapart.2 hname (Ne.symm hapart.1) le_rfl)

end Avoid

/-! ### Looking past a changed entry -/

section Past

variable {fs : FileSystem} {T : Trail} {x : Bytes} {n : Node} {q : Path}

/-- **A path that does not pass an entry is looked up in step**, whatever node the entry is. -/
lemma resolve_changeAt (habs : q.isAbsolute = true) (hq : T.names ++ [x] ∉ fs.passesOf q)
    (follow : Bool) :
    InStep (Place.Same (Trail.Outside fs (fs.changeAt T (·.put x n)) (T.names ++ [x]))
        (· = T.names ++ [x]))
      (fs.resolve follow q) ((fs.changeAt T (·.put x n)).resolve follow q) := by
  refine lockstep_changeAt.resolve follow ?_ fun place hplace => ?_
  · rw [startOf, startOf, if_pos habs, if_pos habs]
    exact .ok lockstep_changeAt.nil
  · rintro rfl
    exact hq hplace

/-- What is listed in a directory is the same, and is again looked up past the entry; only of the
entry itself the listing may say something else. -/
lemma list_changeAt (hfs : fs.WellFormed) (hT : T.Valid fs) (hx : (fs.entriesAt T).find? x ≠ none)
    (hlinks : fs.LinksAvoid (T.names ++ [x])) (habs : q.isAbsolute = true)
    (hq : T.names ++ [x] ∉ fs.passesOf q) :
    InStep (List.Forall₂ fun a b => a.1 = b.1 ∧ (a.1 = x ∨ a.2 = b.2 ∧ IsName a.1
        ∧ T.names ++ [x] ∉ fs.passesOf (q.join ⟨a.1⟩)))
      (fs.list q) ((fs.changeAt T (·.put x n)).list q) := by
  have hres := resolve_changeAt (n := n) habs hq true
  rw [list, list, node_eq, node_eq]
  generalize hr : fs.resolve true q = r at hres
  generalize (fs.changeAt T (·.put x n)).resolve true q = r' at hres
  cases hres with
  | error e => exact .error e
  | ok hplace =>
      cases hplace with
      | vacant ht => exact .error _
      | @other t t' name m ht hkind =>
          cases m with
          | directory es => exact absurd rfl hkind
          | file | link | special => exact .error _
      | @directory t t' ht =>
          have hname : ∀ a ∈ (fs.entriesAt t).map fun e => (e.1, e.2.kind), IsName a.1 := by
            intro a ha
            obtain ⟨e, he, rfl⟩ := List.mem_map.mp ha
            exact (ht.valid.wellFormed hfs).isName he
          refine .ok (((List.forall₂_and_left _ _).mpr ⟨hname, forall₂_changeAt hT hx ht⟩).imp ?_)
          rintro a b ⟨hname, heq, hentry⟩
          by_cases hplace : t.names ++ [a.1] = T.names ++ [x]
          · exact ⟨heq, .inl (List.singleton_inj.mp (List.append_inj' hplace rfl).2)⟩
          · exact ⟨heq, .inr ⟨hentry.resolve_left hplace, hname,
              hlinks.notMem_passesOf_join habs hr ht.apart hq hname hplace⟩⟩

end Past

end FileSystem

end TreeDigest

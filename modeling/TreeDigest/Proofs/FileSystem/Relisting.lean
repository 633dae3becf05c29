import TreeDigest.Proofs.FileSystem.Lockstep

/-!
File systems whose directories list their entries in other orders.

A lookup goes by names, and the names in a directory are distinct, so it does not see the order in
which a directory lists them. Relisting puts the entries of every directory into any order, and a
file system and a relisted one are looked at in step: a path leads to the same error, or to nodes
that are again the same up to the order of entries.

* `Node.Relisted`, `Entries.Relisted` and `FileSystem.Relisted` are the relations.
* `Entries.Relisted.find?` is the one step in which the order could matter; by it
  `lockstep_relisted` has the two file systems in step.
* `Relisted.node`, `Relisted.list`, `Relisted.read` and `Relisted.canonicalize` are what a scan sees
  of it.
-/

namespace TreeDigest

/-! ### Relisted nodes -/

mutual

/-- The same node, up to the order in which directories list their entries. -/
inductive Node.Relisted : Node → Node → Prop where
  | file (content : Bytes) (modified : Int) :
      Node.Relisted (.file content modified) (.file content modified)
  | link (target : Bytes) : Node.Relisted (.link target) (.link target)
  | special : Node.Relisted .special .special
  | directory {es fs gs : Entries} : Entries.RelistedBelow es fs → fs.Perm gs →
      Node.Relisted (.directory es) (.directory gs)

/-- The same entries in the same order, with relisted nodes. -/
inductive Entries.RelistedBelow : Entries → Entries → Prop where
  | nil : Entries.RelistedBelow [] []
  | cons {name : Bytes} {n n' : Node} {es fs : Entries} :
      Node.Relisted n n' → Entries.RelistedBelow es fs →
      Entries.RelistedBelow ((name, n) :: es) ((name, n') :: fs)

end

/-- The same entries in another order, with relisted nodes. -/
def Entries.Relisted (es gs : Entries) : Prop := ∃ fs, es.RelistedBelow fs ∧ fs.Perm gs

namespace Node.Relisted

variable {n n' : Node}

lemma kind_eq (hn : n.Relisted n') : n.kind = n'.kind := by
  cases hn <;> rfl

lemma directory_iff {es gs : Entries} :
    Node.Relisted (.directory es) (.directory gs) ↔ es.Relisted gs := by
  constructor
  · intro hn
    cases hn with
    | directory hbelow hperm => exact ⟨_, hbelow, hperm⟩
  · rintro ⟨fs, hbelow, hperm⟩
    exact .directory hbelow hperm

end Node.Relisted

mutual

/-- Every node is relisted to itself. -/
lemma Node.Relisted.refl (n : Node) : n.Relisted n := by
  match n with
  | .file content modified => exact .file content modified
  | .link target => exact .link target
  | .special => exact .special
  | .directory es => exact .directory (Entries.RelistedBelow.refl es) (.refl es)

lemma Entries.RelistedBelow.refl (es : Entries) : es.RelistedBelow es := by
  match es with
  | [] => exact .nil
  | (name, n) :: es => exact .cons (Node.Relisted.refl n) (Entries.RelistedBelow.refl es)

end

namespace Entries

variable {es fs gs : Entries} {name : Bytes} {n : Node}

namespace RelistedBelow

lemma map_name (h : es.RelistedBelow fs) : es.map (·.1) = fs.map (·.1) := by
  induction es generalizing fs with
  | nil =>
      cases h
      rfl
  | cons e es ih =>
      cases h with
      | cons hn hrest => rw [List.map_cons, List.map_cons, ih hrest]

lemma map_kind (h : es.RelistedBelow fs) :
    es.map (fun e => (e.1, e.2.kind)) = fs.map (fun e => (e.1, e.2.kind)) := by
  induction es generalizing fs with
  | nil =>
      cases h
      rfl
  | cons e es ih =>
      cases h with
      | cons hn hrest => rw [List.map_cons, List.map_cons, ih hrest, hn.kind_eq]

lemma of_mem_left (h : es.RelistedBelow fs) (hmem : (name, n) ∈ es) :
    ∃ n', (name, n') ∈ fs ∧ n.Relisted n' := by
  induction es generalizing fs with
  | nil => simp at hmem
  | cons e es ih =>
      cases h with
      | @cons _ m m' _ fs hn hrest =>
          obtain heq | hmem := List.mem_cons.mp hmem
          · obtain ⟨rfl, rfl⟩ := Prod.mk.inj heq
            exact ⟨m', List.mem_cons_self, hn⟩
          · obtain ⟨n', hn', hrelisted⟩ := ih hrest hmem
            exact ⟨n', List.mem_cons_of_mem _ hn', hrelisted⟩

lemma of_mem_right (h : es.RelistedBelow fs) (hmem : (name, n) ∈ fs) :
    ∃ n', (name, n') ∈ es ∧ n'.Relisted n := by
  induction es generalizing fs with
  | nil =>
      cases h
      simp at hmem
  | cons e es ih =>
      cases h with
      | @cons _ m m' _ fs hn hrest =>
          obtain heq | hmem := List.mem_cons.mp hmem
          · obtain ⟨rfl, rfl⟩ := Prod.mk.inj heq
            exact ⟨m, List.mem_cons_self, hn⟩
          · obtain ⟨n', hn', hrelisted⟩ := ih hrest hmem
            exact ⟨n', List.mem_cons_of_mem _ hn', hrelisted⟩

end RelistedBelow

namespace Relisted

/-- The entries of a directory may just stand in another order. -/
lemma of_perm (hperm : es.Perm gs) : es.Relisted gs := ⟨es, .refl es, hperm⟩

lemma of_mem_left (h : es.Relisted gs) (hmem : (name, n) ∈ es) :
    ∃ n', (name, n') ∈ gs ∧ n.Relisted n' := by
  obtain ⟨fs, hbelow, hperm⟩ := h
  obtain ⟨n', hn', hrelisted⟩ := hbelow.of_mem_left hmem
  exact ⟨n', hperm.mem_iff.mp hn', hrelisted⟩

lemma of_mem_right (h : es.Relisted gs) (hmem : (name, n) ∈ gs) :
    ∃ n', (name, n') ∈ es ∧ n'.Relisted n := by
  obtain ⟨fs, hbelow, hperm⟩ := h
  exact hbelow.of_mem_right (hperm.mem_iff.mpr hmem)

/-- The listings are the same up to their order. -/
lemma map_kind_perm (h : es.Relisted gs) :
    (es.map fun e => (e.1, e.2.kind)).Perm (gs.map fun e => (e.1, e.2.kind)) := by
  obtain ⟨fs, hbelow, hperm⟩ := h
  rw [hbelow.map_kind]
  exact hperm.map _

/-- Names are still proper and distinct. -/
lemma wellFormed (h : es.Relisted gs) (hes : es.WellFormed) : gs.WellFormed := by
  induction hes generalizing gs with
  | @intro es hnames hnodup hinner ih =>
      have hperm : (es.map (·.1)).Perm (gs.map (·.1)) := by
        obtain ⟨fs, hbelow, hperm⟩ := h
        rw [hbelow.map_name]
        exact hperm.map _
      refine .intro (fun e he => ?_) (hperm.nodup_iff.mp hnodup) fun name inner hmem => ?_
      · obtain ⟨name, n⟩ := e
        obtain ⟨n', hn', -⟩ := h.of_mem_right he
        exact hnames (name, n') hn'
      · obtain ⟨n', hn', hrelisted⟩ := h.of_mem_right hmem
        cases hrelisted with
        | directory hbelow hperm => exact ih name _ hn' ⟨_, hbelow, hperm⟩

/-- **A name finds relisted nodes**, or nothing in either. -/
lemma find? (h : es.Relisted gs) (hes : es.WellFormed) (name : Bytes) :
    Option.Rel Node.Relisted (es.find? name) (gs.find? name) := by
  cases hfind : es.find? name with
  | some n =>
      obtain ⟨n', hmem, hrelisted⟩ := h.of_mem_left (mem_of_find? hfind)
      rw [(h.wellFormed hes).find?_eq hmem]
      exact .some hrelisted
  | none =>
      cases hfind' : gs.find? name with
      | none => exact .none
      | some n' =>
          -- What is found in the relisted directory was listed before, and would have been found.
          obtain ⟨n, hmem, -⟩ := h.of_mem_right (mem_of_find? hfind')
          rw [hes.find?_eq hmem] at hfind
          cases hfind

end Relisted

end Entries

/-! ### Looking in step -/

namespace FileSystem

open TreeDigest.Path

/-- A file system with the entries of its directories in another order. -/
structure Relisted (fs fs' : FileSystem) : Prop where
  root : fs.root.Relisted fs'.root
  current : fs.current = fs'.current

/-- Two trails of the same names, through relisted directories. -/
def Trail.Relisted : Trail → Trail → Prop :=
  List.Forall₂ fun a b => a.1 = b.1 ∧ a.2.Relisted b.2 ∧ a.2.WellFormed

namespace Trail.Relisted

variable {t t' : Trail}

lemma names_eq (ht : t.Relisted t') : t.names = t'.names := by
  have hmap : t.map (·.1) = t'.map (·.1) := by
    induction ht with
    | nil => rfl
    | cons hstep _ ih => rw [List.map_cons, List.map_cons, hstep.1, ih]
  rw [names, names, hmap]

lemma tail (ht : t.Relisted t') : Trail.Relisted t.tail t'.tail := by
  cases ht with
  | nil => exact .nil
  | cons _ ht => exact ht

end Trail.Relisted

section

variable {fs fs' : FileSystem} {t t' : Trail}

lemma entriesAt_relisted (hfs : fs.WellFormed) (h : fs.Relisted fs') (ht : t.Relisted t') :
    (fs.entriesAt t).Relisted (fs'.entriesAt t') ∧ (fs.entriesAt t).WellFormed := by
  cases ht with
  | nil => exact ⟨h.root, hfs⟩
  | cons hstep _ => exact hstep.2

/-- **Relisted file systems are in step.** The one step in which the order could matter is that a
name is looked for in a directory. -/
lemma lockstep_relisted (hfs : fs.WellFormed) (h : fs.Relisted fs') :
    Lockstep fs fs' Trail.Relisted fun _ => False where
  nil := .nil
  tail := Trail.Relisted.tail
  names := Trail.Relisted.names_eq
  find {t t' name} ht _ := by
    obtain ⟨hes, hwell⟩ := entriesAt_relisted hfs h ht
    have hfind := hes.find? hwell name
    generalize hx : (fs.entriesAt t).find? name = x at hfind
    generalize (fs'.entriesAt t').find? name = y at hfind
    cases hfind with
    | none => exact .none
    | @some n n' hn =>
        cases hn with
        | directory hbelow hperm =>
            have hinner := hwell.inner (Entries.mem_of_find? hx)
            exact .some (.directory (.cons ⟨rfl, ⟨_, hbelow, hperm⟩, hinner⟩ ht))
        | link target => exact .some (.other (by simp [Node.kind]))
        | file content modified => exact .some (.other (by simp [Node.kind]))
        | special => exact .some (.other (by simp [Node.kind]))

/-- A path is looked up in step. -/
lemma resolve_relisted (hfs : fs.WellFormed) (h : fs.Relisted fs') (follow : Bool) (p : Path) :
    InStep (Place.Same Trail.Relisted fun _ => False) (fs.resolve follow p)
      (fs'.resolve follow p) := by
  have hstep := lockstep_relisted hfs h
  refine hstep.resolve follow ?_ fun _ _ => not_false
  rw [startOf, startOf]
  split
  · exact .ok .nil
  · exact hstep.currentTrail h.current fun _ _ => not_false

end

namespace Relisted

variable {fs fs' : FileSystem}

/-- A file system may be listed in the same order. -/
lemma refl (fs : FileSystem) : fs.Relisted fs := ⟨.of_perm (.refl fs.root), rfl⟩

/-- **A path leads to relisted nodes**, or to the same error. -/
theorem node (hfs : fs.WellFormed) (h : fs.Relisted fs') (follow : Bool) (p : Path) :
    InStep Node.Relisted (fs.node follow p) (fs'.node follow p) := by
  refine (leads_of_resolve (resolve_relisted hfs h follow p)).imp fun n n' hn => ?_
  cases hn with
  | directory ht => exact Node.Relisted.directory_iff.mpr (entriesAt_relisted hfs h ht).1
  | other => exact .refl n

/-- **A directory lists the same entries**, in some order. -/
theorem list (hfs : fs.WellFormed) (h : fs.Relisted fs') (p : Path) :
    InStep List.Perm (fs.list p) (fs'.list p) := by
  refine (h.node hfs true p).bind fun n n' hn => ?_
  cases hn with
  | directory hbelow hperm => exact .ok (Entries.Relisted.map_kind_perm ⟨_, hbelow, hperm⟩)
  | file | link | special => exact .error _

/-- **A file has the same content.** -/
theorem read (hfs : fs.WellFormed) (h : fs.Relisted fs') (p : Path) : fs.read p = fs'.read p :=
  read_of_leads (leads_of_resolve (resolve_relisted hfs h true p))

lemma isLink (hfs : fs.WellFormed) (h : fs.Relisted fs') (p : Path) :
    fs.isLink p = fs'.isLink p :=
  isLink_of_kind ((h.node hfs false p).imp fun _ _ hn => hn.kind_eq)

/-- **A path has the same plain form.** -/
theorem canonicalize (hfs : fs.WellFormed) (h : fs.Relisted fs') (p : Path) :
    fs.canonicalize p = fs'.canonicalize p :=
  (lockstep_relisted hfs h).canonicalize (resolve_relisted hfs h true p)

lemma currentPath (hfs : fs.WellFormed) (h : fs.Relisted fs') :
    fs.currentPath = fs'.currentPath :=
  (lockstep_relisted hfs h).currentPath
    ((lockstep_relisted hfs h).currentTrail h.current fun _ _ => not_false)

end Relisted

end FileSystem

end TreeDigest

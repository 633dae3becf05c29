import TreeDigest.Proofs.FileSystem.Lockstep
import TreeDigest.Scan.Walk

/-!
Where a walk starts, and how deep it can go.

A walk looks at its root without following it, and once more if that is a link. What it does then
depends on one thing only: the kind that it goes on from, or the error for which it does not.
Whatever explores a tree from its root on asks for the two nodes in the same way.

A walk stops where its room runs out. It never does before a path is too long to be looked up, as
every level makes a path longer by two bytes.

* `FileSystem.rootKind` is this kind or this error, and `match_rootKind` is the one case split.
* `rootKind_of_missing` and `rootKind_of_stands` find it from what there is at the root, and
  `rootKind_of_inStep` compares it in two file systems.
* `run_eq_rootKind`: a walk goes on from the kind of its root.
* `Walk.HasRoom` is the invariant on lengths of paths: it holds at the root (`hasRoom_root`), is kept
  from a directory to its entries (`HasRoom.join`), and leaves room at every path that can be looked
  up (`HasRoom.one_lt`).
-/

namespace TreeDigest

namespace FileSystem

variable {fs fs' : FileSystem} {p p' : Path} {n : Node} {kind : NodeKind} {e : IoError}

/-- The kind of node that a walk goes on from at its root. A link that leads nowhere has none. -/
def rootKind (fs : FileSystem) (p : Path) : Except IoError NodeKind :=
  match fs.node false p with
  | .error e => .error e
  | .ok node =>
    match node.kind, fs.node true p with
    | .link, .error e => .error e
    | kind, _ => .ok kind

/-- **What is made of the nodes at a root is made of its kind**, where both ways to find nothing
come to the same. -/
lemma match_rootKind {β : Type} (fs : FileSystem) (p : Path) (gone : IoError → β)
    (found : NodeKind → β) :
    (match fs.node false p with
      | .error e => gone e
      | .ok node =>
        match node.kind, fs.node true p with
        | .link, .error e => gone e
        | kind, _ => found kind)
      = match fs.rootKind p with
        | .error e => gone e
        | .ok kind => found kind := by
  rw [rootKind]
  cases fs.node false p with
  | error e => rfl
  | ok node =>
      dsimp only
      cases node.kind with
      | file | directory | special => rfl
      | link => cases fs.node true p <;> rfl

/-- What is not a link is gone on from. -/
lemma rootKind_eq (hnode : fs.node false p = .ok n) (hkind : n.kind ≠ .link) :
    fs.rootKind p = .ok n.kind := by
  rw [rootKind, hnode]
  cases hk : n.kind with
  | link => exact absurd hk hkind
  | file | directory | special => simp only [hk]

/-- Where the root leads nowhere, there is nothing to go on from. -/
lemma rootKind_of_missing (hnode : fs.node true p = .error e) : fs.rootKind p = .error e := by
  rw [rootKind]
  rcases @node_true_eq_or_link fs p with hsame | ⟨target, hlink⟩
  · rw [← hsame, hnode]
  · rw [hlink, hnode]
    rfl

/-- A walk goes on from the kind of the node that it finds first, if the node leads somewhere. -/
lemma rootKind_ok_iff : fs.rootKind p = .ok kind ↔
    (∃ n, fs.node false p = .ok n ∧ n.kind = kind) ∧ ∃ n, fs.node true p = .ok n := by
  cases htrue : fs.node true p with
  | error e => simp [rootKind_of_missing htrue]
  | ok m =>
      rw [rootKind, htrue]
      cases fs.node false p with
      | error e => simp
      | ok n => simp

/-- A node that stands at the root is gone on from, if the path is not too long for it. -/
lemma rootKind_of_stands (hstands : fs.Stands p n) (hkind : n.kind ≠ .link) :
    fs.rootKind p = .error .nameTooLong ∨ fs.rootKind p = .ok n.kind := by
  rcases hstands with hlong | ⟨hfound, -⟩
  · exact .inl (rootKind_of_missing (hlong true))
  · exact .inr (rootKind_eq hfound hkind)

/-- Where both ways to look give the same, a walk starts with the same. -/
lemma rootKind_congr (hnode : ∀ follow, fs'.node follow p' = fs.node follow p) :
    fs'.rootKind p' = fs.rootKind p := by
  rw [rootKind, rootKind, hnode false, hnode true]

/-- **A walk starts with the same where both ways to look give nodes of one kind.** -/
lemma rootKind_of_inStep
    (hnode : ∀ follow, InStep (fun n n' => n.kind = n'.kind) (fs.node follow p)
      (fs'.node follow p')) : fs.rootKind p = fs'.rootKind p' := by
  have hfalse := hnode false
  have htrue := hnode true
  rw [rootKind, rootKind]
  generalize fs.node false p = x, fs'.node false p' = y at hfalse
  generalize fs.node true p = x', fs'.node true p' = y' at htrue
  cases hfalse with
  | error e => rfl
  | ok hkind =>
      dsimp only
      rw [hkind]
      cases htrue with
      | error e => rfl
      | ok => split <;> simp_all

end FileSystem

namespace Walk

/-- **A walk goes on from the kind of its root**, or it tells of the error. -/
theorem run_eq_rootKind {σ ε : Type} (options : WalkOptions) (v : WalkVisitor σ ε) (root : Path)
    (s : σ) : run options v root s = match (v.files s).rootKind root with
      | .error e => v.visit s (.failure (.io 0 (some root) e))
      | .ok kind => descend options v FileSystem.maxPath [] 0 root [] kind s :=
  FileSystem.match_rootKind _ _ _ _

/-! ### The room of a walk -/

/-- Two bytes for each level that a walk may still go down would make the path too long for a lookup.
A slash at the end of the path does not count, since no other one is put behind it. -/
structure HasRoom (room : ℕ) (path : Path) : Prop where
  nonempty : path.bytes ≠ []
  length : 2 * FileSystem.maxPath + (if path.bytes.getLast? = some slash then 1 else 0)
    ≤ path.bytes.length + 2 * room

lemma hasRoom_root {root : Path} (hroot : root.bytes ≠ []) : HasRoom FileSystem.maxPath root where
  nonempty := hroot
  length := by
    have hpos := List.length_pos_iff.mpr hroot
    split <;> omega

/-- A joined name makes a path longer, by two bytes behind a name. -/
lemma length_join {path : Path} (hpath : path.bytes ≠ []) {name : Bytes}
    (hname : Path.IsName name) : path.bytes.length + 2 ≤ (path.join ⟨name⟩).bytes.length
      + if path.bytes.getLast? = some slash then 1 else 0 := by
  have hpos := List.length_pos_iff.mpr hname.nonempty
  rw [Path.join_name hpath hname]
  split <;> simp <;> omega

/-- **There is room for an entry** in one level less. -/
lemma HasRoom.join {room : ℕ} {path : Path} (h : HasRoom (room + 1) path) {name : Bytes}
    (hname : Path.IsName name) : HasRoom room (path.join ⟨name⟩) := by
  have hlength := h.length
  have hjoin := length_join h.nonempty hname
  refine ⟨List.ne_nil_of_length_pos (by split at hjoin <;> omega), ?_⟩
  rw [if_neg (Path.getLast?_join h.nonempty hname)]
  omega

/-- A path that can be looked up has levels left. -/
lemma HasRoom.one_lt {room : ℕ} {path : Path} (h : HasRoom room path)
    (hshort : path.bytes.length ≤ FileSystem.maxPath) : 1 < room := by
  have hlength := h.length
  have hmax : FileSystem.maxPath = 4095 := rfl
  omega

lemma HasRoom.one_lt_of_list {fs : FileSystem} {room : ℕ} {path : Path} (h : HasRoom room path)
    {items : List (Bytes × NodeKind)} (hlist : fs.list path = .ok items) : 1 < room := by
  obtain ⟨es, hnode, -⟩ := FileSystem.list_ok hlist
  obtain ⟨t, hres, -⟩ := FileSystem.resolve_of_node_directory hnode
  exact h.one_lt (FileSystem.resolve_ok hres).1.short

end Walk

end TreeDigest

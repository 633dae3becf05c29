import Mathlib
import TreeDigest.Report.Scan
import TreeDigest.Proofs.Snapshot.Nesting
import TreeDigest.Proofs.Text.Hex

/-!
The listing of a tree follows the tree.

The visitor that lists nodes has the depth of the next line as its state: it goes up where a
directory is entered and down where one is left. At every stop of its walk the depth is the length
of the position, one more where a directory is about to be left.

* `depth_of_mem_stops` is this invariant, and `depth_accept` says that a walk gives the depth back.
* `lines_accept`: a walk adds one line for each announcement.
* `treeLines_exact`: the lines of a tree.
-/

namespace TreeDigest

/-! ### Short digests -/

/-- The short form of a digest is the start of the long one. -/
lemma Digest.toList_shortHex (d : Digest) : d.shortHex.toList = d.hex.toList.take 16 := by
  have hsplit : d.toBytes = d.toBytes.take 8 ++ d.toBytes.drop 8 := (List.take_append_drop 8 _).symm
  have hlength : (Text.Hex.chars (d.toBytes.take 8)).length = 16 := by
    rw [Text.Hex.length_chars, List.length_take, Digest.length_toBytes]
    rfl
  have hchars : Text.Hex.chars d.toBytes
      = Text.Hex.chars (d.toBytes.take 8) ++ Text.Hex.chars (d.toBytes.drop 8) := by
    conv_lhs => rw [hsplit]
    exact List.flatMap_append
  rw [toList_hex, hchars, ← hlength, List.take_left]
  exact String.toList_ofList

namespace Report

open Snapshot

/-! ### Lines -/

/-- What a line says after the digest of a node. -/
def suffix : Snapshot → String
  | .leaf l => leafSuffix l
  | .directory location _ _ => accessSuffix location.access

/-- The line of a node: two blanks for each level above it, its name, with a slash behind that of a
directory, the first sixteen digits of its digest, and what is special about it. -/
def IsLine (depth : ℕ) (n : Snapshot) (line : String) : Prop :=
  line.toList = List.replicate (2 * depth) ' ' ++ n.name.toList ++ (if n.isDirectory then ['/'] else [])
    ++ [' ', ' '] ++ n.digest.hex.toList.take 16 ++ (suffix n).toList

/-- The line that is written at a stop. -/
def lineAt (w : Stop TreeLines) : String :=
  let name := if w.event.node.isDirectory then w.event.node.name ++ "/" else w.event.node.name
  treeLine w.state.depth name w.event.node.digest (suffix w.event.node)

lemma isLine_lineAt (w : Stop TreeLines) : IsLine w.state.depth w.event.node (lineAt w) := by
  rw [IsLine, lineAt, ← Digest.toList_shortHex]
  cases w.event.node <;> simp [treeLine, Snapshot.isDirectory]

/-- The lines that are written at some stops. -/
def linesOf (ws : List (Stop TreeLines)) : List String :=
  (ws.filter fun w => w.event.announces).map lineAt

lemma linesOf_append (ws us : List (Stop TreeLines)) :
    linesOf (ws ++ us) = linesOf ws ++ linesOf us := by
  simp [linesOf]

lemma linesOf_below (i : ℕ) (ws : List (Stop TreeLines)) :
    linesOf (ws.map (·.below i)) = linesOf ws := by
  simp [linesOf, List.filter_map, Function.comp_def, Stop.below, lineAt]

/-! ### The walk of the visitor -/

/-- The visitor enters every directory. -/
lemma enter_treeVisitor (location : Location) (digest : Digest) (children : List Snapshot)
    (t : TreeLines) : treeVisitor.enter location digest children t
      = (.enter, ⟨treeLine t.depth (location.name ++ "/") digest (accessSuffix location.access)
        :: t.lines, t.depth + 1⟩) := rfl

lemma depth_acceptAll {cs : List Snapshot}
    (hcs : ∀ c ∈ cs, ∀ t, (c.accept treeVisitor t).depth = t.depth) (t : TreeLines) :
    (acceptAll treeVisitor cs t).depth = t.depth := by
  induction cs generalizing t with
  | nil => rfl
  | cons c cs ih =>
      rw [acceptAll, ih (fun d hd => hcs d (by simp [hd])), hcs c (by simp)]

/-- **A walk gives the depth back.** -/
lemma depth_accept (s : Snapshot) (t : TreeLines) : (s.accept treeVisitor t).depth = t.depth := by
  induction s using Snapshot.ind generalizing t with
  | leaf l => rfl
  | directory location digest cs ih =>
      rw [accept_entered (enter_treeVisitor location digest cs t)]
      change (acceptAll treeVisitor cs _).depth - 1 = t.depth
      rw [depth_acceptAll ih]
      rfl

/-- **At every stop the depth is that of the node**, one more where a directory is left. -/
lemma depth_of_mem_stops (s : Snapshot) (t : TreeLines) : ∀ w ∈ stops treeVisitor s t,
    w.state.depth = t.depth + w.position.length + if w.event.announces then 0 else 1 := by
  induction s using Snapshot.ind generalizing t with
  | leaf l =>
      intro w hw
      obtain rfl := List.mem_singleton.mp hw
      rfl
  | directory location digest cs ih =>
      intro w hw
      rcases (mem_stops_entered (enter_treeVisitor location digest cs t)).mp hw with
        rfl | rfl | ⟨j, c, hc, u, hu, rfl⟩
      · rfl
      · exact depth_acceptAll (fun c _ => depth_accept c) _
      · have hdepth := ih c (List.mem_of_getElem? hc) _ u hu
        rw [depth_acceptAll fun c _ => depth_accept c] at hdepth
        change u.state.depth = t.depth + (u.position.length + 1) + if u.event.announces then 0 else 1
        rw [hdepth]
        ring

lemma lines_acceptAll {cs : List Snapshot} (hcs : ∀ c ∈ cs, ∀ t,
    (c.accept treeVisitor t).lines = (linesOf (stops treeVisitor c t)).reverse ++ t.lines)
    (i : ℕ) (t : TreeLines) : (acceptAll treeVisitor cs t).lines
      = (linesOf (stopsFrom treeVisitor i cs t)).reverse ++ t.lines := by
  induction cs generalizing i t with
  | nil => rfl
  | cons c cs ih =>
      rw [acceptAll, ih (fun d hd => hcs d (by simp [hd])) (i + 1), hcs c (by simp), stopsFrom,
        linesOf_append, linesOf_below, List.reverse_append, List.append_assoc]

/-- **A walk adds a line for each announcement**, the last one in front. -/
lemma lines_accept (s : Snapshot) (t : TreeLines) : (s.accept treeVisitor t).lines
    = (linesOf (stops treeVisitor s t)).reverse ++ t.lines := by
  induction s using Snapshot.ind generalizing t with
  | leaf l => rfl
  | directory location digest cs ih =>
      have henter := enter_treeVisitor location digest cs t
      have hentry : ∀ ws, linesOf (⟨[], .entered location digest cs .enter, t⟩ :: ws)
          = treeLine t.depth (location.name ++ "/") digest (accessSuffix location.access)
            :: linesOf ws := fun _ => rfl
      have hexit : ∀ t', linesOf [⟨[], .exited location digest cs, t'⟩] = [] := fun _ => rfl
      rw [accept_entered henter, stops_entered henter]
      change (acceptAll treeVisitor cs _).lines = _
      rw [lines_acceptAll ih 0, linesOf_append, hentry, hexit]
      simp

/-! ### The listing -/

/-- The lines of a tree are those of the stops of the walk over it. -/
lemma treeLines_eq (s : Snapshot) : treeLines s = linesOf (stops treeVisitor s ⟨[], 0⟩) := by
  rw [treeLines, lines_accept, List.append_nil, List.reverse_reverse]

/-- As many positions but the first have nodes as there are proper descendants. -/
lemma ncard_descendants {s : Snapshot} {ps : List Position} (hps : ps.Nodup)
    (hall : ∀ p, p ∈ ps ↔ (s.at? p).isSome) :
    ps.length = 1 + {p : Position | p ≠ [] ∧ (s.at? p).isSome}.ncard := by
  have htop : [] ∈ ps.toFinset := List.mem_toFinset.mpr ((hall []).mpr rfl)
  have hset : {p : Position | p ≠ [] ∧ (s.at? p).isSome} = ↑(ps.toFinset.erase []) := by
    ext p
    simp [hall, and_comm]
  have hpositive : 0 < ps.toFinset.card := Finset.card_pos.mpr ⟨[], htop⟩
  rw [hset, Set.ncard_coe_finset, Finset.card_erase_of_mem htop, ← List.toFinset_card_of_nodup hps]
  omega

/-- **The listing of a tree follows the tree**: it has one line for each node, in pre-order; each
line starts with two blanks for each level, the name and the first sixteen digits of the digest;
and the depth is never counted down from zero and is zero in the end. -/
theorem treeLines_exact (s : Snapshot) :
    (∃ ps : List Position, ps.Pairwise (· < ·) ∧ (∀ p, p ∈ ps ↔ (s.at? p).isSome)
      ∧ List.Forall₂ (fun p line => ∃ n, s.at? p = some n ∧ IsLine p.length n line) ps (treeLines s))
    ∧ (treeLines s).length = 1 + {p : Position | p ≠ [] ∧ (s.at? p).isSome}.ncard
    ∧ (s.accept treeVisitor ⟨[], 0⟩).depth = 0
    ∧ ∀ told ∈ (s.accept treeVisitor.recording (⟨[], 0⟩, [])).2,
      told.1.announces = false → 0 < told.2.depth := by
  have hwalk := wellNested_stops treeVisitor s ⟨[], 0⟩
  have hall : ∀ p, p ∈ Stop.announced (stops treeVisitor s ⟨[], 0⟩) ↔ (s.at? p).isSome :=
    mem_announced_iff_isSome treeVisitor (fun _ _ _ _ => rfl) s ⟨[], 0⟩
  refine ⟨⟨_, hwalk.preorder, hall, ?_⟩, ?_, depth_accept s ⟨[], 0⟩, ?_⟩
  · rw [treeLines_eq, Stop.announced, linesOf, List.forall₂_map_left_iff, List.forall₂_map_right_iff,
      List.forall₂_same]
    intro w hw
    obtain ⟨hmem, hannounces⟩ := List.mem_filter.mp hw
    have hdepth := depth_of_mem_stops s ⟨[], 0⟩ w hmem
    rw [if_pos hannounces, Nat.add_zero, Nat.zero_add] at hdepth
    exact ⟨_, hwalk.stands w hmem, hdepth ▸ isLine_lineAt w⟩
  · rw [← ncard_descendants (hwalk.preorder.imp ne_of_lt) hall, treeLines_eq]
    simp [linesOf, Stop.announced]
  · rw [accept_recording]
    intro told htold hexit
    obtain ⟨w, hw, rfl⟩ := List.mem_map.mp htold
    have hdepth := depth_of_mem_stops s ⟨[], 0⟩ w hw
    simp only at hexit ⊢
    rw [hexit] at hdepth
    simp at hdepth
    omega

end Report

end TreeDigest

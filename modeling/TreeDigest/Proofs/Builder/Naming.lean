import TreeDigest.Proofs.Builder.Merkle

/-!
Names below the root of a builder.

A builder takes names in with leaves and with directories that are opened. If all that come in below
the root have some property, then all nodes below the root of the finished snapshot have it.

* `Snapshot.Named` says it of a snapshot, and `Builder.NamedBelow` of all that a builder holds.
* `NamedBelow.enter`, `NamedBelow.collect`, `NamedBelow.exit` and `NamedBelow.abandon`: what a
  builder does keeps it.
-/

namespace TreeDigest

namespace Snapshot

/-- The names at and below a node have a property. -/
def Named (P : String → Prop) (s : Snapshot) : Prop := ∀ m : Snapshot, m.Within s → P m.name

variable {P : String → Prop}

lemma named_leaf_iff {l : Leaf} : (leaf l).Named P ↔ P l.location.name := by
  constructor
  · exact fun h => h _ .self
  · intro h m hm
    obtain rfl := Within.leaf_iff.mp hm
    exact h

lemma named_directory_iff {location : Location} {digest : Digest} {cs : List Snapshot} :
    (directory location digest cs).Named P ↔ P location.name ∧ ∀ c ∈ cs, c.Named P := by
  constructor
  · exact fun h => ⟨h _ .self, fun c hc m hm => h m (.child hc hm)⟩
  · rintro ⟨hname, hcs⟩ m hm
    rcases Within.directory_iff.mp hm with rfl | ⟨c, hc, hm⟩
    · exact hname
    · exact hcs c hc m hm

end Snapshot

/-- A finished directory has the names of what was taken in, and its own. -/
lemma Level.named_close {P : String → Prop} {h : HashFunction} {o : ChildOrdering} {l : Level}
    {s : Snapshot} (hclose : l.close h o = some s) (hl : ∀ c ∈ l.children, c.Named P) :
    (∀ c ∈ s.children, c.Named P) ∧ (P l.location.name → s.Named P) := by
  rw [Level.close] at hclose
  split at hclose
  · cases hclose
  · obtain rfl := Option.some.inj hclose
    have hchildren : ∀ c ∈ o.arrange l.children, c.Named P := fun c hc =>
      hl c (ChildOrdering.mem_arrange.mp hc)
    exact ⟨hchildren, fun hname => Snapshot.named_directory_iff.mpr ⟨hname, hchildren⟩⟩

namespace Builder

/-- **The invariant of names**: what a builder holds below the root has names with a property. -/
structure NamedBelow (P : String → Prop) (b : Builder) : Prop where
  opened : ∀ l ∈ b.levels.dropLast, P l.location.name
  children : ∀ l ∈ b.levels, ∀ c ∈ l.children, c.Named P
  root : ∀ s, b.root = some s → ∀ c ∈ s.children, c.Named P

namespace NamedBelow

variable {P : String → Prop} {b b' : Builder}

lemma new (h : HashFunction) (o : ChildOrdering) : (Builder.new h o).NamedBelow P :=
  ⟨by simp [Builder.new], by simp [Builder.new], by simp [Builder.new]⟩

lemma enter (hb : b.NamedBelow P) {location : Location} (handling : EmptyDirectories)
    (hname : 0 < b.depth → P location.name) : (b.enter location handling).NamedBelow P where
  opened := by
    cases hlevels : b.levels with
    | nil => simp [Builder.enter, hlevels]
    | cons l rest =>
        have hopened := hb.opened
        rw [hlevels] at hopened
        have hname := hname (by simp [depth, hlevels])
        simpa [Builder.enter, hlevels, List.dropLast_cons_cons] using ⟨hname, hopened⟩
  children := by simpa [Builder.enter] using hb.children
  root := hb.root

/-- What is taken in has a name of the kind, unless it becomes the root. -/
lemma collect (hb : b.NamedBelow P) {s : Snapshot} (hc : b.collect s = .ok b')
    (hs : ∀ c ∈ s.children, c.Named P) (hname : 0 < b.depth → s.Named P) : b'.NamedBelow P := by
  obtain ⟨h, o, levels, root⟩ := b
  cases levels with
  | nil =>
      cases root with
      | some r => simp [Builder.collect] at hc
      | none =>
          obtain rfl := Except.ok.inj hc
          exact ⟨by simp, by simp, by simpa using hs⟩
  | cons l rest =>
      obtain rfl := Except.ok.inj hc
      have hname : s.Named P := hname (Nat.succ_pos _)
      refine ⟨?_, ?_, hb.root⟩
      · cases rest with
        | nil => simp
        | cons => simpa [List.dropLast_cons_cons] using hb.opened
      · intro l' hl'
        rcases List.mem_cons.mp hl' with rfl | hl'
        · intro c hc
          rcases List.mem_append.mp hc with hc | hc
          · exact hb.children l List.mem_cons_self c hc
          · obtain rfl := List.mem_singleton.mp hc
            exact hname
        · exact hb.children l' (List.mem_cons_of_mem _ hl')

/-- Without its innermost directory a builder still keeps to the names. -/
lemma tail {h : HashFunction} {o : ChildOrdering} {l : Level} {rest : List Level}
    {root : Option Snapshot} (hb : NamedBelow P ⟨h, o, l :: rest, root⟩) :
    NamedBelow P ⟨h, o, rest, root⟩ where
  opened l' hl' := by
    cases rest with
    | nil => simp at hl'
    | cons => exact hb.opened l' (List.mem_cons_of_mem _ hl')
  children l' hl' := hb.children l' (List.mem_cons_of_mem _ hl')
  root := hb.root

lemma exit (hb : b.NamedBelow P) {kept : Bool} (he : b.exit = (.ok kept, b')) :
    b'.NamedBelow P := by
  obtain ⟨h, o, levels, root⟩ := b
  cases levels with
  | nil => simp [Builder.exit] at he
  | cons l rest =>
      simp only [Builder.exit] at he
      cases hclose : l.close h o with
      | none =>
          obtain rfl : Builder.mk h o rest root = b' := by simpa [hclose] using (Prod.mk.inj he).2
          exact hb.tail
      | some s =>
          have hcollect : Builder.collect ⟨h, o, rest, root⟩ s = .ok b' := by
            cases hc : Builder.collect ⟨h, o, rest, root⟩ s <;> simp_all
          obtain ⟨hchildren, hnamed⟩ := Level.named_close hclose (hb.children l List.mem_cons_self)
          refine hb.tail.collect hcollect hchildren fun hdepth => hnamed (hb.opened l ?_)
          -- There is a directory around this one, so it is not the root.
          cases rest with
          | nil => simp [depth] at hdepth
          | cons => exact List.mem_cons_self

lemma abandon (hb : b.NamedBelow P) (ha : b.abandon = .ok b') : b'.NamedBelow P := by
  obtain ⟨h, o, levels, root⟩ := b
  cases levels with
  | nil => cases ha
  | cons l rest =>
      obtain rfl := Except.ok.inj ha
      exact hb.tail

end NamedBelow

end Builder

end TreeDigest

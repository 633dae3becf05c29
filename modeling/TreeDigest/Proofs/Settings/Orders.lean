import Mathlib
import TreeDigest.Proofs.Settings.Assignments

/-!
The keys of a layer in another order.

What a layer assigns does not depend on the order of its keys, but for the order in which it is
assigned: the rows of assignments of two orders are permutations of each other. So what has to do
with no order, such as which values are assigned to a path at all, is the same for both.

* `Reordered.assignmentsAt` and `EachReordered.assignmentsIn` go down into the tables of a value.
* `Layer.Reordered.assignments?` is the permutation for a whole layer.
-/

namespace TreeDigest

namespace LayerValue

variable {v v' : LayerValue} {fs fs' : List (String × LayerValue)} {as bs : List Assignment}

mutual
/-- A value may have its keys in the order that they have. -/
theorem Reordered.refl : ∀ v : LayerValue, v.Reordered v
  | .scalar o s => .scalar o s
  | .list o items => .list o items
  | .table o fs => .table o (EachReordered.refl fs) (.refl fs)

/-- The same of the values of some keys. -/
theorem EachReordered.refl : ∀ fs : List (String × LayerValue), EachReordered fs fs
  | [] => .nil
  | (key, v) :: fs => .cons key (Reordered.refl v) (EachReordered.refl fs)
end

lemma within_perm (key : String) (h : as.Perm bs) :
    (Assignment.within key as).Perm (Assignment.within key bs) := (h.map _).cons _

lemma assignmentsIn_eq (fs : List (String × LayerValue)) :
    assignmentsIn fs = fs.flatMap fun f => f.2.assignmentsAt f.1 := by
  induction fs with
  | nil => rw [assignmentsIn, List.flatMap_nil]
  | cons f fs ih => rw [assignmentsIn, ih, List.flatMap_cons]

/-- Keys that are set in another order assign the same. -/
lemma assignmentsIn_perm (h : fs.Perm fs') : (assignmentsIn fs).Perm (assignmentsIn fs') := by
  rw [assignmentsIn_eq, assignmentsIn_eq]
  exact h.flatMap_right _

mutual
/-- **What is assigned by setting a key** is the same for all orders of the keys in its value. -/
theorem Reordered.assignmentsAt (key : String) : ∀ {v v' : LayerValue}, v.Reordered v' →
    (v.assignmentsAt key).Perm (v'.assignmentsAt key)
  | .scalar _ _, _, .scalar _ _ => .refl _
  | .list _ _, _, .list _ _ => .refl _
  | .table _ _, _, .table _ heach hperm => by
      rw [LayerValue.assignmentsAt, LayerValue.assignmentsAt]
      exact within_perm _ (heach.assignmentsIn.trans (assignmentsIn_perm hperm))

/-- The same of setting some keys. -/
theorem EachReordered.assignmentsIn : ∀ {fs gs : List (String × LayerValue)}, EachReordered fs gs →
    (LayerValue.assignmentsIn fs).Perm (LayerValue.assignmentsIn gs)
  | [], _, .nil => .refl _
  | (_, _) :: _, _, .cons key hvalue hrest => by
      rw [LayerValue.assignmentsIn, LayerValue.assignmentsIn]
      exact (hvalue.assignmentsAt key).append hrest.assignmentsIn
end

lemma Reordered.assignmentsBelow (h : v.Reordered v') (names : List String) :
    (v.assignmentsBelow names).Perm (v'.assignmentsBelow names) := by
  induction names with
  | nil => exact .refl _
  | cons name names ih =>
      cases names with
      | nil => exact h.assignmentsAt name
      | cons next names => exact within_perm name ih

/-- Plain values have no order. -/
lemma Reordered.eq_of_scalar {o : Option String} {s : Scalar} (h : (LayerValue.scalar o s).Reordered v) :
    v = .scalar o s := by
  cases h
  rfl

end LayerValue

open LayerValue

/-- What setting a key at the top of a layer assigns is the same for all orders of the keys in its
value. -/
lemma KeyPath.assignments?_reordered {v v' : LayerValue} {as : List Assignment} {key : String}
    (h : v.Reordered v') (has : assignments? key v = some as) :
    ∃ bs, assignments? key v' = some bs ∧ as.Perm bs := by
  rw [assignments?] at has ⊢
  cases hparse : parse? key with
  | none =>
      rw [hparse] at has
      obtain rfl := Option.some.inj has
      exact ⟨_, rfl, h.assignmentsAt key⟩
  | some steps =>
      rw [hparse] at has
      obtain ⟨names, hnames, rfl⟩ := Option.map_eq_some_iff.mp has
      refine ⟨_, ?_, h.assignmentsBelow names⟩
      simp only [hnames, Option.map_some]

namespace Layer

variable {layer layer' : List (String × LayerValue)} {f : String × LayerValue}
  {as first rest : List Assignment}

lemma Reordered.refl (layer : List (String × LayerValue)) : Reordered layer layer :=
  ⟨layer, EachReordered.refl layer, .refl layer⟩

lemma Reordered.eq_nil (h : Reordered [] layer) : layer = [] := by
  obtain ⟨each, heach, hperm⟩ := h
  cases heach
  exact hperm.nil_eq.symm

/-- Keys alone may be in any order. -/
lemma Reordered.of_perm (h : layer.Perm layer') : Reordered layer layer' :=
  ⟨layer, EachReordered.refl layer, h⟩

/-- Nothing but the keys is in another order where all values are plain. -/
lemma Reordered.perm (h : Reordered layer layer') (hplain : ∀ f ∈ layer, ∃ o s, f.2 = .scalar o s) :
    layer.Perm layer' := by
  obtain ⟨each, heach, hperm⟩ := h
  suffices layer = each by rwa [this]
  clear hperm
  induction layer generalizing each with
  | nil =>
      cases heach
      rfl
  | cons f layer ih =>
      cases heach with
      | cons key hvalue hrest =>
          obtain ⟨⟨o, s, rfl⟩, hlayer⟩ := List.forall_mem_cons.mp hplain
          rw [hvalue.eq_of_scalar, ← ih hlayer _ hrest]

lemma assignments?_cons_eq_some_iff : assignments? (f :: layer) = some as ↔ ∃ first rest,
    KeyPath.assignments? f.1 f.2 = some first ∧ assignments? layer = some rest
      ∧ as = first ++ rest := by
  simp only [assignments?, Option.bind_eq_bind, Option.bind_eq_some_iff, pure, Option.some.injEq,
    eq_comm (a := as)]
  constructor
  · rintro ⟨first, hfirst, rest, hrest, happend⟩
    exact ⟨first, rest, hfirst, hrest, happend⟩
  · rintro ⟨first, rest, hfirst, hrest, happend⟩
    exact ⟨first, hfirst, rest, hrest, happend⟩

lemma assignments?_eachReordered (h : EachReordered layer layer')
    (has : assignments? layer = some as) :
    ∃ bs, assignments? layer' = some bs ∧ as.Perm bs := by
  induction layer generalizing layer' as with
  | nil =>
      cases h
      exact ⟨as, has, .refl as⟩
  | cons f layer ih =>
      cases h with
      | cons key hvalue hlayer =>
          obtain ⟨first, rest, hfirst, hrest, rfl⟩ := assignments?_cons_eq_some_iff.mp has
          obtain ⟨first', hfirst', hperm⟩ := KeyPath.assignments?_reordered hvalue hfirst
          obtain ⟨rest', hrest', hperm'⟩ := ih hlayer hrest
          exact ⟨_, assignments?_cons_eq_some_iff.mpr ⟨_, _, hfirst', hrest', rfl⟩,
            hperm.append hperm'⟩

lemma assignments?_perm (h : layer.Perm layer') (has : assignments? layer = some as) :
    ∃ bs, assignments? layer' = some bs ∧ as.Perm bs := by
  induction h generalizing as with
  | nil => exact ⟨as, has, .refl as⟩
  | cons f _ ih =>
      obtain ⟨first, rest, hfirst, hrest, rfl⟩ := assignments?_cons_eq_some_iff.mp has
      obtain ⟨rest', hrest', hperm⟩ := ih hrest
      exact ⟨_, assignments?_cons_eq_some_iff.mpr ⟨_, _, hfirst, hrest', rfl⟩, hperm.append_left _⟩
  | swap f g layer =>
      obtain ⟨first, more, hfirst, hmore, rfl⟩ := assignments?_cons_eq_some_iff.mp has
      obtain ⟨second, rest, hsecond, hrest, rfl⟩ := assignments?_cons_eq_some_iff.mp hmore
      refine ⟨second ++ (first ++ rest), assignments?_cons_eq_some_iff.mpr ⟨_, _, hsecond,
        assignments?_cons_eq_some_iff.mpr ⟨_, _, hfirst, hrest, rfl⟩, rfl⟩, ?_⟩
      rw [← List.append_assoc, ← List.append_assoc]
      exact List.perm_append_comm.append_right rest
  | trans _ _ ih ih' =>
      obtain ⟨bs, hbs, hperm⟩ := ih has
      obtain ⟨cs, hcs, hperm'⟩ := ih' hbs
      exact ⟨cs, hcs, hperm.trans hperm'⟩

/-- **What a layer assigns is the same for all orders of its keys.** -/
theorem Reordered.assignments? (h : Reordered layer layer')
    (has : Layer.assignments? layer = some as) :
    ∃ bs, Layer.assignments? layer' = some bs ∧ as.Perm bs := by
  obtain ⟨each, heach, hperm⟩ := h
  obtain ⟨bs, hbs, has⟩ := assignments?_eachReordered heach has
  obtain ⟨cs, hcs, hbs⟩ := assignments?_perm hperm hbs
  exact ⟨cs, hcs, has.trans hbs⟩

end Layer

end TreeDigest

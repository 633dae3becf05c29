import Mathlib
import TreeDigest.Builder

/-!
The order of names, and what it does to the children of a directory.

Names are compared by their bytes. A directory that keeps its children by name has
them sorted, and children of one name stay in the order in which they came.

* `bytesLe_trans` and `bytesLe_total` are about bytes; with `nameLe_antisymm`, the order
  of names is linear.
* `Snapshot.inNameOrder` sorts by insertion, and `arrange_byName` says that a
  builder arranges children just so: both sorts are stable, and a stable sort has
  only one result.
-/

namespace TreeDigest

namespace Text

lemma nameLe_iff (a b : String) : nameLe a b = true ↔ utf8 a ≤ utf8 b := by
  simp [nameLe, bytesLe]

lemma bytesLe_trans (a b c : Bytes) (hab : bytesLe a b = true) (hbc : bytesLe b c = true) :
    bytesLe a c = true := by
  simp only [bytesLe, decide_eq_true_eq] at *
  exact List.le_trans hab hbc

lemma bytesLe_total (a b : Bytes) : (bytesLe a b || bytesLe b a) = true := by
  simp only [bytesLe, Bool.or_eq_true, decide_eq_true_eq]
  exact List.le_total _ _

lemma nameLe_trans (a b c : String) (hab : nameLe a b = true) (hbc : nameLe b c = true) :
    nameLe a c = true := bytesLe_trans _ _ _ hab hbc

lemma nameLe_total (a b : String) : (nameLe a b || nameLe b a) = true := bytesLe_total _ _

/-- The bytes of a text determine it. -/
lemma utf8_injective : Function.Injective utf8 := fun s t h => by
  have harr : s.toUTF8.data = t.toUTF8.data := congrArg List.toArray h
  exact String.toByteArray_inj.mp (ByteArray.ext harr)

lemma nameLe_antisymm {a b : String} (hab : nameLe a b = true) (hba : nameLe b a = true) :
    a = b := by
  rw [nameLe_iff] at *
  exact utf8_injective (List.le_antisymm hab hba)

end Text

/-! ### A stable sort has only one result -/

section StableSort

variable {α : Type} {le : α → α → Bool}

/-- Putting an element before all that it does not come after finds the place that a
stable merge sort gives it. -/
lemma orderedInsert_append {a : α} {l₁ l₂ : List α} (h₁ : ∀ b ∈ l₁, le a b = false)
    (h₂ : ∀ b ∈ l₂, le a b = true) :
    (l₁ ++ l₂).orderedInsert (fun x y => le x y = true) a = l₁ ++ a :: l₂ := by
  induction l₁ with
  | nil =>
      cases l₂ with
      | nil => rfl
      | cons b l₂ => exact List.orderedInsert_cons_of_le _ _ (h₂ b (by simp))
  | cons b l₁ ih =>
      have hb : ¬ le a b = true := by simp [h₁ b (by simp)]
      rw [List.cons_append, List.orderedInsert_cons, if_neg hb, ih fun c hc => h₁ c (by simp [hc])]
      rfl

/-- Merge sort and insertion sort agree on every total preorder, ties included. -/
lemma mergeSort_eq_insertionSort_of_total
    (trans : ∀ a b c : α, le a b = true → le b c = true → le a c = true)
    (total : ∀ a b : α, (le a b || le b a) = true) (l : List α) :
    l.mergeSort le = l.insertionSort fun x y => le x y = true := by
  induction l with
  | nil => simp
  | cons a l ih =>
      obtain ⟨l₁, l₂, hsort, htail, hlow⟩ := List.mergeSort_cons trans total a l
      have hsorted := List.pairwise_mergeSort trans total (a :: l)
      rw [hsort, List.pairwise_append, List.pairwise_cons] at hsorted
      have hhigh : ∀ b ∈ l₂, le a b = true := hsorted.2.1.1
      rw [List.insertionSort_cons, ← ih, hsort, htail,
        orderedInsert_append (fun b hb => by simpa using hlow b hb) hhigh]

/-- Rows that match item by item still do when both are sorted, if what matches has one key. -/
lemma forall₂_mergeSort {β κ : Type} {R : α → β → Prop} {f : α → κ} {g : β → κ}
    (le : κ → κ → Bool) (hR : ∀ a b, R a b → f a = g b) {xs : List α} {ys : List β}
    (hxy : List.Forall₂ R xs ys) :
    List.Forall₂ R (xs.mergeSort fun a b => le (f a) (f b))
      (ys.mergeSort fun a b => le (g a) (g b)) := by
  -- Sorting the pairs of matching items sorts both rows.
  obtain ⟨ps, rfl, rfl, hps⟩ : ∃ ps : List (α × β),
      ps.map Prod.fst = xs ∧ ps.map Prod.snd = ys ∧ ∀ p ∈ ps, R p.1 p.2 := by
    induction hxy with
    | nil => exact ⟨[], rfl, rfl, by simp⟩
    | @cons x y xs ys hxy _ ih =>
        obtain ⟨ps, rfl, rfl, hps⟩ := ih
        exact ⟨(x, y) :: ps, rfl, rfl, by simpa using ⟨hxy, by simpa using hps⟩⟩
  have hfst := List.map_mergeSort (r := fun p q => le (f p.1) (f q.1))
    (s := fun a b => le (f a) (f b)) (f := Prod.fst) (l := ps) fun _ _ _ _ => rfl
  have hsnd := List.map_mergeSort (r := fun p q => le (f p.1) (f q.1))
    (s := fun a b => le (g a) (g b)) (f := Prod.snd) (l := ps) fun p hp q hq => by
      rw [hR _ _ (hps p hp), hR _ _ (hps q hq)]
  rw [← hfst, ← hsnd, List.forall₂_map_left_iff, List.forall₂_map_right_iff]
  exact List.forall₂_same.mpr fun p hp => hps p (List.mem_mergeSort.mp hp)

end StableSort

/-! ### Children by name -/

/-- Children by name: each is put before those that came after it, unless their names
are smaller. -/
def Snapshot.inNameOrder (children : List Snapshot) : List Snapshot :=
  children.insertionSort fun a b => Text.nameLe a.name b.name = true

lemma Snapshot.inNameOrder_perm (children : List Snapshot) : (inNameOrder children).Perm children :=
  List.perm_insertionSort _ _

namespace ChildOrdering

lemma arrange_byName (children : List Snapshot) :
    ChildOrdering.byName.arrange children = Snapshot.inNameOrder children :=
  mergeSort_eq_insertionSort_of_total
    (fun a b c : Snapshot => Text.nameLe_trans a.name b.name c.name)
    (fun a b : Snapshot => Text.nameLe_total a.name b.name) children

/-- Arranging neither adds nor loses a child. -/
lemma arrange_perm (o : ChildOrdering) (children : List Snapshot) :
    (o.arrange children).Perm children := by
  cases o with
  | byName => exact List.mergeSort_perm _ _
  | asVisited => exact List.Perm.refl _

@[simp] lemma mem_arrange {o : ChildOrdering} {children : List Snapshot} {c : Snapshot} :
    c ∈ o.arrange children ↔ c ∈ children :=
  (o.arrange_perm children).mem_iff

/-- The names of children kept by name do not decrease. -/
lemma pairwise_arrange_byName (children : List Snapshot) :
    (ChildOrdering.byName.arrange children).Pairwise fun a b => Text.nameLe a.name b.name = true :=
  List.pairwise_mergeSort (fun a b c : Snapshot => Text.nameLe_trans a.name b.name c.name)
    (fun a b : Snapshot => Text.nameLe_total a.name b.name) children

end ChildOrdering

end TreeDigest

import Mathlib
import TreeDigest.Path

/-!
Texts of paths, read part by part.

A slash stands for itself in every encoding, nothing joins it and no mark moves past it. So the
text of a path is read and composed between its slashes, and what it says below a directory does
not depend on how the directory is written.

* `lossy_append_slash`: a byte string is read before and after a slash.
* `composed_append_slash`: a text is composed before and after a slash.
-/

namespace TreeDigest

namespace Text

/-! ### Reading -/

/-- A slash is no second byte of a longer character. -/
lemma within_secondBounds_slash (a : UInt8) :
    within (secondBounds a).1 (secondBounds a).2 slash = false := by
  rw [secondBounds]
  split_ifs <;> decide

/-- A reader of one piece stops before a slash: what it shows and what it leaves does not depend on
what stands from the slash on. Only a broken piece may have another length, where the input ended
before. -/
def StopsAtSlash (next : Bytes → Piece × Bytes) : Prop :=
  ∀ rest more, (next (rest ++ slash :: more)).1.shown = (next rest).1.shown
    ∧ (next (rest ++ slash :: more)).2 = (next rest).2 ++ slash :: more

lemma isTail_slash : isTail slash = false := by decide

lemma twoBytes_stops (a : UInt8) : StopsAtSlash (twoBytes a) := by
  rintro (_ | ⟨b, rest⟩) more
  · simp [twoBytes, isTail_slash, Piece.shown]
  · by_cases hb : isTail b = true <;> simp [twoBytes, hb, Piece.shown]

lemma threeBytes_stops (a : UInt8) : StopsAtSlash (threeBytes a) := by
  rintro (_ | ⟨b, rest⟩) more
  · simp [threeBytes, within_secondBounds_slash, Piece.shown]
  by_cases hb : within (secondBounds a).1 (secondBounds a).2 b = true
  · rcases rest with _ | ⟨c, rest⟩
    · simp [threeBytes, hb, isTail_slash, Piece.shown]
    · by_cases hc : isTail c = true <;> simp [threeBytes, hb, hc, Piece.shown]
  · simp [threeBytes, hb, Piece.shown]

lemma fourBytes_stops (a : UInt8) : StopsAtSlash (fourBytes a) := by
  rintro (_ | ⟨b, rest⟩) more
  · simp [fourBytes, within_secondBounds_slash, Piece.shown]
  by_cases hb : within (secondBounds a).1 (secondBounds a).2 b = true
  · rcases rest with _ | ⟨c, rest⟩
    · simp [fourBytes, hb, isTail_slash, Piece.shown]
    by_cases hc : isTail c = true
    · rcases rest with _ | ⟨d, rest⟩
      · simp [fourBytes, hb, hc, isTail_slash, Piece.shown]
      · by_cases hd : isTail d = true <;> simp [fourBytes, hb, hc, hd, Piece.shown]
    · simp [fourBytes, hb, hc, Piece.shown]
  · simp [fourBytes, hb, Piece.shown]

/-- **A piece ends before a slash**, whatever its first byte is. -/
lemma nextPiece_stops (a : UInt8) : StopsAtSlash (nextPiece a) := by
  intro rest more
  rw [nextPiece, nextPiece]
  split_ifs
  · exact ⟨rfl, rfl⟩
  · exact twoBytes_stops a rest more
  · exact threeBytes_stops a rest more
  · exact fourBytes_stops a rest more
  · exact ⟨rfl, rfl⟩

/-- What the pieces before and after a slash show. -/
lemma shown_append_slash (before after : Bytes) :
    (pieces (before ++ slash :: after)).map Piece.shown
      = (pieces before).map Piece.shown ++ '/' :: (pieces after).map Piece.shown := by
  induction before using pieces.induct with
  | case1 =>
      have hslash : pieces (slash :: after) = .char '/' :: pieces after := by
        rw [pieces, show nextPiece slash after = (.char '/', after) from rfl]
      have hempty : pieces [] = [] := by rw [pieces]
      rw [List.nil_append, hslash, hempty, List.map_cons, List.map_nil, List.nil_append,
        Piece.shown]
  | case2 a rest ih =>
      obtain ⟨hshown, hrest⟩ := nextPiece_stops a rest after
      rw [List.cons_append, pieces, hrest, List.map_cons, hshown, ih, pieces, List.map_cons,
        List.cons_append]

/-- **A byte string is read before and after a slash.** -/
theorem lossy_append_slash (before after : Bytes) :
    (lossy (before ++ slash :: after)).toList
      = (lossy before).toList ++ '/' :: (lossy after).toList := by
  simp only [lossy, String.toList_ofList]
  exact shown_append_slash before after

/-! ### Composing -/

/-- No mark moves past a slash. -/
lemma insertMark_append_slash (mark : Nat × Nat) (done before : List (Nat × Nat)) :
    insertMark mark (done ++ (0x2F, 0) :: before)
      = insertMark mark done ++ (0x2F, 0) :: before := by
  induction done with
  | nil => simp [insertMark]
  | cons last done ih =>
      rw [List.cons_append, insertMark, insertMark, ih]
      split_ifs <;> rfl

/-- Marks are put in order before and after a slash. -/
lemma ordered_append_slash (ns ms : List Nat) :
    ordered (ns ++ 0x2F :: ms) = ordered ns ++ (0x2F, 0) :: ordered ms := by
  have hslash : decompose 0x2F = [0x2F] := rfl
  have hlater : ∀ (later : List Nat) (done before : List (Nat × Nat)),
      later.foldl (fun done n => insertMark (n, markClass n) done) (done ++ (0x2F, 0) :: before)
        = later.foldl (fun done n => insertMark (n, markClass n) done) done
          ++ (0x2F, 0) :: before := by
    intro later
    induction later with
    | nil => exact fun _ _ => rfl
    | cons n later ih =>
        intro done before
        rw [List.foldl_cons, List.foldl_cons, insertMark_append_slash, ih]
  have hput : ∀ done : List (Nat × Nat),
      insertMark (0x2F, markClass 0x2F) done = [] ++ (0x2F, 0) :: done := by
    intro done
    cases done <;> rfl
  rw [ordered, ordered, ordered, List.flatMap_append, List.flatMap_cons, hslash,
    List.singleton_append, List.foldl_append, List.foldl_cons, hput, hlater]
  simp

namespace Joining

/-- The joining before anything is joined. -/
def start : Joining := ⟨[], none, [], 0⟩

/-- A joining after a slash is one that began there, with what stands before it. -/
inductive Behind (before : List Nat) : Joining → Joining → Prop where
  | marks (marks : List Nat) (last : Nat) :
      Behind before ⟨[], none, marks, last⟩ ⟨before, some 0x2F, marks, last⟩
  | base (done : List Nat) (base : Nat) (marks : List Nat) (last : Nat) :
      Behind before ⟨done, some base, marks, last⟩
        ⟨done ++ 0x2F :: before, some base, marks, last⟩

lemma Behind.text {before : List Nat} {j j' : Joining} (h : Behind before j j') :
    j'.text = j.text ++ 0x2F :: before := by
  cases h <;> simp [Joining.text]

/-- The next character is joined in the same way, for nothing joins the slash itself. -/
lemma Behind.add {before : List Nat} {j j' : Joining} (h : Behind before j j')
    (next : Nat × Nat) : Behind before (j.add next) (j'.add next) := by
  have hslash : ∀ n, compose? 0x2F n = none := fun n => by simp [compose?]
  have htext := h.text
  cases h with
  | marks marks last =>
      simp only [Joining.add, hslash, ite_self]
      split
      · rw [htext]
        exact .base _ _ _ _
      · exact .marks _ _
  | base done base marks last =>
      simp only [Joining.add]
      generalize (if (marks.isEmpty || decide (last < next.2)) = true then compose? base next.1
        else none) = put
      cases put with
      | some c => exact .base _ _ _ _
      | none =>
          dsimp only
          split
          · rw [htext]
            exact .base _ _ _ _
          · exact .base _ _ _ _

lemma Behind.foldl {before : List Nat} {j j' : Joining} (h : Behind before j j')
    (more : List (Nat × Nat)) :
    Behind before (more.foldl Joining.add j) (more.foldl Joining.add j') := by
  induction more generalizing j j' with
  | nil => exact h
  | cons next more ih => exact ih (h.add next)

/-- What is below U+0300 joins nothing that stands before it. -/
lemma add_low (j : Joining) {n : Nat} (hn : n < 0x300) :
    j.add (n, 0) = ⟨j.text, some n, [], 0⟩ := by
  have hnone : ∀ base, compose? base n = none := fun base => by simp [compose?, hn]
  rw [Joining.add]
  cases j.base <;> simp [hnone]

/-- Behind a slash the joining begins again. -/
lemma behind_add_slash (j : Joining) : Behind j.text start (j.add (0x2F, 0)) := by
  rw [j.add_low (by decide)]
  exact .marks [] 0

/-- Where nothing joins anything, every character is put behind the ones before it. -/
lemma text_foldl_low {ns : List Nat} (hns : ∀ n ∈ ns, n < 0x300) (j : Joining) :
    ((ns.map fun n => (n, 0)).foldl Joining.add j).text = ns.reverse ++ j.text := by
  induction ns generalizing j with
  | nil => rfl
  | cons n ns ih =>
      rw [List.map_cons, List.foldl_cons, ih fun n hn => hns n (List.mem_cons_of_mem _ hn),
        j.add_low (hns n List.mem_cons_self), Joining.text]
      simp

end Joining

/-- The code points of the composed form of a text. -/
def joined (ns : List Nat) : List Nat :=
  ((ordered ns).foldl Joining.add Joining.start).text.reverse

lemma joined_append_slash (ns ms : List Nat) :
    joined (ns ++ 0x2F :: ms) = joined ns ++ 0x2F :: joined ms := by
  have hbehind := (((ordered ns).foldl Joining.add Joining.start).behind_add_slash).foldl
    (ordered ms)
  rw [joined, ordered_append_slash, List.foldl_append, List.foldl_cons, hbehind.text]
  simp [joined]

/-- Below U+00C0 nothing is taken apart, and nothing is a mark. -/
lemma ordered_of_low {ns : List Nat} (hns : ∀ n ∈ ns, n < 0xC0) :
    ordered ns = ns.map fun n => (n, 0) := by
  have hparts : ns.flatMap decompose = ns := by
    have hone : ns.flatMap decompose = ns.flatMap fun n => [n] :=
      List.flatMap_congr fun n hn => by rw [decompose, if_pos (hns n hn)]
    rw [hone, List.flatMap_singleton']
  have hput : ∀ done, ns.foldl (fun done n => insertMark (n, markClass n) done) done
      = (ns.map fun n => (n, 0)).reverse ++ done := by
    clear hparts
    induction ns with
    | nil => exact fun _ => rfl
    | cons n ns ih =>
        intro done
        have hn : n < 0x300 := (hns n List.mem_cons_self).trans (by decide)
        have hfirst : insertMark (n, markClass n) done = (n, 0) :: done := by
          rw [markClass, if_pos hn]
          cases done <;> simp [insertMark]
        rw [List.foldl_cons, hfirst, ih fun n hn => hns n (List.mem_cons_of_mem _ hn)]
        simp
  rw [ordered, hparts, hput, List.append_nil, List.reverse_reverse]

/-- Below U+00C0 a text is composed already. -/
lemma joined_of_low {ns : List Nat} (hns : ∀ n ∈ ns, n < 0xC0) : joined ns = ns := by
  rw [joined, ordered_of_low hns,
    Joining.text_foldl_low (fun n hn => (hns n hn).trans (by decide)) Joining.start]
  simp [Joining.start, Joining.text]

/-- The composed form of a text is made of its code points. -/
lemma toList_composed (s : String) :
    (composed s).toList = (joined (s.toList.map Char.toNat)).map Char.ofNat := by
  rw [composed]
  split
  · next hlow =>
      have hns : ∀ n ∈ s.toList.map Char.toNat, n < 0xC0 := by simpa using hlow
      have hback : Char.ofNat ∘ Char.toNat = id := funext Char.ofNat_toNat
      rw [joined_of_low hns, List.map_map, hback, List.map_id]
  · rw [String.toList_ofList]
    rfl

/-- **A text is composed before and after a slash.** -/
theorem composed_append_slash (before after : List Char) :
    (composed (.ofList (before ++ '/' :: after))).toList
      = (composed (.ofList before)).toList ++ '/' :: (composed (.ofList after)).toList := by
  have hslash : Char.toNat '/' = 0x2F := rfl
  have hback : Char.ofNat 0x2F = '/' := rfl
  simp only [toList_composed, String.toList_ofList, List.map_append, List.map_cons, hslash,
    joined_append_slash, hback]

end Text

end TreeDigest

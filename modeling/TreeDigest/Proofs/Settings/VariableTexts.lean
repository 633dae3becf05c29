import Mathlib
import TreeDigest.Settings.Sources
import TreeDigest.Proofs.Decimal.Notation

/-!
What the texts of variables become.

The text of a variable is read as a truth value or a number where it spells one, and a setting that
is a string writes such a value out again. So words for truth values come out in lower case, numbers
in a form of their own, and only other texts are kept as they stand.

* `Reads` is what a text becomes, and `asText_scalarOf_iff` says that this is what is read.
* `Kept` are the texts that become themselves: `reads_self_iff`.
* `lowercase_ne_of_isNumber`: no text spells both a truth value and a number.
-/

namespace TreeDigest.Layer

open Json Binary64

variable {cs ds : List Char} {v t : String} {n : ℤ} {x : Binary64} {b : Bool}

/-! ### Whole numbers -/

/-- The text has digits only, perhaps after a sign, and they make the number. -/
inductive SpellsWhole (cs : List Char) : ℤ → Prop where
  | intro {negative : Bool} {ds : List Char} : Signed cs negative ds → ds ≠ [] → IsDigits ds →
      SpellsWhole cs (if negative then -(digitsValue ds : ℤ) else digitsValue ds)

/-- A text of digits is number notation. -/
lemma SpellsWhole.isNumber (hcs : SpellsWhole cs n) : IsNumber cs := by
  obtain ⟨hsigned, hne, hds⟩ := hcs
  have hdecimal := IsDecimal.whole hne hds .absent
  rw [List.append_nil] at hdecimal
  exact ⟨_, _, hsigned, .inr hdecimal⟩

/-- The form in which a number is written spells it. -/
lemma spellsWhole_integerChars (n : ℤ) : SpellsWhole (integerChars n) n := by
  have hdigits : IsDigits (Nat.toDigits 10 n.natAbs) := fun _ => isDigit_of_mem_toDigits
  obtain ⟨c, tail, hcons, hc⟩ := toDigits_cons n.natAbs
  have hvalue := digitsValue_toDigits n.natAbs
  by_cases hneg : n < 0
  · have hspells := SpellsWhole.intro (.minus) Nat.toDigits_ne_nil hdigits
    rw [if_pos rfl, hvalue] at hspells
    rw [integerChars, if_pos hneg]
    convert hspells using 1
    omega
  · have hsigned : Signed (Nat.toDigits 10 n.natAbs) false (Nat.toDigits 10 n.natAbs) := by
      refine .none ?_ ?_
      all_goals
        rw [hcons, List.head?_cons]
        rintro ⟨⟩
        cases hc
    have hspells := SpellsWhole.intro hsigned Nat.toDigits_ne_nil hdigits
    rw [if_neg Bool.false_ne_true, hvalue] at hspells
    rw [integerChars, if_neg hneg]
    convert hspells using 1
    omega

/-- What is read after a sign. -/
lemma wholeNumber?_signed {negative : Bool} (hcs : Signed cs negative ds) :
    wholeNumber? cs = if ds.isEmpty || !ds.all Char.isDigit then none
      else Signed64.check? (if negative then -(digitsValue ds : ℤ) else digitsValue ds) := by
  cases hcs with
  | minus => rfl
  | plus => rfl
  | none hminus hplus =>
      unfold wholeNumber?
      split
      next hsplit =>
        split at hsplit
        · simp at hminus
        · simp at hplus
        · cases hsplit
          rfl

/-- **What is read as a whole number.** -/
lemma wholeNumber?_eq_some_iff :
    wholeNumber? cs = some n ↔ SpellsWhole cs n ∧ Signed64.fits n = true := by
  have hcheck : ∀ m : ℤ, Signed64.check? m = some n ↔ m = n ∧ Signed64.fits n = true := by
    intro m
    rw [Signed64.check?]
    split <;> grind
  constructor
  · intro hread
    obtain ⟨negative, ds, hsigned⟩ := exists_signed cs
    rw [wholeNumber?_signed hsigned] at hread
    split at hread
    · cases hread
    · next hdigits =>
        obtain ⟨rfl, hfits⟩ := (hcheck _).mp hread
        simp only [Bool.or_eq_true, List.isEmpty_iff, Bool.not_eq_true', not_or,
          Bool.not_eq_false, List.all_eq_true] at hdigits
        exact ⟨.intro hsigned hdigits.1 hdigits.2, hfits⟩
  · rintro ⟨@⟨negative, ds, hsigned, hne, hds⟩, hfits⟩
    have hdigits : ¬ (ds.isEmpty || !ds.all Char.isDigit) = true := by
      simpa [hne] using (show ∀ c ∈ ds, c.isDigit = true from hds)
    rw [wholeNumber?_signed hsigned, if_neg hdigits]
    exact (hcheck _).mpr ⟨rfl, hfits⟩

/-! ### Truth values -/

/-- In lower case a number does not start as a truth value does. -/
lemma lowerChar_starts : ∀ c ∈ starts, c ≠ 'Σ' ∧ Text.lowerChar c ≠ [] ∧
    ∀ b : Bool, (Text.lowerChar c).head? ≠ (toString b).toList.head? :=
  List.all_iff_forall_prop.mp (by decide +kernel)

/-- **No text spells both a number and a truth value.** -/
theorem lowercase_ne_of_isNumber (hv : IsNumber v.toList) (b : Bool) :
    Text.lowercase v ≠ toString b := by
  obtain ⟨c, hc, hhead⟩ := hv.exists_start
  obtain ⟨rest, hrest⟩ := List.head?_eq_some_iff.mp hhead
  obtain ⟨hsigma, hne, hstart⟩ := lowerChar_starts c hc
  intro hword
  have hlower : (Text.lowercase v).toList.head? = (Text.lowerChar c).head? := by
    rw [Text.lowercase, String.toList_ofList, hrest, Text.lowerChars, if_neg hsigma,
      List.head?_append_of_ne_nil _ hne]
  exact hstart b (by rw [← hlower, hword])

/-! ### Texts -/

/-- What the text of a variable becomes in a setting that is a string. -/
inductive Reads (v : String) : String → Prop where
  /-- A word for a truth value, in any case. -/
  | truth {b : Bool} : Text.lowercase v = toString b → Reads v (toString b)
  /-- A whole number that fits sixty-four bits with a sign. -/
  | whole {n : ℤ} : SpellsWhole v.toList n → Signed64.fits n = true →
      Reads v (.ofList (integerChars n))
  /-- Another number: the nearest one with a floating point. -/
  | float {x : Binary64} : (∀ n, SpellsWhole v.toList n → Signed64.fits n = false) →
      Binary64.parse? v = some x → Reads v x.text
  /-- Any other text. -/
  | plain : (∀ b : Bool, Text.lowercase v ≠ toString b) → ¬ IsNumber v.toList → Reads v v

lemma scalarOf_truth (hv : Text.lowercase v = toString b) : scalarOf v = .boolean b := by
  cases b with
  | true => simp only [scalarOf, if_pos (show Text.lowercase v = "true" from hv)]
  | false =>
      have hfalse : Text.lowercase v = "false" := hv
      simp only [scalarOf, hfalse, if_neg (show "false" ≠ "true" by decide), if_true]

/-- A text that is no word for a truth value is a whole number, another number or a text, in this
order. -/
lemma scalarOf_other (hv : ∀ b : Bool, Text.lowercase v ≠ toString b) :
    scalarOf v = (wholeNumber? v.toList).elim ((Binary64.parse? v).elim (.text v) .float)
      .integer := by
  have htrue : Text.lowercase v ≠ "true" := hv true
  have hfalse : Text.lowercase v ≠ "false" := hv false
  simp only [scalarOf, if_neg htrue, if_neg hfalse]
  cases wholeNumber? v.toList <;> cases Binary64.parse? v <;> rfl

/-- A text does not spell a whole number that fits if none is read. -/
lemma wholeNumber?_eq_none_iff :
    wholeNumber? cs = none ↔ ∀ n, SpellsWhole cs n → Signed64.fits n = false := by
  constructor
  · intro hnone n hn
    by_contra hfits
    have hsome := wholeNumber?_eq_some_iff.mpr ⟨hn, (Bool.not_eq_false _).mp hfits⟩
    rw [hnone] at hsome
    cases hsome
  · intro hnot
    by_contra hsome
    obtain ⟨n, hn⟩ := Option.ne_none_iff_exists'.mp hsome
    obtain ⟨hspells, hfits⟩ := wholeNumber?_eq_some_iff.mp hn
    rw [hnot n hspells] at hfits
    cases hfits

lemma parse?_eq_none_iff : Binary64.parse? v = none ↔ ¬ IsNumber v.toList := by
  rw [← isSome_parse?_iff, Option.not_isSome_iff_eq_none]

/-- What a text becomes is read from its value. -/
lemma Reads.asText (hv : Reads v t) (o : Option String) :
    (LayerValue.scalar o (scalarOf v)).asText = .ok t := by
  cases hv with
  | @truth b hword =>
      rw [scalarOf_truth hword]
      cases b <;> rfl
  | whole hspells hfits =>
      rw [scalarOf_other (lowercase_ne_of_isNumber hspells.isNumber),
        wholeNumber?_eq_some_iff.mpr ⟨hspells, hfits⟩]
      rfl
  | float hwhole hparse =>
      have hnumber := (isSome_parse?_iff v).mp (by rw [hparse]; rfl)
      rw [scalarOf_other (lowercase_ne_of_isNumber hnumber), wholeNumber?_eq_none_iff.mpr hwhole,
        hparse]
      rfl
  | plain hword hnumber =>
      have hwhole : wholeNumber? v.toList = none :=
        wholeNumber?_eq_none_iff.mpr fun n hn => absurd hn.isNumber hnumber
      rw [scalarOf_other hword, hwhole, parse?_eq_none_iff.mpr hnumber]
      rfl

/-- Every text becomes some text. -/
lemma exists_reads (v : String) : ∃ t, Reads v t := by
  by_cases htruth : ∃ b : Bool, Text.lowercase v = toString b
  · obtain ⟨b, hb⟩ := htruth
    exact ⟨_, .truth hb⟩
  rw [not_exists] at htruth
  cases hwhole : wholeNumber? v.toList with
  | some n =>
      obtain ⟨hspells, hfits⟩ := wholeNumber?_eq_some_iff.mp hwhole
      exact ⟨_, .whole hspells hfits⟩
  | none =>
      cases hparse : Binary64.parse? v with
      | some x => exact ⟨_, .float (wholeNumber?_eq_none_iff.mp hwhole) hparse⟩
      | none => exact ⟨v, .plain htruth (parse?_eq_none_iff.mp hparse)⟩

/-- **A setting that is a string reads the value of a variable so.** -/
theorem asText_scalarOf_iff (o : Option String) :
    (LayerValue.scalar o (scalarOf v)).asText = .ok t ↔ Reads v t := by
  constructor
  · intro htext
    obtain ⟨t', ht'⟩ := exists_reads v
    obtain rfl : t' = t := Except.ok.inj ((ht'.asText o).symm.trans htext)
    exact ht'
  · exact fun hv => hv.asText o

/-- A text becomes one text only. -/
lemma Reads.unique {t' : String} (ht : Reads v t) (ht' : Reads v t') : t = t' :=
  Except.ok.inj ((ht.asText none).symm.trans (ht'.asText none))

/-- The texts that a setting takes as they stand: words for truth values in lower case, whole
numbers in their own form, other numbers in theirs, and all that is neither. -/
inductive Kept (v : String) : Prop where
  | truth {b : Bool} : v = toString b → Kept v
  | whole {n : ℤ} : v = .ofList (integerChars n) → Signed64.fits n = true → Kept v
  | float {x : Binary64} : (∀ n, SpellsWhole v.toList n → Signed64.fits n = false) →
      Binary64.parse? v = some x → v = x.text → Kept v
  | plain : (∀ b : Bool, Text.lowercase v ≠ toString b) → ¬ IsNumber v.toList → Kept v

/-- **Which texts become themselves.** -/
theorem reads_self_iff : Reads v v ↔ Kept v := by
  constructor
  · intro hv
    obtain ⟨t, ht, htext⟩ : ∃ t, Reads v t ∧ v = t := ⟨v, hv, rfl⟩
    cases ht with
    | truth hword => exact .truth htext
    | whole hspells hfits => exact .whole htext hfits
    | float hwhole hparse => exact .float hwhole hparse htext
    | plain hword hnumber => exact .plain hword hnumber
  · rintro (@⟨b, rfl⟩ | @⟨n, rfl, hfits⟩ | ⟨hwhole, hparse, htext⟩ | ⟨hword, hnumber⟩)
    · exact .truth (by cases b <;> decide +kernel)
    · have hspells : SpellsWhole (String.ofList (integerChars n)).toList n := by
        rw [String.toList_ofList]
        exact spellsWhole_integerChars n
      exact .whole hspells hfits
    · have hreads := Reads.float hwhole hparse
      rwa [← htext] at hreads
    · exact .plain hword hnumber

end TreeDigest.Layer

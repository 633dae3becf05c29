import Mathlib
import TreeDigest.Decimal.Binary64
import TreeDigest.Proofs.Json.Reading

/-!
Which texts are numbers.

A number has a sign or none, and after it a decimal or a word for what is not finite, in any case.
A decimal consists of digits, at least one, with at most one point before, among or after them, and
perhaps an exponent.

* `Signed` takes the sign off a text.
* `IsNumber` is the notation, and `isSome_parse?_iff` says that just its texts are read.
* `IsNumber.exists_start` tells what a number starts with.
-/

namespace TreeDigest

open Json

variable {c : Char} {cs ds es body rest : List Char} {negative : Bool}

/-! ### Digits and signs -/

namespace Json

/-- The text is a row of digits. -/
def IsDigits (ds : List Char) : Prop := ∀ c ∈ ds, c.isDigit = true

/-- Splitting takes off all digits in front. -/
lemma splitDigits_eq_iff :
    splitDigits cs = (ds, rest) ↔ cs = ds ++ rest ∧ IsDigits ds ∧ EndsDigits rest := by
  constructor
  · rintro hsplit
    obtain ⟨rfl, rfl⟩ := Prod.mk.inj hsplit
    refine ⟨List.takeWhile_append_dropWhile.symm, fun c => List.mem_takeWhile_imp, fun c hc => ?_⟩
    have hstop := List.head?_dropWhile_not Char.isDigit cs
    rwa [Option.mem_def.mp hc] at hstop
  · rintro ⟨rfl, hds, hrest⟩
    exact splitDigits_append hds hrest

/-- Every text starts with digits, perhaps none, and goes on with something else. -/
lemma exists_splitDigits (cs : List Char) :
    ∃ ds rest, cs = ds ++ rest ∧ IsDigits ds ∧ EndsDigits rest :=
  ⟨_, _, splitDigits_eq_iff.mp rfl⟩

/-- A text is what its sign and the text after it make; where there is no sign in front, it is all
of the text. -/
inductive Signed : List Char → Bool → List Char → Prop where
  | minus {body : List Char} : Signed ('-' :: body) true body
  | plus {body : List Char} : Signed ('+' :: body) false body
  | none {body : List Char} : body.head? ≠ some '-' → body.head? ≠ some '+' → Signed body false body

lemma exists_signed (cs : List Char) : ∃ negative body, Signed cs negative body := by
  by_cases hminus : cs.head? = some '-'
  · obtain ⟨body, rfl⟩ := List.head?_eq_some_iff.mp hminus
    exact ⟨_, _, .minus⟩
  by_cases hplus : cs.head? = some '+'
  · obtain ⟨body, rfl⟩ := List.head?_eq_some_iff.mp hplus
    exact ⟨_, _, .plus⟩
  · exact ⟨_, _, .none hminus hplus⟩

lemma Signed.body_eq {negative' : Bool} {body' : List Char} (hcs : Signed cs negative body)
    (hcs' : Signed cs negative' body') : body' = body := by
  cases hcs <;> cases hcs' <;> first | rfl | (exfalso; simp_all)

end Json

namespace Binary64

/-! ### The notation -/

/-- An exponent with its letter, or nothing. -/
inductive IsExponent : List Char → Prop where
  | absent : IsExponent []
  | given {e : Char} {cs ds : List Char} {negative : Bool} : e = 'e' ∨ e = 'E' →
      Signed cs negative ds → ds ≠ [] → IsDigits ds → IsExponent (e :: cs)

/-- A decimal without a sign. -/
inductive IsDecimal : List Char → Prop where
  | whole {ds ex : List Char} : ds ≠ [] → IsDigits ds → IsExponent ex → IsDecimal (ds ++ ex)
  | pointed {ds es ex : List Char} : ds ≠ [] ∨ es ≠ [] → IsDigits ds → IsDigits es →
      IsExponent ex → IsDecimal (ds ++ '.' :: (es ++ ex))

/-- A word for what is not finite, in any case. -/
def IsWord (cs : List Char) : Prop :=
  cs.map Char.toLower ∈ ["inf".toList, "infinity".toList, "nan".toList]

/-- A number: a sign or none, and then a word or a decimal. -/
def IsNumber (cs : List Char) : Prop :=
  ∃ negative body, Signed cs negative body ∧ (IsWord body ∨ IsDecimal body)

/-! ### Reading -/

variable {ex : List Char}

/-- An exponent does not start with a digit. -/
lemma IsExponent.endsDigits (hex : IsExponent ex) : EndsDigits ex := by
  intro c hc
  cases hex with
  | absent => cases hc
  | given he hsigned hne hds =>
      obtain rfl := Option.some.inj hc
      rcases he with rfl | rfl <;> rfl

/-- Nor with a point. -/
lemma IsExponent.head?_ne (hex : IsExponent ex) : ex.head? ≠ some '.' := by
  cases hex with
  | absent => simp
  | given he hsigned hne hds => rcases he with rfl | rfl <;> simp

/-- What is read after the letter of an exponent. -/
lemma exponent?_signed {e : Char} (he : e = 'e' ∨ e = 'E') (hsigned : Signed cs negative body) :
    ∃ sign : ℤ, exponent? (e :: cs) = if (splitDigits body).1.isEmpty then none
      else some (some (sign * digitsValue (splitDigits body).1), (splitDigits body).2) := by
  cases hsigned with
  | minus => exact ⟨-1, by rw [exponent?.eq_1, if_pos he]⟩
  | plus => exact ⟨1, by rw [exponent?.eq_2, if_pos he]⟩
  | none hminus hplus =>
      refine ⟨1, ?_⟩
      have hminus' : ∀ rest, cs = '-' :: rest → False := fun rest h => hminus (by simp [h])
      have hplus' : ∀ rest, cs = '+' :: rest → False := fun rest h => hplus (by simp [h])
      rw [exponent?.eq_3 _ _ hminus' hplus', if_pos he]

/-- **An exponent is read, with nothing after it, just where one stands.** -/
lemma exists_exponent?_iff : (∃ n, exponent? ex = some (n, [])) ↔ IsExponent ex := by
  cases ex with
  | nil => exact ⟨fun _ => .absent, fun _ => ⟨none, rfl⟩⟩
  | cons e cs =>
      by_cases he : e = 'e' ∨ e = 'E'
      · obtain ⟨negative, body, hsigned⟩ := exists_signed cs
        obtain ⟨sign, hread⟩ := exponent?_signed he hsigned
        rw [hread]
        constructor
        · rintro ⟨n, hn⟩
          split at hn
          · cases hn
          · next hne =>
              have hrest := (Prod.mk.inj (Option.some.inj hn)).2
              obtain ⟨hbody, hds, -⟩ := splitDigits_eq_iff.mp
                (Prod.mk.eta (p := splitDigits body)).symm
              rw [hrest, List.append_nil] at hbody
              exact .given he hsigned (by rw [hbody]; simpa using hne) (hbody ▸ hds)
        · rintro (_ | @⟨_, _, ds, _, _, hsigned', hne, hds⟩)
          obtain rfl := hsigned.body_eq hsigned'
          have hsplit : splitDigits ds = (ds, []) :=
            splitDigits_eq_iff.mpr ⟨(List.append_nil ds).symm, hds, fun c hc => by cases hc⟩
          rw [hsplit, if_neg (by simpa using hne)]
          exact ⟨_, rfl⟩
      · have hread : exponent? (e :: cs) = some (none, e :: cs) := by
          rw [exponent?.eq_def]
          simp only [if_neg he]
        rw [hread]
        constructor
        · rintro ⟨n, hn⟩
          cases hn
        · rintro (_ | ⟨he', _⟩)
          exact absurd he' he

/-- Once the digits are read, all depends on the exponent. -/
lemma isSome_bind_exponent?_iff {f : Option ℤ → Binary64} :
    ((exponent? ex).bind fun e => if e.2.isEmpty then some (f e.1) else none).isSome = true
      ↔ IsExponent ex := by
  rw [← exists_exponent?_iff]
  cases hread : exponent? ex with
  | none => simp
  | some e =>
      obtain ⟨n, rest⟩ := e
      cases rest <;> simp

lemma isSome_unsigned?_whole (hds : IsDigits ds) (hends : EndsDigits ex)
    (hpoint : ex.head? ≠ some '.') :
    (unsigned? negative (ds ++ ex)).isSome = true ↔ ds ≠ [] ∧ IsExponent ex := by
  simp only [unsigned?, splitDigits_append hds hends, Option.bind_eq_bind, Option.pure_def]
  split
  · simp at hpoint
  · cases ds with
    | nil => simp
    | cons d ds =>
        simpa using isSome_bind_exponent?_iff (f := fun n => ofDecimal negative
          (digitsValue (d :: ds)) (n.getD 0))

lemma isSome_unsigned?_pointed (hds : IsDigits ds) (hes : IsDigits es) (hends : EndsDigits ex) :
    (unsigned? negative (ds ++ '.' :: (es ++ ex))).isSome = true
      ↔ (ds ≠ [] ∨ es ≠ []) ∧ IsExponent ex := by
  have hpoint : EndsDigits ('.' :: (es ++ ex)) := by
    intro c hc
    obtain rfl := Option.some.inj hc
    rfl
  simp only [unsigned?, splitDigits_append hds hpoint, splitDigits_append hes hends,
    Option.bind_eq_bind, Option.pure_def]
  by_cases hnone : ds = [] ∧ es = []
  · obtain ⟨rfl, rfl⟩ := hnone
    simp
  · have hsome : (ds.isEmpty && es.isEmpty) = false := by simpa using hnone
    rw [hsome, if_neg Bool.false_ne_true, and_iff_right (by tauto)]
    exact isSome_bind_exponent?_iff (f := fun n => ofDecimal negative (digitsValue (ds ++ es))
      (n.getD 0 - es.length))

/-- **What is read as a decimal without a sign.** -/
theorem isSome_unsigned?_iff : (unsigned? negative cs).isSome = true ↔ IsDecimal cs := by
  constructor
  · intro hsome
    obtain ⟨ds, rest, rfl, hds, hrest⟩ := exists_splitDigits cs
    by_cases hpoint : rest.head? = some '.'
    · obtain ⟨more, rfl⟩ := List.head?_eq_some_iff.mp hpoint
      obtain ⟨es, ex, rfl, hes, hends⟩ := exists_splitDigits more
      obtain ⟨hne, hex⟩ := (isSome_unsigned?_pointed hds hes hends).mp hsome
      exact .pointed hne hds hes hex
    · obtain ⟨hne, hex⟩ := (isSome_unsigned?_whole hds hrest hpoint).mp hsome
      exact .whole hne hds hex
  · rintro (⟨hne, hds, hex⟩ | ⟨hne, hds, hes, hex⟩)
    · exact (isSome_unsigned?_whole hds hex.endsDigits hex.head?_ne).mpr ⟨hne, hex⟩
    · exact (isSome_unsigned?_pointed hds hes hex.endsDigits).mpr ⟨hne, hex⟩

/-- What is read after a sign. -/
lemma parse?_signed {s : String} (hs : Signed s.toList negative body) :
    parse? s = if body.map Char.toLower = "inf".toList ∨ body.map Char.toLower = "infinity".toList
        then some ⟨if negative then 0xFFF0000000000000 else 0x7FF0000000000000⟩
      else if body.map Char.toLower = "nan".toList
        then some ⟨if negative then 0xFFF8000000000000 else 0x7FF8000000000000⟩
      else unsigned? negative body := by
  unfold parse?
  generalize s.toList = cs at hs
  cases hs with
  | minus => rfl
  | plus => rfl
  | none hminus hplus =>
      split
      next hsplit =>
        split at hsplit
        · simp at hminus
        · simp at hplus
        · cases hsplit
          rfl

/-- **The texts that are read as numbers are those of the notation.** -/
theorem isSome_parse?_iff (s : String) : (parse? s).isSome = true ↔ IsNumber s.toList := by
  obtain ⟨negative, body, hsigned⟩ := exists_signed s.toList
  have hnumber : IsNumber s.toList ↔ IsWord body ∨ IsDecimal body := by
    constructor
    · rintro ⟨negative', body', hsigned', hbody⟩
      rwa [hsigned.body_eq hsigned'] at hbody
    · exact fun hbody => ⟨negative, body, hsigned, hbody⟩
  rw [parse?_signed hsigned, hnumber, IsWord]
  simp only [List.mem_cons, List.not_mem_nil, or_false]
  by_cases hinf : body.map Char.toLower = "inf".toList ∨ body.map Char.toLower = "infinity".toList
  · rw [if_pos hinf]
    exact iff_of_true rfl (.inl (hinf.imp_right .inl))
  by_cases hnan : body.map Char.toLower = "nan".toList
  · rw [if_neg hinf, if_pos hnan]
    exact iff_of_true rfl (.inl (.inr (.inr hnan)))
  · rw [if_neg hinf, if_neg hnan, isSome_unsigned?_iff, or_iff_right]
    tauto

/-! ### How a number starts -/

/-- The characters that a number may start with. -/
def starts : List Char :=
  ['+', '-', '.', '0', '1', '2', '3', '4', '5', '6', '7', '8', '9', 'i', 'I', 'n', 'N']

lemma mem_starts_of_isDigit (hc : c.isDigit = true) : c ∈ starts := by
  simp only [Char.isDigit, Bool.and_eq_true, decide_eq_true_eq] at hc
  have hlow : 48 ≤ c.toNat := by exact_mod_cast hc.1
  have hhigh : c.toNat ≤ 57 := by exact_mod_cast hc.2
  rw [← Char.ofNat_toNat c]
  generalize c.toNat = n at *
  interval_cases n <;> decide

lemma mem_starts_of_toLower (hc : c.toLower = 'i' ∨ c.toLower = 'n') : c ∈ starts := by
  by_cases hupper : 'A'.val ≤ c.val ∧ c.val ≤ 'Z'.val
  · have hlow : 65 ≤ c.toNat := by exact_mod_cast hupper.1
    have hhigh : c.toNat ≤ 90 := by exact_mod_cast hupper.2
    rw [← Char.ofNat_toNat c] at hc ⊢
    generalize c.toNat = n at *
    revert hc
    interval_cases n <;> decide
  · rw [Char.toLower, dif_neg hupper] at hc
    rcases hc with rfl | rfl <;> decide

lemma IsWord.exists_start (hcs : IsWord cs) : ∃ c ∈ starts, cs.head? = some c := by
  have hhead : (cs.head?.map Char.toLower) = some 'i' ∨ (cs.head?.map Char.toLower) = some 'n' := by
    rw [← List.head?_map]
    simp only [IsWord, List.mem_cons, List.not_mem_nil, or_false] at hcs
    rcases hcs with h | h | h <;> rw [h] <;> decide
  simp only [Option.map_eq_some_iff] at hhead
  rcases hhead with ⟨c, hc, hlower⟩ | ⟨c, hc, hlower⟩
  · exact ⟨c, mem_starts_of_toLower (.inl hlower), hc⟩
  · exact ⟨c, mem_starts_of_toLower (.inr hlower), hc⟩

lemma IsDecimal.exists_start (hcs : IsDecimal cs) : ∃ c ∈ starts, cs.head? = some c := by
  have hdigits : ∀ {ds : List Char}, ds ≠ [] → IsDigits ds → ∀ rest,
      ∃ c ∈ starts, (ds ++ rest).head? = some c := by
    intro ds hne hds rest
    obtain ⟨c, ds, rfl⟩ := List.exists_cons_of_ne_nil hne
    exact ⟨c, mem_starts_of_isDigit (hds c (by simp)), rfl⟩
  cases hcs with
  | whole hne hds hex => exact hdigits hne hds _
  | @pointed ds es ex hne hds hes hex =>
      by_cases hnone : ds = []
      · subst hnone
        exact ⟨'.', by decide, rfl⟩
      · exact hdigits hnone hds _

/-- **A number starts with a sign, a point, a digit or the first letter of a word.** -/
theorem IsNumber.exists_start (hcs : IsNumber cs) : ∃ c ∈ starts, cs.head? = some c := by
  obtain ⟨negative, body, hsigned, hbody⟩ := hcs
  cases hsigned with
  | minus => exact ⟨'-', by decide, rfl⟩
  | plus => exact ⟨'+', by decide, rfl⟩
  | none hminus hplus => exact hbody.elim IsWord.exists_start IsDecimal.exists_start

end Binary64

end TreeDigest

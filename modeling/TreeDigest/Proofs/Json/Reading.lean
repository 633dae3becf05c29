import Mathlib
import TreeDigest.Json.Reader
import TreeDigest.Proofs.Text.Hex

/-!
JSON values are read back from their texts.

A text in the layout with one item a line starts every value after blanks, and goes on after it with
a blank, a comma or nothing. So a reader that skips blanks stands at the value, and a number ends
where it was ended. The budget of the reader is bounded by the length of what is written.

* `string?_quote`: a string is read back, whatever stands in it.
* `number?_integerChars` and `number?_decimalChars`: so are numbers.
* `parse?_pretty`: the text of a value spells the value.
-/

namespace TreeDigest.Json

variable {c : Char} {cs done rest tail : List Char} {level n : ℕ}

/-! ### Strings -/

/-- **What stands for a character is read as that character.** -/
lemma stringBody_escape (n : ℕ) (done : List Char) (c : Char) (rest : List Char) :
    stringBody (n + 1) done (escape c ++ rest) = stringBody n (c :: done) rest := by
  rw [escape]
  split_ifs with hquote hslash hc hc hc hc hc hcontrol
  · subst hquote
    rfl
  · subst hslash
    rfl
  iterate 5
    · subst hc
      rfl
  · have hhigh : Text.Hex.value? (Text.Hex.digit (c.toNat / 16)) = some (c.toNat / 16) :=
      Text.Hex.value?_digit (by omega)
    have hlow : Text.Hex.value? (Text.Hex.digit (c.toNat % 16)) = some (c.toNat % 16) :=
      Text.Hex.value?_digit (by omega)
    have hzero : Text.Hex.value? '0' = some 0 := rfl
    let digits := '0' :: '0' :: Text.Hex.digit (c.toNat / 16) :: Text.Hex.digit (c.toNat % 16) :: rest
    have hword : hexWord? digits = some (c.toNat, rest) := by
      simp only [digits, hexWord?, hzero, hhigh, hlow, Option.bind_eq_bind, Option.bind_some,
        Option.pure_def]
      congr 2
      omega
    have hnumbered : numbered? digits = some (c, rest) := by
      have hbelow : c.toNat < 0xD800 ∨ 0xE000 ≤ c.toNat := .inl (by omega)
      simp only [numbered?, hword, Option.bind_eq_bind, Option.bind_some, if_pos hbelow,
        Option.pure_def, Char.ofNat_toNat]
    have hread : stringBody (n + 1) done ('\\' :: 'u' :: digits) = stringBody n (c :: done) rest := by
      rw [stringBody.eq_def]
      simp [hnumbered]
    exact hread
  · rw [List.singleton_append, stringBody.eq_def]
    simp only [if_neg hquote, if_neg hslash, if_neg hcontrol]

lemma stringBody_escaped (cs : List Char) (hn : cs.length < n) (done rest : List Char) :
    stringBody n done (cs.flatMap escape ++ '"' :: rest)
      = some (.ofList (done.reverse ++ cs), rest) := by
  induction cs generalizing n done with
  | nil =>
      obtain ⟨n, rfl⟩ := Nat.exists_eq_add_one_of_ne_zero (Nat.ne_zero_of_lt hn)
      rw [List.append_nil]
      rfl
  | cons c cs ih =>
      obtain ⟨n, rfl⟩ := Nat.exists_eq_add_one_of_ne_zero (Nat.ne_zero_of_lt hn)
      rw [List.flatMap_cons, List.append_assoc, stringBody_escape, ih (by simpa using hn),
        List.reverse_cons, List.append_assoc, List.singleton_append]

/-- A character takes some room. -/
lemma length_le_escaped (cs : List Char) : cs.length ≤ (cs.flatMap escape).length := by
  have hone : ∀ c, 1 ≤ (escape c).length := fun c => by
    rw [escape]
    split_ifs <;> simp
  induction cs with
  | nil => exact Nat.zero_le _
  | cons c cs ih =>
      have hc := hone c
      rw [List.flatMap_cons, List.length_append, List.length_cons]
      omega

/-- **A string is read back.** -/
theorem string?_quote (s : String) (rest : List Char) : string? (quote s ++ rest) = some (s, rest) := by
  have hroom := length_le_escaped s.toList
  have hbody := stringBody_escaped s.toList
    (n := (s.toList.flatMap escape ++ '"' :: rest).length + 1)
    (by rw [List.length_append]; omega) [] rest
  rw [quote, List.cons_append, List.append_assoc, List.singleton_append, string?, hbody,
    List.reverse_nil, List.nil_append, String.ofList_toList]

/-! ### Digits -/

lemma digitsValue_eq (ds : List Char) : digitsValue ds = Nat.ofDigitChars 10 ds 0 := by
  simp only [digitsValue, Nat.ofDigitChars, mul_comm]
  rfl

lemma digitsValue_toDigits (m : ℕ) : digitsValue (Nat.toDigits 10 m) = m := by
  rw [digitsValue_eq, Nat.ofDigitChars_toDigits (by decide) (by decide)]

lemma isDigit_of_mem_toDigits {m : ℕ} (hc : c ∈ Nat.toDigits 10 m) : c.isDigit = true :=
  Nat.isDigit_of_mem_toDigits (by decide) (by decide) hc

/-- A number but zero does not start with a zero. -/
lemma head?_toDigits {m : ℕ} (hm : m ≠ 0) : (Nat.toDigits 10 m).head? ≠ some '0' := by
  induction m using Nat.strong_induction_on with
  | _ m ih =>
      by_cases hsmall : m < 10
      · rw [Nat.toDigits_of_lt_base hsmall]
        interval_cases m <;> first | exact absurd rfl hm | decide
      · have hhead := ih (m / 10) (by omega) (by omega)
        rwa [Nat.toDigits_of_base_le (by decide) (by omega),
          List.head?_append_of_ne_nil _ Nat.toDigits_ne_nil]

/-- So no number has a zero in front. -/
lemma not_leadingZero (m : ℕ) :
    ¬ ((Nat.toDigits 10 m).isEmpty
      ∨ (1 < (Nat.toDigits 10 m).length ∧ (Nat.toDigits 10 m).head? = some '0')) := by
  rintro (hempty | ⟨hlong, hzero⟩)
  · exact Nat.toDigits_ne_nil (List.isEmpty_iff.mp hempty)
  · obtain rfl : m = 0 := by
      by_contra hm
      exact head?_toDigits hm hzero
    simp at hlong

/-- The text does not go on with a digit. -/
def EndsDigits (rest : List Char) : Prop := ∀ c ∈ rest.head?, c.isDigit = false

/-- Digits end where something else follows. -/
lemma splitDigits_append {ds : List Char} (hds : ∀ c ∈ ds, c.isDigit = true)
    (hrest : EndsDigits rest) : splitDigits (ds ++ rest) = (ds, rest) := by
  have htake : rest.takeWhile Char.isDigit = [] := by
    cases rest with
    | nil => rfl
    | cons c cs => simp [hrest c rfl]
  have hdrop : rest.dropWhile Char.isDigit = rest := by
    cases rest with
    | nil => rfl
    | cons c cs => simp [hrest c rfl]
  rw [splitDigits, List.takeWhile_append_of_pos hds, List.dropWhile_append_of_pos hds, htake, hdrop,
    List.append_nil]

lemma splitDigits_toDigits (m : ℕ) (hrest : EndsDigits rest) :
    splitDigits (Nat.toDigits 10 m ++ rest) = (Nat.toDigits 10 m, rest) :=
  splitDigits_append (fun _ => isDigit_of_mem_toDigits) hrest

/-! ### Numbers -/

/-- The text does not go on with a number. -/
def EndsNumber (rest : List Char) : Prop :=
  ∀ c ∈ rest.head?, c.isDigit = false ∧ c ≠ '.' ∧ c ≠ 'e' ∧ c ≠ 'E'

lemma EndsNumber.endsDigits (hrest : EndsNumber rest) : EndsDigits rest := fun c hc => (hrest c hc).1

lemma EndsNumber.fraction? (hrest : EndsNumber rest) : fraction? rest = some (none, rest) := by
  cases rest with
  | nil => rfl
  | cons c cs =>
      rw [fraction?.eq_2]
      rintro more ⟨rfl, -⟩
      exact (hrest '.' rfl).2.1 rfl

lemma EndsNumber.exponent? (hrest : EndsNumber rest) : exponent? rest = some (none, rest) := by
  cases rest with
  | nil => rfl
  | cons c cs =>
      obtain ⟨-, -, hlower, hupper⟩ := hrest c rfl
      simp only [Json.exponent?.eq_def, hlower, hupper, or_self, if_false]

/-- A character that a number starts with. -/
def StartsNumber (c : Char) : Prop := c = '-' ∨ c.isDigit = true

lemma toDigits_cons (m : ℕ) : ∃ c tail, Nat.toDigits 10 m = c :: tail ∧ c.isDigit = true := by
  obtain ⟨c, tail, hcons⟩ := List.exists_cons_of_ne_nil (Nat.toDigits_ne_nil (b := 10) (n := m))
  exact ⟨c, tail, hcons, isDigit_of_mem_toDigits (m := m) (by simp [hcons])⟩

/-- Digits are read as a number without a sign. -/
lemma number?_of_isDigit (hc : c.isDigit = true) (cs : List Char) :
    number? (c :: cs) = unsigned? false (c :: cs) := by
  rw [number?.eq_2]
  rintro more ⟨rfl, -⟩
  cases hc

/-- **An integer is read back.** -/
lemma number?_integerChars (m : ℤ) (hrest : EndsNumber rest) :
    number? (integerChars m ++ rest) = some (.integer m, rest) := by
  have hunsigned : ∀ negative : Bool, unsigned? negative (Nat.toDigits 10 m.natAbs ++ rest)
      = if negative ∧ m.natAbs = 0 then some (.decimal true 0 0, rest)
        else some (.integer (if negative then -(m.natAbs : ℤ) else m.natAbs), rest) := by
    intro negative
    simp only [unsigned?, splitDigits_toDigits _ hrest.endsDigits, if_neg (not_leadingZero _),
      hrest.fraction?, hrest.exponent?, Option.bind_eq_bind, Option.bind_some, digitsValue_toDigits,
      Option.pure_def]
  rw [integerChars]
  split
  · next hneg =>
      have hzero : ¬ ((true = true) ∧ m.natAbs = 0) := by omega
      rw [List.cons_append, number?, hunsigned, if_neg hzero, if_pos rfl]
      congr 3
      omega
  · next hneg =>
      obtain ⟨c, tail, hcons, hc⟩ := toDigits_cons m.natAbs
      have hsame : number? (Nat.toDigits 10 m.natAbs ++ rest)
          = unsigned? false (Nat.toDigits 10 m.natAbs ++ rest) := by
        rw [hcons]
        exact number?_of_isDigit hc _
      rw [hsame, hunsigned, if_neg (by simp), if_neg (by simp)]
      congr 3
      omega

/-- An exponent is read back. -/
lemma exponent?_integerChars (m : ℤ) (hrest : EndsDigits rest) :
    exponent? ('e' :: (integerChars m ++ rest)) = some (some m, rest) := by
  have hne : (Nat.toDigits 10 m.natAbs).isEmpty = false :=
    List.isEmpty_eq_false_iff.mpr Nat.toDigits_ne_nil
  have hsplit := splitDigits_toDigits m.natAbs hrest
  rw [integerChars]
  split
  · next hneg =>
      rw [List.cons_append, exponent?.eq_1, if_pos (.inl rfl), hsplit]
      simp only [hne, digitsValue_toDigits, Bool.false_eq_true, if_false]
      congr 3
      omega
  · next hneg =>
      obtain ⟨c, tail, hcons, hc⟩ := toDigits_cons m.natAbs
      have hsign : ∀ d more, d.isDigit = false → Nat.toDigits 10 m.natAbs ++ rest ≠ d :: more := by
        intro d more hd heq
        rw [hcons] at heq
        rw [(List.cons.inj heq).1, hd] at hc
        cases hc
      rw [exponent?.eq_3 _ _ (fun more => hsign '-' more rfl) (fun more => hsign '+' more rfl),
        if_pos (.inl rfl), hsplit]
      simp only [hne, digitsValue_toDigits, Bool.false_eq_true, if_false]
      congr 3
      omega

/-- **A decimal is read back.** -/
lemma number?_decimalChars (negative : Bool) (digits : ℕ) (exponent : ℤ) (hrest : EndsNumber rest) :
    number? (decimalChars negative digits exponent ++ rest)
      = some (.decimal negative digits exponent, rest) := by
  have hexponent := exponent?_integerChars exponent hrest.endsDigits
  have hends : EndsDigits ('e' :: (integerChars exponent ++ rest)) := by
    intro c hc
    obtain rfl : 'e' = c := Option.some.inj hc
    rfl
  have hunsigned : unsigned? negative
      (Nat.toDigits 10 digits ++ 'e' :: (integerChars exponent ++ rest))
        = some (.decimal negative digits exponent, rest) := by
    have hfraction : fraction? ('e' :: (integerChars exponent ++ rest))
        = some (none, 'e' :: (integerChars exponent ++ rest)) := rfl
    simp only [unsigned?, splitDigits_toDigits _ hends, if_neg (not_leadingZero _), hfraction,
      hexponent, Option.bind_eq_bind, Option.bind_some, Option.getD_none, List.append_nil,
      digitsValue_toDigits, Option.getD_some, List.length_nil, Nat.cast_zero, sub_zero,
      Option.pure_def]
  cases negative with
  | true =>
      simpa [decimalChars, number?] using hunsigned
  | false =>
      obtain ⟨c, tail, hcons, hc⟩ := toDigits_cons digits
      have hwhole : decimalChars false digits exponent ++ rest
          = Nat.toDigits 10 digits ++ 'e' :: (integerChars exponent ++ rest) := by
        simp [decimalChars]
      rw [hwhole, ← hunsigned, hcons]
      exact number?_of_isDigit hc _

/-! ### Values -/

lemma skipBlanks_cons (hc : isBlank c = false) (cs : List Char) : skipBlanks (c :: cs) = c :: cs :=
  List.dropWhile_cons_of_neg (by simp [hc])

/-- A new line goes on where its blanks end. -/
lemma skipBlanks_newline (hc : isBlank c = false) (level : ℕ) (cs : List Char) :
    skipBlanks (newline level ++ c :: cs) = c :: cs := by
  have hblanks : ∀ b ∈ newline level, isBlank b = true := by
    simp [newline, isBlank, or_imp, forall_and]
  rw [skipBlanks, List.dropWhile_append_of_pos hblanks]
  exact skipBlanks_cons hc cs

/-- A character that a value may start with: no blank, and no bracket that ends a list or an
object. -/
structure Opens (c : Char) : Prop where
  blank : isBlank c = false
  bracket : c ≠ ']'
  brace : c ≠ '\x7d'

lemma StartsNumber.ne {d : Char} (hc : StartsNumber c) (hdigit : d.isDigit = false)
    (hminus : d ≠ '-') : c ≠ d := by
  rintro rfl
  rcases hc with rfl | hc
  · exact hminus rfl
  · rw [hdigit] at hc
    cases hc

lemma StartsNumber.opens (hc : StartsNumber c) : Opens c := by
  have hspace : c ≠ ' ' := hc.ne rfl (by decide)
  have htab : c ≠ '\t' := hc.ne rfl (by decide)
  have hline : c ≠ '\n' := hc.ne rfl (by decide)
  have hreturn : c ≠ '\r' := hc.ne rfl (by decide)
  exact ⟨by simp [isBlank, hspace, htab, hline, hreturn], hc.ne rfl (by decide),
    hc.ne rfl (by decide)⟩

lemma integerChars_cons (m : ℤ) : ∃ c tail, integerChars m = c :: tail ∧ StartsNumber c := by
  rw [integerChars]
  split
  · exact ⟨'-', _, rfl, .inl rfl⟩
  · obtain ⟨c, tail, hcons, hc⟩ := toDigits_cons m.natAbs
    exact ⟨c, tail, hcons, .inr hc⟩

lemma decimalChars_cons (negative : Bool) (digits : ℕ) (exponent : ℤ) :
    ∃ c tail, decimalChars negative digits exponent = c :: tail ∧ StartsNumber c := by
  obtain ⟨c, tail, hcons, hc⟩ := toDigits_cons digits
  cases negative with
  | true => exact ⟨'-', _, rfl, .inl rfl⟩
  | false => exact ⟨c, _, by rw [decimalChars, hcons]; rfl, .inr hc⟩

/-- **A value opens where it starts.** -/
lemma prettyChars_cons (level : ℕ) (v : Json) :
    ∃ c tail, prettyChars level v = c :: tail ∧ Opens c := by
  cases v with
  | null => exact ⟨'n', _, by rw [prettyChars], by decide, by decide, by decide⟩
  | boolean b =>
      cases b with
      | true => exact ⟨'t', _, by rw [prettyChars], by decide, by decide, by decide⟩
      | false => exact ⟨'f', _, by rw [prettyChars], by decide, by decide, by decide⟩
  | integer m =>
      obtain ⟨c, tail, hcons, hc⟩ := integerChars_cons m
      exact ⟨c, tail, by rw [prettyChars, hcons], hc.opens⟩
  | decimal negative digits exponent =>
      obtain ⟨c, tail, hcons, hc⟩ := decimalChars_cons negative digits exponent
      exact ⟨c, tail, by rw [prettyChars, hcons], hc.opens⟩
  | string s => exact ⟨'"', _, by rw [prettyChars]; rfl, by decide, by decide, by decide⟩
  | array items =>
      cases items with
      | nil => exact ⟨'[', _, by rw [prettyChars], by decide, by decide, by decide⟩
      | cons item items => exact ⟨'[', _, by rw [prettyChars]; rfl, by decide, by decide, by decide⟩
  | object fields =>
      rcases fields with _ | ⟨⟨key, value⟩, fields⟩
      · exact ⟨'\x7b', _, by rw [prettyChars], by decide, by decide, by decide⟩
      · exact ⟨'\x7b', _, by rw [prettyChars]; rfl, by decide, by decide, by decide⟩

/-- A reader that skips blanks stops at a value. -/
lemma skipBlanks_prettyChars (level : ℕ) (v : Json) (cs : List Char) :
    skipBlanks (prettyChars level v ++ cs) = prettyChars level v ++ cs := by
  obtain ⟨c, tail, hcons, hopens⟩ := prettyChars_cons level v
  rw [hcons]
  exact skipBlanks_cons hopens.blank _

/-- So it does on a new line. -/
lemma skipBlanks_newline_prettyChars (outer level : ℕ) (v : Json) (cs : List Char) :
    skipBlanks (newline outer ++ (prettyChars level v ++ cs)) = prettyChars level v ++ cs := by
  obtain ⟨c, tail, hcons, hopens⟩ := prettyChars_cons level v
  rw [hcons]
  exact skipBlanks_newline hopens.blank outer _

/-- It stops at a key as well. -/
lemma skipBlanks_quote (key : String) (cs : List Char) :
    skipBlanks (quote key ++ cs) = quote key ++ cs :=
  skipBlanks_cons rfl _

lemma skipBlanks_newline_quote (outer : ℕ) (key : String) (cs : List Char) :
    skipBlanks (newline outer ++ (quote key ++ cs)) = quote key ++ cs :=
  skipBlanks_newline rfl outer _

/-- A reader that has come to a number reads it. -/
lemma value?_of_startsNumber (hc : StartsNumber c) (hcs : skipBlanks cs = c :: tail) :
    value? (n + 1) cs = number? (c :: tail) := by
  rw [value?.eq_2, hcs]
  split
  · next heq => exact absurd (List.cons.inj heq).1 (hc.ne rfl (by decide))
  · next heq => exact absurd (List.cons.inj heq).1 (hc.ne rfl (by decide))
  · next heq => exact absurd (List.cons.inj heq).1 (hc.ne rfl (by decide))
  · next heq => exact absurd (List.cons.inj heq).1 (hc.ne rfl (by decide))
  · next heq => exact absurd (List.cons.inj heq).1 (hc.ne rfl (by decide))
  · next heq => exact absurd (List.cons.inj heq).1 (hc.ne rfl (by decide))
  · rfl

/-- A reader that has come to a list with an item in it reads the items. -/
lemma value?_bracket (hcs : skipBlanks cs = '[' :: tail) {v : Json}
    (htail : skipBlanks tail = prettyChars level v ++ rest) : value? (n + 1) cs
      = (items? n (prettyChars level v ++ rest)).map fun (items, rest) => (.array items, rest) := by
  obtain ⟨c, more, hcons, hopens⟩ := prettyChars_cons level v
  rw [value?.eq_2, hcs]
  simp only [htail]
  split
  · next heq =>
      rw [hcons] at heq
      exact absurd (List.cons.inj heq).1 hopens.bracket
  · rfl

/-- A reader that has come to an object with a field in it reads the fields. -/
lemma value?_brace (hcs : skipBlanks cs = '\x7b' :: tail) {key : String}
    (htail : skipBlanks tail = quote key ++ rest) : value? (n + 1) cs
      = (fields? n (quote key ++ rest)).map fun (fields, rest) => (.object fields, rest) := by
  rw [value?.eq_2, hcs]
  simp only [htail]
  rfl

/-- Induction on values: what holds of all items of a list holds of the list, and what holds of all
values of an object holds of the object. -/
@[elab_as_elim]
theorem induction_on {P : Json → Prop} (v : Json) (null : P .null) (boolean : ∀ b, P (.boolean b))
    (integer : ∀ m, P (.integer m))
    (decimal : ∀ negative digits exponent, P (.decimal negative digits exponent))
    (string : ∀ s, P (.string s)) (array : ∀ items, (∀ item ∈ items, P item) → P (.array items))
    (object : ∀ fields : List (String × Json), (∀ f ∈ fields, P f.2) → P (.object fields)) : P v :=
  @Json.rec P (fun items => ∀ item ∈ items, P item) (fun fields => ∀ f ∈ fields, P f.2)
    (fun f => P f.2) null boolean integer decimal string array object (by simp)
    (fun _ _ hitem hitems => List.forall_mem_cons.mpr ⟨hitem, hitems⟩) (by simp)
    (fun _ _ hfield hfields => List.forall_mem_cons.mpr ⟨hfield, hfields⟩) (fun _ _ hvalue => hvalue) v

/-- A value is read back at every level by a reader that comes to it, with any text behind it that
does not go on with a number. -/
def ReadsBack (v : Json) : Prop :=
  ∀ ⦃level n : ℕ⦄ ⦃cs rest : List Char⦄, 2 * (prettyChars level v).length ≤ n → EndsNumber rest →
    skipBlanks cs = prettyChars level v ++ rest → value? n cs = some (v, rest)

lemma endsNumber_comma (cs : List Char) : EndsNumber (',' :: cs) := by
  intro c hc
  obtain rfl : ',' = c := Option.some.inj hc
  decide

lemma endsNumber_newline (level : ℕ) (cs : List Char) : EndsNumber (newline level ++ cs) := by
  intro c hc
  obtain rfl : '\n' = c := Option.some.inj hc
  decide

/-- **The items of a list are read back**, from the first one on up to the bracket. -/
lemma items?_prettyItems {item : Json} {items : List Json} {outer : ℕ}
    (hread : ∀ i ∈ item :: items, ReadsBack i)
    (hn : 2 * ((prettyChars level item).length + (prettyItems level items).length) + 1 ≤ n)
    (hcs : skipBlanks cs
      = prettyChars level item ++ (prettyItems level items ++ (newline outer ++ ']' :: rest))) :
    items? n cs = some (item :: items, rest) := by
  induction items generalizing item n cs with
  | nil =>
      obtain ⟨n, rfl⟩ := Nat.exists_eq_add_one_of_ne_zero (n := n) (by omega)
      rw [prettyItems, List.nil_append] at hcs
      have hitem := hread item (by simp) (n := n) (by omega) (endsNumber_newline outer _) hcs
      rw [items?, hitem]
      simp only [skipBlanks_newline (c := ']') rfl]
  | cons next items ih =>
      obtain ⟨n, rfl⟩ := Nat.exists_eq_add_one_of_ne_zero (n := n) (by omega)
      rw [List.forall_mem_cons] at hread
      simp only [prettyItems, List.cons_append, List.append_assoc, List.length_cons,
        List.length_append] at hn hcs
      have hitem := hread.1 (n := n) (by omega) (endsNumber_comma _) hcs
      have hmore := ih hread.2 (n := n) (by omega) (skipBlanks_newline_prettyChars level level next _)
      rw [items?, hitem]
      simp only [skipBlanks_cons (c := ',') rfl, hmore, Option.map_some]

/-- **The fields of an object are read back**, from the first one on up to the brace. -/
lemma fields?_prettyFields {key : String} {value : Json} {fields : List (String × Json)} {outer : ℕ}
    (hread : ∀ f ∈ (key, value) :: fields, ReadsBack f.2)
    (hn : 2 * ((prettyChars level value).length + (prettyFields level fields).length) + 1 ≤ n)
    (hcs : skipBlanks cs = quote key ++ (':' :: ' ' :: (prettyChars level value
      ++ (prettyFields level fields ++ (newline outer ++ '\x7d' :: rest))))) :
    fields? n cs = some ((key, value) :: fields, rest) := by
  have hblank : ∀ (v : Json) more, skipBlanks (' ' :: (prettyChars level v ++ more))
      = prettyChars level v ++ more := skipBlanks_prettyChars level
  induction fields generalizing key value n cs with
  | nil =>
      obtain ⟨n, rfl⟩ := Nat.exists_eq_add_one_of_ne_zero (n := n) (by omega)
      rw [prettyFields, List.nil_append] at hcs
      have hback : ReadsBack value := hread (key, value) List.mem_cons_self
      have hvalue := hback (n := n) (by omega) (endsNumber_newline outer ('\x7d' :: rest))
        (hblank value _)
      rw [fields?, hcs, string?_quote]
      simp only [skipBlanks_cons (c := ':') rfl, hvalue, skipBlanks_newline (c := '\x7d') rfl]
  | cons next fields ih =>
      obtain ⟨n, rfl⟩ := Nat.exists_eq_add_one_of_ne_zero (n := n) (by omega)
      obtain ⟨nextKey, nextValue⟩ := next
      rw [List.forall_mem_cons] at hread
      simp only [prettyFields, List.cons_append, List.length_cons, List.length_append,
        List.append_assoc, List.nil_append] at hn hcs
      have hback : ReadsBack value := hread.1
      have hvalue := hback (n := n) (by omega) (endsNumber_comma (newline level ++ (quote nextKey
        ++ ':' :: ' ' :: (prettyChars level nextValue ++ (prettyFields level fields
          ++ (newline outer ++ '\x7d' :: rest)))))) (hblank value _)
      have hmore := ih hread.2 (n := n) (by omega) (skipBlanks_newline_quote level nextKey _)
      rw [fields?, hcs, string?_quote]
      simp only [skipBlanks_cons (c := ':') rfl, hvalue, skipBlanks_cons (c := ',') rfl, hmore,
        Option.map_some]

/-- **Every value is read back.** -/
theorem readsBack (v : Json) : ReadsBack v := by
  have hbudget : ∀ {v : Json} {level n}, 2 * (prettyChars level v).length ≤ n → ∃ m, n = m + 1 := by
    intro v level n hn
    obtain ⟨c, tail, hcons, -⟩ := prettyChars_cons level v
    rw [hcons, List.length_cons] at hn
    exact Nat.exists_eq_add_one_of_ne_zero (by omega)
  induction v using induction_on with
  | null =>
      intro level n cs rest hn hrest hcs
      obtain ⟨n, rfl⟩ := hbudget hn
      rw [value?.eq_2, hcs, prettyChars]
      rfl
  | boolean b =>
      intro level n cs rest hn hrest hcs
      obtain ⟨n, rfl⟩ := hbudget hn
      rw [value?.eq_2, hcs]
      cases b <;> (rw [prettyChars]; rfl)
  | integer m =>
      intro level n cs rest hn hrest hcs
      obtain ⟨n, rfl⟩ := hbudget hn
      obtain ⟨c, tail, hcons, hc⟩ := integerChars_cons m
      rw [prettyChars, hcons, List.cons_append] at hcs
      rw [value?_of_startsNumber hc hcs, ← List.cons_append, ← hcons, number?_integerChars m hrest]
  | decimal negative digits exponent =>
      intro level n cs rest hn hrest hcs
      obtain ⟨n, rfl⟩ := hbudget hn
      obtain ⟨c, tail, hcons, hc⟩ := decimalChars_cons negative digits exponent
      rw [prettyChars, hcons, List.cons_append] at hcs
      rw [value?_of_startsNumber hc hcs, ← List.cons_append, ← hcons,
        number?_decimalChars negative digits exponent hrest]
  | string s =>
      intro level n cs rest hn hrest hcs
      obtain ⟨n, rfl⟩ := hbudget hn
      have hread := string?_quote s rest
      rw [value?.eq_2, hcs, prettyChars]
      change (string? (quote s ++ rest)).map _ = _
      rw [hread]
      rfl
  | array items ih =>
      intro level n cs rest hn hrest hcs
      obtain ⟨n, rfl⟩ := hbudget hn
      cases items with
      | nil =>
          rw [value?.eq_2, hcs, prettyChars]
          rfl
      | cons item items =>
          simp only [prettyChars, List.cons_append, List.append_assoc, List.nil_append,
            List.length_cons, List.length_append] at hn hcs
          have hskip := skipBlanks_newline_prettyChars (level + 1) (level + 1) item
            (prettyItems (level + 1) items ++ (newline level ++ ']' :: rest))
          have hitems := items?_prettyItems ih (n := n) (by omega) (skipBlanks_prettyChars (level + 1)
            item (prettyItems (level + 1) items ++ (newline level ++ ']' :: rest)))
          rw [value?_bracket hcs hskip, hitems]
          rfl
  | object fields ih =>
      intro level n cs rest hn hrest hcs
      obtain ⟨n, rfl⟩ := hbudget hn
      rcases fields with _ | ⟨⟨key, value⟩, fields⟩
      · rw [value?.eq_2, hcs, prettyChars]
        rfl
      · simp only [prettyChars, List.cons_append, List.append_assoc, List.nil_append,
          List.length_cons, List.length_append] at hn hcs
        have hfields := fields?_prettyFields ih (n := n) (by omega) (skipBlanks_quote key (':' :: ' '
          :: (prettyChars (level + 1) value ++ (prettyFields (level + 1) fields
            ++ (newline level ++ '\x7d' :: rest)))))
        rw [value?_brace hcs (skipBlanks_newline_quote (level + 1) key _), hfields]
        rfl

/-- **The text of a value spells the value.** -/
theorem parse?_pretty (v : Json) : parse? v.pretty = some v := by
  have hbudget : 2 * (prettyChars 0 v).length ≤ 2 * v.pretty.length + 2 := by
    rw [pretty, String.length_ofList]
    omega
  have hread := readsBack v hbudget (nofun : EndsNumber []) (skipBlanks_prettyChars 0 v [])
  rw [List.append_nil] at hread
  rw [parse?, pretty, String.toList_ofList, ← pretty, hread]
  rfl

lemma pretty_injective : Function.Injective pretty := by
  intro v w h
  have hread := congrArg parse? h
  rwa [parse?_pretty, parse?_pretty, Option.some.injEq] at hread

end TreeDigest.Json

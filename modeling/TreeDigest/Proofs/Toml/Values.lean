import TreeDigest.Toml.Reader
import TreeDigest.Proofs.Toml.Strings

/-!
Values and lines of TOML documents are read back.

* `Plain` holds of texts, truth values and lists of such, as deep as there is room for.
* `value?_valueChars` reads such a value back, list items on lines of their own included.
* `key?_path` reads the parts of a key back.
* `line?_fieldLine` and `line?_headerLine` say what a line does to the document before it.
-/

namespace TreeDigest.Toml

variable {c : Char} {tail rest : List Char} {n : ℕ} {v : Value}

/-! ### Blanks -/

/-- A character at which neither blanks nor line ends nor comments start. -/
structure Opens (c : Char) : Prop where
  space : isSpace c = false
  lineEnd : c ≠ '\n'
  carriage : c ≠ '\r'
  comment : c ≠ '#'

lemma skipSpaces_cons (hc : isSpace c = false) (tail : List Char) :
    skipSpaces (c :: tail) = c :: tail := List.dropWhile_cons_of_neg (by simp [hc])

lemma comment?_other (hc : c ≠ '#') : comment? (c :: tail) = none := by
  rw [comment?.eq_2]
  rintro rest ⟨rfl, -⟩
  exact hc rfl

/-- Where something opens nothing is left out. -/
lemma skipBetween_opens (hc : Opens c) (n : ℕ) (tail : List Char) :
    skipBetween n (c :: tail) = c :: tail := by
  cases n with
  | zero => rfl
  | succ n =>
      simp only [skipBetween, skipSpaces_cons hc.space, lineEnd?_other hc.lineEnd hc.carriage,
        comment?_other hc.comment]

/-- A line end is left out, and so are the blanks on the next line. -/
lemma skipBetween_lineEnd {blanks : List Char} (hblanks : ∀ b ∈ blanks, isSpace b = true)
    (hc : Opens c) (hn : 2 ≤ n) (tail : List Char) :
    skipBetween n ('\n' :: (blanks ++ c :: tail)) = c :: tail := by
  obtain ⟨n, rfl⟩ : ∃ m, n = m + 2 := ⟨n - 2, by omega⟩
  have hskip : skipSpaces (blanks ++ c :: tail) = c :: tail := by
    rw [skipSpaces, List.dropWhile_append_of_pos hblanks]
    exact skipSpaces_cons hc.space tail
  have hline : skipBetween (n + 2) ('\n' :: (blanks ++ c :: tail))
      = skipBetween (n + 1) (blanks ++ c :: tail) := rfl
  rw [hline]
  simp only [skipBetween, hskip, lineEnd?_other hc.lineEnd hc.carriage, comment?_other hc.comment]

/-! ### Values -/

/-- Texts, truth values and lists of such. The number is the room for levels, plus one. -/
inductive Plain : ℕ → Value → Prop where
  | text {n : ℕ} {s : String} : Plain (n + 1) (.text s)
  | boolean {n : ℕ} {b : Bool} : Plain (n + 1) (.boolean b)
  | array {n : ℕ} {items : List Value} : (∀ item ∈ items, Plain (n + 1) item) →
      Plain (n + 2) (.array items)

/-- A character that a plain value may start with. -/
def StartsValue (c : Char) : Prop := c = '"' ∨ c = '\x27' ∨ c = 't' ∨ c = 'f' ∨ c = '['

/-- A value opens where it starts, and not with the bracket that closes a list. -/
lemma StartsValue.opens (hc : StartsValue c) : Opens c ∧ c ≠ ']' := by
  rcases hc with rfl | rfl | rfl | rfl | rfl <;>
    exact ⟨⟨rfl, by decide, by decide, by decide⟩, by decide⟩

lemma textChars_cons (s : String) :
    ∃ tail, textChars s = '"' :: tail ∨ textChars s = '\x27' :: tail := by
  rw [textChars]
  cases (TextShape.of s.toList).quoting with
  | basic => exact ⟨_, .inl rfl⟩
  | literal => exact ⟨_, .inr rfl⟩
  | basicLines => exact ⟨_, .inl rfl⟩
  | literalLines => exact ⟨_, .inr rfl⟩

lemma Plain.valueChars_cons (hv : Plain n v) :
    ∃ c tail, valueChars v = c :: tail ∧ Opens c ∧ c ≠ ']' := by
  suffices hstart : ∃ c tail, valueChars v = c :: tail ∧ StartsValue c by
    obtain ⟨c, tail, hc, hstart⟩ := hstart
    exact ⟨c, tail, hc, hstart.opens⟩
  cases hv with
  | @text n s =>
      obtain ⟨tail, htext | htext⟩ := textChars_cons s
      · exact ⟨'"', tail, by rw [valueChars, htext], by simp [StartsValue]⟩
      · exact ⟨'\x27', tail, by rw [valueChars, htext], by simp [StartsValue]⟩
  | @boolean n b =>
      cases b with
      | false => exact ⟨'f', _, by rw [valueChars], by simp [StartsValue]⟩
      | true => exact ⟨'t', _, by rw [valueChars], by simp [StartsValue]⟩
  | @array n items hitems =>
      rcases items with _ | ⟨item, _ | ⟨next, more⟩⟩
      all_goals exact ⟨'[', _, rfl, by simp [StartsValue]⟩

/-- Values that a reader reads back where no quotes follow. -/
def ReadBack (read : Reader Value) (v : Value) : Prop :=
  ∀ rest, Unquoted rest → read (valueChars v ++ rest) = some (v, rest)

lemma opens_comma : Opens ',' := ⟨rfl, by decide, by decide, by decide⟩

lemma opens_bracket : Opens ']' := ⟨rfl, by decide, by decide, by decide⟩

lemma unquoted_cons (hdouble : c ≠ '"') (hsingle : c ≠ '\x27') (tail : List Char) :
    Unquoted (c :: tail) := by
  simpa [Unquoted] using ⟨hdouble, hsingle⟩

/-- Every item of a list takes some room. -/
lemma length_le_itemLines (items : List Value) : items.length ≤ (itemLines items).length := by
  induction items with
  | nil => exact Nat.zero_le _
  | cons item items ih =>
      simp only [itemLines, itemLine, List.length_append, List.length_cons, List.length_nil]
      omega

/-- The items of a list are read back if each of them has a line of its own. -/
lemma arrayItems_itemLines {read : Reader Value} {items : List Value} {depth : ℕ}
    (hread : ∀ item ∈ items, ReadBack read item) (hplain : ∀ item ∈ items, Plain depth item)
    (hn : items.length < n) (rest : List Char) :
    arrayItems read n ('\n' :: (itemLines items ++ ']' :: rest)) = some (items, rest) := by
  induction items generalizing n with
  | nil =>
      obtain ⟨n, rfl⟩ := Nat.exists_eq_add_one_of_ne_zero (Nat.ne_zero_of_lt hn)
      have hskip : skipBetween ('\n' :: ']' :: rest).length ('\n' :: ([] ++ ']' :: rest))
          = ']' :: rest := skipBetween_lineEnd (by simp) opens_bracket (by simp) rest
      rw [itemLines, List.nil_append, arrayItems]
      rw [List.nil_append] at hskip
      rw [hskip]
      rfl
  | cons item items ih =>
      obtain ⟨n, rfl⟩ := Nat.exists_eq_add_one_of_ne_zero (Nat.ne_zero_of_lt hn)
      rw [List.forall_mem_cons] at hread hplain
      obtain ⟨c, tail, hc, hopens, hbracket⟩ := hplain.1.valueChars_cons
      let more := ',' :: '\n' :: (itemLines items ++ ']' :: rest)
      have hlines : itemLines (item :: items) ++ ']' :: rest
          = [' ', ' ', ' ', ' '] ++ (valueChars item ++ more) := by
        simp [itemLines, itemLine, more]
      have hskip : ∀ n, 2 ≤ n → skipBetween n ('\n' :: ([' ', ' ', ' ', ' '] ++ (valueChars item ++ more)))
          = valueChars item ++ more := by
        intro n hn
        rw [hc]
        exact skipBetween_lineEnd (by simp [isSpace]) hopens hn _
      have hitem : read (valueChars item ++ more) = some (item, more) :=
        hread.1 more (unquoted_cons (by decide) (by decide) _)
      have hcomma : skipBetween more.length more = more := skipBetween_opens opens_comma _ _
      have hmore := ih hread.2 hplain.2 (n := n) (by simpa using hn)
      rw [hlines, arrayItems, hskip _ (by simp only [List.length_cons, List.length_append]; omega)]
      split
      · next heq =>
          rw [hc] at heq
          exact absurd (List.cons.inj heq).1 hbracket
      · rw [hitem]
        simp only [Option.bind_eq_bind, Option.bind_some, hcomma]
        simp only [more, hmore]
        rfl

/-- **A plain value is read back** where there is room for its levels. -/
theorem Plain.value?_valueChars (hv : Plain n v) : ReadBack (value? n) v := by
  induction hv with
  | @text n s =>
      intro rest hrest
      have hread := string?_textChars s hrest
      obtain ⟨tail, htext | htext⟩ := textChars_cons s
      · rw [htext] at hread
        rw [valueChars, htext]
        change (string? ('"' :: tail ++ rest)).map _ = _
        rw [hread]
        rfl
      · rw [htext] at hread
        rw [valueChars, htext]
        change (string? ('\x27' :: tail ++ rest)).map _ = _
        rw [hread]
        rfl
  | @boolean n b =>
      intro rest _
      cases b <;> (rw [valueChars]; rfl)
  | @array n items hitems ih =>
      intro rest _
      have hlist : ∀ text : List Char, value? (n + 2) ('[' :: text)
          = (arrayItems (value? (n + 1)) (text.length + 1) text).map
            fun read => (.array read.1, read.2) := fun _ => rfl
      -- A list of one item stands on one line, and a longer one has a line for each item.
      rcases items with _ | ⟨item, _ | ⟨next, more⟩⟩
      · rw [valueChars, List.cons_append, hlist, List.singleton_append, arrayItems,
          skipBetween_opens opens_bracket]
        rfl
      · obtain ⟨c, tail, hc, hopens, hbracket⟩ := (hitems item (by simp)).valueChars_cons
        have hitem := ih item (by simp) (']' :: rest) (unquoted_cons (by decide) (by decide) _)
        rw [valueChars, List.cons_append, List.cons_append, List.append_assoc,
          List.singleton_append, hlist, arrayItems]
        have hskip : ∀ n, skipBetween n (valueChars item ++ ']' :: rest)
            = valueChars item ++ ']' :: rest := by
          intro n
          rw [hc]
          exact skipBetween_opens hopens _ _
        rw [hskip]
        split
        · next heq =>
            rw [hc] at heq
            exact absurd (List.cons.inj heq).1 hbracket
        · rw [hitem]
          simp [skipBetween_opens opens_bracket]
      · have hwhole : valueChars (.array (item :: next :: more)) ++ rest
            = '[' :: '\n' :: (itemLines (item :: next :: more) ++ ']' :: rest) := by
          simp [valueChars, itemLines]
        have hroom := length_le_itemLines (item :: next :: more)
        rw [hwhole, hlist, arrayItems_itemLines ih hitems
          (by simp only [List.length_cons, List.length_append] at hroom ⊢; omega)]
        rfl

/-! ### Keys -/

/-- A character that a key may start with. -/
def StartsKey (c : Char) : Prop := isBare c = true ∨ c = '"' ∨ c = '\x27'

lemma StartsKey.ne {d : Char} (hc : StartsKey c) (hbare : isBare d = false) (hdouble : d ≠ '"')
    (hsingle : d ≠ '\x27') : c ≠ d := by
  rintro rfl
  rcases hc with hc | hc | hc
  · rw [hbare] at hc
    cases hc
  · exact hdouble hc
  · exact hsingle hc

lemma StartsKey.isSpace (hc : StartsKey c) : isSpace c = false := by
  have hblank : c ≠ ' ' := hc.ne rfl (by decide) (by decide)
  have htab : c ≠ '\t' := hc.ne rfl (by decide) (by decide)
  simp [Toml.isSpace, hblank, htab]

lemma keyChars_cons (s : String) : ∃ c tail, keyChars s = c :: tail ∧ StartsKey c := by
  rw [keyChars]
  split
  · next hbare =>
      obtain ⟨hne, hall⟩ := hbare
      obtain ⟨c, tail, hs⟩ := List.exists_cons_of_ne_nil hne
      rw [hs] at hall
      exact ⟨c, tail, hs, .inl (List.all_eq_true.mp hall c List.mem_cons_self)⟩
  split
  · exact ⟨'"', _, rfl, .inr (.inl rfl)⟩
  split
  · exact ⟨'\x27', _, rfl, .inr (.inr rfl)⟩
  · exact ⟨'"', _, rfl, .inr (.inl rfl)⟩

/-- What may follow a key: nothing bare, and no dot after blanks. -/
structure EndsKey (rest : List Char) : Prop where
  bare : ∀ c, rest.head? = some c → isBare c = false
  dot : ∀ more, skipSpaces rest ≠ '.' :: more

/-- The parts of a key with dots between them. -/
def pathChars (path : List String) : List Char := ['.'].intercalate (path.map keyChars)

lemma pathChars_cons (part next : String) (path : List String) :
    pathChars (part :: next :: path) = keyChars part ++ '.' :: pathChars (next :: path) := by
  simp [pathChars, List.intercalate]

lemma pathChars_starts (path : List String) (key : String) :
    ∃ c tail, pathChars (path ++ [key]) = c :: tail ∧ StartsKey c := by
  cases path with
  | nil => simpa [pathChars, List.intercalate] using keyChars_cons key
  | cons part path =>
      obtain ⟨c, tail, hc, hstart⟩ := keyChars_cons part
      cases path with
      | nil => exact ⟨c, _, by rw [List.cons_append, List.nil_append, pathChars_cons, hc]; rfl, hstart⟩
      | cons next path =>
          exact ⟨c, _, by rw [List.cons_append, List.cons_append, pathChars_cons, hc]; rfl, hstart⟩

lemma length_le_pathChars (path : List String) (key : String) :
    path.length ≤ (pathChars (path ++ [key])).length := by
  induction path with
  | nil => exact Nat.zero_le _
  | cons part path ih =>
      obtain ⟨next, others, hpath⟩ : ∃ next others, path ++ [key] = next :: others :=
        List.exists_cons_of_ne_nil (by simp)
      rw [hpath] at ih
      rw [List.cons_append, hpath, pathChars_cons]
      simp only [List.length_append, List.length_cons]
      omega

/-- A part of a key starts where it is read. -/
lemma skipSpaces_keyChars (part : String) (rest : List Char) :
    skipSpaces (keyChars part ++ rest) = keyChars part ++ rest := by
  obtain ⟨c, tail, hc, hstart⟩ := keyChars_cons part
  rw [hc]
  exact skipSpaces_cons hstart.isSpace _

lemma key?_last (part : String) (n : ℕ) (hrest : EndsKey rest) :
    key? (n + 1) (keyChars part ++ rest) = some (([], part), skipSpaces rest) := by
  rw [key?, skipSpaces_keyChars, keyPart?_keyChars part hrest.bare]
  simp only [Option.bind_eq_bind, Option.bind_some]
  split
  · next more hmore => exact absurd hmore (hrest.dot more)
  · rfl

lemma key?_dot (part : String) (n : ℕ) (rest : List Char) :
    key? (n + 1) (keyChars part ++ '.' :: rest)
      = (key? n rest).map fun ((path, last), rest) => ((part :: path, last), rest) := by
  rw [key?, skipSpaces_keyChars, keyPart?_keyChars part (by simp [isBare])]
  simp only [Option.bind_eq_bind, Option.bind_some, skipSpaces_cons (c := '.') rfl]
  cases key? n rest <;> rfl

/-- **A key is read back** part by part. -/
lemma key?_path {path : List String} (hn : path.length < n) (key : String) (hrest : EndsKey rest) :
    key? n (pathChars (path ++ [key]) ++ rest) = some ((path, key), skipSpaces rest) := by
  induction path generalizing n with
  | nil =>
      obtain ⟨n, rfl⟩ := Nat.exists_eq_add_one_of_ne_zero (Nat.ne_zero_of_lt hn)
      have hone : pathChars ([] ++ [key]) = keyChars key := by simp [pathChars, List.intercalate]
      rw [hone, key?_last key n hrest]
  | cons part path ih =>
      obtain ⟨n, rfl⟩ := Nat.exists_eq_add_one_of_ne_zero (Nat.ne_zero_of_lt hn)
      have hmore := ih (n := n) (by simpa using hn)
      obtain ⟨next, others, hpath⟩ : ∃ next others, path ++ [key] = next :: others :=
        List.exists_cons_of_ne_nil (by simp)
      rw [hpath] at hmore
      rw [List.cons_append, hpath, pathChars_cons, List.append_assoc, List.cons_append, key?_dot, hmore]
      rfl

/-! ### Lines -/

lemma finishLine?_lineEnd (rest : List Char) : finishLine? ('\n' :: rest) = some rest := rfl

/-- A line that starts with a key sets it. -/
lemma line?_of_startsKey (s : State) (hc : StartsKey c) (tail : List Char) :
    line? s (c :: tail) = setLine? s (c :: tail) := by
  rw [line?, skipSpaces_cons hc.isSpace]
  split
  · next h => cases h
  · next h => exact absurd (List.cons.inj h).1 (hc.ne rfl (by decide) (by decide))
  · next h => exact absurd (List.cons.inj h).1 (hc.ne rfl (by decide) (by decide))
  · next h => exact absurd (List.cons.inj h).1 (hc.ne rfl (by decide) (by decide))
  · next h => exact absurd (List.cons.inj h).1 (hc.ne rfl (by decide) (by decide))
  · rfl

/-- **A line with a plain value sets its key** in the table of the last header. -/
theorem line?_fieldLine (s : State) (key : String) (hv : Plain maxDepth v) (rest : List Char) :
    line? s (fieldLine key v ++ rest)
      = (s.items.assign s.header [] key v).map fun items => ({ s with items := items }, rest) := by
  obtain ⟨c, tail, hc, hstart⟩ := keyChars_cons key
  let after := [' ', '=', ' '] ++ (valueChars v ++ '\n' :: rest)
  have hline : fieldLine key v ++ rest = pathChars ([] ++ [key]) ++ after := by
    simp [fieldLine, pathChars, List.intercalate, after]
  have hends : EndsKey after := ⟨by simp [after, isBare], fun more h => by
    simp [after, skipSpaces, isSpace] at h⟩
  have hkey : key? ((fieldLine key v ++ rest).length + 1) (pathChars ([] ++ [key]) ++ after)
      = some (([], key), skipSpaces after) := key?_path (by simp) key hends
  have hset : line? s (fieldLine key v ++ rest) = setLine? s (fieldLine key v ++ rest) := by
    have hfirst : fieldLine key v ++ rest = c :: (tail ++ after) := by
      simp [fieldLine, hc, after]
    rw [hfirst]
    exact line?_of_startsKey s hstart _
  obtain ⟨d, more, hd, hopens, -⟩ := hv.valueChars_cons
  have hvalue := hv.value?_valueChars ('\n' :: rest) (unquoted_cons (by decide) (by decide) _)
  have hblank : skipSpaces (' ' :: (valueChars v ++ '\n' :: rest)) = valueChars v ++ '\n' :: rest := by
    rw [hd]
    exact skipSpaces_cons hopens.space _
  have hafter : skipSpaces after = '=' :: ' ' :: (valueChars v ++ '\n' :: rest) := by
    simp [after, skipSpaces, isSpace]
  rw [← hline, hafter] at hkey
  rw [hset, setLine?, hkey]
  simp only [Option.bind_eq_bind, Option.bind_some, after?, if_true, hblank, hvalue,
    finishLine?_lineEnd]
  cases s.items.assign s.header [] key v <;> rfl

/-- **A header names its table.** -/
theorem line?_headerLine (s : State) (path : List String) (key : String) (rest : List Char) :
    line? s (headerLine (path ++ [key]) ++ rest)
      = (s.items.openTable path key).map fun items => (⟨items, path ++ [key]⟩, rest) := by
  obtain ⟨c, tail, hc, hstart⟩ := pathChars_starts path key
  let after := ']' :: '\n' :: rest
  have hline : headerLine (path ++ [key]) ++ rest = '[' :: (pathChars (path ++ [key]) ++ after) := by
    simp [headerLine, pathChars, after]
  have hends : EndsKey after := ⟨by simp [after, isBare], fun more h => by
    simp [after, skipSpaces, isSpace] at h⟩
  have hroom : path.length < (pathChars (path ++ [key]) ++ after).length + 1 := by
    have hlong := length_le_pathChars path key
    rw [List.length_append]
    omega
  have hkey := key?_path hroom key hends
  have hafter : skipSpaces after = ']' :: '\n' :: rest := skipSpaces_cons rfl _
  have hheader : line? s ('[' :: (pathChars (path ++ [key]) ++ after))
      = headerLine? s (pathChars (path ++ [key]) ++ after) := rfl
  rw [hafter] at hkey
  have hone : ∀ more, pathChars (path ++ [key]) ++ after ≠ '[' :: more := by
    intro more h
    rw [hc] at h
    exact absurd (List.cons.inj h).1 (hstart.ne rfl (by decide) (by decide))
  rw [hline, hheader, headerLine?.eq_2 _ _ hone, hkey]
  simp only [Option.bind_eq_bind, Option.bind_some, after?, if_true, finishLine?_lineEnd]
  cases s.items.openTable path key <;> rfl

end TreeDigest.Toml

import Mathlib
import TreeDigest.Logging.Directive
import TreeDigest.Proofs.Text.Utf8

/-!
Names that read as parts of a program.

A directive is read from the left, and what is read does not depend on how the rest goes on. So the
text is taken as what is passed and what is to come: a state that takes in characters without an end
passes them all at once, and positions are the sizes of what is passed.

* `readFrom_cons` and `readFrom_append`: one character, and all those that a state takes in.
* `ofModule_of_namesPart`: a name is read as the target and the span that it is written as.
* `isPart_of_ofModule`: without fields and blanks in front no other name is read.
-/

namespace TreeDigest.Logging

/-! ### Words for levels -/

/-- The word for a level names it. -/
lemma Level.ofText?_word (l : Level) : Level.ofText? l.word = some l := by
  cases l <;> decide

lemma Level.eq_word {s : String} {l : Level} (h : Level.ofWord? s = some l) : s = l.word := by
  have hword := List.find?_some h
  exact (eq_of_beq hword).symm

/-- The characters of such a word end nothing and are no blanks. -/
lemma Level.isLower_of_mem_word (l : Level) : ∀ c ∈ l.word.toList, c.isLower = true := by
  cases l <;> simp [Level.word]

lemma Level.word_ne_nil (l : Level) : l.word.toList ≠ [] := by
  cases l <;> decide

/-- No level is named with a sign of equality. -/
lemma Level.ofText?_eq_none {cs : List Char} (hcs : '=' ∈ cs) : Level.ofText? (.ofList cs) = none := by
  have hdigits : ∀ ds : List Char, '=' ∈ ds → ds.all Char.isDigit = false := fun ds hds =>
    List.all_eq_false.mpr ⟨'=', hds, by decide⟩
  have hnumber : number? cs = none := by
    unfold number?
    split
    · next rest =>
        have hrest : '=' ∈ rest := by simpa using hcs
        simp [hdigits rest hrest]
    · simp [hdigits cs hcs]
  have hword : Level.ofWord? (.ofList (cs.map Char.toLower)) = none := by
    rw [Level.ofWord?, List.find?_eq_none]
    intro l _ heq
    have hmem : '=' ∈ l.word.toList := by
      rw [eq_of_beq heq, String.toList_ofList]
      exact List.mem_map.mpr ⟨'=', hcs, by decide⟩
    exact absurd (l.isLower_of_mem_word '=' hmem) (by decide)
  rw [Level.ofText?, String.toList_ofList, hnumber, hword]
  rfl

namespace Directive

/-! ### Passing characters -/

/-- The number of bytes of a text. -/
def size (cs : List Char) : ℕ := (cs.map Char.utf8Size).sum

/-- Reads what is to come after what is passed. -/
def readFrom (passed coming : List Char) (state : State) (d : Directive) :
    Except DirectiveError Directive :=
  (steps (Text.utf8 (.ofList (passed ++ coming))) (size passed) coming state d).bind fun r =>
    finish (Text.utf8 (.ofList (passed ++ coming))) r.2 r.1

variable {p cs rest : List Char} {c : Char} {state : State} {d : Directive}

lemma size_append (p cs : List Char) : size (p ++ cs) = size p + size cs := by
  rw [size, List.map_append, List.sum_append]
  rfl

lemma length_utf8_ofList (cs : List Char) : (Text.utf8 (.ofList cs)).length = size cs := by
  rw [Text.utf8_eq, String.toList_ofList, List.length_flatMap, size]
  exact congrArg List.sum (List.map_congr_left fun c _ => String.length_utf8EncodeChar c)

/-- **What was passed since a position is what stands between the positions.** -/
lemma slice_eq (p cs rest : List Char) :
    slice (Text.utf8 (.ofList (p ++ cs ++ rest))) (size p) (size (p ++ cs)) = .ofList cs := by
  have happend : ∀ a b : List Char, Text.utf8 (.ofList (a ++ b))
      = Text.utf8 (.ofList a) ++ Text.utf8 (.ofList b) := fun a b => by
    simp only [Text.utf8_eq, String.toList_ofList, List.flatMap_append]
  rw [slice, happend, ← length_utf8_ofList (p ++ cs), List.take_left, happend, ← length_utf8_ofList p,
    List.drop_left, Text.lossy_utf8]

/-- One character is taken in. -/
lemma readFrom_cons (p : List Char) (c : Char) (cs : List Char) (state : State) (d : Directive) :
    readFrom p (c :: cs) state d
      = (step (Text.utf8 (.ofList (p ++ c :: cs))) (size p) c d state).bind fun r =>
          readFrom (p ++ [c]) cs r.1 r.2 := by
  have hpassed : p ++ c :: cs = p ++ [c] ++ cs := by simp
  have hsize : size (p ++ [c]) = size p + c.utf8Size := by simp [size]
  rw [readFrom, steps]
  cases hstep : step (Text.utf8 (.ofList (p ++ c :: cs))) (size p) c d state with
  | error e => rfl
  | ok r =>
      change Except.bind (steps _ _ cs r.1 r.2) _ = readFrom (p ++ [c]) cs r.1 r.2
      rw [readFrom, ← hpassed, hsize]

/-- **A state passes all characters that it takes in without an end.** -/
lemma readFrom_append (hcs : ∀ c ∈ cs, ∀ text i, step text i c d state = .ok (state, d))
    (p rest : List Char) : readFrom p (cs ++ rest) state d = readFrom (p ++ cs) rest state d := by
  induction cs generalizing p with
  | nil => rw [List.nil_append, List.append_nil]
  | cons c cs ih =>
      rw [List.forall_mem_cons] at hcs
      rw [List.cons_append, readFrom_cons, hcs.1]
      change readFrom (p ++ [c]) (cs ++ rest) state d = _
      rw [ih hcs.2, List.append_assoc, List.singleton_append]

lemma readFrom_nil (p : List Char) (state : State) (d : Directive) :
    readFrom p [] state d = finish (Text.utf8 (.ofList p)) d state := by
  rw [readFrom, List.append_nil]
  rfl

/-! ### Parts of a directive -/

variable {s w u : List Char} {first : ℕ}

/-- The position behind a sign of equality or an opening bracket. -/
lemma size_append_one {c : Char} (hc : c.utf8Size = 1) (p : List Char) :
    size (p ++ [c]) = size p + 1 := by
  rw [size_append]
  simp [size, hc]

/-- A level is what is left. -/
lemma readFrom_level (hw : ',' ∉ w) (p : List Char) (d : Directive) :
    readFrom p w (.level (size p)) d = d.setLevel (.ofList w) := by
  have hpass : ∀ c ∈ w, ∀ text i, step text i c d (.level (size p)) = .ok (.level (size p), d) := by
    intro c hc text i
    have hne : c ≠ ',' := fun h => hw (h ▸ hc)
    rw [step, if_neg hne]
  have hslice := slice_eq p w []
  rw [List.append_nil, ← length_utf8_ofList (p ++ w)] at hslice
  have hread := readFrom_append hpass p []
  rw [List.append_nil] at hread
  rw [hread, readFrom_nil, finish, hslice]

/-- Nothing may follow a directive. -/
lemma readFrom_complete (hcs : cs ≠ []) (p : List Char) (d d' : Directive) :
    readFrom p cs .complete d ≠ .ok d' := by
  obtain ⟨c, cs, rfl⟩ := List.exists_cons_of_ne_nil hcs
  rw [readFrom_cons]
  exact nofun

/-- A level that holds a sign of equality is refused. -/
lemma readFrom_level_ne_ok (hw : ',' ∉ w) (p u : List Char) (d d' : Directive) :
    readFrom p (u ++ '=' :: w) (.level (size p)) d ≠ .ok d' := by
  by_cases hcomma : ',' ∈ u
  · -- what stands before the comma is the level, and a sign of equality is left behind it
    obtain ⟨a, b, rfl, ha⟩ := List.eq_append_cons_of_mem hcomma
    have hpass : ∀ c ∈ a, ∀ text i, step text i c d (.level (size p)) = .ok (.level (size p), d) := by
      intro c hc text i
      have hne : c ≠ ',' := fun h => ha (h ▸ hc)
      rw [step, if_neg hne]
    rw [List.append_assoc, List.cons_append, readFrom_append hpass, readFrom_cons, step, if_pos rfl]
    cases d.setLevel _ with
    | error e => exact nofun
    | ok d'' => exact readFrom_complete (by simp) _ d'' d'
  · have hnone : ',' ∉ u ++ '=' :: w := by
      simp [hcomma, hw]
    have hne : String.ofList (u ++ '=' :: w) ≠ "" := by
      simp [String.ext_iff]
    rw [readFrom_level hnone, setLevel, if_neg hne, Level.ofText?_eq_none (by simp)]
    exact nofun

/-- Behind a span the level comes. -/
lemma readFrom_target (p w : List Char) (d : Directive) :
    readFrom p ('=' :: w) .target d = readFrom (p ++ ['=']) w (.level (size (p ++ ['=']))) d := by
  rw [readFrom_cons, step, if_pos rfl, size_append_one (by decide)]
  rfl

/-- **A span is what stands before its bracket.** -/
lemma readFrom_span (hs : ∀ c ∈ s, c ≠ ']' ∧ c ≠ '\x7b') (p rest : List Char) (d : Directive) :
    readFrom p (s ++ ']' :: rest) (.span (size p)) d
      = readFrom (p ++ s ++ [']']) rest .target { d with span := some (.ofList s) } := by
  have hpass : ∀ c ∈ s, ∀ text i, step text i c d (.span (size p)) = .ok (.span (size p), d) := by
    intro c hc text i
    obtain ⟨hbracket, hbrace⟩ := hs c hc
    rw [step, if_neg hbracket, if_neg hbrace]
  rw [readFrom_append hpass, readFrom_cons, step, if_pos rfl, slice_eq]
  rfl

/-- **A target is what stands before a sign of equality or an opening bracket.** -/
lemma readFrom_levelOrTarget (hs : ∀ c ∈ s, c ≠ '=' ∧ c ≠ '[' ∧ c ≠ ',') (p rest : List Char)
    (d : Directive) :
    readFrom p (s ++ rest) (.levelOrTarget first) d = readFrom (p ++ s) rest (.levelOrTarget first) d :=
  readFrom_append (fun c hc text i => by
    obtain ⟨hequals, hbracket, hcomma⟩ := hs c hc
    rw [step, if_neg hequals, if_neg hbracket, if_neg hcomma]) p rest

lemma readFrom_levelOrTarget_equals (p rest : List Char) (d : Directive) :
    readFrom p ('=' :: rest) (.levelOrTarget 0) d
      = readFrom (p ++ ['=']) rest (.level (size (p ++ ['=']))) { d with target := some (.ofList p) } := by
  have hslice : slice (Text.utf8 (.ofList (p ++ '=' :: rest))) 0 (size p) = .ofList p :=
    slice_eq [] p ('=' :: rest)
  rw [readFrom_cons, step, if_pos rfl, hslice, size_append_one (by decide)]
  rfl

lemma readFrom_levelOrTarget_bracket (p rest : List Char) (d : Directive) :
    readFrom p ('[' :: rest) (.levelOrTarget 0) d
      = readFrom (p ++ ['[']) rest (.span (size (p ++ ['[']))) { d with target := some (.ofList p) } := by
  have hslice : slice (Text.utf8 (.ofList (p ++ '[' :: rest))) 0 (size p) = .ofList p :=
    slice_eq [] p ('[' :: rest)
  rw [readFrom_cons, step, if_neg (by decide), if_pos rfl, hslice, size_append_one (by decide)]
  rfl

/-! ### Names -/

/-- A span as it is written. -/
def bracketed : Option (List Char) → List Char
  | none => []
  | some s => '[' :: (s ++ [']'])

/-- A name that is written as a target, as a span in brackets, or as both, with no blank in front. -/
structure NamesPart (name target : List Char) (span : Option (List Char)) : Prop where
  written : name = target ++ bracketed span
  nonempty : name ≠ []
  front : ∀ c ∈ name.head?, Text.isBlank c = false
  start : ∀ c ∈ target.head?, isStart c = true
  target : ∀ c ∈ target, c ≠ '=' ∧ c ≠ '[' ∧ c ≠ ','
  span : ∀ s ∈ span, ∀ c ∈ s, c ≠ ']' ∧ c ≠ '\x7b'

/-- A name that stands for a part of a program. -/
def IsPart (name : String) : Prop := ∃ target span, NamesPart name.toList target span

variable {name target : List Char} {span : Option (List Char)} {l : Level}

/-- The characters of a word for a level. -/
lemma not_mem_word (l : Level) {c : Char} (hc : c.isLower = false) : c ∉ l.word.toList := by
  intro hmem
  rw [l.isLower_of_mem_word c hmem] at hc
  cases hc

/-- A level is what the word says. -/
lemma setLevel_word (d : Directive) (l : Level) : d.setLevel (.ofList l.word.toList)
    = .ok { d with level := l } := by
  have hne : l.word ≠ "" := fun h => l.word_ne_nil (by rw [h]; rfl)
  rw [String.ofList_toList, setLevel, if_neg hne, l.ofText?_word]

/-- **A name is read as the target and the span that it is written as.** -/
lemma readFrom_namesPart (hname : NamesPart name target span) (l : Level) :
    readFrom [] (name ++ '=' :: l.word.toList) .start blank
      = .ok ⟨if target = [] then none else some (.ofList target), span.map .ofList, [], l⟩ := by
  obtain ⟨rfl, hne, -, hstart, htarget, hspan⟩ := hname
  have hlevel := not_mem_word l (c := ',') rfl
  cases target with
  | nil =>
      cases span with
      | none => exact absurd rfl hne
      | some s =>
          have hbracket : readFrom [] ('[' :: (s ++ ']' :: '=' :: l.word.toList)) .start blank
              = readFrom ['['] (s ++ ']' :: '=' :: l.word.toList) (.span (size ['['])) blank := by
            rw [readFrom_cons, step, if_pos rfl]
            rfl
          rw [List.nil_append, bracketed, List.cons_append, List.append_assoc, List.singleton_append,
            hbracket, readFrom_span (hspan s rfl), readFrom_target, readFrom_level hlevel, setLevel_word]
          rfl
  | cons c target =>
      obtain ⟨⟨hequals, hbracket, hcomma⟩, htail⟩ := List.forall_mem_cons.mp htarget
      have hopen : ∀ more, readFrom [] (c :: more) .start blank
          = readFrom [c] more (.levelOrTarget 0) blank := fun more => by
        rw [readFrom_cons, step, if_neg hbracket, if_pos (hstart c rfl)]
        rfl
      cases span with
      | none =>
          rw [bracketed, List.append_nil, List.cons_append, hopen, readFrom_levelOrTarget htail,
            readFrom_levelOrTarget_equals, readFrom_level hlevel, setLevel_word]
          rfl
      | some s =>
          have hwhole : c :: target ++ bracketed (some s) ++ '=' :: l.word.toList
              = c :: (target ++ '[' :: (s ++ ']' :: '=' :: l.word.toList)) := by
            simp [bracketed]
          rw [hwhole, hopen, readFrom_levelOrTarget htail, readFrom_levelOrTarget_bracket,
            readFrom_span (hspan s rfl), readFrom_target, readFrom_level hlevel, setLevel_word]
          rfl

/-! What is no such name is not read, unless it has fields or blanks in front. -/

/-- Behind a span nothing but the level may come. -/
lemma eq_nil_of_readFrom_target {p : List Char} {d d' : Directive}
    (h : readFrom p (u ++ '=' :: l.word.toList) .target d = .ok d') : u = [] := by
  cases u with
  | nil => rfl
  | cons c u =>
      exfalso
      rw [List.cons_append, readFrom_cons, step] at h
      split at h
      · next hequals =>
          subst hequals
          have hsize : size (p ++ ['=']) = size p + 1 := size_append_one (by decide) p
          rw [← hsize] at h
          exact readFrom_level_ne_ok (not_mem_word l rfl) _ u d d' h
      · cases h

/-- A span without fields ends at its bracket, and nothing but the level comes behind it. -/
lemma exists_of_readFrom_span {p : List Char} {d d' : Directive} (hbrace : '\x7b' ∉ u)
    (h : readFrom p (u ++ '=' :: l.word.toList) (.span (size p)) d = .ok d') :
    ∃ s, u = s ++ [']'] ∧ ∀ c ∈ s, c ≠ ']' ∧ c ≠ '\x7b' := by
  have hplain : ∀ s : List Char, ']' ∉ s → '\x7b' ∉ s → ∀ c ∈ s, c ≠ ']' ∧ c ≠ '\x7b' :=
    fun s hs hs' c hc => ⟨fun h => hs (h ▸ hc), fun h => hs' (h ▸ hc)⟩
  by_cases hbracket : ']' ∈ u
  · obtain ⟨s, v, rfl, hs⟩ := List.eq_append_cons_of_mem hbracket
    have hspan := hplain s hs fun hmem => hbrace (List.mem_append_left _ hmem)
    rw [List.append_assoc, List.cons_append, readFrom_span hspan] at h
    obtain rfl := eq_nil_of_readFrom_target h
    exact ⟨s, rfl, hspan⟩
  · -- the bracket does not come at all
    exfalso
    have hall : ∀ c ∈ u ++ '=' :: l.word.toList, c ≠ ']' ∧ c ≠ '\x7b' := by
      have hword : ']' ∉ l.word.toList ∧ '\x7b' ∉ l.word.toList :=
        ⟨not_mem_word l rfl, not_mem_word l rfl⟩
      exact hplain _ (by simp [hbracket, hword.1]) (by simp [hbrace, hword.2])
    have hpass : ∀ c ∈ u ++ '=' :: l.word.toList, ∀ text i,
        step text i c d (.span (size p)) = .ok (.span (size p), d) := by
      intro c hc text i
      obtain ⟨hbracket, hbrace⟩ := hall c hc
      rw [step, if_neg hbracket, if_neg hbrace]
    rw [← List.append_nil (u ++ _), readFrom_append hpass, readFrom_nil] at h
    cases h

/-- A character that ends a target. -/
def endsTarget (c : Char) : Bool := c == '=' || c == '[' || c == ','

lemma endsTarget_eq_false : endsTarget c = false ↔ c ≠ '=' ∧ c ≠ '[' ∧ c ≠ ',' := by
  simp [endsTarget, and_assoc]

lemma endsTarget_of_isStart (hc : isStart c = true) : endsTarget c = false := by
  rw [endsTarget_eq_false]
  refine ⟨?_, ?_, ?_⟩ <;> (rintro rfl; revert hc; decide)

/-- A target ends where a span begins, and with the name otherwise. -/
lemma exists_of_readFrom_levelOrTarget {c : Char} {d' : Directive} (hbrace : '\x7b' ∉ u)
    (h : readFrom [c] (u ++ '=' :: l.word.toList) (.levelOrTarget 0) blank = .ok d') :
    ∃ t span, u = t ++ bracketed span ∧ (∀ x ∈ t, endsTarget x = false)
      ∧ ∀ s ∈ span, ∀ x ∈ s, x ≠ ']' ∧ x ≠ '\x7b' := by
  cases hfirst : u.find? endsTarget with
  | none =>
      rw [List.find?_eq_none] at hfirst
      exact ⟨u, none, (List.append_nil u).symm, fun x hx => by simpa using hfirst x hx, nofun⟩
  | some x =>
      obtain ⟨hx, t, v, rfl, ht⟩ := List.find?_eq_some_iff_append.mp hfirst
      have hplain : ∀ x ∈ t, endsTarget x = false := fun x hx => by simpa using ht x hx
      have hends : ∀ x ∈ t, x ≠ '=' ∧ x ≠ '[' ∧ x ≠ ',' := fun x hx =>
        endsTarget_eq_false.mp (hplain x hx)
      rw [List.append_assoc, List.cons_append, readFrom_levelOrTarget hends] at h
      have hcases : x = '=' ∨ x = '[' ∨ x = ',' := by
        simpa [endsTarget, or_assoc] using hx
      rcases hcases with rfl | rfl | rfl
      · rw [readFrom_levelOrTarget_equals] at h
        exact absurd h (readFrom_level_ne_ok (not_mem_word l rfl) _ v _ d')
      · rw [readFrom_levelOrTarget_bracket] at h
        obtain ⟨s, rfl, hs⟩ := exists_of_readFrom_span
          (fun hmem => hbrace (List.mem_append_right _ (List.mem_cons_of_mem _ hmem))) h
        exact ⟨t, some s, rfl, hplain, fun s' hs' => Option.some.inj hs' ▸ hs⟩
      · rw [readFrom_cons, step, if_neg (by decide), if_neg (by decide), if_pos rfl] at h
        exact absurd h (readFrom_complete (by simp) _ _ d')

/-- **Nothing but such a name is read as a directive**, if it has no fields. -/
lemma exists_namesPart_of_readFrom {d' : Directive}
    (hblank : ∀ c ∈ name.head?, Text.isBlank c = false) (hbrace : '\x7b' ∉ name)
    (h : readFrom [] (name ++ '=' :: l.word.toList) .start blank = .ok d') :
    ∃ target span, NamesPart name target span := by
  cases name with
  | nil =>
      rw [List.nil_append, readFrom_cons, step, if_neg (by decide), if_neg (by decide)] at h
      cases h
  | cons c name =>
      have hrest : '\x7b' ∉ name := fun hmem => hbrace (List.mem_cons_of_mem _ hmem)
      rw [List.cons_append, readFrom_cons, step] at h
      split at h
      · next hbracket =>
          subst hbracket
          obtain ⟨s, rfl, hs⟩ := exists_of_readFrom_span hrest h
          exact ⟨[], some s, rfl, by simp, hblank, nofun, nofun,
            fun s' hs' => Option.some.inj hs' ▸ hs⟩
      · split at h
        · next hstart =>
            obtain ⟨t, span, rfl, ht, hspan⟩ := exists_of_readFrom_levelOrTarget hrest h
            refine ⟨c :: t, span, rfl, by simp, hblank, fun x hx => ?_, fun x hx => ?_, hspan⟩
            · obtain rfl := Option.some.inj hx
              exact hstart
            · rcases List.mem_cons.mp hx with rfl | hx
              · exact endsTarget_eq_false.mp (endsTarget_of_isStart hstart)
              · exact endsTarget_eq_false.mp (ht x hx)
        · cases h

/-! ### Parts and their levels -/

/-- The text of a part and its level has no blank at its end, and none in front if the name has none
there. -/
lemma trimChars_append_word (hblank : ∀ c ∈ name.head?, Text.isBlank c = false) (l : Level) :
    Text.trimChars (name ++ '=' :: l.word.toList) = name ++ '=' :: l.word.toList := by
  have hfront : (name ++ '=' :: l.word.toList).dropWhile Text.isBlank
      = name ++ '=' :: l.word.toList := by
    cases name with
    | nil => rfl
    | cons c name => rw [List.cons_append, List.dropWhile_cons_of_neg (by simp [hblank c rfl])]
  obtain ⟨last, word, hword, hlast⟩ :
      ∃ last word, l.word.toList.reverse = last :: word ∧ Text.isBlank last = false := by
    cases l <;> exact ⟨_, _, rfl, by decide⟩
  have hback : (name ++ '=' :: l.word.toList).reverse
      = last :: (word ++ ['='] ++ name.reverse) := by
    simp [hword]
  rw [Text.trimChars, hfront, hback, List.dropWhile_cons_of_neg (by simp [hlast]), ← hback,
    List.reverse_reverse]

/-- A part and its level are read as one text. -/
lemma ofModule_eq {name : String} (hblank : ∀ c ∈ name.toList.head?, Text.isBlank c = false)
    (l : Level) :
    ofModule name l.word = readFrom [] (name.toList ++ '=' :: l.word.toList) .start blank := by
  have hchars : (name ++ "=" ++ l.word).toList = name.toList ++ '=' :: l.word.toList := by
    simp [String.toList_append]
  have htext : Text.utf8 (name ++ "=" ++ l.word)
      = Text.utf8 (.ofList (name.toList ++ '=' :: l.word.toList)) := by
    rw [← hchars, String.ofList_toList]
  rw [ofModule, parse, Text.trim, String.toList_ofList, hchars, trimChars_append_word hblank, htext]
  rfl

/-- **A part and its level are read as they are written.** -/
theorem ofModule_of_namesPart {name : String} (hname : NamesPart name.toList target span) (l : Level) :
    ofModule name l.word
      = .ok ⟨if target = [] then none else some (.ofList target), span.map .ofList, [], l⟩ := by
  rw [ofModule_eq hname.front, readFrom_namesPart hname l]

/-- **No other name is read**, if it has neither fields nor a blank in front. -/
theorem isPart_of_ofModule {name : String} (hblank : ∀ c ∈ name.toList.head?, Text.isBlank c = false)
    (hbrace : '\x7b' ∉ name.toList) {l : Level} {d : Directive} (h : ofModule name l.word = .ok d) :
    IsPart name := by
  rw [ofModule_eq hblank] at h
  exact exists_namesPart_of_readFrom hblank hbrace h

end Directive

end TreeDigest.Logging

import Mathlib
import TreeDigest.Toml.Writer
import TreeDigest.Proofs.Text.Hex

/-!
Strings of TOML documents are read back.

A string is written in one of four kinds of quotes, a key in one of three ways. Escapes are read one
by one, and nothing else that is written needs any. Where a string of many lines ends is less plain,
since up to two quotes may stand in a row in it and the three that end it may follow them. A reader
that meets a quote looks at the whole row: it is shorter than three, or the string is over.

* `Spells` is what stands for one character in a string with escapes, and `escapeChars_cons` says
  that this is what is written.
* `quotes_escapeChars` and `quotes_of_longestRun` bound the rows of quotes, and `closing?_row` is
  what a reader makes of one.
* `string?_textChars` and `keyPart?_keyChars`: what is written is read back, whatever follows that
  does not belong to it.
-/

namespace TreeDigest.Toml

variable {c : Char} {cs done rest : List Char} {allowed run n : ℕ} {lines : Bool}

/-! ### Escapes -/

/-- What stands for a character in a string with escapes. The number of quotes in a row before it is
given, and that after it. -/
inductive Spells (allowed : ℕ) (lines : Bool) (run : ℕ) (c : Char) : List Char → ℕ → Prop where
  | quote : c = '"' → run < allowed → Spells allowed lines run c ['"'] (run + 1)
  | lineEnd : c = '\n' → lines = true → Spells allowed lines run c ['\n'] 0
  | plain : c ≠ '"' → c ≠ '\\' → c ≠ '\n' → c ≠ '\r' → isPlain c = true →
      Spells allowed lines run c [c] 0
  | escape {x : Char} {tail : List Char} : (∀ rest, escape? (x :: (tail ++ rest)) = some (c, rest)) →
      isSpace x = false → x ≠ '\n' → x ≠ '\r' → Spells allowed lines run c ('\\' :: x :: tail) 0

/-- The digits of a control are read back. -/
lemma escape?_controlDigits (hc : c.toNat ≤ 0x7F) (rest : List Char) :
    escape? ('u' :: (controlDigits c ++ rest)) = some (c, rest) := by
  have hhigh : Text.Hex.value? (Text.Hex.digit (c.toNat / 16)).toUpper = some (c.toNat / 16) :=
    Text.Hex.value?_toUpper_digit (by omega)
  have hlow : Text.Hex.value? (Text.Hex.digit (c.toNat % 16)).toUpper = some (c.toNat % 16) :=
    Text.Hex.value?_toUpper_digit (by omega)
  have hzero : Text.Hex.value? '0' = some 0 := rfl
  have hvalue : (((0 * 16 + 0) * 16 + 0) * 16 + c.toNat / 16) * 16 + c.toNat % 16 = c.toNat := by
    omega
  have hnumber : c.toNat < 0xD800 ∨ 0xE000 ≤ c.toNat ∧ c.toNat < 0x110000 := .inl (by omega)
  simp only [escape?, numbered?, controlDigits, List.cons_append, List.nil_append, List.take_succ_cons,
    List.take_zero, List.mapM_cons, List.mapM_nil, hzero, hhigh, hlow, Option.pure_def,
    Option.bind_eq_bind, Option.bind_some, List.foldl_cons, List.foldl_nil, hvalue, List.length_cons,
    List.length_nil, true_and, if_pos hnumber, Char.ofNat_toNat, List.drop_succ_cons, List.drop_zero]

/-- A character that is no control may stand as it is, unless it ends a line. -/
lemma isPlain_of_needsEscape (hc : needsEscape c = false) (hend : c ≠ '\n') : isPlain c = true := by
  by_cases htab : c = '\t'
  · simp [isPlain, htab]
  · have hnumber : ¬ (c.toNat ≤ 0x1F ∨ c.toNat = 0x7F) := by simpa [needsEscape, htab, hend] using hc
    simp only [isPlain, Bool.or_eq_true, Bool.and_eq_true, decide_eq_true_eq, bne_iff_ne]
    omega

/-- **A string with escapes has what spells its characters**, one after the other. -/
lemma escapeChars_cons (allowed : ℕ) (lines : Bool) (run : ℕ) (c : Char) (cs : List Char) :
    ∃ mark run', Spells allowed lines run c mark run'
      ∧ escapeChars allowed lines run (c :: cs) = mark ++ escapeChars allowed lines run' cs := by
  rw [escapeChars]
  split
  · next hquote =>
      subst hquote
      split
      · exact ⟨['\\', '"'], 0, .escape (fun _ => rfl) rfl (by decide) (by decide), rfl⟩
      · next hrun => exact ⟨['"'], run + 1, .quote rfl (by omega), rfl⟩
  split
  · next hc =>
      subst hc
      exact ⟨['\\', '\\'], 0, .escape (fun _ => rfl) rfl (by decide) (by decide), rfl⟩
  split
  · next hc =>
      subst hc
      exact ⟨['\\', 'b'], 0, .escape (fun _ => rfl) rfl (by decide) (by decide), rfl⟩
  split
  · next hc =>
      subst hc
      exact ⟨['\\', 't'], 0, .escape (fun _ => rfl) rfl (by decide) (by decide), rfl⟩
  split
  · next hc =>
      subst hc
      split
      · next hlines => exact ⟨['\n'], 0, .lineEnd rfl hlines, rfl⟩
      · exact ⟨['\\', 'n'], 0, .escape (fun _ => rfl) rfl (by decide) (by decide), rfl⟩
  split
  · next hc =>
      subst hc
      exact ⟨['\\', 'f'], 0, .escape (fun _ => rfl) rfl (by decide) (by decide), rfl⟩
  split
  · next hc =>
      subst hc
      exact ⟨['\\', 'r'], 0, .escape (fun _ => rfl) rfl (by decide) (by decide), rfl⟩
  split
  · next hcontrol =>
      have hlow : c.toNat ≤ 0x7F := by
        simp only [needsEscape, Bool.and_eq_true, Bool.or_eq_true, decide_eq_true_eq] at hcontrol
        omega
      exact ⟨'\\' :: 'u' :: controlDigits c, 0,
        .escape (escape?_controlDigits hlow) rfl (by decide) (by decide), rfl⟩
  · next hquote hslash _ htab hend _ hreturn hcontrol =>
      have hplain : isPlain c = true := isPlain_of_needsEscape (by simpa using hcontrol) hend
      exact ⟨[c], 0, .plain hquote hslash hend hreturn hplain, rfl⟩

/-- **A string of one line with escapes is read back.** -/
lemma basicBody_escapeChars (hn : cs.length < n) (run : ℕ) (done rest : List Char) :
    basicBody n done (escapeChars 0 false run cs ++ '"' :: rest)
      = some (.ofList (done.reverse ++ cs), rest) := by
  induction cs generalizing n run done with
  | nil =>
      obtain ⟨n, rfl⟩ := Nat.exists_eq_add_one_of_ne_zero (Nat.ne_zero_of_lt hn)
      simp [escapeChars, basicBody]
  | cons c cs ih =>
      obtain ⟨n, rfl⟩ := Nat.exists_eq_add_one_of_ne_zero (Nat.ne_zero_of_lt hn)
      have hn' : cs.length < n := by simpa using hn
      obtain ⟨mark, run', hspells, hmark⟩ := escapeChars_cons 0 false run c cs
      rw [hmark]
      cases hspells with
      | quote _ hrun => exact absurd hrun (Nat.not_lt_zero _)
      | lineEnd _ hlines => cases hlines
      | plain hquote hslash _ _ hplain =>
          rw [List.singleton_append, List.cons_append, basicBody, if_neg hquote, if_neg hslash,
            if_pos hplain, ih hn']
          simp
      | @escape x tail hescape =>
          simp only [List.cons_append, List.append_assoc]
          rw [basicBody, if_neg (by decide), if_pos rfl, hescape]
          simp [ih hn']

/-! ### Rows of quotes -/

/-- A text starts with a row of at most so many of some quotes, and is nothing else or goes on with
something else. -/
inductive StartsWithin (quote : Char) (k : ℕ) : List Char → Prop where
  | all {i : ℕ} : i ≤ k → StartsWithin quote k (List.replicate i quote)
  | more {i : ℕ} {x : Char} {tail : List Char} : i ≤ k → x ≠ quote →
      StartsWithin quote k (List.replicate i quote ++ x :: tail)

lemma StartsWithin.cons {quote : Char} {k : ℕ} (h : StartsWithin quote k cs) :
    StartsWithin quote (k + 1) (quote :: cs) := by
  cases h with
  | @all i hi => exact .all (i := i + 1) (by omega)
  | @more i x tail hi hx => exact .more (i := i + 1) (by omega) hx

/-- The row of quotes at the start of a text is taken as a whole. -/
lemma takeWhile_replicate {quote : Char} (i : ℕ) (hrest : rest.head? ≠ some quote) :
    (List.replicate i quote ++ rest).takeWhile (· = quote) = List.replicate i quote := by
  induction i with
  | zero =>
      cases rest with
      | nil => rfl
      | cons x rest => simpa using hrest
  | succ i ih => simp [List.replicate_succ, ih]

/-- A row of fewer than three quotes ends nothing. -/
lemma closing?_few {quote x : Char} {i : ℕ} (hi : i ≤ 2) (hx : x ≠ quote) :
    closing? quote (List.replicate i quote ++ x :: rest) = none := by
  have hrow : (List.replicate i quote ++ x :: rest).takeWhile (· = quote) = List.replicate i quote :=
    takeWhile_replicate i (by simpa using hx)
  rw [closing?, hrow, List.length_replicate]
  exact if_pos (by omega)

/-- Up to two quotes before the three that end a string belong to it. -/
lemma closing?_end {quote : Char} {i : ℕ} (hi : i ≤ 2) (hrest : rest.head? ≠ some quote) :
    closing? quote (List.replicate i quote ++ quote :: quote :: quote :: rest)
      = some (List.replicate i quote, rest) := by
  have hall : List.replicate i quote ++ quote :: quote :: quote :: rest
      = List.replicate (i + 3) quote ++ rest := by
    rw [List.replicate_add, List.append_assoc]
    rfl
  have hdrop : (List.replicate (i + 3) quote ++ rest).drop (i + 3) = rest := by
    rw [List.drop_left' (by simp)]
  rw [hall, closing?, takeWhile_replicate _ hrest, List.length_replicate, if_neg (by omega),
    if_pos (by omega), hdrop, Nat.add_sub_cancel]

/-- **A quote in a string of many lines** ends the string with all that is left of it, or nothing is
over yet. The three quotes at the end are counted with the row before them. -/
lemma closing?_row {quote : Char} {k : ℕ} {written : List Char} (hk : k ≤ 1)
    (hrow : StartsWithin quote k written) (hrest : rest.head? ≠ some quote) :
    (∃ i, written = List.replicate i quote
        ∧ closing? quote (quote :: (written ++ quote :: quote :: quote :: rest))
          = some (quote :: List.replicate i quote, rest))
      ∨ closing? quote (quote :: (written ++ quote :: quote :: quote :: rest)) = none := by
  cases hrow with
  | @all i hi =>
      have hend : closing? quote (List.replicate (i + 1) quote ++ quote :: quote :: quote :: rest)
          = some (List.replicate (i + 1) quote, rest) := closing?_end (by omega) hrest
      exact .inl ⟨i, rfl, hend⟩
  | @more i x tail hi hx =>
      have hfew : closing? quote (List.replicate (i + 1) quote
          ++ x :: (tail ++ quote :: quote :: quote :: rest)) = none := closing?_few (by omega) hx
      rw [List.append_assoc]
      exact .inr hfew

/-- No more quotes are written in a row than are allowed, unless they are marked. -/
lemma quotes_escapeChars (hrun : run ≤ allowed) (cs : List Char) :
    StartsWithin '"' (allowed - run) (escapeChars allowed lines run cs) := by
  induction cs generalizing run with
  | nil => exact .all (i := 0) (Nat.zero_le _)
  | cons c cs ih =>
      obtain ⟨mark, run', hspells, hmark⟩ := escapeChars_cons allowed lines run c cs
      rw [hmark]
      cases hspells with
      | quote _ hrun =>
          have hstep : allowed - (run + 1) + 1 = allowed - run := by omega
          have hmore := ih (Nat.succ_le_of_lt hrun)
          exact hstep ▸ hmore.cons
      | lineEnd _ _ => exact .more (i := 0) (Nat.zero_le _) (by decide)
      | plain hquote _ _ _ _ => exact .more (i := 0) (Nat.zero_le _) hquote
      | escape _ _ _ _ => exact .more (i := 0) (Nat.zero_le _) (by decide)

/-- A string of which nothing but quotes is written is made of them. -/
lemma eq_of_escapeChars_eq_replicate {i : ℕ}
    (hquotes : escapeChars allowed lines run cs = List.replicate i '"') :
    cs = List.replicate i '"' := by
  induction cs generalizing i run with
  | nil => exact hquotes
  | cons c cs ih =>
      obtain ⟨mark, run', hspells, hmark⟩ := escapeChars_cons allowed lines run c cs
      rw [hmark] at hquotes
      have hfirst : ∀ x tail, x ≠ '"' → x :: tail ≠ List.replicate i '"' := by
        intro x tail hx heq
        exact hx (List.eq_of_mem_replicate (heq ▸ List.mem_cons_self))
      cases hspells with
      | quote hc _ =>
          cases i with
          | zero => cases hquotes
          | succ i => rw [hc, List.replicate_succ, ih (List.cons.inj hquotes).2]
      | lineEnd _ _ => exact absurd hquotes (hfirst _ _ (by decide))
      | plain hquote _ _ _ _ => exact absurd hquotes (hfirst _ _ hquote)
      | escape _ _ _ _ => exact absurd hquotes (hfirst _ _ (by decide))

/-- What runs on is no shorter for a longer row before it. -/
lemma longestRun_mono {quote : Char} {i j : ℕ} (hij : i ≤ j) (cs : List Char) :
    longestRun quote i cs ≤ longestRun quote j cs := by
  induction cs generalizing i j with
  | nil => exact hij
  | cons d cs ih =>
      rw [longestRun, longestRun]
      split
      · exact ih (Nat.succ_le_succ hij)
      · exact max_le_max_right _ hij

lemma longestRun_tail (quote d : Char) (i : ℕ) (cs : List Char) :
    longestRun quote 0 cs ≤ longestRun quote i (d :: cs) := by
  rw [longestRun]
  split
  · exact longestRun_mono (Nat.zero_le _) cs
  · exact le_max_right _ _

lemma le_longestRun (quote : Char) (i : ℕ) (cs : List Char) : i ≤ longestRun quote i cs := by
  induction cs generalizing i with
  | nil => exact le_rfl
  | cons d cs ih =>
      rw [longestRun]
      split
      · exact (Nat.le_succ i).trans (ih (i + 1))
      · exact le_max_left _ _

lemma not_mem_of_longestRun {quote : Char} (hcs : longestRun quote 0 cs = 0) : quote ∉ cs := by
  induction cs with
  | nil => simp
  | cons d cs ih =>
      have htail := longestRun_tail quote d 0 cs
      rw [List.mem_cons, not_or]
      refine ⟨fun h => ?_, ih (by omega)⟩
      have hle := le_longestRun quote (0 + 1) cs
      rw [longestRun, if_pos h.symm] at hcs
      omega

/-- A text starts with no longer row of quotes than its longest one. -/
lemma quotes_of_longestRun (quote : Char) (i : ℕ) (cs : List Char) :
    StartsWithin quote (longestRun quote i cs - i) cs := by
  induction cs generalizing i with
  | nil => exact .all (i := 0) (Nat.zero_le _)
  | cons d cs ih =>
      by_cases hd : d = quote
      · subst hd
        have hle := le_longestRun d (i + 1) cs
        have hstep : longestRun d (i + 1) cs - (i + 1) + 1 = longestRun d i (d :: cs) - i := by
          rw [longestRun, if_pos rfl]
          omega
        exact hstep ▸ (ih (i + 1)).cons
      · exact .more (i := 0) (Nat.zero_le _) hd

/-! ### Strings of many lines -/

/-- A row of quotes is the same backwards. -/
lemma reverse_quotes (quote : Char) (i : ℕ) (done : List Char) :
    ((quote :: List.replicate i quote) ++ done).reverse
      = done.reverse ++ quote :: List.replicate i quote := by
  rw [← List.replicate_succ, List.reverse_append, List.reverse_replicate]

/-- A character that neither ends a line nor may be part of a line end. -/
lemma lineEnd?_other (hend : c ≠ '\n') (hreturn : c ≠ '\r') : lineEnd? (c :: rest) = none := by
  rw [lineEnd?.eq_3]
  · rintro rest' ⟨rfl, -⟩
    exact hend rfl
  · rintro rest' ⟨rfl, -⟩
    exact hreturn rfl

/-- **A string of many lines with escapes is read back.** -/
lemma basicLines_escapeChars (hn : cs.length < n) (hrun : run ≤ 2) (done : List Char)
    (hrest : rest.head? ≠ some '"') :
    basicLines n done (escapeChars 2 true run cs ++ '"' :: '"' :: '"' :: rest)
      = some (.ofList (done.reverse ++ cs), rest) := by
  induction cs generalizing n run done with
  | nil =>
      obtain ⟨n, rfl⟩ := Nat.exists_eq_add_one_of_ne_zero (Nat.ne_zero_of_lt hn)
      have hend := closing?_end (i := 0) (Nat.zero_le _) hrest
      rw [List.replicate_zero, List.nil_append] at hend
      simp [escapeChars, basicLines, hend]
  | cons c cs ih =>
      obtain ⟨n, rfl⟩ := Nat.exists_eq_add_one_of_ne_zero (Nat.ne_zero_of_lt hn)
      have hn' : cs.length < n := by simpa using hn
      obtain ⟨mark, run', hspells, hmark⟩ := escapeChars_cons 2 true run c cs
      rw [hmark]
      cases hspells with
      | quote hc hless =>
          have hrow : StartsWithin '"' (2 - (run + 1)) (escapeChars 2 true (run + 1) cs) :=
            quotes_escapeChars hless cs
          rw [hc, List.singleton_append, List.cons_append, basicLines, if_pos rfl]
          -- The string is over if nothing but quotes is left of it.
          rcases closing?_row (by omega) hrow hrest with ⟨i, hall, hend⟩ | hopen
          · rw [hend, eq_of_escapeChars_eq_replicate hall]
            simp only [reverse_quotes]
          · rw [hopen]
            simpa using ih hn' hless ('"' :: done)
      | lineEnd hc _ =>
          rw [hc, List.singleton_append, List.cons_append, basicLines, if_neg (by decide),
            if_neg (by decide)]
          simp [lineEnd?, ih hn' (Nat.zero_le _)]
      | plain hquote hslash hend hreturn hplain =>
          rw [List.singleton_append, List.cons_append, basicLines, if_neg hquote, if_neg hslash,
            lineEnd?_other hend hreturn]
          simp [hplain, ih hn' (Nat.zero_le _)]
      | @escape x tail hescape hspace hend hreturn =>
          have hblank : ∀ more, skipSpaces (x :: more) = x :: more := fun more =>
            List.dropWhile_cons_of_neg (by simp [hspace])
          simp only [List.cons_append, List.append_assoc]
          rw [basicLines, if_neg (by decide), if_pos rfl, hblank, lineEnd?_other hend hreturn, hescape]
          simp [ih hn' (Nat.zero_le _)]

/-- **A string of many lines without escapes is read back.** -/
lemma literalLines_read (hn : cs.length < n) (hcontrol : ∀ c ∈ cs, needsEscape c = false)
    (hrun : longestRun '\x27' 0 cs ≤ 2) (done : List Char) (hrest : rest.head? ≠ some '\x27') :
    literalLines n done (cs ++ '\x27' :: '\x27' :: '\x27' :: rest)
      = some (.ofList (done.reverse ++ cs), rest) := by
  induction cs generalizing n done with
  | nil =>
      obtain ⟨n, rfl⟩ := Nat.exists_eq_add_one_of_ne_zero (Nat.ne_zero_of_lt hn)
      have hend := closing?_end (i := 0) (Nat.zero_le _) hrest
      rw [List.replicate_zero, List.nil_append] at hend
      simp [literalLines, hend]
  | cons c cs ih =>
      obtain ⟨n, rfl⟩ := Nat.exists_eq_add_one_of_ne_zero (Nat.ne_zero_of_lt hn)
      have hn' : cs.length < n := by simpa using hn
      rw [List.forall_mem_cons] at hcontrol
      have hnext := ih hn' hcontrol.2 ((longestRun_tail _ c 0 cs).trans hrun) (c :: done)
      rw [List.cons_append, literalLines]
      by_cases hc : c = '\x27'
      · subst hc
        have hrow := quotes_of_longestRun '\x27' (0 + 1) cs
        have hless : longestRun '\x27' (0 + 1) cs ≤ 2 := by rwa [longestRun, if_pos rfl] at hrun
        rw [if_pos rfl]
        rcases closing?_row (by omega) hrow hrest with ⟨i, hall, hend⟩ | hopen
        · rw [hend, hall]
          simp only [reverse_quotes]
        · rw [hopen]
          simpa using hnext
      rw [if_neg hc]
      by_cases hend : c = '\n'
      · subst hend
        simpa [lineEnd?] using hnext
      · have hreturn : c ≠ '\r' := by
          rintro rfl
          exact absurd hcontrol.1 (by decide)
        rw [lineEnd?_other hend hreturn]
        simpa [isPlain_of_needsEscape hcontrol.1 hend] using hnext

/-! ### Strings and keys -/

/-- **A string of one line without escapes is read back.** -/
lemma literalBody_read (hquote : '\x27' ∉ cs) (hplain : ∀ c ∈ cs, isPlain c = true)
    (done rest : List Char) :
    literalBody done (cs ++ '\x27' :: rest) = some (.ofList (done.reverse ++ cs), rest) := by
  induction cs generalizing done with
  | nil => simp [literalBody]
  | cons c cs ih =>
      rw [List.mem_cons, not_or] at hquote
      rw [List.forall_mem_cons] at hplain
      rw [List.cons_append, literalBody, if_neg (Ne.symm hquote.1), if_pos hplain.1,
        ih hquote.2 hplain.2]
      simp

/-- Nothing but quotes around it is added to a string without escapes. -/
lemma length_le_escapeChars (allowed : ℕ) (lines : Bool) (run : ℕ) (cs : List Char) :
    cs.length ≤ (escapeChars allowed lines run cs).length := by
  induction cs generalizing run with
  | nil => exact Nat.zero_le _
  | cons c cs ih =>
      obtain ⟨mark, run', hspells, hmark⟩ := escapeChars_cons allowed lines run c cs
      have hlong : 1 ≤ mark.length := by cases hspells <;> simp
      have hcs := ih run'
      rw [hmark, List.length_append, List.length_cons]
      omega

/-- A string in double quotes is read back. -/
lemma lineString?_basic (cs rest : List Char) :
    lineString? ('"' :: escapeChars 0 false 0 cs ++ ['"'] ++ rest) = some (.ofList cs, rest) := by
  have hlong := length_le_escapeChars 0 false 0 cs
  have hread : basicBody ((escapeChars 0 false 0 cs ++ '"' :: rest).length + 1) []
      (escapeChars 0 false 0 cs ++ '"' :: rest) = some (.ofList cs, rest) :=
    basicBody_escapeChars (by rw [List.length_append]; omega) 0 [] rest
  rw [List.cons_append, List.cons_append, List.append_assoc, List.singleton_append, lineString?]
  exact hread

/-- A string in single quotes is read back. -/
lemma lineString?_literal (hquote : '\x27' ∉ cs) (hplain : ∀ c ∈ cs, isPlain c = true)
    (rest : List Char) :
    lineString? ('\x27' :: cs ++ ['\x27'] ++ rest) = some (.ofList cs, rest) := by
  rw [List.cons_append, List.cons_append, List.append_assoc, List.singleton_append, lineString?]
  exact literalBody_read hquote hplain [] rest

/-- The same as a value, unless a third quote follows right after two of them. -/
lemma string?_basic (cs : List Char) (hrest : rest.head? ≠ some '"') :
    string? ('"' :: escapeChars 0 false 0 cs ++ ['"'] ++ rest) = some (.ofList cs, rest) := by
  have hread := lineString?_basic cs rest
  have hrow : StartsWithin '"' (0 - 0) (escapeChars 0 false 0 cs) := quotes_escapeChars le_rfl cs
  generalize escapeChars 0 false 0 cs = written at hrow hread ⊢
  have hone : ∀ more, '"' :: written ++ ['"'] ++ rest ≠ '"' :: '"' :: '"' :: more := by
    intro more hthree
    cases hrow with
    | @all i hi =>
        obtain rfl := Nat.le_zero.mp hi
        have hquote : rest = '"' :: more := by simpa using hthree
        exact hrest (by rw [hquote]; rfl)
    | @more i x tail hi hx =>
        obtain rfl := Nat.le_zero.mp hi
        exact hx (List.cons.inj (List.cons.inj hthree).2).1
  rw [string?.eq_3 _ hone (by simp)]
  exact hread

lemma string?_literal (hquote : '\x27' ∉ cs) (hplain : ∀ c ∈ cs, isPlain c = true)
    (hrest : rest.head? ≠ some '\x27') :
    string? ('\x27' :: cs ++ ['\x27'] ++ rest) = some (.ofList cs, rest) := by
  have hone : ∀ more, '\x27' :: cs ++ ['\x27'] ++ rest ≠ '\x27' :: '\x27' :: '\x27' :: more := by
    intro more hthree
    cases cs with
    | nil =>
        have hthird : rest = '\x27' :: more := by simpa using hthree
        exact hrest (by rw [hthird]; rfl)
    | cons c cs =>
        have hc : c = '\x27' := (List.cons.inj (List.cons.inj hthree).2).1
        exact hquote (hc ▸ List.mem_cons_self)
  rw [string?.eq_3 _ (by simp) hone]
  exact lineString?_literal hquote hplain rest

/-- The line end at the start of a string of many lines is left out, and no other one. -/
lemma skipFirstLineEnd_written (t : TextShape) {written : List Char}
    (hwritten : t.hasLineEnd = false → ∀ x more, written = x :: more → x ≠ '\n' ∧ x ≠ '\r') :
    skipFirstLineEnd (firstLineEnd t ++ written) = written := by
  rw [firstLineEnd, skipFirstLineEnd]
  cases hend : t.hasLineEnd with
  | true => rfl
  | false =>
      rw [if_neg (by decide), List.nil_append]
      cases written with
      | nil => rfl
      | cons x more =>
          obtain ⟨hx, hx'⟩ := hwritten hend x more rfl
          rw [lineEnd?_other hx hx', Option.getD_none]

lemma string?_basicLines (cs : List Char) (hrest : rest.head? ≠ some '"') :
    string? (['"', '"', '"'] ++ firstLineEnd (.of cs) ++ escapeChars 2 true 0 cs ++ ['"', '"', '"']
      ++ rest) = some (.ofList cs, rest) := by
  let written := escapeChars 2 true 0 cs ++ '"' :: '"' :: '"' :: rest
  have hskip : skipFirstLineEnd (firstLineEnd (.of cs) ++ written) = written := by
    refine skipFirstLineEnd_written _ fun hend x more hx => ?_
    cases cs with
    | nil =>
        obtain ⟨rfl, -⟩ := List.cons.inj hx
        decide
    | cons c cs =>
        obtain ⟨mark, run', hspells, hmark⟩ := escapeChars_cons 2 true 0 c cs
        simp only [written, hmark] at hx
        have hc : c ≠ '\n' := by
          rintro rfl
          simp [TextShape.of] at hend
        cases hspells with
        | quote _ _ => exact (List.cons.inj hx).1 ▸ by decide
        | lineEnd hc' _ => exact absurd hc' hc
        | plain _ _ hend hreturn _ => exact (List.cons.inj hx).1 ▸ ⟨hend, hreturn⟩
        | escape _ _ _ _ => exact (List.cons.inj hx).1 ▸ by decide
  have hlong := length_le_escapeChars 2 true 0 cs
  have hread : basicLines ((firstLineEnd (.of cs) ++ written).length + 1) [] written
      = some (.ofList cs, rest) :=
    basicLines_escapeChars (by simp only [written, List.length_append]; omega) (by decide) [] hrest
  have hwhole : ['"', '"', '"'] ++ firstLineEnd (.of cs) ++ escapeChars 2 true 0 cs ++ ['"', '"', '"']
      ++ rest = '"' :: '"' :: '"' :: (firstLineEnd (.of cs) ++ written) := by
    simp [written]
  rw [hwhole, string?, hskip]
  exact hread

lemma string?_literalLines (hcontrol : ∀ c ∈ cs, needsEscape c = false)
    (hrun : longestRun '\x27' 0 cs ≤ 2) (hrest : rest.head? ≠ some '\x27') :
    string? (['\x27', '\x27', '\x27'] ++ firstLineEnd (.of cs) ++ cs ++ ['\x27', '\x27', '\x27']
      ++ rest) = some (.ofList cs, rest) := by
  let written := cs ++ '\x27' :: '\x27' :: '\x27' :: rest
  have hskip : skipFirstLineEnd (firstLineEnd (.of cs) ++ written) = written := by
    refine skipFirstLineEnd_written _ fun hend x more hx => ?_
    cases cs with
    | nil =>
        obtain ⟨rfl, -⟩ := List.cons.inj hx
        decide
    | cons c cs =>
        obtain ⟨rfl, -⟩ := List.cons.inj hx
        refine ⟨?_, ?_⟩
        · rintro rfl
          simp [TextShape.of] at hend
        · rintro rfl
          exact absurd (hcontrol _ List.mem_cons_self) (by decide)
  have hread : literalLines ((firstLineEnd (.of cs) ++ written).length + 1) [] written
      = some (.ofList cs, rest) :=
    literalLines_read (by simp only [written, List.length_append]; omega) hcontrol hrun [] hrest
  have hwhole : ['\x27', '\x27', '\x27'] ++ firstLineEnd (.of cs) ++ cs ++ ['\x27', '\x27', '\x27']
      ++ rest = '\x27' :: '\x27' :: '\x27' :: (firstLineEnd (.of cs) ++ written) := by
    simp [written]
  rw [hwhole, string?, hskip]
  exact hread

lemma needsEscape_of_shape (hcontrol : (TextShape.of cs).hasControl = false) :
    ∀ c ∈ cs, needsEscape c = false := by
  simpa [TextShape.of] using hcontrol

lemma isPlain_of_shape (hcontrol : (TextShape.of cs).hasControl = false)
    (hend : (TextShape.of cs).hasLineEnd = false) : ∀ c ∈ cs, isPlain c = true := by
  intro c hc
  refine isPlain_of_needsEscape (needsEscape_of_shape hcontrol c hc) ?_
  rintro rfl
  simp [TextShape.of, hc] at hend

/-- What a string is like that takes single quotes. -/
lemma TextShape.of_quoting_literal {t : TextShape} (ht : t.quoting = .literal) :
    t.hasControl = false ∧ t.longestSingle = 0 ∧ t.hasLineEnd = false := by
  rw [quoting] at ht
  split at ht
  · cases ht
  split at ht
  · next h => simpa [and_assoc] using h
  repeat' split at ht
  all_goals cases ht

/-- What a string is like that takes three single quotes. -/
lemma TextShape.of_quoting_literalLines {t : TextShape} (ht : t.quoting = .literalLines) :
    t.hasControl = false ∧ t.longestSingle ≤ 2 := by
  rw [quoting] at ht
  split at ht
  · cases ht
  split at ht
  · cases ht
  split at ht
  · cases ht
  split at ht
  · next h => simpa using h
  split at ht <;> cases ht

/-- What follows a string does not go on with quotes. -/
def Unquoted (rest : List Char) : Prop := rest.head? ≠ some '"' ∧ rest.head? ≠ some '\x27'

/-- **A string is read back**, whatever kind of quotes it takes. -/
theorem string?_textChars (s : String) (hrest : Unquoted rest) :
    string? (textChars s ++ rest) = some (s, rest) := by
  have hs : String.ofList s.toList = s := String.ofList_toList
  rw [textChars]
  cases hquoting : (TextShape.of s.toList).quoting with
  | basic =>
      have hread := string?_basic s.toList hrest.1
      rwa [hs] at hread
  | literal =>
      obtain ⟨hcontrol, hsingle, hend⟩ := TextShape.of_quoting_literal hquoting
      have hread := string?_literal (not_mem_of_longestRun hsingle) (isPlain_of_shape hcontrol hend)
        hrest.2
      rwa [hs] at hread
  | basicLines =>
      have hread := string?_basicLines s.toList hrest.1
      rwa [hs] at hread
  | literalLines =>
      obtain ⟨hcontrol, hsingle⟩ := TextShape.of_quoting_literalLines hquoting
      have hread := string?_literalLines (needsEscape_of_shape hcontrol) hsingle hrest.2
      rwa [hs] at hread

/-- No quote is bare. -/
lemma isBare_quotes : isBare '"' = false ∧ isBare '\x27' = false := by decide

/-- A bare name is read up to what is not bare. -/
lemma keyPart?_bare (hne : cs ≠ []) (hbare : ∀ c ∈ cs, isBare c = true)
    (hrest : ∀ c, rest.head? = some c → isBare c = false) :
    keyPart? (cs ++ rest) = some (.ofList cs, rest) := by
  have hname : (cs ++ rest).takeWhile isBare = cs ∧ (cs ++ rest).dropWhile isBare = rest := by
    rw [List.takeWhile_append_of_pos hbare, List.dropWhile_append_of_pos hbare]
    cases rest with
    | nil => simp
    | cons x rest => simp [hrest x rfl]
  have hquote : ∀ quote more, isBare quote = false → cs ++ rest ≠ quote :: more := by
    intro quote more hquote hcs
    cases cs with
    | nil => exact hne rfl
    | cons c cs =>
        rw [← (List.cons.inj hcs).1, hbare c List.mem_cons_self] at hquote
        cases hquote
  rw [keyPart?.eq_3 _ (fun more => hquote _ more isBare_quotes.1)
    (fun more => hquote _ more isBare_quotes.2)]
  simp only [hname, List.isEmpty_iff, hne, if_false]

/-- **A part of a key is read back**, unless it is bare and something bare follows. -/
theorem keyPart?_keyChars (s : String) (hrest : ∀ c, rest.head? = some c → isBare c = false) :
    keyPart? (keyChars s ++ rest) = some (s, rest) := by
  have hs : String.ofList s.toList = s := String.ofList_toList
  have hbasic : keyPart? ('"' :: escapeChars 0 false 0 s.toList ++ ['"'] ++ rest) = some (s, rest) := by
    have hread := lineString?_basic s.toList rest
    rwa [hs] at hread
  rw [keyChars]
  split
  · next hbare =>
      have hread := keyPart?_bare hbare.1 (by simpa using hbare.2) hrest
      rwa [hs] at hread
  split
  · exact hbasic
  split
  · next hliteral =>
      obtain ⟨⟨hcontrol, hend⟩, hsingle⟩ : ((TextShape.of s.toList).hasControl = false
          ∧ (TextShape.of s.toList).hasLineEnd = false)
          ∧ (TextShape.of s.toList).longestSingle = 0 := by simpa using hliteral
      have hread := lineString?_literal (not_mem_of_longestRun hsingle)
        (isPlain_of_shape hcontrol hend) rest
      rwa [hs] at hread
  · exact hbasic

end TreeDigest.Toml

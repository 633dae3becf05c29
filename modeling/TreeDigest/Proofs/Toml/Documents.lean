import TreeDigest.Proofs.Toml.Values

/-!
Documents are read back.

A table is written after the one it stands in, plain values first, so every line adds to the last
entry of the document, of that entry's last entry, and so on. Reading goes along with that: a
document is filled at its end.

* `Orderly` holds of fields with plain values and then tables, all under keys of their own.
* `fill` puts a table at the end of a document, and `descend_fill` says that a header leads to it.
* `Takes` says that some lines make one state of a document out of another.
* `takes_table` reads a table with the tables in it, by induction over them.
* `parse?_render`: an orderly document is read back.
-/

namespace TreeDigest.Toml

/-! ### Finished tables -/

mutual
/-- What a field is in a document that is read from headers and lines. -/
def itemOf : Value → Item
  | .table fields => .table false false (itemsOf fields)
  | v => .value v

/-- What fields are in such a document. -/
def itemsOf : Fields → Items
  | [] => []
  | (key, v) :: rest => (key, itemOf v) :: itemsOf rest
end

mutual
lemma finish_itemOf (v : Value) : (itemOf v).finish = v := by
  match v with
  | .table fields => rw [itemOf, Item.finish, finishFields_itemsOf fields]
  | .text _ | .integer _ | .float _ | .boolean _ | .moment _ | .array _ => rfl

/-- Finished tables are what they were made of. -/
lemma finishFields_itemsOf (fields : Fields) : finishFields (itemsOf fields) = fields := by
  match fields with
  | [] => rfl
  | (key, v) :: rest => rw [itemsOf, finishFields, finish_itemOf v, finishFields_itemsOf rest]
end

lemma itemsOf_append (fields more : Fields) :
    itemsOf (fields ++ more) = itemsOf fields ++ itemsOf more := by
  induction fields with
  | nil => rfl
  | cons f fields ih => rw [List.cons_append, itemsOf, itemsOf, ih, List.cons_append]

lemma lookup_itemsOf {fields : Fields} {key : String} (hkey : key ∉ fields.map (·.1)) :
    (itemsOf fields).lookup key = none := by
  induction fields with
  | nil => rfl
  | cons f fields ih =>
      rw [List.map_cons, List.mem_cons, not_or] at hkey
      have hne : (key == f.1) = false := by simpa using hkey.1
      rw [itemsOf, List.lookup_cons, hne]
      exact ih hkey.2

/-! ### The end of a document -/

/-- A table whose last entry is a table, without what is in that one. -/
structure Frame where
  before : Items
  key : String

/-- A table in the frames around it, the outermost one first. -/
def fill (frames : List Frame) (es : Items) : Items :=
  frames.foldr (fun frame inner => frame.before ++ [(frame.key, .table false false inner)]) es

/-- The keys that lead to the table in its frames. -/
def keysOf (frames : List Frame) : List String := frames.map Frame.key

/-- No key of a frame is there twice. -/
def Fresh (frames : List Frame) : Prop := ∀ frame ∈ frames, frame.before.lookup frame.key = none

section Frames

variable {frames : List Frame} {es : Items} {key : String}

lemma fill_snoc (frames : List Frame) (es inner : Items) (key : String) :
    fill (frames ++ [⟨es, key⟩]) inner = fill frames (es ++ [(key, .table false false inner)]) := by
  simp [fill]

lemma lookup_snoc (hkey : es.lookup key = none) (item : Item) :
    (es ++ [(key, item)]).lookup key = some item := by
  rw [List.lookup_append, hkey, List.lookup_cons_self]
  rfl

lemma replace_snoc (hkey : es.lookup key = none) (item item' : Item) :
    Items.replace (es ++ [(key, item)]) key item' = es ++ [(key, item')] := by
  have hes : Items.replace es key item' = es := by
    refine (List.map_congr_left fun e he => ?_).trans es.map_id'
    have hne : e.1 ≠ key := by simpa using Ne.symm (by simpa using List.lookup_eq_none_iff.mp hkey e he)
    exact if_neg hne
  rw [Items.replace, List.map_append, ← Items.replace, hes]
  simp

/-- **The keys of a table at the end lead to it.** -/
lemma descend_fill (hframes : Fresh frames) (change : Bool → Items → Option Items) (es : Items) :
    Items.descend false change (keysOf frames) false (fill frames es)
      = (change false es).map (fill frames) := by
  induction frames with
  | nil => exact (congrFun Option.map_id _).symm
  | cons frame frames ih =>
      rw [Fresh, List.forall_mem_cons] at hframes
      have hlookup := lookup_snoc hframes.1 (.table false false (fill frames es))
      rw [keysOf, List.map_cons, ← keysOf]
      change Items.descend false change (frame.key :: keysOf frames) false
        (frame.before ++ [(frame.key, .table false false (fill frames es))]) = _
      rw [Items.descend, hlookup]
      simp only [Bool.false_and, Bool.false_eq_true, if_false, ih hframes.2]
      cases change false es with
      | none => rfl
      | some inner => exact congrArg some (replace_snoc hframes.1 _ _)

/-- A header adds a table at the end. -/
lemma openTable_fill (hframes : Fresh frames) (hkey : es.lookup key = none) :
    Items.openTable (keysOf frames) key (fill frames es)
      = some (fill (frames ++ [⟨es, key⟩]) []) := by
  rw [Items.openTable, descend_fill hframes]
  simp only [hkey, Option.map_some, fill_snoc]

/-- A line adds a value at the end. -/
lemma assign_fill (hframes : Fresh frames) (hkey : es.lookup key = none) (v : Value) :
    Items.assign (keysOf frames) [] key v (fill frames es)
      = some (fill frames (es ++ [(key, .value v)])) := by
  rw [Items.assign, descend_fill hframes]
  simp [Items.assignIn, Items.descend, hkey]

end Frames

/-! ### Rows of lines -/

/-- Some lines, whatever follows them, make one state out of another. -/
def Takes (s : State) (cs : List Char) (s' : State) : Prop :=
  ∀ (rest : List Char) (n : ℕ), (cs ++ rest).length < n →
    ∃ m, rest.length < m ∧ lines? n s (cs ++ rest) = lines? m s' rest

section Takes

variable {s s' s'' : State} {cs cs' : List Char}

lemma Takes.nil (s : State) : Takes s [] s := fun _ n hn => ⟨n, hn, rfl⟩

lemma Takes.append (h : Takes s cs s') (h' : Takes s' cs' s'') : Takes s (cs ++ cs') s'' := by
  intro rest n hn
  rw [List.append_assoc] at hn ⊢
  obtain ⟨m, hm, hfirst⟩ := h (cs' ++ rest) n hn
  obtain ⟨k, hk, hsecond⟩ := h' rest m hm
  exact ⟨k, hk, hfirst.trans hsecond⟩

/-- A line that is not empty uses up room of its own. -/
lemma Takes.line (hcs : cs ≠ []) (hline : ∀ rest, line? s (cs ++ rest) = some (s', rest)) :
    Takes s cs s' := by
  intro rest n hn
  have hlong : 0 < cs.length := List.length_pos_iff.mpr hcs
  rw [List.length_append] at hn
  obtain ⟨n, rfl⟩ := Nat.exists_eq_add_one_of_ne_zero (Nat.ne_zero_of_lt hn)
  have hne : cs ++ rest ≠ [] := by simp [hcs]
  refine ⟨n, by omega, ?_⟩
  rw [lines?.eq_3 _ _ _ hne, hline]
  rfl

lemma takes_blank (s : State) : Takes s ['\n'] s := .line (by simp) fun _ => rfl

/-- A blank line before others may be left out. -/
lemma Takes.of_blank (h : Takes s ('\n' :: cs) s') : Takes s cs s' := by
  intro rest n hn
  obtain ⟨m, hm, hlines⟩ := h rest (n + 1) (by simpa using hn)
  exact ⟨m, hm, hlines⟩

/-- Lines are read to their end. -/
lemma Takes.read (h : Takes s cs s') : lines? (cs.length + 1) s cs = some s' := by
  obtain ⟨m, -, hlines⟩ := h [] (cs.length + 1) (by simp)
  rw [List.append_nil] at hlines
  rw [hlines]
  cases m <;> rfl

end Takes

/-! ### Tables -/

/-- Fields with plain values and then tables, all under keys of their own. -/
inductive Orderly : Fields → Prop where
  | intro (plains : Fields) (tables : List (String × Fields)) :
      (plains.map (·.1) ++ tables.map (·.1)).Nodup → (∀ f ∈ plains, Plain maxDepth f.2) →
      (∀ t ∈ tables, Orderly t.2) → Orderly (plains ++ tables.map fun t => (t.1, .table t.2))

/-- Plain values are in order if their keys are distinct. -/
lemma Orderly.plain {fields : Fields} (hkeys : (fields.map (·.1)).Nodup)
    (hplain : ∀ f ∈ fields, Plain maxDepth f.2) : Orderly fields := by
  have hfields := Orderly.intro fields [] (by simpa using hkeys) hplain (by simp)
  rwa [List.map_nil, List.append_nil] at hfields

section Tables

variable {frames : List Frame} {plains done : Fields} {tables : List (String × Fields)}

lemma Plain.itemOf_eq {n : ℕ} {v : Value} (hv : Plain n v) : itemOf v = .value v := by
  cases hv <;> rfl

/-- Plain values have a line each. -/
lemma plainLines_append (hplain : ∀ f ∈ plains, Plain maxDepth f.2) :
    plainLines (plains ++ tables.map fun t => (t.1, .table t.2))
      = plains.flatMap fun f => fieldLine f.1 f.2 := by
  have htables : plainLines (tables.map fun t => (t.1, .table t.2)) = [] := by
    simp [plainLines, List.flatMap_map]
  have hplains : plainLines plains = plains.flatMap fun f => fieldLine f.1 f.2 := by
    refine List.flatMap_congr fun f hf => ?_
    have hvalue := hplain f hf
    cases hf' : f.2 with
    | table fields =>
        rw [hf'] at hvalue
        cases hvalue
    | _ => rfl
  rw [plainLines, List.flatMap_append, ← plainLines, ← plainLines, htables, hplains, List.append_nil]

lemma tableParts_append (hplain : ∀ f ∈ plains, Plain maxDepth f.2) (path : List String) :
    tableParts path (plains ++ tables.map fun t => (t.1, .table t.2))
      = tables.flatMap fun t => tablePart (path ++ [t.1]) (.table t.2) := by
  induction plains with
  | nil =>
      induction tables with
      | nil => rfl
      | cons t tables ih =>
          rw [List.nil_append] at ih ⊢
          rw [List.map_cons, tableParts, ih, List.flatMap_cons]
  | cons f plains ih =>
      obtain ⟨key, v⟩ := f
      rw [List.forall_mem_cons] at hplain
      have hnone : tablePart (path ++ [key]) v = [] := by
        cases v with
        | table fields => cases hplain.1
        | _ => rfl
      rw [List.cons_append, tableParts, hnone, List.nil_append, ih hplain.2]

/-- A key that comes after others is another one. -/
lemma lookup_itemsOf_of_nodup {key : String} {more : List String}
    (hkeys : (done.map (·.1) ++ key :: more).Nodup) : (itemsOf done).lookup key = none :=
  lookup_itemsOf fun hmem => (List.nodup_append.mp hkeys).2.2 _ hmem _ List.mem_cons_self rfl

/-- The lines of plain values are read in turn. -/
lemma takes_plains (hframes : Fresh frames) (hplain : ∀ f ∈ plains, Plain maxDepth f.2)
    (hkeys : (done.map (·.1) ++ plains.map (·.1)).Nodup) :
    Takes ⟨fill frames (itemsOf done), keysOf frames⟩ (plains.flatMap fun f => fieldLine f.1 f.2)
      ⟨fill frames (itemsOf (done ++ plains)), keysOf frames⟩ := by
  induction plains generalizing done with
  | nil =>
      rw [List.append_nil]
      exact .nil _
  | cons f plains ih =>
      rw [List.forall_mem_cons] at hplain
      rw [List.map_cons] at hkeys
      have hline : Takes ⟨fill frames (itemsOf done), keysOf frames⟩ (fieldLine f.1 f.2)
          ⟨fill frames (itemsOf (done ++ [f])), keysOf frames⟩ := by
        refine .line (by simp [fieldLine]) fun rest => ?_
        rw [line?_fieldLine _ _ hplain.1, assign_fill hframes (lookup_itemsOf_of_nodup hkeys),
          itemsOf_append, itemsOf, itemsOf, hplain.1.itemOf_eq]
        rfl
      have hkeys' : ((done ++ [f]).map (·.1) ++ plains.map (·.1)).Nodup := by simpa using hkeys
      have hmore := ih hplain.2 hkeys'
      rw [List.append_assoc] at hmore
      exact hline.append hmore

/-- A table is read with the tables in it. -/
def ReadsTable (fields : Fields) : Prop :=
  ∀ frames, Fresh frames → ∃ header, Takes ⟨fill frames [], keysOf frames⟩
    (plainLines fields ++ (tableParts (keysOf frames) fields).flatMap ('\n' :: ·))
    ⟨fill frames (itemsOf fields), header⟩

/-- Tables that stand in one table are read in turn, each with its header. -/
lemma takes_tables (hframes : Fresh frames) (htables : ∀ t ∈ tables, ReadsTable t.2)
    (hkeys : (done.map (·.1) ++ tables.map (·.1)).Nodup) (header : List String) :
    ∃ header', Takes ⟨fill frames (itemsOf done), header⟩
      ((tables.flatMap fun t => tablePart (keysOf frames ++ [t.1]) (.table t.2)).flatMap ('\n' :: ·))
      ⟨fill frames (itemsOf (done ++ tables.map fun t => (t.1, .table t.2))), header'⟩ := by
  induction tables generalizing done header with
  | nil => exact ⟨header, by simpa using Takes.nil _⟩
  | cons t tables ih =>
      rw [List.forall_mem_cons] at htables
      rw [List.map_cons] at hkeys
      have hkey := lookup_itemsOf_of_nodup hkeys
      -- The header opens one more frame, and what stands in the table fills that one.
      let inner := frames ++ [⟨itemsOf done, t.1⟩]
      have hinner : Fresh inner := by
        intro frame hframe
        rcases List.mem_append.mp hframe with hframe | hframe
        · exact hframes frame hframe
        · rw [List.mem_singleton.mp hframe]
          exact hkey
      have hpath : keysOf inner = keysOf frames ++ [t.1] := by simp [inner, keysOf]
      have hheader : Takes ⟨fill frames (itemsOf done), header⟩ (headerLine (keysOf inner))
          ⟨fill inner [], keysOf inner⟩ := by
        refine .line (by simp [headerLine]) fun rest => ?_
        rw [hpath, line?_headerLine, openTable_fill hframes hkey]
        rfl
      obtain ⟨header', hbody⟩ := htables.1 inner hinner
      have hfilled : fill inner (itemsOf t.2)
          = fill frames (itemsOf (done ++ [(t.1, .table t.2)])) := by
        rw [fill_snoc, itemsOf_append]
        rfl
      have hkeys' : ((done ++ [(t.1, Value.table t.2)]).map (·.1) ++ tables.map (·.1)).Nodup := by
        simpa using hkeys
      obtain ⟨header'', hmore⟩ := ih htables.2 hkeys' header'
      rw [hfilled] at hbody
      refine ⟨header'', ?_⟩
      have htext : ((t :: tables).flatMap fun t => tablePart (keysOf frames ++ [t.1])
          (.table t.2)).flatMap ('\n' :: ·)
          = ['\n'] ++ (headerLine (keysOf inner) ++ (plainLines t.2
            ++ (tableParts (keysOf inner) t.2).flatMap ('\n' :: ·)
            ++ (tables.flatMap fun t => tablePart (keysOf frames ++ [t.1]) (.table t.2)).flatMap
              ('\n' :: ·))) := by
        simp [tablePart, hpath]
      rw [List.append_assoc] at hmore
      rw [htext]
      exact (takes_blank _).append (hheader.append (hbody.append hmore))

/-- **A table is read with the tables in it**, wherever it stands. -/
theorem takes_table {fields : Fields} (hfields : Orderly fields) : ReadsTable fields := by
  induction hfields with
  | @intro plains tables hkeys hplain _ ih =>
      intro frames hframes
      have hfirst : (([] : Fields).map (·.1) ++ plains.map (·.1)).Nodup := hkeys.sublist (by simp)
      have hplains := takes_plains hframes hplain hfirst
      obtain ⟨header, htables⟩ := takes_tables hframes ih hkeys (keysOf frames)
      rw [plainLines_append hplain, tableParts_append hplain]
      exact ⟨header, hplains.append htables⟩

end Tables

/-! ### Whole documents -/

/-- Parts with a blank line before each of them but the first. -/
lemma intercalate_cons (part : List Char) (parts : List (List Char)) :
    ['\n'].intercalate (part :: parts) = part ++ parts.flatMap ('\n' :: ·) := by
  induction parts generalizing part with
  | nil => simp [List.intercalate]
  | cons next parts ih =>
      have hnext := ih next
      rw [List.intercalate] at hnext ⊢
      simp [List.intersperse, hnext]

/-- The text of a document, but for a blank line that may stand before it. -/
lemma documentChars_eq (fields : Fields) :
    documentChars fields = plainLines fields ++ (tableParts [] fields).flatMap ('\n' :: ·)
      ∨ '\n' :: documentChars fields
        = plainLines fields ++ (tableParts [] fields).flatMap ('\n' :: ·) := by
  rw [documentChars]
  cases hlines : plainLines fields with
  | cons c cs => exact .inl (by simpa using intercalate_cons (c :: cs) (tableParts [] fields))
  | nil =>
      cases hparts : tableParts [] fields with
      | nil => exact .inl rfl
      | cons part parts => exact .inr (by simpa using intercalate_cons part parts)

/-- **The lines of an orderly document make it up.** -/
lemma takes_documentChars {fields : Fields} (hfields : Orderly fields) :
    ∃ header, Takes ⟨[], []⟩ (documentChars fields) ⟨itemsOf fields, header⟩ := by
  obtain ⟨header, htakes⟩ := takes_table hfields [] (by simp [Fresh])
  refine ⟨header, ?_⟩
  rcases documentChars_eq fields with hchars | hchars
  · rw [hchars]
    exact htakes
  · change Takes _ (plainLines fields ++ (tableParts [] fields).flatMap ('\n' :: ·)) _ at htakes
    rw [← hchars] at htakes
    exact htakes.of_blank

/-- A document starts with a key or a header. -/
lemma documentChars_cons {fields : Fields} (hfields : Orderly fields) (hne : fields ≠ []) :
    ∃ c tail, documentChars fields = c :: tail ∧ (StartsKey c ∨ c = '[') := by
  cases hfields with
  | @intro plains tables _ hplain _ =>
      rw [documentChars, plainLines_append hplain, tableParts_append hplain]
      cases plains with
      | cons f plains =>
          obtain ⟨c, tail, hc, hstart⟩ := keyChars_cons f.1
          have hline : (f :: plains).flatMap (fun f => fieldLine f.1 f.2)
              = c :: (tail ++ [' ', '=', ' '] ++ valueChars f.2 ++ ['\n']
                ++ plains.flatMap fun f => fieldLine f.1 f.2) := by
            simp [fieldLine, hc]
          rw [hline]
          exact ⟨c, _, intercalate_cons _ _, .inl hstart⟩
      | nil =>
          cases tables with
          | nil => exact absurd rfl hne
          | cons t tables => exact ⟨'[', _, intercalate_cons _ _, .inr rfl⟩

/-- No document starts with a byte order mark. -/
lemma skipMark_documentChars {fields : Fields} (hfields : Orderly fields) :
    skipMark (documentChars fields) = documentChars fields := by
  by_cases hne : fields = []
  · rw [hne]
    rfl
  · obtain ⟨c, tail, hc, hstart⟩ := documentChars_cons hfields hne
    have hmark : c ≠ '\ufeff' := hstart.elim (fun hkey => hkey.ne rfl (by decide) (by decide))
      fun hbracket => hbracket ▸ by decide
    rw [hc, skipMark.eq_2]
    rintro rest ⟨rfl, -⟩
    exact hmark rfl

/-- **An orderly document is read back.** -/
theorem parse?_render {fields : Fields} (hfields : Orderly fields) :
    parse? (render fields) = some fields := by
  obtain ⟨header, htakes⟩ := takes_documentChars hfields
  rw [parse?, render, String.toList_ofList, parseChars?, skipMark_documentChars hfields, htakes.read,
    Option.map_some, finishFields_itemsOf]

end TreeDigest.Toml

import Mathlib
import TreeDigest.CommandLine.Command
import TreeDigest.Proofs.Builder.NameOrder
import TreeDigest.Proofs.Text.Utf8

/-!
Command lines in the plain form.

In the plain form every option is one word, its name after two dashes and its value behind a sign
of equality, and a word that stands alone comes last, after a bare `--`. Whatever such a value
spells, it is read as a value: a name ends at the first sign of equality, and no word that starts
with a dash is a command.

* `take_optionWord`: what one option does to a reading.
* `parseFrom_options`: a row of options is read one by one; a name that comes twice is a conflict.
* `parseFrom_commands`: commands one after another lead to the last one.
* `parseFrom_alone`: what a command makes of its options and of a word that stands alone.
-/

namespace TreeDigest

namespace Text

variable {α : Type} [DecidableEq α] {sep : α} {before : List α}

/-- A list is cut at the first separator. -/
lemma splitOnce_append (hbefore : sep ∉ before) (after : List α) :
    splitOnce sep (before ++ sep :: after) = some (before, after) := by
  induction before with
  | nil => exact if_pos rfl
  | cons a before ih =>
      rw [List.mem_cons, not_or] at hbefore
      rw [List.cons_append, splitOnce, if_neg (Ne.symm hbefore.1), ih hbefore.2]
      rfl

lemma splitOnce_eq_none (hbefore : sep ∉ before) : splitOnce sep before = none := by
  induction before with
  | nil => rfl
  | cons a before ih =>
      rw [List.mem_cons, not_or] at hbefore
      rw [splitOnce, if_neg (Ne.symm hbefore.1), ih hbefore.2]
      rfl

end Text

namespace CommandLine

open Reading (dash equalsSign)

/-! ### Options as words -/

/-- The kind of a value. -/
def Value.kind : Value → ValueKind
  | .flag => .flag
  | .text _ => .text
  | .path _ => .path

/-- What is written behind the sign of equality, if there is one. -/
def Value.attached : Value → Option Word
  | .flag => none
  | .text s => some (Text.utf8 s)
  | .path p => some p.bytes

/-- An option as one word. -/
def optionWord (o : String × Value) : Word :=
  dash :: dash :: (Text.utf8 o.1 ++ (o.2.attached.map (equalsSign :: ·)).getD [])

/-- A value that can be given: no path is empty. -/
def Value.Given : Value → Prop
  | .path p => p.bytes ≠ []
  | _ => True

/-- A value is read back from its word. -/
lemma Value.read_attached {v : Value} (hv : v.Given) :
    v.kind.read (v.attached.getD []) = .ok v := by
  cases v with
  | flag => rfl
  | text s =>
      rw [Value.kind, ValueKind.read, Value.attached, Option.getD_some, Text.decode_utf8]
  | path p => exact if_neg hv

/-- The option is one of the rules, with a value of its kind. -/
structure Rules.Allow (rules : Rules) (o : String × Value) : Prop where
  listed : ⟨o.1, o.2.kind⟩ ∈ rules.options
  given : o.2.Given

/-- Names are told apart and can be written: those of options are not empty and hold no sign of
equality, and those of commands do not start with a dash. -/
structure Grammar.Orderly (g : Grammar) : Prop where
  distinct : (g.rules.options.map (·.name)).Nodup
  plain : ∀ p ∈ g.rules.options, p.name ≠ "" ∧ equalsSign ∉ Text.utf8 p.name
  commands : ∀ c ∈ g.commands, (Text.utf8 c.1).head? ≠ some dash

/-- A reading that has taken in options only. -/
def Reading.taken (found : Values) : Reading := ⟨found, none, false, false⟩

@[simp] lemma Reading.escaped_taken (found : Values) : (taken found).escaped = false := rfl

@[simp] lemma Reading.expectsValue_taken (found : Values) : (taken found).expectsValue = false := rfl

variable {g next : Grammar} {o : String × Value} {found given : Values} {rest : List Word}

lemma shape_optionWord (hname : o.1 ≠ "") (hplain : equalsSign ∉ Text.utf8 o.1) :
    Reading.Shape.of (optionWord o) = .long (Text.utf8 o.1) o.2.attached := by
  obtain ⟨name, v⟩ := o
  have hne : Text.utf8 name ≠ [] := fun h => hname (Text.utf8_injective h)
  have hescape : optionWord (name, v) ≠ [dash, dash] := by
    simp [optionWord, hne]
  have hdrop : Text.dropStart? [dash, dash] (optionWord (name, v))
      = some (Text.utf8 name ++ (v.attached.map (equalsSign :: ·)).getD []) :=
    Text.dropStart?_append [dash, dash] _
  rw [Reading.Shape.of.eq_def, if_neg hescape, hdrop]
  cases hattached : v.attached with
  | none =>
      have hsplit := Text.splitOnce_eq_none hplain
      simp [hsplit]
  | some w =>
      have hsplit := Text.splitOnce_append hplain w
      simp [hsplit]

/-- The rules find an option by its name. -/
lemma Grammar.Orderly.find? (hg : g.Orderly) {p : Parameter} (hp : p ∈ g.rules.options) :
    g.rules.options.find? (fun q => Text.utf8 q.name == Text.utf8 p.name) = some p := by
  obtain ⟨q, hq⟩ := Option.isSome_iff_exists.mp ((List.find?_isSome
    (p := fun q : Parameter => Text.utf8 q.name == Text.utf8 p.name)).mpr ⟨p, hp, beq_self_eq_true _⟩)
  have hname : q.name = p.name := Text.utf8_injective (by simpa using List.find?_some hq)
  rw [hq, List.inj_on_of_nodup_map hg.distinct (List.mem_of_find?_eq_some hq) hp hname]

/-- **An option is taken in**, unless there was one of its name before. -/
lemma take_optionWord (hg : g.Orderly) (ho : g.rules.Allow o) (found : Values) :
    (Reading.taken found).take g (optionWord o)
      = if o.1 ∈ found.map (·.1) then .error .conflict else .ok (.taken (found ++ [o])) := by
  obtain ⟨hname, hplain⟩ := hg.plain _ ho.listed
  have hfind := hg.find? ho.listed
  have haccept : (Reading.taken found).accept ⟨o.1, o.2.kind⟩ (o.2.attached.getD [])
      = if o.1 ∈ found.map (·.1) then .error .conflict else .ok (.taken (found ++ [o])) := by
    have hlookup : (found.lookup o.1).isSome ↔ o.1 ∈ found.map (·.1) := by
      rw [List.lookup_isSome_iff, List.mem_map]
      exact exists_congr fun f => and_congr_right fun _ => by rw [beq_iff_eq, eq_comm]
    rw [Reading.accept, Value.read_attached ho.given]
    exact if_congr hlookup rfl rfl
  have hshape : (Reading.taken found).take g (optionWord o)
      = (Reading.taken found).option g (Text.utf8 o.1) o.2.attached := by
    simp only [Reading.take, Reading.escaped_taken, Bool.false_eq_true, if_false,
      shape_optionWord hname hplain]
  rw [hshape, ← haccept, Reading.option.eq_def]
  simp only [hfind]
  obtain ⟨name, v⟩ := o
  cases v <;> rfl

/-! ### Rows of options -/

/-- An option is no command. -/
lemma command?_optionWord (hg : g.Orderly) (o : String × Value) : g.command? (optionWord o) = none := by
  rw [Grammar.command?, List.find?_eq_none]
  intro c hc heq
  have hword : Text.utf8 c.1 = optionWord o := by simpa using heq
  exact hg.commands c hc (by rw [hword]; rfl)

lemma isHelp_optionWord (g : Grammar) (o : String × Value) : g.isHelp (optionWord o) = false := by
  have hne : optionWord o ≠ Text.utf8 Grammar.helpWord := fun h => by
    have hhead : some dash = (Text.utf8 Grammar.helpWord).head? := congrArg List.head? h
    revert hhead
    decide
  simp [Grammar.isHelp, hne]

/-- One option of a row is read. -/
lemma parseFrom_option (hg : g.Orderly) (ho : g.rules.Allow o) :
    Grammar.parseFrom (optionWord o :: rest) g (.taken found)
      = if o.1 ∈ found.map (·.1) then .error .conflict
        else Grammar.parseFrom rest g (.taken (found ++ [o])) := by
  have htake := take_optionWord hg ho found
  rw [Grammar.parseFrom]
  simp only [Reading.expectsValue_taken, Reading.escaped_taken, Bool.or_self, Bool.false_eq_true,
    if_false, command?_optionWord hg, isHelp_optionWord, Bool.and_false, htake]
  by_cases htwice : o.1 ∈ found.map (·.1)
  · simp only [if_pos htwice]
  · simp only [if_neg htwice]

/-- **A row of options is read one by one**, and a name that comes twice is a conflict. -/
theorem parseFrom_options (hg : g.Orderly) (hgiven : ∀ o ∈ given, g.rules.Allow o)
    (hfound : (found.map (·.1)).Nodup) (rest : List Word) :
    Grammar.parseFrom (given.map optionWord ++ rest) g (.taken found)
      = if ((found ++ given).map (·.1)).Nodup then Grammar.parseFrom rest g (.taken (found ++ given))
        else .error .conflict := by
  induction given generalizing found with
  | nil => rw [List.append_nil, if_pos hfound]; rfl
  | cons o given ih =>
      rw [List.forall_mem_cons] at hgiven
      rw [List.map_cons, List.cons_append, parseFrom_option hg hgiven.1]
      by_cases ho : o.1 ∈ found.map (·.1)
      · have htwice : ¬ ((found ++ o :: given).map (·.1)).Nodup := by
          rw [List.map_append, List.nodup_append]
          rintro ⟨-, -, hdisjoint⟩
          exact hdisjoint _ ho _ (by simp) rfl
        rw [if_pos ho, if_neg htwice]
      · have hmore : ((found ++ [o]).map (·.1)).Nodup := by
          rw [List.map_append, List.nodup_append]
          refine ⟨hfound, by simp, fun a ha b hb hab => ?_⟩
          rw [List.map_singleton, List.mem_singleton] at hb
          exact ho (hb ▸ hab ▸ ha)
        rw [if_neg ho, ih hgiven.2 hmore, List.append_assoc, List.singleton_append]

/-! ### Commands -/

/-- The grammar of the last of some commands that follow each other. -/
def Grammar.follow? : Grammar → List String → Option Grammar
  | g, [] => some g
  | g, name :: names => (g.command? (Text.utf8 name)).bind fun c => follow? c.2 names

/-- The values of a command and of the last of some commands that follow it; the ones between have
none. -/
def Parsed.along (values : Values) : List String → Parsed → Parsed
  | [], inner => inner
  | name :: names, inner => .mk values (some (name, along [] names inner))

/-- A word that is a command leads to it. -/
lemma parseFrom_command {name : String} (hcommand : g.command? (Text.utf8 name) = some (name, next))
    (found : Values) (rest : List Word) :
    Grammar.parseFrom (Text.utf8 name :: rest) g (.taken found)
      = (Grammar.parseFrom rest next .empty).map fun inner => .mk found (some (name, inner)) := by
  have hclose : (Reading.taken found).closeBefore = .ok found := rfl
  rw [Grammar.parseFrom]
  simp only [Reading.expectsValue_taken, Reading.escaped_taken, Bool.or_self, Bool.false_eq_true,
    if_false, hcommand, hclose]
  cases Grammar.parseFrom rest next .empty <;> rfl

/-- **Commands one after another lead to the last one.** -/
lemma parseFrom_commands {name : String} {names : List String}
    (hfollow : g.follow? (name :: names) = some next) (found : Values) (rest : List Word) :
    Grammar.parseFrom ((name :: names).map Text.utf8 ++ rest) g (.taken found)
      = (Grammar.parseFrom rest next .empty).map (Parsed.along found (name :: names)) := by
  induction names generalizing g name found with
  | nil =>
      obtain ⟨⟨name', g'⟩, hcommand, hnext⟩ := Option.bind_eq_some_iff.mp hfollow
      obtain rfl : name' = name := Text.utf8_injective (by simpa using List.find?_some hcommand)
      obtain rfl : g' = next := Option.some.inj hnext
      exact parseFrom_command hcommand found rest
  | cons inner names ih =>
      obtain ⟨⟨name', g'⟩, hcommand, hnext⟩ := Option.bind_eq_some_iff.mp hfollow
      obtain rfl : name' = name := Text.utf8_injective (by simpa using List.find?_some hcommand)
      have hinner := ih hnext []
      rw [List.map_cons, List.cons_append, parseFrom_command hcommand]
      change Except.map _ (Grammar.parseFrom _ g' (.taken [])) = _
      rw [hinner]
      cases Grammar.parseFrom rest next .empty <;> rfl

/-! ### A word that stands alone -/

/-- The words for a path that stands alone. -/
def aloneWords : Option Path → List Word
  | none => []
  | some p => [[dash, dash], p.bytes]

/-- What such a path is among the values. -/
def aloneValues (name : String) (p : Option Path) : Values := (p.map fun p => (name, Value.path p)).toList

/-- A path that stands alone is looked at when the command ends. -/
lemma closeLast_alone {name : String} {p : Path} (hname : name ∉ found.map (·.1)) (hp : p.bytes ≠ []) :
    (⟨found, some (⟨name, .path⟩, some p.bytes), true, true⟩ : Reading).closeLast g
      = (Reading.taken (found ++ [(name, .path p)])).closeLast g := by
  have hlookup : found.lookup name = none := by
    rw [List.lookup_eq_none_iff]
    intro f hf
    rw [bne_iff_ne]
    rintro rfl
    exact hname (List.mem_map_of_mem hf)
  have hsettle : (⟨found, some (⟨name, .path⟩, some p.bytes), true, true⟩ : Reading).settle
      = .ok ⟨found ++ [(name, .path p)], none, true, true⟩ := by
    simp [Reading.settle, Reading.accept, hlookup, ValueKind.read, hp, Except.map]
  rw [Reading.closeLast, hsettle]
  rfl

/-- **What is made of the options of a command and of a path that stands alone.** -/
lemma parseFrom_alone {name : String} {p : Option Path} (hleaf : g.commands = [])
    (hword : p.isSome → g.rules.word = some ⟨name, .path⟩) (hname : name ∉ found.map (·.1))
    (hp : ∀ p' ∈ p, p'.bytes ≠ []) :
    Grammar.parseFrom (aloneWords p) g (.taken found)
      = ((Reading.taken (found ++ aloneValues name p)).closeLast g).map fun values => .mk values none := by
  cases p with
  | none => rw [aloneWords, aloneValues, Option.map_none, Option.toList_none, List.append_nil]; rfl
  | some p =>
      have hnone : ∀ w, g.command? w = none := fun w => by rw [Grammar.command?, hleaf]; rfl
      have hhelp : ∀ w, g.isHelp w = false := fun w => by
        simp [Grammar.isHelp, Grammar.needsCommand, hleaf]
      have hescape : (Reading.taken found).take g [dash, dash] = .ok ⟨found, none, true, false⟩ := rfl
      have hpath : (⟨found, none, true, false⟩ : Reading).take g p.bytes
          = .ok ⟨found, some (⟨name, .path⟩, some p.bytes), true, true⟩ := by
        simp [Reading.take, Reading.word, hword rfl, Reading.settle, Except.map]
      have hclose := closeLast_alone (g := g) hname (hp p rfl)
      simp only [aloneWords, Grammar.parseFrom, hnone, hhelp, ite_self, Bool.and_false,
        Bool.false_eq_true, if_false, hescape, hpath, hclose]
      rfl

end CommandLine

end TreeDigest

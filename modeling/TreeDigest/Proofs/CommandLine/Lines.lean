import TreeDigest.Proofs.CommandLine.Options
import TreeDigest.Proofs.Settings.Decoding

/-!
Invocations are read back from their command lines.

What an invocation says is a value for each option, or none. A row of options tells it if each name
stands there once with the value that is said, in any order; a value that is taken anyway may be left
out. Then looking up a name in the row gives what was said, and nothing else is looked at.

* `Tells.lookup_eq_or`: a row that tells what is said is as good as all of it.
* `parseWords_rows`: a line is read by its two rows of options, and a repeated name is a conflict.
* `parseWords_of_written`: the lines of an invocation give it back.
-/

namespace TreeDigest.CommandLine

/-! ### What is said -/

/-- The value that is taken for an option that is left out, if there is one. -/
def standardValue : String → Option Value
  | "workspace" => some (.path (.ofText "."))
  | "format" => some (.text "text")
  | _ => none

/-- A flag stands on a line if it is set. -/
def flagValue (b : Bool) : Option Value := if b then some .flag else none

/-- What is said about each option. -/
abbrev Entries := List (String × Option Value)

/-- What an invocation says about the options in front of the command. -/
def Invocation.entries (i : Invocation) : Entries :=
  [("workspace", some (.path i.workspace)), ("config", i.config.map .path),
    ("verbose", flagValue i.verbose), ("log-level", i.logLevel.map .text),
    ("log-format", i.logFormat.map .text), ("log-output", i.logOutput.map .text),
    ("log-file", i.logFile.map .path)]

namespace Command

/-- What a command says about its options. -/
def entries : Command → Entries
  | .scan r => [("format", some (.text r.format)), ("tree", flagValue r.tree),
      ("exclude-empty", flagValue r.excludeEmpty), ("include-empty", flagValue r.includeEmpty),
      ("unsorted-walk", flagValue r.unsortedWalk)]
  | .check r => [("identity", some (.text r.identity)), ("record", flagValue r.record),
      ("format", some (.text r.format))]
  | .showHistory identity format =>
    [("identity", some (.text identity)), ("format", some (.text format))]
  | .clearHistory identity => [("identity", some (.text identity))]
  | .initConfig force => [("force", flagValue force)]
  | .showConfig => []

/-- The words that name a command. -/
def words : Command → List String
  | .scan _ => ["scan"]
  | .check _ => ["check"]
  | .showHistory _ _ => ["history", "show"]
  | .clearHistory _ => ["history", "clear"]
  | .initConfig _ => ["config", "init"]
  | .showConfig => ["config", "show"]

/-- The rules of a command. -/
def rules : Command → Rules
  | .scan _ => scanRules
  | .check _ => checkRules
  | .showHistory _ _ => ⟨[identityOption, formatOption], none, ["identity"], []⟩
  | .clearHistory _ => ⟨[identityOption], none, ["identity"], []⟩
  | .initConfig _ => .ofOptions [⟨"force", .flag⟩]
  | .showConfig => .ofOptions []

/-- The path that a command is about, if it is given. -/
def path? : Command → Option Path
  | .scan r => r.path
  | .check r => r.path
  | _ => none

/-- Empty directories are to be left out and to be kept. -/
def contradicts : Command → Bool
  | .scan r => r.excludeEmpty && r.includeEmpty
  | _ => false

end Command

/-- No path of an invocation is empty. -/
structure Invocation.PathsGiven (i : Invocation) : Prop where
  workspace : i.workspace.bytes ≠ []
  config : ∀ p ∈ i.config, p.bytes ≠ []
  logFile : ∀ p ∈ i.logFile, p.bytes ≠ []
  path : ∀ p ∈ i.command.path?, p.bytes ≠ []

/-! ### Rows that tell it -/

/-- A row of options tells what is said: every name stands there once, with what is said about it,
and is left out only where nothing is said or the standard value. -/
structure Tells (entries : Entries) (given : Values) : Prop where
  once : (given.map (·.1)).Nodup
  sound : ∀ o ∈ given, (o.1, some o.2) ∈ entries
  complete : ∀ name v, (name, some v) ∈ entries → (name, v) ∈ given ∨ standardValue name = some v

/-- A line of an invocation: what it says in front, the words of the command, what the command says,
and the path behind a bare `--`. -/
def Invocation.Written (i : Invocation) (line : List Word) : Prop :=
  ∃ front own, Tells i.entries front ∧ Tells i.command.entries own ∧
    line = front.map optionWord ++ i.command.words.map Text.utf8 ++ own.map optionWord
      ++ aloneWords i.command.path?

namespace Tells

variable {entries : Entries} {given : Values} {name : String}

section Lookup

variable (h : Tells entries given) (hkeys : (entries.map (·.1)).Nodup)
include h hkeys

/-- **A row is as good as what is said**: a name finds what is said about it, or nothing where that
is the standard value. -/
lemma lookup_eq_or {o : Option Value} (hmem : (name, o) ∈ entries) :
    given.lookup name = o ∨ (given.lookup name = none ∧ o = standardValue name) := by
  have hsame : ∀ o', (name, o') ∈ entries → o' = o := fun o' hmem' =>
    congrArg Prod.snd (List.inj_on_of_nodup_map hkeys hmem' hmem rfl)
  cases hlookup : given.lookup name with
  | some v => exact .inl (hsame _ (h.sound _ ((lookup_eq_some_iff_mem h.once).mp hlookup)))
  | none =>
      cases o with
      | none => exact .inl rfl
      | some v =>
          rcases h.complete name v hmem with hgiven | hstandard
          · rw [(lookup_eq_some_iff_mem h.once).mpr hgiven] at hlookup
            cases hlookup
          · exact .inr ⟨rfl, hstandard.symm⟩

lemma lookup_eq {o : Option Value} (hmem : (name, o) ∈ entries) (hstandard : standardValue name = none) :
    given.lookup name = o := by
  rcases h.lookup_eq_or hkeys hmem with hsame | ⟨hlookup, ho⟩
  · exact hsame
  · rw [hlookup, ho, hstandard]

lemma path?_eq {p : Option Path} (hmem : (name, p.map .path) ∈ entries)
    (hstandard : standardValue name = none) : given.path? name = p := by
  rw [Values.path?, h.lookup_eq hkeys hmem hstandard]
  cases p <;> rfl

lemma text?_eq {s : Option String} (hmem : (name, s.map .text) ∈ entries)
    (hstandard : standardValue name = none) : given.text? name = s := by
  rw [Values.text?, h.lookup_eq hkeys hmem hstandard]
  cases s <;> rfl

lemma isSet_eq {b : Bool} (hmem : (name, flagValue b) ∈ entries)
    (hstandard : standardValue name = none) : given.isSet name = b := by
  rw [Values.isSet, h.lookup_eq hkeys hmem hstandard]
  cases b <;> rfl

/-- A text that is left out is the standard one. -/
lemma textOr_eq {s standard : String} (hmem : (name, some (.text s)) ∈ entries)
    (hstandard : ∀ v ∈ standardValue name, v = .text standard) : given.textOr name standard = s := by
  rcases h.lookup_eq_or hkeys hmem with hlookup | ⟨hlookup, ho⟩
  · rw [Values.textOr, Values.text?, hlookup]
    rfl
  · rw [Values.textOr, Values.text?, hlookup]
    exact (Value.text.inj (hstandard _ ho.symm)).symm

/-- So is a workspace. -/
lemma workspace_eq {p : Path} (hmem : ("workspace", some (.path p)) ∈ entries) :
    (given.path? "workspace").getD (.ofText ".") = p := by
  rcases h.lookup_eq_or hkeys hmem with hlookup | ⟨hlookup, ho⟩
  · rw [Values.path?, hlookup]
    rfl
  · rw [Values.path?, hlookup]
    exact (Value.path.inj (Option.some.inj ho)).symm

end Lookup

/-- A path that stands alone is told with the options. -/
lemma alone (h : Tells entries given) (hname : name ∉ entries.map (·.1)) (p : Option Path) :
    Tells (entries ++ [(name, p.map .path)]) (given ++ aloneValues name p) := by
  have hne : name ∉ given.map (·.1) := fun hgiven => by
    obtain ⟨o, ho, rfl⟩ := List.mem_map.mp hgiven
    exact hname (List.mem_map_of_mem (f := Prod.fst) (h.sound o ho))
  cases p with
  | none =>
      refine ⟨?_, fun o ho => ?_, fun other v hv => ?_⟩
      · rw [aloneValues, Option.map_none, Option.toList_none, List.append_nil]
        exact h.once
      · rw [aloneValues, Option.map_none, Option.toList_none, List.append_nil] at ho
        exact List.mem_append_left _ (h.sound o ho)
      · rcases List.mem_append.mp hv with hv | hv
        · exact (h.complete other v hv).imp_left (List.mem_append_left _)
        · simp at hv
  | some p =>
      refine ⟨?_, fun o ho => ?_, fun other v hv => ?_⟩
      · rw [List.map_append, List.nodup_append]
        refine ⟨h.once, List.nodup_singleton _, ?_⟩
        rintro a ha b hb rfl
        obtain rfl : a = name := List.mem_singleton.mp hb
        exact hne ha
      · rcases List.mem_append.mp ho with ho | ho
        · exact List.mem_append_left _ (h.sound o ho)
        · obtain rfl := List.mem_singleton.mp ho
          exact List.mem_append_right _ (List.mem_singleton.mpr rfl)
      · rcases List.mem_append.mp hv with hv | hv
        · exact (h.complete other v hv).imp_left (List.mem_append_left _)
        · obtain ⟨rfl, rfl⟩ : other = name ∧ v = .path p := by simpa using hv
          exact .inl (List.mem_append_right _ (List.mem_singleton.mpr rfl))

end Tells

/-! ### Rows that are understood -/

variable {i : Invocation} {c : Command} {front own values : Values} {rest : List Word}

lemma orderly_grammar : Invocation.grammar.Orderly := ⟨by decide, by decide, by decide⟩

lemma orderly_rules (c : Command) : (Grammar.mk c.rules []).Orderly := by
  cases c with
  | scan r => exact (⟨by decide, by decide, by decide⟩ : (Grammar.mk scanRules []).Orderly)
  | check r => exact (⟨by decide, by decide, by decide⟩ : (Grammar.mk checkRules []).Orderly)
  | showHistory identity format =>
      exact (⟨by decide, by decide, by decide⟩ :
        (Grammar.mk ⟨[identityOption, formatOption], none, ["identity"], []⟩ []).Orderly)
  | clearHistory identity =>
      exact (⟨by decide, by decide, by decide⟩ :
        (Grammar.mk ⟨[identityOption], none, ["identity"], []⟩ []).Orderly)
  | initConfig force =>
      exact (⟨by decide, by decide, by decide⟩ :
        (Grammar.mk (.ofOptions [⟨"force", .flag⟩]) []).Orderly)
  | showConfig => exact ⟨by decide, by decide, by decide⟩

lemma follow?_words (c : Command) : Invocation.grammar.follow? c.words = some (.mk c.rules []) := by
  cases c <;> rfl

/-- An entry fits the rules: what it says has the kind that they ask for, and can be given. -/
def Rules.Fit (rules : Rules) (e : String × Option Value) : Prop :=
  ∀ v, e.2 = some v → rules.Allow (e.1, v)

section Fit

variable {rules : Rules} {name : String}

lemma Rules.fit_some {v : Value} (hlisted : ⟨name, v.kind⟩ ∈ rules.options) (hv : v.Given) :
    rules.Fit (name, some v) := by
  rintro v' h
  obtain rfl := Option.some.inj h
  exact ⟨hlisted, hv⟩

lemma Rules.fit_flag {b : Bool} (hlisted : ⟨name, .flag⟩ ∈ rules.options) :
    rules.Fit (name, flagValue b) := by
  cases b with
  | false => exact nofun
  | true => exact fit_some hlisted trivial

lemma Rules.fit_text {s : Option String} (hlisted : ⟨name, .text⟩ ∈ rules.options) :
    rules.Fit (name, s.map .text) := by
  cases s with
  | none => exact nofun
  | some s => exact fit_some hlisted trivial

lemma Rules.fit_path {p : Option Path} (hlisted : ⟨name, .path⟩ ∈ rules.options)
    (hp : ∀ p' ∈ p, p'.bytes ≠ []) : rules.Fit (name, p.map .path) := by
  cases p with
  | none => exact nofun
  | some p => exact fit_some hlisted (hp p rfl)

end Fit

/-- **What an invocation says is understood.** -/
lemma fit_front (hi : i.PathsGiven) : ∀ e ∈ i.entries, Invocation.grammar.rules.Fit e := by
  have hworkspace : ∀ p ∈ some i.workspace, p.bytes ≠ [] := by
    rintro p ⟨⟩
    exact hi.workspace
  simp only [Invocation.entries, List.forall_mem_cons]
  exact ⟨Rules.fit_path (p := some i.workspace) (by decide) hworkspace,
    Rules.fit_path (by decide) hi.config, Rules.fit_flag (by decide), Rules.fit_text (by decide),
    Rules.fit_text (by decide), Rules.fit_text (by decide), Rules.fit_path (by decide) hi.logFile,
    nofun⟩

/-- **What a command says is understood.** -/
lemma fit_own (c : Command) : ∀ e ∈ c.entries, c.rules.Fit e := by
  cases c with
  | scan r =>
      change ∀ e ∈ _, scanRules.Fit e
      simp only [Command.entries, List.forall_mem_cons]
      exact ⟨Rules.fit_text (s := some r.format) (by decide), Rules.fit_flag (by decide),
        Rules.fit_flag (by decide), Rules.fit_flag (by decide), Rules.fit_flag (by decide), nofun⟩
  | check r =>
      change ∀ e ∈ _, checkRules.Fit e
      simp only [Command.entries, List.forall_mem_cons]
      exact ⟨Rules.fit_text (s := some r.identity) (by decide), Rules.fit_flag (by decide),
        Rules.fit_text (s := some r.format) (by decide), nofun⟩
  | showHistory identity format =>
      simp only [Command.entries, List.forall_mem_cons]
      exact ⟨Rules.fit_text (s := some identity) List.mem_cons_self,
        Rules.fit_text (s := some format) (List.mem_cons_of_mem _ List.mem_cons_self), nofun⟩
  | clearHistory identity =>
      simp only [Command.entries, List.forall_mem_cons]
      exact ⟨Rules.fit_text (s := some identity) List.mem_cons_self, nofun⟩
  | initConfig force =>
      simp only [Command.entries, List.forall_mem_cons]
      exact ⟨Rules.fit_flag List.mem_cons_self, nofun⟩
  | showConfig => exact nofun

/-- A row that tells what fits the rules is allowed by them. -/
lemma Tells.allow {entries : Entries} {rules : Rules} {given : Values} (h : Tells entries given)
    (hfit : ∀ e ∈ entries, rules.Fit e) : ∀ o ∈ given, rules.Allow o :=
  fun o ho => hfit _ (h.sound o ho) o.2 rfl

/-- **A line is read by its two rows of options**, and a name that comes twice in one of them is a
conflict. -/
theorem parseWords_rows (c : Command) (hfront : ∀ o ∈ front, Invocation.grammar.rules.Allow o)
    (hown : ∀ o ∈ own, c.rules.Allow o) (rest : List Word) :
    Invocation.parseWords (front.map optionWord ++ c.words.map Text.utf8 ++ own.map optionWord ++ rest)
      = if (front.map (·.1)).Nodup ∧ (own.map (·.1)).Nodup then
          ((Grammar.parseFrom rest (.mk c.rules []) (.taken own)).map
            (Parsed.along front c.words)).bind Invocation.ofParsed
        else .error .conflict := by
  obtain ⟨name, names, hwords⟩ : ∃ name names, c.words = name :: names := by
    cases c <;> exact ⟨_, _, rfl⟩
  have hfollow := follow?_words c
  rw [hwords] at hfollow ⊢
  have hnone : (([] : Values).map (·.1)).Nodup := List.nodup_nil
  have hrows := parseFrom_options orderly_grammar hfront hnone
    ((name :: names).map Text.utf8 ++ (own.map optionWord ++ rest))
  have hinner := parseFrom_options (orderly_rules c) hown hnone rest
  rw [List.nil_append] at hrows hinner
  rw [Invocation.parseWords, Grammar.parse, List.append_assoc, List.append_assoc]
  change Except.bind (Grammar.parseFrom _ _ (.taken [])) _ = _
  rw [hrows]
  by_cases hf : (front.map (·.1)).Nodup
  · rw [if_pos hf, parseFrom_commands hfollow]
    change Except.bind (Except.map _ (Grammar.parseFrom _ _ (.taken []))) _ = _
    rw [hinner]
    by_cases ho : (own.map (·.1)).Nodup
    · rw [if_pos ho, if_pos ⟨hf, ho⟩]
    · rw [if_neg ho, if_neg fun h => ho h.2]
      rfl
  · rw [if_neg hf, if_neg fun h => hf h.1]
    rfl

/-! ### Reading back -/

/-- What a command says about its options and about its path. -/
def Command.allEntries (c : Command) : Entries := c.entries ++ [("path", c.path?.map .path)]

lemma nodup_entries (i : Invocation) : (i.entries.map (·.1)).Nodup := by
  simp [Invocation.entries]

lemma nodup_allEntries (c : Command) : (c.allEntries.map (·.1)).Nodup := by
  cases c <;> simp [Command.allEntries, Command.entries]

/-- What is looked at when the line of a command ends. -/
lemma closeLast_taken (rules : Rules) (values : Values) :
    (Reading.taken values).closeLast (.mk rules [])
      = if rules.conflicts.any fun c => values.isSet c.1 && values.isSet c.2 then .error .conflict
        else if rules.required.all values.isSet then .ok values else .error .missingArgument := by
  have hclose : (Reading.taken values).closeLast (.mk rules []) = (do
      if rules.conflicts.any fun c => values.isSet c.1 && values.isSet c.2 then throw .conflict
      if !rules.required.all values.isSet then throw .missingArgument
      return values : Except UsageError Values) := rfl
  rw [hclose]
  cases rules.conflicts.any fun c => values.isSet c.1 && values.isSet c.2 <;>
    cases rules.required.all values.isSet <;> rfl

/-- **A command has all that it needs**, and nothing but a contradiction speaks against it. -/
lemma closeLast_tells (h : Tells c.allEntries values) :
    (Reading.taken values).closeLast (.mk c.rules [])
      = if c.contradicts then .error .conflict else .ok values := by
  have hkeys := nodup_allEntries c
  have hidentity : ∀ identity, ("identity", some (.text identity)) ∈ c.allEntries →
      values.isSet "identity" = true := fun identity hmem => by
    rw [Values.isSet, h.lookup_eq hkeys hmem rfl]
    rfl
  rw [closeLast_taken]
  cases c with
  | scan r =>
      have hexclude : values.isSet "exclude-empty" = r.excludeEmpty :=
        h.isSet_eq hkeys (by simp [Command.allEntries, Command.entries]) rfl
      have hinclude : values.isSet "include-empty" = r.includeEmpty :=
        h.isSet_eq hkeys (by simp [Command.allEntries, Command.entries]) rfl
      simp [Command.rules, scanRules, Command.contradicts, hexclude, hinclude]
  | check r =>
      have hset := hidentity r.identity (by simp [Command.allEntries, Command.entries])
      simp [Command.rules, checkRules, Command.contradicts, hset]
  | showHistory identity format =>
      have hset := hidentity identity (by simp [Command.allEntries, Command.entries])
      simp [Command.rules, Command.contradicts, hset]
  | clearHistory identity =>
      have hset := hidentity identity (by simp [Command.allEntries, Command.entries])
      simp [Command.rules, Command.contradicts, hset]
  | initConfig force => rfl
  | showConfig => rfl

/-- **The values of a command give it back.** -/
lemma ofParsed_along (front : Values) (h : Tells c.allEntries values) :
    Invocation.ofParsed (Parsed.along front c.words (.mk values none))
      = .ok ⟨(front.path? "workspace").getD (.ofText "."), front.path? "config",
        front.isSet "verbose", front.text? "log-level", front.text? "log-format",
        front.text? "log-output", front.path? "log-file", c⟩ := by
  have hkeys := nodup_allEntries c
  have hformat : ∀ format, ("format", some (.text format)) ∈ c.allEntries →
      values.textOr "format" "text" = format := fun format hmem =>
    h.textOr_eq hkeys hmem fun v hv => (Option.some.inj hv).symm
  have hidentity : ∀ identity, ("identity", some (.text identity)) ∈ c.allEntries →
      values.textOr "identity" "" = identity := fun identity hmem =>
    h.textOr_eq hkeys hmem nofun
  have hpath : values.path? "path" = c.path? :=
    h.path?_eq hkeys (List.mem_append_right _ List.mem_cons_self) rfl
  have hset : ∀ name b, (name, flagValue b) ∈ c.entries → standardValue name = none →
      values.isSet name = b := fun name b hmem hstandard =>
    h.isSet_eq hkeys (List.mem_append_left _ hmem) hstandard
  cases c with
  | scan r =>
      have htree := hset "tree" r.tree (by simp [Command.entries]) rfl
      have hexclude := hset "exclude-empty" r.excludeEmpty (by simp [Command.entries]) rfl
      have hinclude := hset "include-empty" r.includeEmpty (by simp [Command.entries]) rfl
      have hunsorted := hset "unsorted-walk" r.unsortedWalk (by simp [Command.entries]) rfl
      have hread : Command.ofParsed? "scan" (.mk values none) = some (.scan r) := by
        rw [Command.ofParsed?, hpath, htree, hexclude, hinclude, hunsorted,
          hformat r.format (by simp [Command.allEntries, Command.entries])]
        rfl
      simp only [Parsed.along, Command.words, Invocation.ofParsed, hread]
  | check r =>
      have hrecord := hset "record" r.record (by simp [Command.entries]) rfl
      have hread : Command.ofParsed? "check" (.mk values none) = some (.check r) := by
        rw [Command.ofParsed?, hpath, hrecord,
          hidentity r.identity (by simp [Command.allEntries, Command.entries]),
          hformat r.format (by simp [Command.allEntries, Command.entries])]
        rfl
      simp only [Parsed.along, Command.words, Invocation.ofParsed, hread]
  | showHistory identity format =>
      have hread : Command.ofParsed? "history" (.mk [] (some ("show", .mk values none)))
          = some (.showHistory identity format) := by
        rw [Command.ofParsed?, hidentity identity (by simp [Command.allEntries, Command.entries]),
          hformat format (by simp [Command.allEntries, Command.entries])]
      simp only [Parsed.along, Command.words, Invocation.ofParsed, hread]
  | clearHistory identity =>
      have hread : Command.ofParsed? "history" (.mk [] (some ("clear", .mk values none)))
          = some (.clearHistory identity) := by
        rw [Command.ofParsed?, hidentity identity (by simp [Command.allEntries, Command.entries])]
      simp only [Parsed.along, Command.words, Invocation.ofParsed, hread]
  | initConfig force =>
      have hread : Command.ofParsed? "config" (.mk [] (some ("init", .mk values none)))
          = some (.initConfig force) := by
        rw [Command.ofParsed?, hset "force" force (by simp [Command.entries]) rfl]
      simp only [Parsed.along, Command.words, Invocation.ofParsed, hread]
  | showConfig => rfl

/-- What stands in front of a command gives the rest of the invocation back. -/
lemma ofParsed_tells (hfront : Tells i.entries front) (h : Tells i.command.allEntries values) :
    Invocation.ofParsed (Parsed.along front i.command.words (.mk values none)) = .ok i := by
  have hkeys := nodup_entries i
  have hworkspace := hfront.workspace_eq hkeys (p := i.workspace) (by simp [Invocation.entries])
  have hpath : ∀ name p, (name, p.map .path) ∈ i.entries → standardValue name = none →
      front.path? name = p := fun name p => hfront.path?_eq hkeys
  have htext : ∀ name s, (name, s.map .text) ∈ i.entries → standardValue name = none →
      front.text? name = s := fun name s => hfront.text?_eq hkeys
  have hverbose : front.isSet "verbose" = i.verbose :=
    hfront.isSet_eq hkeys (by simp [Invocation.entries]) rfl
  rw [ofParsed_along front h, hworkspace, hpath "config" i.config (by simp [Invocation.entries]) rfl,
    hverbose,
    htext "log-level" i.logLevel (by simp [Invocation.entries]) rfl,
    htext "log-format" i.logFormat (by simp [Invocation.entries]) rfl,
    htext "log-output" i.logOutput (by simp [Invocation.entries]) rfl,
    hpath "log-file" i.logFile (by simp [Invocation.entries]) rfl]

lemma path_not_mem_entries (c : Command) : "path" ∉ c.entries.map (·.1) := by
  cases c <;> simp [Command.entries]

/-- Only a command that takes a path is about one. -/
lemma word_rules (c : Command) (hpath : c.path?.isSome) : c.rules.word = some rootWord := by
  cases c with
  | scan r => rfl
  | check r => rfl
  | _ => cases hpath

/-- **A written line gives the invocation back**, or a conflict where it contradicts itself. -/
theorem parseWords_of_written (hi : i.PathsGiven) {line : List Word} (hline : i.Written line) :
    Invocation.parseWords line = if i.command.contradicts then .error .conflict else .ok i := by
  obtain ⟨front, own, hfront, hown, rfl⟩ := hline
  have hall := hown.alone (path_not_mem_entries i.command) i.command.path?
  have hname : "path" ∉ own.map (·.1) := fun hmem => by
    obtain ⟨o, ho, heq⟩ := List.mem_map.mp hmem
    exact path_not_mem_entries i.command (List.mem_map.mpr ⟨_, hown.sound o ho, heq⟩)
  rw [parseWords_rows i.command (hfront.allow (fit_front hi)) (hown.allow (fit_own i.command)),
    if_pos ⟨hfront.once, hown.once⟩,
    parseFrom_alone rfl (word_rules i.command) hname hi.path, closeLast_tells hall]
  cases i.command.contradicts with
  | true => rfl
  | false => exact ofParsed_tells hfront hall

/-- What is said can be written down, all of it and in the order of the entries. -/
lemma tells_filterMap {entries : Entries} (hkeys : (entries.map (·.1)).Nodup) :
    Tells entries (entries.filterMap fun e => e.2.map fun v => (e.1, v)) where
  once := by
    have hsub : ∀ es : Entries, ((es.filterMap fun e => e.2.map fun v => (e.1, v)).map (·.1)).Sublist
        (es.map (·.1)) := fun es => by
      induction es with
      | nil => exact .slnil
      | cons e es ih =>
          obtain ⟨name, o⟩ := e
          cases o with
          | none => exact ih.cons _
          | some v => exact ih.cons_cons _
    exact hkeys.sublist (hsub entries)
  sound o ho := by
    obtain ⟨⟨name, o'⟩, he, ho⟩ := List.mem_filterMap.mp ho
    obtain ⟨v, rfl, rfl⟩ := Option.map_eq_some_iff.mp ho
    exact he
  complete name v hmem := .inl (List.mem_filterMap.mpr ⟨_, hmem, rfl⟩)

/-- **Command lines and invocations.** Every invocation has a line; each of its lines gives it back, or
a conflict where it contradicts itself; and a line on which an option or a flag is repeated, in front
of the command or behind it, is a conflict, whatever follows. -/
theorem parseWords_lines (i : Invocation) (hi : i.PathsGiven) :
    (∃ line, i.Written line) ∧
    (∀ line, i.Written line →
      Invocation.parseWords line = if i.command.contradicts then .error .conflict else .ok i) ∧
    ∀ (front own : Values) (rest : List Word), (∀ o ∈ front, Invocation.grammar.rules.Allow o) →
      (∀ o ∈ own, i.command.rules.Allow o) →
      ¬ ((front.map (·.1)).Nodup ∧ (own.map (·.1)).Nodup) →
      Invocation.parseWords
        (front.map optionWord ++ i.command.words.map Text.utf8 ++ own.map optionWord ++ rest)
          = .error .conflict := by
  have hkeys : (i.command.entries.map (·.1)).Nodup := by
    have hall := nodup_allEntries i.command
    rw [Command.allEntries, List.map_append, List.nodup_append] at hall
    exact hall.1
  refine ⟨⟨_, _, _, tells_filterMap (nodup_entries i), tells_filterMap hkeys, rfl⟩,
    fun line hline => parseWords_of_written hi hline, fun front own rest hfront hown htwice => ?_⟩
  rw [parseWords_rows i.command hfront hown, if_neg htwice]

/-- An invocation with values that look like options, like a command and like a bare `--`. -/
def disguised : Invocation :=
  ⟨.ofText ".", some (.ofText "scan"), false, some "--", none, none, none,
    .check ⟨some (.ofText "-x=y"), "--record", true, "text"⟩⟩

/-- No value is taken for what it looks like. -/
theorem parse_disguised :
    disguised.PathsGiven ∧
    Invocation.parse ["--log-level=--", "--config=scan", "check", "--record", "--identity=--record",
      "--", "-x=y"] = .ok disguised ∧
    Invocation.parse ["--log-level=--", "check", "--record", "--record"] = .error .conflict := by
  have hpaths : disguised.PathsGiven := by
    refine ⟨by decide, ?_, nofun, ?_⟩ <;> (rintro p ⟨⟩; decide)
  have hlines := parseWords_lines disguised hpaths
  refine ⟨hpaths, ?_, ?_⟩
  · refine hlines.2.1 _ ⟨[("log-level", .text "--"), ("config", .path (.ofText "scan"))],
      [("record", .flag), ("identity", .text "--record")], ?_, ?_, by decide⟩
    · refine ⟨by decide, by decide, fun name v hmem => ?_⟩
      simp only [disguised, Invocation.entries, flagValue, List.mem_cons, Prod.mk.injEq,
        Option.map_some, Option.map_none, Option.some.injEq, Bool.false_eq_true, if_false, reduceCtorEq,
        and_false, List.not_mem_nil, or_false, false_or] at hmem
      rcases hmem with ⟨rfl, rfl⟩ | ⟨rfl, rfl⟩ | ⟨rfl, rfl⟩
      · exact .inr rfl
      · exact .inl (by decide)
      · exact .inl (by decide)
    · refine ⟨by decide, by decide, fun name v hmem => ?_⟩
      simp only [disguised, Command.entries, flagValue, if_true, List.mem_cons, Prod.mk.injEq,
        Option.some.injEq, List.not_mem_nil, or_false] at hmem
      rcases hmem with ⟨rfl, rfl⟩ | ⟨rfl, rfl⟩ | ⟨rfl, rfl⟩
      · exact .inl (by decide)
      · exact .inl (by decide)
      · exact .inr rfl
  · refine hlines.2.2 [("log-level", .text "--")] [("record", .flag), ("record", .flag)] [] ?_ ?_
      (by decide)
    · simp only [List.forall_mem_cons]
      exact ⟨⟨by decide, trivial⟩, nofun⟩
    · simp only [List.forall_mem_cons]
      exact ⟨⟨by decide, trivial⟩, ⟨by decide, trivial⟩, nofun⟩

end TreeDigest.CommandLine

import TreeDigest.Logging.Setup
import TreeDigest.Proofs.Logging.Directives

/-!
Setting up the log of settings without a problem.

The check of the settings looks at the level, the format, the place and the levels of the parts. The
set-up reads the same words in the same way, so it can only fail at what the check does not look at:
the names of the parts, which are read as directives, and the file of the log.

* `LoggingSettings.valid_of_problem?`: what the check makes sure of.
* `moduleDirectives_cases`: the parts are all read, or the first that is not ends the set-up.
* `install_of_valid`: the set-up succeeds if the parts have names that are read, and fails if a part
  has no such name.
-/

namespace TreeDigest

/-- What the check of the log makes sure of. -/
structure LoggingSettings.Valid (s : LoggingSettings) : Prop where
  level : ∃ l : Logging.Level, s.level = l.word
  format : ∃ f, Logging.Format.ofWord? s.format = some f
  output : ∃ o, Logging.Output.ofWord? s.output = some o
  modules : ∀ m ∈ s.modules, ∃ l : Logging.Level, m.2 = l.word

/-- **The settings have no problem if their words are known.** -/
lemma LoggingSettings.valid_of_problem? {s : LoggingSettings} (h : s.problem? = none) : s.Valid := by
  have hword : ∀ w, (Logging.Level.ofWord? w).isNone = false → ∃ l : Logging.Level, w = l.word :=
    fun w hw => by
      obtain ⟨l, hl⟩ := Option.isSome_iff_exists.mp (Option.isNone_eq_false_iff.mp hw)
      exact ⟨l, Logging.Level.eq_word hl⟩
  rw [LoggingSettings.problem?] at h
  split_ifs at h with hlevel hformat houtput
  rw [Bool.not_eq_true] at hlevel hformat houtput
  rw [Option.map_eq_none_iff, List.find?_eq_none] at h
  exact ⟨hword _ hlevel, Option.isSome_iff_exists.mp (Option.isNone_eq_false_iff.mp hformat),
    Option.isSome_iff_exists.mp (Option.isNone_eq_false_iff.mp houtput),
    fun m hm => hword _ (Bool.eq_false_of_not_eq_true (h m hm))⟩

namespace Logging

/-- Every directive is read, or the set-up fails at the first one that is not. -/
lemma moduleDirectives_cases (modules : List (String × String)) :
    (∃ ds, moduleDirectives modules = .ok ds
        ∧ ∀ m ∈ modules, ∃ d, Directive.ofModule m.1 m.2 = .ok d)
      ∨ ∃ e, moduleDirectives modules = .error (.badDirective e)
        ∧ ∃ m ∈ modules, Directive.ofModule m.1 m.2 = .error e := by
  induction modules with
  | nil => exact .inl ⟨[], rfl, nofun⟩
  | cons m modules ih =>
      have hcons : moduleDirectives (m :: modules)
          = ((Directive.ofModule m.1 m.2).mapError .badDirective).bind fun d =>
              (moduleDirectives modules).map (d :: ·) := by
        rw [moduleDirectives, List.mapM_cons]
        rfl
      cases hm : Directive.ofModule m.1 m.2 with
      | error e =>
          refine .inr ⟨e, ?_, m, List.mem_cons_self, hm⟩
          rw [hcons, hm]
          rfl
      | ok d =>
          rcases ih with ⟨ds, hds, hall⟩ | ⟨e, he, m', hm', hbad⟩
          · refine .inl ⟨d :: ds, ?_, List.forall_mem_cons.mpr ⟨⟨d, hm⟩, hall⟩⟩
            rw [hcons, hm, hds]
            rfl
          · refine .inr ⟨e, ?_, m', List.mem_cons_of_mem _ hm', hbad⟩
            rw [hcons, hm, he]
            rfl

/-- No variable of the environment speaks about the log. -/
def Silent (h : Host) : Prop :=
  ∀ name ∈ ["SNAPSHOTS_LOG", "SNAPSHOTS_LOG_MODULES", "SNAPSHOTS_LOG_FORMAT", "SNAPSHOTS_LOG_OUTPUT"],
    h.environmentValue? name = none

namespace Request

variable {r : Request} {h h' : Host}

/-- The log file can be made, with its directory, and opened. -/
def Opens (r : Request) (h h' : Host) : Prop :=
  ∃ made, r.makeDirectory h = (.ok (), made) ∧ r.openFile made = .ok h'

section Silent

variable (hsilent : Silent h)
include hsilent

/-- Without variables the level and the parts are those of the request. -/
lemma filter_of_silent (r : Request) : r.filter h
    = if r.level = "off" then .ok (directivesAmong r.level)
      else (moduleDirectives r.modules).map (directivesAmong r.level ++ ·) := by
  have hlog : h.environmentValue? "SNAPSHOTS_LOG" = none := hsilent _ (by simp)
  have hmodules : h.environmentValue? "SNAPSHOTS_LOG_MODULES" = none := hsilent _ (by simp)
  have hnone : moduleDirectives (moduleLevels "") = .ok [] := by rfl
  rw [filter, replacement?, hlog, hmodules]
  by_cases hoff : r.level = "off"
  · simp [hoff, pure, Except.pure]
  · cases moduleDirectives r.modules with
    | error e => simp [hoff, bind, Except.bind, Except.map]
    | ok ds => simp [hoff, hnone, bind, Except.bind, Except.map, pure, Except.pure]

lemma lineFormat_of_silent {f : Format} (hformat : Format.ofWord? r.format = some f) :
    r.lineFormat h = .ok f := by
  rw [lineFormat, hsilent "SNAPSHOTS_LOG_FORMAT" (by simp), Option.bind_none, hformat]

lemma place_of_silent {o : Output} (houtput : Output.ofWord? r.output = some o) :
    r.place h = .ok o := by
  rw [place, hsilent "SNAPSHOTS_LOG_OUTPUT" (by simp), Option.getD_none, houtput]

end Silent

/-- The file is the only place that has to be opened. -/
lemma output_eq_file {w : String} : Output.ofWord? w = some .file ↔ w = "file" := by
  rw [Output.ofWord?]
  split_ifs with hstdout hstderr hfile <;> simp_all

/-- A set-up with a filter, a format and a place is done once the file is open. -/
lemma install_ok {ds : List Directive} {f : Format} {o : Output} (hfilter : r.filter h = .ok ds)
    (hformat : r.lineFormat h = .ok f) (hplace : r.place h = .ok o)
    (hopens : o = .file → r.Opens h h') :
    r.install h = (.ok ⟨ds, f, o⟩, if o = .file then h' else h) := by
  rw [install, hfilter, hformat, hplace]
  cases o with
  | stdout => rfl
  | stderr => rfl
  | file =>
      obtain ⟨made, hmade, hopen⟩ := hopens rfl
      simp only [hmade, hopen, if_true]

lemma install_error {e : SetupError} (hfilter : r.filter h = .error e) :
    r.install h = (.error e, h) := by
  rw [install, hfilter]

end Request

/-- **Settings without a problem can be installed**, if every name of a part is written as a target, a
span, or both, or if nothing is logged at all. With a name that is none, and that has neither fields
nor a blank in front, they cannot, and nothing is changed. -/
theorem install_of_valid {s : LoggingSettings} {h h' : Host} (hvalid : s.problem? = none)
    (hsilent : Silent h) (hopens : s.output = "file" → (Request.ofSettings s).Opens h h') :
    (s.level = "off" ∨ (∀ m ∈ s.modules, Directive.IsPart m.1) →
      ∃ log, (Request.ofSettings s).install h = (.ok log, if s.output = "file" then h' else h)) ∧
    (∀ m ∈ s.modules, s.level ≠ "off" → ¬ Directive.IsPart m.1 → '\x7b' ∉ m.1.toList →
      (∀ c ∈ m.1.toList.head?, Text.isBlank c = false) →
      ∃ e, (Request.ofSettings s).install h = (.error (.badDirective e), h)) := by
  obtain ⟨-, ⟨f, hf⟩, ⟨o, ho⟩, hmodules⟩ := LoggingSettings.valid_of_problem? hvalid
  have hfilter := Request.filter_of_silent hsilent (Request.ofSettings s)
  have hformat := Request.lineFormat_of_silent (r := Request.ofSettings s) hsilent hf
  have hplace := Request.place_of_silent (r := Request.ofSettings s) hsilent ho
  have hfile : o = .file ↔ s.output = "file" := by
    rw [← Request.output_eq_file, ho, Option.some.injEq]
  constructor
  · intro hnames
    have hread : ∃ ds, (Request.ofSettings s).filter h = .ok ds := by
      rw [hfilter]
      by_cases hoff : (Request.ofSettings s).level = "off"
      · exact ⟨_, if_pos hoff⟩
      · rw [if_neg hoff]
        rcases moduleDirectives_cases (Request.ofSettings s).modules with ⟨ds, hds, -⟩ | ⟨e, -, m, hm, hbad⟩
        · exact ⟨_, by rw [hds]; rfl⟩
        · exfalso
          obtain ⟨target, span, hpart⟩ := hnames.resolve_left hoff m hm
          obtain ⟨l, hl⟩ := hmodules m hm
          rw [hl, Directive.ofModule_of_namesPart hpart l] at hbad
          cases hbad
    obtain ⟨ds, hds⟩ := hread
    refine ⟨⟨ds, f, o⟩, ?_⟩
    rw [Request.install_ok hds hformat hplace fun hfile' => hopens (hfile.mp hfile')]
    exact congrArg (Prod.mk _) (if_congr hfile rfl rfl)
  · intro m hm hoff hname hbrace hblank
    rcases moduleDirectives_cases s.modules with ⟨ds, -, hall⟩ | ⟨e, he, -⟩
    · exfalso
      obtain ⟨d, hd⟩ := hall m hm
      obtain ⟨l, hl⟩ := hmodules m hm
      rw [hl] at hd
      exact hname (Directive.isPart_of_ofModule hblank hbrace hd)
    · refine ⟨e, Request.install_error ?_⟩
      have hoff' : ¬ (Request.ofSettings s).level = "off" := hoff
      have he' : moduleDirectives (Request.ofSettings s).modules = .error (.badDirective e) := he
      rw [hfilter, if_neg hoff', he']
      rfl

/-- Settings that log to the file `/log`, with a level for one part. -/
def oneModule (name : String) : LoggingSettings :=
  { LoggingSettings.standard with output := "file", file := "/log", modules := [(name, "debug")] }

/-- A machine without files and variables. -/
def emptyMachine : Host := ⟨⟨[], []⟩, [], ⟨0, 0⟩, []⟩

/-- A part can be named by a path of modules; two names in one are none. -/
theorem install_oneModule : ∃ h',
    (∃ log, (Request.ofSettings (oneModule "sled::tree")).install emptyMachine = (.ok log, h'))
      ∧ (oneModule "hyper,sled").problem? = none
      ∧ ∃ e, (Request.ofSettings (oneModule "hyper,sled")).install emptyMachine
        = (.error (.badDirective e), emptyMachine) := by
  have hsilent : Silent emptyMachine := by
    intro name _
    rfl
  -- the name of the part matters neither to the directory nor to the file of the log
  obtain ⟨h', hopens⟩ : ∃ h', ∀ name, (Request.ofSettings (oneModule name)).Opens emptyMachine h' := by
    let r := Request.ofSettings (oneModule "")
    have hmade : (r.makeDirectory emptyMachine).1.isOk = true := by decide +kernel
    have hopen : (r.openFile (r.makeDirectory emptyMachine).2).isOk = true := by decide +kernel
    cases hm : r.makeDirectory emptyMachine with
    | mk result made =>
        cases result with
        | error e => simp [hm, Except.isOk, Except.toBool] at hmade
        | ok u =>
            cases ho : r.openFile made with
            | error e => simp [hm, ho, Except.isOk, Except.toBool] at hopen
            | ok h' => exact ⟨h', fun _ => ⟨made, hm, ho⟩⟩
  have hread := install_of_valid (s := oneModule "sled::tree") (by decide) hsilent fun _ => hopens _
  have hunread := install_of_valid (s := oneModule "hyper,sled") (by decide) hsilent fun _ => hopens _
  have hpart : Directive.IsPart "sled::tree" :=
    ⟨"sled::tree".toList, none, by decide, by decide, by simp [Text.isBlank],
      by simpa using (by decide +kernel : Directive.isStart 's' = true), by simp, nofun⟩
  have hnone : ¬ Directive.IsPart "hyper,sled" := by
    rintro ⟨target, span, hname⟩
    have hok := Directive.ofModule_of_namesPart hname .debug
    have herror : Directive.ofModule "hyper,sled" Level.debug.word = .error .malformed := by
      decide +kernel
    rw [herror] at hok
    cases hok
  refine ⟨h', hread.1 (.inr fun m hm => ?_), by decide, hunread.2 ("hyper,sled", "debug") (by decide)
    (by decide) hnone (by decide) (by simp [Text.isBlank])⟩
  obtain rfl := List.mem_singleton.mp hm
  exact hpart

end Logging

end TreeDigest

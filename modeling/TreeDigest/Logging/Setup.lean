import TreeDigest.Logging.Directive
import TreeDigest.Settings.Basic
import TreeDigest.Host

/-!
Setting up the log.

What is asked for is settled in turn: the lines that are let through, their format,
the place where they go, and the file they are appended to, which is made with its
parents. The first thing that is wrong ends the set-up, so nothing is made when the
format or the place is refused.

Environment variables go before the settings. `SNAPSHOTS_LOG` replaces the level and
the parts, unless it is malformed, when it counts for nothing; `SNAPSHOTS_LOG_MODULES`
adds parts; `SNAPSHOTS_LOG_FORMAT` counts only if it is a format, but
`SNAPSHOTS_LOG_OUTPUT` has to be a place.

* `Request.filter` is the list of directives, and `Request.install` the whole set-up.
-/

namespace TreeDigest.Logging

/-- What is asked of the log. -/
structure Request where
  level : String
  format : String
  output : String
  file : Path
  modules : List (String × String)
  deriving DecidableEq

/-- The request that settings make. -/
def Request.ofSettings (s : LoggingSettings) : Request :=
  ⟨s.level, s.format, s.output, .ofText s.file, s.modules⟩

/-- The request where nothing is asked. -/
def Request.standard : Request := .ofSettings .standard

/-- Why the log cannot be set up. -/
inductive SetupError where
  | badDirective (e : DirectiveError)
  | badFormat (format : String)
  | badOutput (output : String)
  | noDirectory (e : IoError)
  | noFile (file : Path) (e : IoError)
  deriving DecidableEq

/-- The wording of a failure. -/
def SetupError.message : SetupError → String
  | .badDirective e => "Invalid log directive: " ++ e.message
  | .badFormat format => Logging.badFormat format
  | .badOutput output => Logging.badOutput output
  | .noDirectory e => "Failed to create log directory: " ++ e.message
  | .noFile file e => s!"Failed to open log file {Text.Quoted.bytes file.bytes}: {e.message}"

/-- A log that is set up. -/
structure Log where
  filter : List Directive
  format : Format
  output : Output
  deriving DecidableEq

/-! ### Which lines are let through -/

/-- The parts of a list of directives that are not empty. -/
def listed (s : String) : List String := (Text.split ',' s).filter (· ≠ "")

/-- The directives that a list spells, if it has no other parts. -/
def directives? (s : String) : Option (List Directive) :=
  (listed s).mapM fun part => (Directive.parse part).toOption

/-- The directives among the parts of a list. -/
def directivesAmong (s : String) : List Directive :=
  (listed s).filterMap fun part => (Directive.parse part).toOption

/-- What is said about the parts of a list that are no directives. -/
def remarksOn (s : String) : List String :=
  (listed s).filterMap fun part => match Directive.parse part with
    | .ok _ => none
    | .error e => some s!"ignoring \x60{part}\x60: {e.message}"

/-- The parts of the program and the words for their levels that a list gives; what
has no equals sign does not count. -/
def moduleLevels (s : String) : List (String × String) :=
  (Text.split ',' s).filterMap fun part =>
    (Text.splitOnce '=' part.toList).map fun (name, level) =>
      (Text.trim (.ofList name), Text.trim (.ofList level))

/-- The directives for parts of the program. -/
def moduleDirectives (modules : List (String × String)) : Except SetupError (List Directive) :=
  modules.mapM fun m => (Directive.ofModule m.1 m.2).mapError .badDirective

namespace Request

/-- The directives that the environment puts in place of the level and the parts. -/
def replacement? (h : Host) : Option (List Directive) :=
  (h.environmentValue? "SNAPSHOTS_LOG").bind directives?

/-- The directives in force. -/
def filter (r : Request) (h : Host) : Except SetupError (List Directive) := do
  match replacement? h with
  | some directives => return directives
  | none =>
    if r.level = "off" then return directivesAmong r.level
    let fromSettings ← moduleDirectives r.modules
    let fromVariable ← moduleDirectives (moduleLevels ((h.environmentValue? "SNAPSHOTS_LOG_MODULES").getD ""))
    return directivesAmong r.level ++ fromSettings ++ fromVariable

/-- What is said about a level that is no list of directives, whether or not the
set-up succeeds. -/
def remarks (r : Request) (h : Host) : List String :=
  if (replacement? h).isSome then [] else remarksOn r.level

/-- The format of lines. -/
def lineFormat (r : Request) (h : Host) : Except SetupError Format :=
  match (h.environmentValue? "SNAPSHOTS_LOG_FORMAT").bind Format.ofWord? with
  | some format => .ok format
  | none => match Format.ofWord? r.format with
    | some format => .ok format
    | none => .error (.badFormat r.format)

/-- The place where lines go. -/
def place (r : Request) (h : Host) : Except SetupError Output :=
  let word := (h.environmentValue? "SNAPSHOTS_LOG_OUTPUT").getD r.output
  match Output.ofWord? word with
  | some output => .ok output
  | none => .error (.badOutput word)

/-- Makes the directory of the log file. -/
def makeDirectory (r : Request) (h : Host) : Except IoError Unit × Host :=
  match r.file.parent? with
  | some parent => h.makeDirectories parent
  | none => (.ok (), h)

/-- Opens the log file. -/
def openFile (r : Request) (h : Host) : Except SetupError Host :=
  (h.change fun files => files.openForAppending r.file h.now.toNanos).mapError (.noFile r.file)

/-- Sets the log up. The machine may have new directories even if that fails. -/
def install (r : Request) (h : Host) : Except SetupError Log × Host :=
  match r.filter h, r.lineFormat h, r.place h with
  | .error e, _, _ => (.error e, h)
  | _, .error e, _ => (.error e, h)
  | _, _, .error e => (.error e, h)
  | .ok filter, .ok format, .ok .file =>
    match r.makeDirectory h with
    | (.error e, h) => (.error (.noDirectory e), h)
    | (.ok (), h) => match r.openFile h with
      | .error e => (.error e, h)
      | .ok h => (.ok ⟨filter, format, .file⟩, h)
  | .ok filter, .ok format, .ok output => (.ok ⟨filter, format, output⟩, h)

end Request

end TreeDigest.Logging

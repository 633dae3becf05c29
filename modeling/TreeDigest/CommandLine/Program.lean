import TreeDigest.CommandLine.Run

/-!
The whole program: from the words on its command line to what it prints.

The log is set up before anything else, and only lines asked for with `--verbose` are
let through; without it neither settings nor options of the log count. The settings of
the log come from the same files as all others, with the options laid over them, and a
log file that nobody chose lies among the data of the workspace.

`Program.run` gives what the program leaves: its exit code and the texts on both
outputs. Help and usage are not part of these texts.
-/

namespace TreeDigest.CommandLine

/-- What a program leaves when it ends. -/
structure Exit where
  code : Nat
  stdout : String
  stderr : String
  deriving DecidableEq

namespace UsageError

/-- The exit code for those who are told how to use the program: asking for help is no
failure. -/
def code : UsageError → Nat
  | .help => 0
  | _ => 2

end UsageError

namespace Program

/-- The log settings of the files that a command reads; where these cannot be loaded, the
standard ones. -/
def logSettings (h : Host) (i : Invocation) : LoggingSettings :=
  match Context.loadSettings h i.workspace i.config with
  | .ok settings => settings.logging
  | .error _ => .standard

/-- The file of the log: the one asked for, then the one in the settings, unless it is the
standard one, which stands for a file among the data of the workspace. -/
def logFile (h : Host) (i : Invocation) (setting : String) : Path :=
  let file := Path.ofText setting
  match i.logFile with
  | some file => file
  | none =>
    if file.same (.ofText LoggingSettings.standard.file) then
      match h.workspaceData i.workspace with
      | .ok dir => dir.child "snapshots.log"
      | .error _ => file
    else file

/-- What an invocation asks of the log. -/
def logRequest (h : Host) (i : Invocation) : Logging.Request :=
  if i.verbose then
    let s := logSettings h i
    ⟨i.logLevel.getD s.level, i.logFormat.getD s.format, i.logOutput.getD s.output,
      logFile h i s.file, s.modules⟩
  else { Logging.Request.standard with level := Logging.Level.off.word }

/-- A text as a line. -/
def line (s : String) : String := s ++ "\n"

/-- Texts as lines. -/
def lines (texts : List String) : String := String.join (texts.map line)

/-- The end of a program that failed. -/
def failed (remarks : List String) (reason : String) : Exit := ⟨1, "", lines (remarks ++ [reason])⟩

/-- Runs an invocation. -/
def runInvocation (h : Host) (i : Invocation) : Exit × Host :=
  let request := logRequest h i
  let remarks := request.remarks h
  match request.install h with
  | (.error e, h) =>
    let reason := (Failure.configuration (.log e)).message
    (failed remarks ("Failed to initialize logging: " ++ reason), h)
  | (.ok _, h) =>
    match i.run.run h with
    | (.ok answer, h) => (⟨0, line answer, lines remarks⟩, h)
    | (.error e, h) => (failed remarks e.shown, h)

/-- Runs the program. -/
def run (h : Host) (args : List String) : Exit × Host :=
  match Invocation.parse args with
  | .error e => (⟨e.code, "", ""⟩, h)
  | .ok i => runInvocation h i

end Program

end TreeDigest.CommandLine

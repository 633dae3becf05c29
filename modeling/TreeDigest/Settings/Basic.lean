import TreeDigest.Scan.Basic
import TreeDigest.Logging.Kinds

/-!
The settings of the program and what is wrong with them.

Settings cover scans, the places of workspaces and history, and the log.
`Settings.problems` lists every problem: names to leave out that cannot be entry
names, empty places, and words the log does not know.
-/

namespace TreeDigest

/-- Where workspaces and the history are kept. -/
structure StorageSettings where
  workspacesPath : String
  historyPath : String
  deriving DecidableEq

/-- How the program logs. `modules` gives some parts of the program levels of their
own. -/
structure LoggingSettings where
  level : String
  format : String
  output : String
  file : String
  color : Bool
  modules : List (String × String)
  deriving DecidableEq

/-- All settings. -/
structure Settings where
  scan : ScanOptions
  storage : StorageSettings
  logging : LoggingSettings
  deriving DecidableEq

/-- The places where nothing else is said. -/
def StorageSettings.standard : StorageSettings := ⟨".snapshots/workspaces", ".snapshots/history"⟩

/-- The log where nothing else is said. -/
def LoggingSettings.standard : LoggingSettings :=
  ⟨"info", "text", "stderr", ".snapshots/snapshots.log", true, []⟩

/-- The settings where nothing else is said. -/
def Settings.standard : Settings := ⟨.standard, .standard, .standard⟩

/-! ### Problems -/

/-- A problem of the settings, by the part it lies in. -/
inductive SettingsProblem where
  | emptyPattern
  | patternIsNoName (pattern : String)
  | emptyWorkspacesPath
  | emptyHistoryPath
  | badLevel (level : String)
  | badFormat (format : String)
  | badOutput (output : String)
  | badModuleLevel (module_ level : String)
  deriving DecidableEq

/-- The wording of a problem within its part. -/
def SettingsProblem.detail : SettingsProblem → String
  | .emptyPattern => "Ignore patterns cannot be empty"
  | .patternIsNoName pattern => s!"Ignore pattern '{pattern}' must be a single entry name"
  | .emptyWorkspacesPath => "Workspaces path cannot be empty"
  | .emptyHistoryPath => "History path cannot be empty"
  | .badLevel level => s!"Invalid log level: {level}"
  | .badFormat format => "Configuration error: " ++ Logging.badFormat format
  | .badOutput output => "Configuration error: " ++ Logging.badOutput output
  | .badModuleLevel module_ level => s!"Invalid log level for {module_}: {level}"

/-- The name of the part that a problem lies in. -/
def SettingsProblem.part : SettingsProblem → String
  | .emptyPattern | .patternIsNoName _ => "Snapshot"
  | .emptyWorkspacesPath | .emptyHistoryPath => "Storage"
  | _ => "Logging"

/-- The wording of a problem. -/
def SettingsProblem.message (p : SettingsProblem) : String := p.part ++ ": " ++ p.detail

/-- What is wrong with a name to leave out. -/
def ScanOptions.patternProblem? (pattern : String) : Option SettingsProblem :=
  if pattern = "" then some .emptyPattern
  else if pattern.toList.contains '/' || pattern.toList.contains '\\' then some (.patternIsNoName pattern)
  else none

/-- What is wrong with the places, the first problem. -/
def StorageSettings.problem? (s : StorageSettings) : Option SettingsProblem :=
  if s.workspacesPath = "" then some .emptyWorkspacesPath
  else if s.historyPath = "" then some .emptyHistoryPath
  else none

/-- What is wrong with the log, the first problem. -/
def LoggingSettings.problem? (s : LoggingSettings) : Option SettingsProblem :=
  if (Logging.Level.ofWord? s.level).isNone then some (.badLevel s.level)
  else if (Logging.Format.ofWord? s.format).isNone then some (.badFormat s.format)
  else if (Logging.Output.ofWord? s.output).isNone then some (.badOutput s.output)
  else (s.modules.find? fun m => (Logging.Level.ofWord? m.2).isNone).map
    fun m => .badModuleLevel m.1 m.2

/-- Everything that is wrong with the settings. -/
def Settings.problems (s : Settings) : List SettingsProblem :=
  s.scan.ignore.filterMap ScanOptions.patternProblem? ++ s.storage.problem?.toList
    ++ s.logging.problem?.toList

end TreeDigest

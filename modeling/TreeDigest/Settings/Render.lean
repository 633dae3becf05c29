import TreeDigest.Settings.Json
import TreeDigest.Toml.Writer

/-!
The TOML text of settings.
-/

namespace TreeDigest

/-- The options of a scan as fields. -/
def ScanOptions.toFields (o : ScanOptions) : Toml.Fields :=
  [("follow_symlinks", .boolean o.followLinks), ("ignore_patterns", .array (o.ignore.map .text)),
    ("sorted_walk", .boolean o.sorted), ("empty_directories", .text o.emptyDirectories.word)]

/-- The places as fields. -/
def StorageSettings.toFields (s : StorageSettings) : Toml.Fields :=
  [("workspaces_path", .text s.workspacesPath), ("history_path", .text s.historyPath)]

/-- The log settings as fields. -/
def LoggingSettings.toFields (s : LoggingSettings) : Toml.Fields :=
  [("level", .text s.level), ("format", .text s.format), ("output", .text s.output),
    ("file", .text s.file), ("color", .boolean s.color),
    ("modules", .table (s.modules.map fun m => (m.1, .text m.2)))]

/-- Settings as the fields of a document. -/
def Settings.toFields (s : Settings) : Toml.Fields :=
  [("snapshot", .table s.scan.toFields), ("storage", .table s.storage.toFields),
    ("logging", .table s.logging.toFields)]

/-- The TOML text of settings. -/
def Settings.toToml (s : Settings) : String := Toml.render s.toFields

end TreeDigest

import TreeDigest.Settings.Basic
import TreeDigest.Json.Reader

/-!
The JSON form of settings.

Written, every field is there. Read, fields may be missing and others may stand
beside them, but a field that is there has to have its type; a part may also be
given as a list of its fields in order.
-/

namespace TreeDigest

namespace EmptyDirectories

/-- The word for a treatment of empty directories. -/
def word : EmptyDirectories → String
  | .included => "include_empty_dirs"
  | .excluded => "exclude_empty_dirs"

/-- The treatment with the given word. -/
def ofWord? (s : String) : Option EmptyDirectories :=
  if s = word .included then some .included
  else if s = word .excluded then some .excluded
  else none

end EmptyDirectories

namespace Json

/-- A list of strings. -/
def ofTexts (xs : List String) : Json := .array (xs.map .string)

/-- The value as a truth value. -/
def boolean? : Json → Option Bool
  | .boolean b => some b
  | _ => none

/-- The value as a string. -/
def text? : Json → Option String
  | .string s => some s
  | _ => none

/-- The value as a list of strings. -/
def texts? : Json → Option (List String)
  | .array items => items.mapM text?
  | _ => none

/-- The value as a table of strings; of two fields with one key the last counts. -/
def textTable? : Json → Option (List (String × String))
  | .object fields =>
    let last := fields.foldl (fun (done : List (String × Json)) f =>
      if done.any (·.1 == f.1) then done.map fun d => if d.1 == f.1 then f else d else done ++ [f]) []
    last.mapM fun f => f.2.text?.map fun s => (f.1, s)
  | _ => none

/-- The value as a treatment of empty directories: its word, alone or as the only
key of an object. -/
def emptyDirectories? : Json → Option EmptyDirectories
  | .string s => EmptyDirectories.ofWord? s
  | .object [(key, .null)] => EmptyDirectories.ofWord? key
  | _ => none

/-- The fields of a part, by their keys or by their order. -/
def part? (keys : List String) : Json → Option (List (Option Json))
  | .object fields => some (keys.map fun key => (Json.object fields).field? key)
  | .array items =>
    if keys.length < items.length then none
    else some (items.map some ++ List.replicate (keys.length - items.length) none)
  | _ => none

/-- A field that may be missing. -/
def fieldOr {α : Type} (read : Json → Option α) (standard : α) : Option Json → Option α
  | none => some standard
  | some json => read json

end Json

/-! ### Scans -/

namespace ScanOptions

/-- The JSON form of the options of a scan. -/
def toJson (o : ScanOptions) : Json :=
  .sortedObject [("follow_symlinks", .boolean o.followLinks), ("ignore_patterns", .ofTexts o.ignore),
    ("sorted_walk", .boolean o.sorted), ("empty_directories", .string o.emptyDirectories.word)]

/-- The options that a value describes. -/
def ofJson? (json : Json) : Option ScanOptions := do
  match ← json.part? ["follow_symlinks", "ignore_patterns", "sorted_walk", "empty_directories"] with
  | [follow, ignore, sorted, empty] =>
    return ⟨← Json.fieldOr Json.boolean? false follow, ← Json.fieldOr Json.texts? [".git"] ignore,
      ← Json.fieldOr Json.boolean? true sorted,
      ← Json.fieldOr Json.emptyDirectories? .included empty⟩
  | _ => none

end ScanOptions

/-! ### Places -/

namespace StorageSettings

/-- The JSON form of the places. -/
def toJson (s : StorageSettings) : Json :=
  .sortedObject [("workspaces_path", .string s.workspacesPath), ("history_path", .string s.historyPath)]

/-- The places that a value describes. -/
def ofJson? (json : Json) : Option StorageSettings := do
  match ← json.part? ["workspaces_path", "history_path"] with
  | [workspaces, history] =>
    return ⟨← Json.fieldOr Json.text? standard.workspacesPath workspaces,
      ← Json.fieldOr Json.text? standard.historyPath history⟩
  | _ => none

end StorageSettings

/-! ### The log -/

namespace LoggingSettings

/-- The JSON form of the log settings. -/
def toJson (s : LoggingSettings) : Json :=
  .sortedObject [("level", .string s.level), ("format", .string s.format), ("output", .string s.output),
    ("file", .string s.file), ("color", .boolean s.color),
    ("modules", .sortedObject (s.modules.map fun m => (m.1, .string m.2)))]

/-- The log settings that a value describes. -/
def ofJson? (json : Json) : Option LoggingSettings := do
  match ← json.part? ["level", "format", "output", "file", "color", "modules"] with
  | [level, format, output, file, color, modules] =>
    return ⟨← Json.fieldOr Json.text? standard.level level, ← Json.fieldOr Json.text? standard.format format,
      ← Json.fieldOr Json.text? standard.output output, ← Json.fieldOr Json.text? standard.file file,
      ← Json.fieldOr Json.boolean? standard.color color,
      ← Json.fieldOr Json.textTable? standard.modules modules⟩
  | _ => none

end LoggingSettings

/-! ### All settings -/

namespace Settings

/-- The JSON form of settings. -/
def toJson (s : Settings) : Json :=
  .sortedObject [("snapshot", s.scan.toJson), ("storage", s.storage.toJson), ("logging", s.logging.toJson)]

/-- The settings that a value describes. -/
def ofJson? (json : Json) : Option Settings := do
  match ← json.part? ["snapshot", "storage", "logging"] with
  | [scan, storage, logging] =>
    return ⟨← Json.fieldOr ScanOptions.ofJson? .standard scan,
      ← Json.fieldOr StorageSettings.ofJson? .standard storage,
      ← Json.fieldOr LoggingSettings.ofJson? .standard logging⟩
  | _ => none

end Settings

end TreeDigest

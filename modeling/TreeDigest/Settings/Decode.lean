import TreeDigest.Settings.Json
import TreeDigest.Settings.Layer
import TreeDigest.Text.Quoted

/-!
Giving types to layered settings.

Truth values may also be numbers or one of eight words, and strings may also be
truth values or numbers. Lists, tables and whole parts have to be what they are; a
part may be given as a list of its fields in order.

* `LoadError` lists why settings cannot be loaded.
* `Settings.ofLayers` gives the settings of a merged layer.
-/

namespace TreeDigest

/-- The formats of settings files. -/
inductive FileFormat where
  | toml
  | json
  | other (name : String)
  deriving DecidableEq

/-- Why settings cannot be loaded. -/
inductive LoadError where
  | noCurrentDirectory (e : IoError)
  | fileNotFound (name : String)
  | unknownFormat (path : String)
  | notText
  | unreadable (e : IoError)
  | malformed (format : FileFormat) (origin : String)
  /-- A position in a list is counted from its end, and the list is too short. -/
  | beforeStart
  /-- A file holds one value that is no table. -/
  | wrongRoot (origin found : String)
  /-- A plain value cannot be read as the type of its key. -/
  | wrongScalar (origin : Option String) (found expected : String) (key : Option String)
  /-- A value is not what the whole setting has to be. -/
  | wrongShape (found expected : String)
  | unknownWord (kind word : String)
  | wordExpected (kind : String)
  | reported (text : String)
  deriving DecidableEq

namespace LoadError

/-- The wording of a failure. -/
def message : LoadError → String
  | .noCurrentDirectory e => e.message
  | .fileNotFound name => s!"configuration file \"{name}\" not found"
  | .unknownFormat path => s!"configuration file \"{path}\" is not of a registered file format"
  | .notText => "stream did not contain valid UTF-8"
  | .unreadable e => e.message
  | .malformed .toml origin => s!"TOML parse error in {origin}"
  | .malformed _ origin => s!"malformed content in {origin}"
  | .beforeStart => "attempt to subtract with overflow"
  | .wrongRoot origin found => s!"invalid type: {found}, expected a map in {origin} in {origin}"
  | .wrongScalar origin found expected key =>
    let place := match key with
      | some key => s!" for key \x60{key}\x60"
      | none => ""
    let source := match origin with
      | some origin => s!" in {origin}"
      | none => ""
    s!"invalid type: {found}, expected {expected}" ++ place ++ source
  | .wrongShape found expected => s!"invalid type: {found}, expected {expected}"
  | .unknownWord kind word => s!"enum {kind} does not have variant constructor {word}"
  | .wordExpected kind =>
    s!"value of enum {kind} should be represented by either string or table with exactly one key"
  | .reported text => text

/-- Puts a part of a key in front of the key that an error tells. -/
def below (segment : String) : LoadError → LoadError
  | .wrongScalar origin found expected key =>
    let rest := key.getD ""
    let separator := match rest.toList.head? with
      | none | some '[' => ""
      | some _ => "."
    .wrongScalar origin found expected (some (segment ++ separator ++ rest))
  | e => e

end LoadError

namespace LayerValue

/-- What is found where a scalar of some type should be. -/
def described : LayerValue → String
  | .scalar _ .nil => "unit value"
  | .scalar _ (.boolean b) => s!"boolean \x60{b}\x60"
  | .scalar _ (.integer n) => s!"integer \x60{n}\x60"
  | .scalar _ (.float x) => s!"floating point \x60{x.pointedText}\x60"
  | .scalar _ (.text s) => "string " ++ Text.Quoted.text s
  | .list _ _ => "sequence"
  | .table _ _ => "map"

/-- The refusal of a value that is no scalar of the expected type. -/
def refuse {α : Type} (v : LayerValue) (found expected : String) : Except LoadError α :=
  .error (.wrongScalar v.origin found expected none)

/-- The value as a truth value. -/
def asBoolean (v : LayerValue) : Except LoadError Bool :=
  match v with
  | .scalar _ (.boolean b) => .ok b
  | .scalar _ (.integer n) => .ok (n != 0)
  | .scalar _ (.float x) => .ok (!x.isZero)
  | .scalar _ (.text s) =>
    let word := Text.lowercase s
    if ["1", "true", "on", "yes"].contains word then .ok true
    else if ["0", "false", "off", "no"].contains word then .ok false
    else v.refuse ("string " ++ Text.Quoted.text word) "a boolean"
  | _ => v.refuse v.described "a boolean"

/-- The value as a string. -/
def asText (v : LayerValue) : Except LoadError String :=
  match v with
  | .scalar _ (.text s) => .ok s
  | .scalar _ (.boolean b) => .ok (if b then "true" else "false")
  | .scalar _ (.integer n) => .ok (.ofList (Json.integerChars n))
  | .scalar _ (.float x) => .ok x.text
  | _ => v.refuse v.described "a string"

/-- The name of an item in the key that an error tells. -/
def itemKey (index : Nat) : String := s!"[{index}]"

/-- The strings of a list whose first item has the given index. -/
def textsFrom (index : Nat) : List LayerValue → Except LoadError (List String)
  | [] => .ok []
  | item :: rest => do
    let s ← item.asText.mapError (·.below (itemKey index))
    return s :: (← textsFrom (index + 1) rest)

/-- The value as a list of strings. -/
def asTexts : LayerValue → Except LoadError (List String)
  | .list _ items => textsFrom 0 items
  | v => .error (.wrongShape v.described "a sequence")

/-- The strings of a table. -/
def textFields : List (String × LayerValue) → Except LoadError (List (String × String))
  | [] => .ok []
  | (key, value) :: rest => do
    let s ← value.asText.mapError (·.below key)
    return (key, s) :: (← textFields rest)

/-- The value as a table of strings. -/
def asTextTable : LayerValue → Except LoadError (List (String × String))
  | .table _ fields => textFields fields
  | v => .error (.wrongShape v.described "a map")

/-- The treatment of empty directories that a word names in any case. -/
def emptyDirectoriesWord (s : String) : Except LoadError EmptyDirectories :=
  match EmptyDirectories.ofWord? (Text.lowercase s) with
  | some e => .ok e
  | none => .error (.unknownWord "EmptyDirectoryHandling" s)

/-- The value as a treatment of empty directories: a word, or a table with that word
as its only key. -/
def asEmptyDirectories : LayerValue → Except LoadError EmptyDirectories
  | .scalar _ (.text s) => emptyDirectoriesWord s
  | .table _ [(key, _)] => emptyDirectoriesWord key
  | _ => .error (.wordExpected "EmptyDirectoryHandling")

/-! ### Parts -/

/-- The fields of a part, each with its name in errors: by their keys, or by their
order in a list. -/
def part (name : String) (keys : List String) :
    LayerValue → Except LoadError (List (Option (String × LayerValue)))
  | .table _ fields => .ok (keys.map fun key => (fields.lookup key).map fun v => (key, v))
  | .list _ items =>
    let given := (items.take keys.length).mapIdx fun i v => some (itemKey i, v)
    .ok (given ++ List.replicate (keys.length - given.length) none)
  | v => .error (.wrongShape v.described ("struct " ++ name))

/-- A field that may be missing. -/
def fieldOr {α : Type} (read : LayerValue → Except LoadError α) (standard : α) :
    Option (String × LayerValue) → Except LoadError α
  | none => .ok standard
  | some (key, v) => (read v).mapError (·.below key)

end LayerValue

/-- The options of a scan in a merged layer. -/
def ScanOptions.ofLayers (v : LayerValue) : Except LoadError ScanOptions := do
  match ← v.part "WalkerConfig" ["follow_symlinks", "ignore_patterns", "sorted_walk", "empty_directories"] with
  | [follow, ignore, sorted, empty] =>
    return ⟨← LayerValue.fieldOr LayerValue.asBoolean false follow,
      ← LayerValue.fieldOr LayerValue.asTexts [".git"] ignore,
      ← LayerValue.fieldOr LayerValue.asBoolean true sorted,
      ← LayerValue.fieldOr LayerValue.asEmptyDirectories .included empty⟩
  | _ => return .standard

/-- The places in a merged layer. -/
def StorageSettings.ofLayers (v : LayerValue) : Except LoadError StorageSettings := do
  match ← v.part "StorageConfig" ["workspaces_path", "history_path"] with
  | [workspaces, history] =>
    return ⟨← LayerValue.fieldOr LayerValue.asText standard.workspacesPath workspaces,
      ← LayerValue.fieldOr LayerValue.asText standard.historyPath history⟩
  | _ => return .standard

/-- The log settings in a merged layer. -/
def LoggingSettings.ofLayers (v : LayerValue) : Except LoadError LoggingSettings := do
  match ← v.part "LoggingConfig" ["level", "format", "output", "file", "color", "modules"] with
  | [level, format, output, file, color, modules] =>
    return ⟨← LayerValue.fieldOr LayerValue.asText standard.level level,
      ← LayerValue.fieldOr LayerValue.asText standard.format format,
      ← LayerValue.fieldOr LayerValue.asText standard.output output,
      ← LayerValue.fieldOr LayerValue.asText standard.file file,
      ← LayerValue.fieldOr LayerValue.asBoolean standard.color color,
      ← LayerValue.fieldOr LayerValue.asTextTable standard.modules modules⟩
  | _ => return .standard

/-- The settings in a merged layer. -/
def Settings.ofLayers (v : LayerValue) : Except LoadError Settings := do
  match ← v.part "SnapshotsConfig" ["snapshot", "storage", "logging"] with
  | [scan, storage, logging] =>
    return ⟨← LayerValue.fieldOr ScanOptions.ofLayers .standard scan,
      ← LayerValue.fieldOr StorageSettings.ofLayers .standard storage,
      ← LayerValue.fieldOr LoggingSettings.ofLayers .standard logging⟩
  | _ => return .standard

end TreeDigest

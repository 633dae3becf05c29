import TreeDigest.Decimal.Signed64
import TreeDigest.Settings.Decode
import TreeDigest.Settings.Places
import TreeDigest.Toml.Reader

/-!
Where settings come from.

The standard settings are covered by the global file, by the two files of the
workspace, and by the environment, in this order; or by one file that was asked for,
and the environment. A file of the standard row that cannot be read counts as absent,
but one that is malformed is an error. A file that was asked for has to be there.

The format of a file goes by its extension. A name without a file of that name stands
for the file with an extension after it.

Environment variables that start with `SNAPSHOTS__` set the key that their name spells
with dots in place of double underscores. Their text is read as a truth value or a
number where it spells one.

* `Settings.load` and `Settings.loadFile` take the keys of every layer in the order in which
  they are given.
* `Settings.Source.MayLoad` is what loading may come to with the keys in any order.
-/

namespace TreeDigest

namespace FileFormat

/-- The formats and their extensions. -/
def registered : List (String × FileFormat) :=
  [("toml", .toml), ("json", .json), ("yaml", .other "yaml"), ("yml", .other "yaml"),
    ("ini", .other "ini"), ("ron", .other "ron"), ("json5", .other "json5")]

/-- The format of a file name. -/
def ofPath? (p : Path) : Option FileFormat := do
  registered.lookup (Text.lossy (← p.extension?))

end FileFormat

/-! ### Files -/

mutual
/-- A value of a TOML file. -/
def LayerValue.ofToml (origin : String) : Toml.Value → LayerValue
  | .text s => .scalar (some origin) (.text s)
  | .integer n => .scalar (some origin) (.integer n)
  | .float x => .scalar (some origin) (.float x)
  | .boolean b => .scalar (some origin) (.boolean b)
  | .moment s => .scalar (some origin) (.text s)
  | .array items => .list (some origin) (LayerValue.ofTomlItems origin items)
  | .table fields => .table (some origin) (LayerValue.ofTomlFields origin fields)

/-- The items of a list in a TOML file. -/
def LayerValue.ofTomlItems (origin : String) : List Toml.Value → List LayerValue
  | [] => []
  | item :: rest => LayerValue.ofToml origin item :: LayerValue.ofTomlItems origin rest

/-- The fields of a table in a TOML file. -/
def LayerValue.ofTomlFields (origin : String) : List (String × Toml.Value) → List (String × LayerValue)
  | [] => []
  | (key, value) :: rest => (key, LayerValue.ofToml origin value) :: LayerValue.ofTomlFields origin rest
end

/-- A number of a JSON file: one that does not fit sixty-four bits with a sign has a
floating point. -/
def Scalar.ofInteger (n : Int) : Scalar :=
  if Signed64.fits n then .integer n else .float (.ofDecimal (n < 0) n.natAbs 0)

mutual
/-- A value of a JSON file. -/
def LayerValue.ofJson (origin : String) : Json → LayerValue
  | .null => .scalar (some origin) .nil
  | .boolean b => .scalar (some origin) (.boolean b)
  | .integer n => .scalar (some origin) (.ofInteger n)
  | .decimal negative digits exponent =>
    .scalar (some origin) (.float (.ofDecimal negative digits exponent))
  | .string s => .scalar (some origin) (.text s)
  | .array items => .list (some origin) (LayerValue.ofJsonItems origin items)
  | .object fields => .table (some origin) (LayerValue.ofJsonFields origin fields)

/-- The items of a list in a JSON file. -/
def LayerValue.ofJsonItems (origin : String) : List Json → List LayerValue
  | [] => []
  | item :: rest => LayerValue.ofJson origin item :: LayerValue.ofJsonItems origin rest

/-- The fields of an object in a JSON file. -/
def LayerValue.ofJsonFields (origin : String) : List (String × Json) → List (String × LayerValue)
  | [] => []
  | (key, value) :: rest => (key, LayerValue.ofJson origin value) :: LayerValue.ofJsonFields origin rest
end

/-- A layer: the keys at its top and their values. -/
abbrev Layer := List (String × LayerValue)

namespace Layer

/-- The layer that the text of a file spells. -/
def parse (format : FileFormat) (origin text : String) : Except LoadError Layer :=
  match format with
  | .toml => match Toml.parse? text with
    | some fields => .ok (LayerValue.ofTomlFields origin fields)
    | none => .error (.malformed format origin)
  | .json => match Json.parse? text with
    | some (.object fields) => .ok (LayerValue.ofJsonFields origin fields)
    | some value => .error (.wrongRoot origin (LayerValue.ofJson origin value).described)
    | none => .error (.malformed format origin)
  | .other _ => .error (.malformed format origin)

/-- The file that a name stands for, and its format. -/
def findFile (files : FileSystem) (current name : Path) : Except LoadError (Path × FileFormat) :=
  let full := current.join name
  if files.isFile full then
    match FileFormat.ofPath? full with
    | some format => .ok (full, format)
    | none => .error (.unknownFormat full.display)
  else
    let candidates := FileFormat.registered.map fun r => (full.addExtension r.1, r.2)
    match candidates.find? fun c => files.isFile c.1 with
    | some found => .ok found
    | none => .error (.fileNotFound name.display)

/-- The text of the file that a name stands for, its format, and its path from the
current directory. -/
def resolveFile (files : FileSystem) (name : Path) : Except LoadError (FileFormat × String × String) := do
  let current ← files.currentPath.mapError .noCurrentDirectory
  let (path, format) ← findFile files current name
  let bytes ← (files.read path).mapError .unreadable
  match Text.decode bytes with
  | .error _ => throw .notText
  | .ok text =>
    let origin := Path.ofComponents (Path.fromTo current.components path.components)
    return (format, origin.display, text)

/-- The layer of a file. One that is not required counts as empty if it cannot be
read. -/
def ofFile (files : FileSystem) (required : Bool) (name : Path) : Except LoadError Layer :=
  match resolveFile files name with
  | .ok (format, origin, text) => parse format origin text
  | .error e => if required then .error e else .ok []

/-! ### The environment -/

/-- The start of the names of variables that set keys, in lower case. -/
def variableStart : String := "snapshots__"

/-- Puts a dot in place of every two underscores. -/
def dotted : List Char → List Char
  | '_' :: '_' :: rest => '.' :: dotted rest
  | c :: rest => c :: dotted rest
  | [] => []

/-- The whole number that a text spells, if it fits sixty-four bits with a sign. -/
def wholeNumber? (cs : List Char) : Option Int :=
  let (negative, ds) : Bool × List Char := match cs with
    | '-' :: rest => (true, rest)
    | '+' :: rest => (false, rest)
    | _ => (false, cs)
  if ds.isEmpty || !ds.all Char.isDigit then none
  else
    Signed64.check? (if negative then -(Json.digitsValue ds : Int) else Json.digitsValue ds)

/-- The value that the text of a variable spells. -/
def scalarOf (text : String) : Scalar :=
  let word := Text.lowercase text
  if word = "true" then .boolean true
  else if word = "false" then .boolean false
  else match wholeNumber? text.toList with
    | some n => .integer n
    | none => match Binary64.parse? text with
      | some x => .float x
      | none => .text text

/-- The key and the value that a variable sets. -/
def ofVariable? (name text : String) : Option (String × LayerValue) :=
  (Text.dropStart? variableStart.toList (Text.lowercase name).toList).map fun rest =>
    (.ofList (dotted rest), .scalar (some "the environment") (scalarOf text))

/-- The layer of the environment. -/
def ofEnvironment (h : Host) : Layer := h.environment.filterMap fun v => ofVariable? v.1 v.2

/-- The layer below all others. -/
def standard : Layer :=
  [("snapshot.follow_symlinks", .scalar none (.boolean false)),
    ("snapshot.sorted_walk", .scalar none (.boolean true)),
    ("snapshot.empty_directories", .scalar none (.text "include_empty_dirs")),
    ("storage.workspaces_path", .scalar none (.text ".snapshots/workspaces")),
    ("storage.history_path", .scalar none (.text ".snapshots/history")),
    ("logging.level", .scalar none (.text "info"))]

/-- All layers laid one over the other. -/
def merge (layers : List Layer) : Option LayerValue := layers.foldlM LayerValue.cover .emptyTable

/-- Layers in the same row, each with its keys in another order. -/
inductive AllReordered : List Layer → List Layer → Prop where
  | nil : AllReordered [] []
  | cons {layer layer' : Layer} {layers layers' : List Layer} :
      Layer.Reordered layer layer' → AllReordered layers layers' →
      AllReordered (layer :: layers) (layer' :: layers')

end Layer

/-! ### Loading -/

namespace Settings

/-- The files of the standard row that are there. -/
def standardFiles (h : Host) (workspace : Path) : List Path :=
  let directory := workspace.child "config"
  let environment := (h.environmentValue? "SNAPSHOTS_ENV").getD "development"
  let globalFile := h.globalSettingsFile?.toList.filterMap fun p =>
    if h.files.pathExists p then some ((h.files.canonicalize p).toOption.getD p) else none
  globalFile ++ [directory.child "config.toml", directory.child (environment ++ ".toml")].filter
    h.files.pathExists

/-- The settings of layers laid one over the other. -/
def ofMerged (layers : List Layer) : Except LoadError Settings :=
  match Layer.merge layers with
  | some root => ofLayers root
  | none => .error .beforeStart

/-- The layers of files between the standard one and the environment. -/
def allLayers (h : Host) (layers : List Layer) : List Layer :=
  .standard :: layers ++ [.ofEnvironment h]

/-- The settings of a workspace. -/
def load (h : Host) (workspace : Path) : Except LoadError Settings := do
  let layers ← (standardFiles h workspace).mapM (Layer.ofFile h.files false)
  ofMerged (allLayers h layers)

/-- The settings of a file that was asked for. -/
def loadFile (h : Host) (file : Path) : Except LoadError Settings := do
  let layer ← Layer.ofFile h.files true file
  ofMerged (allLayers h [layer])

/-- What settings are loaded for: a workspace or a file that was asked for. -/
inductive Source where
  | workspace (path : Path)
  | file (path : Path)

namespace Source

/-- The settings, with all keys taken in the order in which they are given. -/
def load (h : Host) : Source → Except LoadError Settings
  | workspace path => Settings.load h path
  | file path => loadFile h path

/-- The layers of the files. -/
def layers (h : Host) : Source → Except LoadError (List Layer)
  | workspace path => (standardFiles h path).mapM (Layer.ofFile h.files false)
  | file path => (Layer.ofFile h.files true path).map ([·])

/-- What loading may come to: the files cannot be read, or their layers are laid one over the
other, each with its keys in any order. -/
inductive MayLoad (h : Host) (src : Source) : Except LoadError Settings → Prop where
  | unread {e : LoadError} : src.layers h = .error e → MayLoad h src (.error e)
  | read {files rows : List Layer} : src.layers h = .ok files →
      Layer.AllReordered (allLayers h files) rows → MayLoad h src (ofMerged rows)

end Source

end Settings

end TreeDigest

import TreeDigest.Settings.Basic
import TreeDigest.Host

/-!
Where the files of the program lie.

The directories for data and for settings are named by environment variables, or lie
in the home directory. A workspace has its own directory for data, below that of the
program, under the full path of the workspace; so what is stored never lies in the
tree that is scanned, unless a setting says otherwise.
-/

namespace TreeDigest

/-- Why a place cannot be settled. -/
inductive PlaceError where
  | noDataHome
  | noConfigHome
  | uncanonical (e : IoError)
  deriving DecidableEq

/-- The wording of a failure. -/
def PlaceError.message : PlaceError → String
  | .noDataHome => "Could not determine XDG data home directory (HOME not set)"
  | .noConfigHome => "Could not determine config home directory (HOME not set)"
  | .uncanonical e => s!"Failed to canonicalize workspace path: {e.message}"

/-- The directory of the program below those for data and for settings. -/
def programDirectory : String := "merkle-snapshots"

namespace Host

/-- The directory for data. -/
def dataHome? (h : Host) : Option Path :=
  match h.environmentValue? "XDG_DATA_HOME" with
  | some dir => some (.ofText dir)
  | none => (h.environmentValue? "HOME").map fun home => ((Path.ofText home).child ".local").child "share"

/-- The directory for settings. -/
def configHome? (h : Host) : Option Path :=
  match h.environmentValue? "XDG_CONFIG_HOME" with
  | some dir => some (.ofText dir)
  | none => (h.environmentValue? "HOME").map fun home => (Path.ofText home).child ".config"

/-- The file with the settings of all workspaces. -/
def globalSettingsFile? (h : Host) : Option Path :=
  h.configHome?.map fun dir => (dir.child programDirectory).child "config.toml"

/-- The directory for the data of a workspace. -/
def workspaceData (h : Host) (workspace : Path) : Except PlaceError Path := do
  match h.dataHome? with
  | none => throw .noDataHome
  | some home =>
    let plain ← (h.files.canonicalize workspace).mapError .uncanonical
    let names := plain.components.filterMap fun c => match c with
      | .name bytes => some bytes
      | _ => none
    return names.foldl (fun p name => p.join ⟨name⟩) (home.child programDirectory)

end Host

/-- The places that storage settings come to. -/
structure StoragePlaces where
  workspaces : Path
  history : Path
  deriving DecidableEq

/-- A place: the one among the data of the workspace where nothing else is said, and
else the given one, relative to the workspace. -/
def StorageSettings.place (h : Host) (workspace : Path) (setting standard name : String) :
    Except PlaceError Path :=
  if (Path.ofText setting).same (.ofText standard) then
    (h.workspaceData workspace).map fun dir => dir.child name
  else .ok (workspace.child setting)

/-- The places of a workspace. -/
def StorageSettings.places (s : StorageSettings) (h : Host) (workspace : Path) :
    Except PlaceError StoragePlaces := do
  return ⟨← place h workspace s.workspacesPath standard.workspacesPath "workspaces",
    ← place h workspace s.historyPath standard.historyPath "history"⟩

end TreeDigest

import TreeDigest.Logging.Setup
import TreeDigest.Settings.Decode
import TreeDigest.Settings.Places
import TreeDigest.StorageError

/-!
Everything that can keep a command from being carried out, and how it is told.

`Failure.message` is the full wording; `Failure.shown` is what a user sees, who is
told of traversal errors and refused identities in words of their own.
-/

namespace TreeDigest

/-- What is wrong with the configuration. -/
inductive ConfigurationFault where
  | load (e : LoadError)
  | invalid (problems : List SettingsProblem)
  | place (e : PlaceError)
  | log (e : Logging.SetupError)
  | fileExists (file : Path)
  | reported (text : String)
  deriving DecidableEq

/-- The wording of a fault. -/
def ConfigurationFault.message : ConfigurationFault → String
  | .load e => e.message
  | .invalid problems =>
    "Configuration validation failed:\n" ++ "\n".intercalate (problems.map SettingsProblem.message)
  | .place e => e.message
  | .log e => e.message
  | .fileExists file =>
    s!"Configuration file already exists at {file.display}. Use --force to overwrite."
  | .reported text => text

/-- Why a command failed. -/
inductive Failure where
  | storage (e : StorageError)
  | configuration (fault : ConfigurationFault)
  | pathNotFound (path : Path)
  deriving DecidableEq

namespace Failure

/-- The failure of a file-system operation. -/
def ofIo (e : IoError) : Failure := .storage (.io (.plain e))

/-- The wording of a failure. -/
def message : Failure → String
  | .storage e => "Storage error: " ++ e.message
  | .configuration fault => "Configuration error: " ++ fault.message
  | .pathNotFound path => "Path not found: " ++ path.display

/-- What a user is told of a failure. -/
def shown : Failure → String
  | .storage (.traversal e) => "Internal traversal error: " ++ e.message
  | .storage (.invalidIdentity identity) =>
    s!"Invalid identity {Text.Quoted.text identity}: identities must be a single path component"
  | e => e.message

end Failure

end TreeDigest

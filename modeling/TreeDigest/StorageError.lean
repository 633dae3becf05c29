import TreeDigest.Builder
import TreeDigest.History.Codec
import TreeDigest.Scan.Walk
import TreeDigest.Text.Quoted

/-!
Failures of scanning, of workspaces and of the execution history.
-/

namespace TreeDigest

/-- Why a file could not be hashed: its facts or its content could not be read. -/
inductive FileFailure where
  | facts (path : Path) (error : IoError)
  | content (error : IoError)
  deriving DecidableEq

namespace FileFailure

/-- The file is gone. -/
def isNotFound : FileFailure → Bool
  | .facts _ e => e.isNotFound
  | .content e => e.isNotFound

/-- The wording of the failure. -/
def message : FileFailure → String
  | .facts path e => (WalkError.io 0 (some path) e).message
  | .content e => e.message

end FileFailure

/-- A failed file-system operation and what it was for. -/
inductive IoFailure where
  | plain (error : IoError)
  | hashing (path : String) (failure : FileFailure)
  | walking (error : WalkError)
  | makingWorkspace (path : Path) (error : IoError)
  deriving DecidableEq

/-- The wording of a failed operation. -/
def IoFailure.message : IoFailure → String
  | .plain e => e.message
  | .hashing path e => s!"Failed to hash file {path}: {e.message}"
  | .walking e => s!"Failed to walk directory: {e.message}"
  | .makingWorkspace path e => s!"Failed to create workspace {path.display}: {e.message}"

/-- Why the execution history could not be used. -/
inductive HistoryError where
  | cannotOpen (reason : String)
  | undecodable (reason : DecodeError)
  | reported (text : String)
  deriving DecidableEq

/-- The wording of a history error. -/
def HistoryError.message : HistoryError → String
  | .cannotOpen reason => "Failed to open sled database: " ++ reason
  | .undecodable reason => "Failed to deserialize record: " ++ reason.message
  | .reported text => text

/-- Why scanning, a workspace or the history failed. -/
inductive StorageError where
  | invalidIdentity (identity : String)
  | invalidPath (reason : String)
  | history (e : HistoryError)
  | traversal (e : BuilderError)
  | io (e : IoFailure)
  deriving DecidableEq

namespace StorageError

/-- The refusal to find the plain form of a path. -/
def uncanonical (p : Path) (e : IoError) : StorageError :=
  .invalidPath s!"Failed to canonicalize {p.display}: {e.message}"

/-- The wording of a failure. -/
def message : StorageError → String
  | .invalidIdentity identity => "Invalid workspace identity: " ++ Text.Quoted.text identity
  | .invalidPath reason => "Invalid path: " ++ reason
  | .history e => "Execution history error: " ++ e.message
  | .traversal e => "Traversal failed: " ++ e.message
  | .io e => "Storage I/O error: " ++ e.message

end StorageError

end TreeDigest

/-!
Failures of file-system operations and their wording.
-/

namespace TreeDigest

/-- Why a file-system operation failed. -/
inductive IoError where
  | noEntry
  | notADirectory
  | isADirectory
  | alreadyExists
  | tooManyLinks
  | nameTooLong
  | nulByte
  /-- A failure told by someone else, which may be that the file is missing. -/
  | reported (missing : Bool) (text : String)
  deriving DecidableEq, Repr

namespace IoError

/-- The failure means that the location does not exist. -/
def isNotFound : IoError → Bool
  | .noEntry => true
  | .reported missing _ => missing
  | _ => false

/-- The wording of a failure. -/
def message : IoError → String
  | .noEntry => "No such file or directory (os error 2)"
  | .notADirectory => "Not a directory (os error 20)"
  | .isADirectory => "Is a directory (os error 21)"
  | .alreadyExists => "File exists (os error 17)"
  | .tooManyLinks => "Too many levels of symbolic links (os error 40)"
  | .nameTooLong => "File name too long (os error 36)"
  | .nulByte => "file name contained an unexpected NUL byte"
  | .reported _ text => text

end IoError

end TreeDigest

import TreeDigest.FileSystem.Change
import TreeDigest.Instant.Calendar

/-!
The machine that a program runs on: its files, its environment, its clock, and the
databases that are open on it.
-/

namespace TreeDigest

/-- A machine. Databases are held by the path of their directory. -/
structure Host where
  files : FileSystem
  environment : List (String × String)
  now : Instant
  held : List Path

namespace Host

/-- The value of an environment variable. -/
def environmentValue? (h : Host) (name : String) : Option String := h.environment.lookup name

/-- The machine with other files. -/
def withFiles (h : Host) (files : FileSystem) : Host := { h with files := files }

/-- Runs a change of the files. -/
def change (h : Host) (op : FileSystem → Except IoError FileSystem) : Except IoError Host :=
  (op h.files).map h.withFiles

/-- Makes a directory and the missing ones above it; those that were made before a
failure stay. -/
def makeDirectories (h : Host) (p : Path) : Except IoError Unit × Host :=
  let attempt := h.files.createDirectories p
  (attempt.result, h.withFiles attempt.files)

end Host

end TreeDigest

import TreeDigest.History.Table
import TreeDigest.StorageError
import TreeDigest.Host

/-!
The execution history: the last record of every identity.

A database keeps its table in a file of its directory and holds that directory
while it is open, so that nobody else opens it. A temporary one has no directory.
The directory belongs to the database: other files of its own may stand in it, of
which nothing is said here. Who asks what a database writes has to count all that
is at or below its directory.

* `Database.openAt` opens or makes a database and `Database.close` lets go of it.
* `load`, `store` and `remove` work on the record of an identity.
-/

namespace TreeDigest

/-- An open history: the directory it is kept in, if there is one, and its table. -/
structure Database where
  place : Option Path
  table : HistoryTable

namespace Database

/-- The key of an identity's record. -/
def key (identity : String) : Bytes := Text.utf8 ("history:" ++ identity)

/-- A history that is kept nowhere. -/
def temporary : Database := ⟨none, .empty⟩

/-- The file of the table in the directory of a database. -/
def fileIn (directory : Path) : Path := directory.child "db"

/-- Writes the table to its file, as long as the directory is there. -/
def save (d : Database) (h : Host) : Host :=
  match d.place with
  | none => h
  | some p =>
    match h.files.write (fileIn p) d.table.encode h.now.toNanos with
    | .ok files => h.withFiles files
    | .error _ => h

/-- The table in the file of a directory; there is none yet in a new one. -/
def loadTable (files : FileSystem) (directory : Path) : Except HistoryError HistoryTable :=
  match files.read (fileIn directory) with
  | .ok bytes => match HistoryTable.decode? bytes with
    | some t => .ok t
    | none => .error (.cannotOpen "the stored table is damaged")
  | .error e => if e.isNotFound then .ok .empty else .error (.cannotOpen e.message)

/-- Opens the database in a directory that is there. Its file is made if it is missing, and it
has to be a regular one. -/
def openIn (h : Host) (p : Path) : Except HistoryError (Database × Host) := do
  let directory ← (h.files.canonicalize p).mapError fun e => .cannotOpen e.message
  if h.held.contains directory then throw (.cannotOpen "the database is open elsewhere")
  let table ← loadTable h.files directory
  let files ← (h.files.write (fileIn directory) table.encode h.now.toNanos).mapError fun e =>
    .cannotOpen e.message
  if !files.isFile (fileIn directory) then throw (.cannotOpen "the table is in no regular file")
  return (⟨some directory, table⟩, { h with files := files, held := directory :: h.held })

/-- Opens the database in a directory, which is made if it is missing. -/
def openAt (h : Host) (p : Path) : Except HistoryError Database × Host :=
  match h.makeDirectories p with
  | (.error e, h) => (.error (.cannotOpen e.message), h)
  | (.ok (), h) => match openIn h p with
    | .error e => (.error e, h)
    | .ok (d, h) => (.ok d, h)

/-- Lets go of a database. -/
def close (d : Database) (h : Host) : Host :=
  match d.place with
  | none => h
  | some p => { h with held := h.held.erase p }

/-- The last record of an identity. -/
def load (d : Database) (identity : String) : Except HistoryError (Option Record) :=
  match d.table.find? (key identity) with
  | none => .ok none
  | some bytes => match Record.decode bytes with
    | .ok r => .ok (some r)
    | .error e => .error (.undecodable e)

/-- Makes a record the last one of an identity. -/
def store (d : Database) (identity : String) (r : Record) : Database :=
  { d with table := d.table.put (key identity) r.encode }

/-- Forgets an identity, and tells whether it was known. -/
def remove (d : Database) (identity : String) : Bool × Database :=
  ((d.table.find? (key identity)).isSome, { d with table := d.table.erase (key identity) })

end Database

end TreeDigest

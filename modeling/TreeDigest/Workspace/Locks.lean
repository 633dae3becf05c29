/-!
Locks by identity.

A table keeps one lock for each identity that somebody holds a handle of. Looking
an identity up gives a handle of its lock and makes the lock where there is none.
Handing a handle back drops it and then, as a step of its own, takes the identity
out of the table if no handle of its lock is left.

Locks are told apart by number. The table remembers every live handle, so that the
number of handles of a lock can be counted, and which locks are taken.
-/

namespace TreeDigest

/-- The number of a lock. -/
abbrev LockId := Nat

/-- The locks of the identities in use: the number of the next new lock, the lock of
each tracked identity, the lock of every live handle, and the locks that are taken. -/
structure LockTable where
  next : LockId
  tracked : List (String × LockId)
  handles : List LockId
  taken : List LockId
  deriving DecidableEq

namespace LockTable

/-- The table without any lock. -/
def empty : LockTable := ⟨0, [], [], []⟩

instance : Inhabited LockTable := ⟨empty⟩

/-- The lock of a tracked identity. -/
def find? (t : LockTable) (identity : String) : Option LockId := t.tracked.lookup identity

/-- A further handle of a lock. -/
def addHandle (t : LockTable) (lock : LockId) : LockTable := { t with handles := lock :: t.handles }

/-- Looks an identity up, and takes a handle of its lock if it is tracked. -/
def lookUp (t : LockTable) (identity : String) : Option LockId × LockTable :=
  match t.find? identity with
  | some lock => (some lock, t.addHandle lock)
  | none => (none, t)

/-- Takes a handle of the identity's lock, and makes the lock if there is none. -/
def getOrInsert (t : LockTable) (identity : String) : LockId × LockTable :=
  match t.find? identity with
  | some lock => (lock, t.addHandle lock)
  | none =>
    (t.next, { t with next := t.next + 1, tracked := (identity, t.next) :: t.tracked }.addHandle t.next)

/-- Takes a handle of the identity's lock: looks it up first, and inserts it if it
was not there. -/
def get (t : LockTable) (identity : String) : LockId × LockTable :=
  match t.lookUp identity with
  | (some lock, t) => (lock, t)
  | (none, t) => t.getOrInsert identity

/-- Drops a handle. -/
def drop (t : LockTable) (lock : LockId) : LockTable := { t with handles := t.handles.erase lock }

/-- Takes an identity out of the table if no handle of its lock is left. -/
def prune (t : LockTable) (identity : String) : LockTable :=
  match t.find? identity with
  | some lock =>
    if lock ∈ t.handles then t else { t with tracked := t.tracked.filter fun e => e.1 != identity }
  | none => t

/-- Hands a handle back under an identity. -/
def release (t : LockTable) (identity : String) (lock : LockId) : LockTable :=
  (t.drop lock).prune identity

/-- Takes a lock if it is free. -/
def tryTake (t : LockTable) (lock : LockId) : Bool × LockTable :=
  if lock ∈ t.taken then (false, t) else (true, { t with taken := lock :: t.taken })

/-- Frees a lock. -/
def free (t : LockTable) (lock : LockId) : LockTable := { t with taken := t.taken.erase lock }

/-- The number of tracked identities. -/
def size (t : LockTable) : Nat := t.tracked.length

end LockTable

end TreeDigest

import TreeDigest.StorageError

/-!
Identities of work.

An identity names a directory and a key of the history. It is accepted when it is
a single name: not empty, not a dot or two, and free of slashes, backslashes and
the zero character.
-/

namespace TreeDigest.Identity

/-- The identity names something other than a single entry. -/
def isRefused (identity : String) : Bool :=
  identity == "" || identity == "." || identity == ".." ||
    identity.toList.any fun c => c == '/' || c == '\\' || c == '\x00'

/-- Refuses what is not a single name. -/
def validate (identity : String) : Except StorageError Unit :=
  if isRefused identity then .error (.invalidIdentity identity) else .ok ()

/-- The identity of work of a kind on an input. -/
def ofDigest (kind : String) (digest : Digest) : String := kind ++ "-" ++ digest.hex

end TreeDigest.Identity

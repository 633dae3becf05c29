import TreeDigest.Digest
import TreeDigest.Instant.Calendar

/-!
What is remembered of an execution.
-/

namespace TreeDigest

/-- The outcome of one execution: the digest of what it ran against, if there was
anything, when it was recorded, and whether it succeeded. -/
structure Record where
  digest : Option Digest
  recordedAt : Instant
  successful : Bool
  deriving DecidableEq

end TreeDigest

import TreeDigest.History.Record

/-!
Whether work is up to date.
-/

namespace TreeDigest

/-- What the history says about work on some input: it ran last, successfully, on
that input; it has to run again; or it never ran. -/
inductive Decision where
  | upToDate (record : Record)
  | changed (previous : Record)
  | noHistory
  deriving DecidableEq

namespace Decision

/-- The work need not run. -/
def isUpToDate : Decision → Bool
  | .upToDate _ => true
  | _ => false

/-- Compares the last record with the digest of the input, if there is one. -/
def of (previous : Option Record) (digest : Option Digest) : Decision :=
  match previous with
  | none => .noHistory
  | some record =>
    if record.successful ∧ record.digest = digest then .upToDate record else .changed record

end Decision

end TreeDigest

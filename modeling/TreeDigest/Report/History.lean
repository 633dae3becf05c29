import TreeDigest.Execution.Decision
import TreeDigest.Instant.Rfc3339
import TreeDigest.Json.Basic

/-!
How decisions and records are shown.
-/

namespace TreeDigest.Report

/-- The digest of an input that may be absent. -/
def digestLabel : Option Digest → String
  | some d => d.hex
  | none => "(no input)"

/-- A decision in a line, and in a second one what was recorded after it. -/
def decisionText (identity : String) (decision : Decision) (recorded : Option Record) : String :=
  let line := match decision with
    | .upToDate r => s!"{identity}: up to date (last successful run {r.recordedAt.text})"
    | .changed r =>
      if r.successful then s!"{identity}: out of date (inputs changed since {r.recordedAt.text})"
      else s!"{identity}: out of date (last run failed at {r.recordedAt.text})"
    | .noHistory => s!"{identity}: out of date (no execution history)"
  match recorded with
  | some r => line ++ "\nRecorded inputs " ++ digestLabel r.digest
  | none => line

/-- A record as an object. -/
def recordValue (r : Record) : Json :=
  .sortedObject [("snapshot_hash", .ofOption (fun d : Digest => .string d.hex) r.digest),
    ("recorded_at", .string r.recordedAt.text), ("successful", .boolean r.successful)]

/-- The word for a decision. -/
def statusLabel : Decision → String
  | .upToDate _ => "up_to_date"
  | .changed _ => "changed"
  | .noHistory => "no_history"

/-- The record that a decision rests on. -/
def previous? : Decision → Option Record
  | .upToDate r => some r
  | .changed r => some r
  | .noHistory => none

/-- A decision for programs. -/
def decisionJson (identity : String) (decision : Decision) (recorded : Option Record) : String :=
  (Json.sortedObject [("identity", .string identity), ("status", .string (statusLabel decision)),
    ("up_to_date", .boolean decision.isUpToDate),
    ("previous", .ofOption recordValue (previous? decision)),
    ("recorded", .ofOption recordValue recorded)]).pretty

/-- The last record of an identity for readers. -/
def historyText (identity : String) : Option Record → String
  | none => s!"No execution history for {identity}"
  | some r =>
    let time := s!"\n  Recorded at: {r.recordedAt.text}"
    let success := s!"\n  Successful: {r.successful}"
    let input := s!"\n  Input hash: {digestLabel r.digest}"
    s!"Execution history for {identity}:" ++ time ++ success ++ input

/-- The last record of an identity for programs. -/
def historyJson (identity : String) (record : Option Record) : String :=
  (Json.sortedObject [("identity", .string identity), ("record", .ofOption recordValue record)]).pretty

end TreeDigest.Report

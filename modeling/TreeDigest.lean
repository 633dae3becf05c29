import TreeDigest.Blake3
import TreeDigest.Builder
import TreeDigest.CommandLine.Command
import TreeDigest.CommandLine.Grammar
import TreeDigest.CommandLine.Program
import TreeDigest.CommandLine.Run
import TreeDigest.Decimal.Binary64
import TreeDigest.Decimal.Signed64
import TreeDigest.Digest
import TreeDigest.Execution.Basic
import TreeDigest.Execution.Decision
import TreeDigest.Failure
import TreeDigest.FileSystem.Basic
import TreeDigest.FileSystem.Change
import TreeDigest.Hashing
import TreeDigest.History.Codec
import TreeDigest.History.Database
import TreeDigest.History.Record
import TreeDigest.History.Table
import TreeDigest.Host
import TreeDigest.Host.Image
import TreeDigest.Instant.Calendar
import TreeDigest.Instant.Rfc3339
import TreeDigest.IoError
import TreeDigest.Json.Basic
import TreeDigest.Json.Reader
import TreeDigest.Logging.Directive
import TreeDigest.Logging.Kinds
import TreeDigest.Logging.Setup
import TreeDigest.Main
import TreeDigest.Path
import TreeDigest.Proofs.Builder.Binding
import TreeDigest.Proofs.Builder.Leaves
import TreeDigest.Proofs.Builder.Merkle
import TreeDigest.Proofs.Builder.NameOrder
import TreeDigest.Proofs.Builder.Naming
import TreeDigest.Proofs.Builder.Outline
import TreeDigest.Proofs.Builder.Pruning
import TreeDigest.Proofs.Builder.Rearrangement
import TreeDigest.Proofs.Builder.Relocation
import TreeDigest.Proofs.Builder.Replay
import TreeDigest.Proofs.Builder.Traversal
import TreeDigest.Proofs.Execution.Concurrent
import TreeDigest.Proofs.Execution.Decisions
import TreeDigest.Proofs.Execution.Gate
import TreeDigest.Proofs.Execution.Request
import TreeDigest.Proofs.Execution.Serial
import TreeDigest.Proofs.Execution.Serialisable
import TreeDigest.Proofs.FileSystem.Dangling
import TreeDigest.Proofs.FileSystem.Limits
import TreeDigest.Proofs.FileSystem.Lockstep
import TreeDigest.Proofs.FileSystem.Relisting
import TreeDigest.Proofs.FileSystem.Replacing
import TreeDigest.Proofs.FileSystem.Resolution
import TreeDigest.Proofs.FileSystem.Without
import TreeDigest.Proofs.Hashing.Encoding
import TreeDigest.Proofs.Hashing.Kinds
import TreeDigest.Proofs.History.Codec
import TreeDigest.Proofs.History.Database
import TreeDigest.Proofs.Instant.Calendar
import TreeDigest.Proofs.Instant.Rfc3339
import TreeDigest.Proofs.Json.Reading
import TreeDigest.Proofs.Logging.Directives
import TreeDigest.Proofs.FileSystem.FullPaths
import TreeDigest.Proofs.Logging.Installing
import TreeDigest.Proofs.Path.Segments
import TreeDigest.Proofs.Path.Recorded
import TreeDigest.Proofs.Report.Decoding
import TreeDigest.Proofs.Report.Listing
import TreeDigest.Proofs.Scan.Closing
import TreeDigest.Proofs.Scan.Correctness
import TreeDigest.Proofs.Scan.Dangling
import TreeDigest.Proofs.Scan.Digests
import TreeDigest.Proofs.Scan.Discipline
import TreeDigest.Proofs.Scan.Driver
import TreeDigest.Proofs.Scan.Emptiness
import TreeDigest.Proofs.Scan.Ignored
import TreeDigest.Proofs.Scan.Inquiry
import TreeDigest.Proofs.Scan.Relocation
import TreeDigest.Proofs.Scan.Reordering
import TreeDigest.Proofs.Scan.RootLink
import TreeDigest.Proofs.Scan.Shows
import TreeDigest.Proofs.Scan.Sight
import TreeDigest.Proofs.Scan.Steps
import TreeDigest.Proofs.Scan.Subtree
import TreeDigest.Proofs.Scan.Survey
import TreeDigest.Proofs.Scan.Vanishing
import TreeDigest.Proofs.Scan.Visible
import TreeDigest.Proofs.Scan.WalkOrder
import TreeDigest.Proofs.Snapshot.Lookup
import TreeDigest.Proofs.Snapshot.Nesting
import TreeDigest.Proofs.Text.Slashes
import TreeDigest.Proofs.Text.Utf8
import TreeDigest.Proofs.Workspace.Callers
import TreeDigest.Report.History
import TreeDigest.Report.Scan
import TreeDigest.Scan.Basic
import TreeDigest.Scan.Walk
import TreeDigest.Settings.Basic
import TreeDigest.Settings.Decode
import TreeDigest.Settings.Json
import TreeDigest.Settings.Layer
import TreeDigest.Settings.Places
import TreeDigest.Settings.Render
import TreeDigest.Settings.Sources
import TreeDigest.Snapshot.Basic
import TreeDigest.Snapshot.Visit
import TreeDigest.StorageError
import TreeDigest.Text.CharacterTable
import TreeDigest.Text.Classes
import TreeDigest.Text.Composed
import TreeDigest.Text.Hex
import TreeDigest.Text.Lowercase
import TreeDigest.Text.Quoted
import TreeDigest.Text.Split
import TreeDigest.Text.Utf8
import TreeDigest.Toml.Document
import TreeDigest.Toml.Reader
import TreeDigest.Toml.Scalar
import TreeDigest.Toml.Value
import TreeDigest.Toml.Writer
import TreeDigest.Workspace.Identity
import TreeDigest.Workspace.Locks
import TreeDigest.Workspace.Provider
import TreeDigest.Proofs.CommandLine.Jobs
import TreeDigest.Proofs.CommandLine.Configuration
import TreeDigest.Proofs.CommandLine.Lines
import TreeDigest.Proofs.CommandLine.Options
import TreeDigest.Proofs.CommandLine.Recording
import TreeDigest.Proofs.Builder.Refusals
import TreeDigest.Proofs.History.Truncation
import TreeDigest.Proofs.Path.Components
import TreeDigest.Proofs.Decimal.Notation
import TreeDigest.Proofs.Settings.Assignments
import TreeDigest.Proofs.Settings.Decoding
import TreeDigest.Proofs.Settings.Layering
import TreeDigest.Proofs.Settings.Separation
import TreeDigest.Proofs.CommandLine.Refusal
import TreeDigest.Proofs.Settings.Rendering
import TreeDigest.Proofs.Settings.VariableTexts
import TreeDigest.Proofs.Settings.Overriding
import TreeDigest.Proofs.Settings.Variables
import TreeDigest.Proofs.Workspace.Directories
import TreeDigest.Proofs.Workspace.Tracking

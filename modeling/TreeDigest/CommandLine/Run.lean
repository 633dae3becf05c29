import TreeDigest.CommandLine.Command
import TreeDigest.Execution.Basic
import TreeDigest.Failure
import TreeDigest.Report.History
import TreeDigest.Report.Scan
import TreeDigest.Settings.Render
import TreeDigest.Settings.Sources

/-!
Carrying out commands.

A `Context` is what all commands share: the workspace, its settings, and the places of
its workspaces and history. `Context.open` settles it, and `Context.run` carries a
command out and gives the text of its answer.

* A scan reads the tree only.
* A check reads the tree, opens the history, and looks at the identity last.
* The history commands look at the identity first and at nothing else if it is refused.
* The configuration commands write or show settings.
-/

namespace TreeDigest.CommandLine

/-- Work on a machine that may fail; what was changed before a failure stays changed. -/
abbrev Job (α : Type) := ExceptT Failure (StateM Host) α

namespace Job

/-- Changes the files of the machine. -/
def change (op : FileSystem → Except IoError FileSystem) : Job Unit := do
  match (← get).change op with
  | .ok h => set h
  | .error e => throw (.ofIo e)

/-- Makes a directory and the missing ones above it. -/
def makeDirectories (p : Path) : Job Unit := do
  let (made, h) := (← get).makeDirectories p
  set h
  match made with
  | .ok () => return
  | .error e => throw (.ofIo e)

/-- Fails with a storage error, or goes on. -/
def storage {α : Type} : Except StorageError α → Job α
  | .ok a => return a
  | .error e => throw (.storage e)

end Job

/-- What all commands share. -/
structure Context where
  workspace : Path
  configFile : Option Path
  settings : Settings
  places : StoragePlaces

namespace Context

/-- The settings of a workspace: those of the file that is asked for, if it is there. -/
def loadSettings (h : Host) (workspace : Path) (config : Option Path) : Except LoadError Settings :=
  match config with
  | some file => if h.files.pathExists file then Settings.loadFile h file else Settings.load h workspace
  | none => Settings.load h workspace

/-- Settles what all commands share. -/
def «open» (h : Host) (workspace : Path) (config : Option Path) : Except Failure Context := do
  if !h.files.pathExists workspace then throw (.pathNotFound workspace)
  let settings ← (loadSettings h workspace config).mapError fun e => .configuration (.load e)
  if !settings.problems.isEmpty then throw (.configuration (.invalid settings.problems))
  let places ← (settings.storage.places h workspace).mapError fun e => .configuration (.place e)
  return ⟨workspace, config, settings, places⟩

/-- The path that a command is about: the given one, seen from the workspace, or the
workspace. -/
def target (c : Context) : Option Path → Path
  | some path => c.workspace.join path
  | none => c.workspace

/-! ### Scans -/

/-- The options of a scan: those of the settings unless the request says otherwise. -/
def scanOptions (c : Context) (request : ScanRequest) : ScanOptions :=
  let o := c.settings.scan
  { o with
    sorted := o.sorted && !request.unsortedWalk
    emptyDirectories :=
      if request.excludeEmpty then .excluded
      else if request.includeEmpty then .included
      else o.emptyDirectories }

/-- The word for answers that programs read; any other word stands for a text. -/
def jsonWord : String := "json"

/-- Scans a tree. -/
def runScan (c : Context) (request : ScanRequest) : Job String := do
  let root := c.target request.path
  let outcome ← Job.storage (scan (c.scanOptions request) (← get).files root)
  return if request.format = jsonWord then Report.scanJson root outcome request.tree
    else Report.scanText root outcome request.tree

/-! ### The history -/

/-- Makes the directories of the workspaces and of the history, and opens both. -/
def openWorkspaces (c : Context) : Job Workspaces := do
  Job.makeDirectories c.places.workspaces
  match c.places.history.parent? with
  | some parent => Job.makeDirectories parent
  | none => pure ()
  let (opened, h) := Database.openAt (← get) c.places.history
  set h
  match opened with
  | .ok history => return .new c.places.workspaces history
  | .error e => throw (.storage (.history e))

/-- Runs work on the workspaces and lets go of the history after it, also if it fails. -/
def withWorkspaces {α : Type} (c : Context) (work : Workspaces → Job α) : Job α := do
  let w ← c.openWorkspaces
  let close : Job Unit := modify fun h => w.history.close h
  try
    let answer ← work w
    close
    return answer
  catch e =>
    close
    throw e

/-- The decision on an identity, and what is recorded for it if that is asked for. -/
def decide (request : CheckRequest) (input : Option Digest) (w : Workspaces) :
    Job (Decision × Option Record) := do
  let decision ← Job.storage (Execution.check w request.identity input)
  if request.record then
    let (record, _, h) ← Job.storage (Execution.record w (← get) request.identity input)
    set h
    return (decision, some record)
  else return (decision, none)

/-- Checks a tree against the history. -/
def runCheck (c : Context) (request : CheckRequest) : Job String := do
  let outcome ← Job.storage (scan c.settings.scan (← get).files (c.target request.path))
  let input := outcome.snapshot.map Snapshot.digest
  let (decision, recorded) ← c.withWorkspaces (decide request input)
  return if request.format = jsonWord then Report.decisionJson request.identity decision recorded
    else Report.decisionText request.identity decision recorded

/-- Shows the last record of an identity. -/
def runShowHistory (c : Context) (identity format : String) : Job String := do
  Job.storage (Identity.validate identity)
  c.withWorkspaces fun w => do
    let record ← Job.storage ((w.history.load identity).mapError .history)
    return if format = jsonWord then Report.historyJson identity record
      else Report.historyText identity record

/-- Forgets an identity. -/
def runClearHistory (c : Context) (identity : String) : Job String := do
  Job.storage (Identity.validate identity)
  c.withWorkspaces fun w => do
    let (known, history) := w.history.remove identity
    modify history.save
    return if known then s!"Cleared execution history for {identity}"
      else s!"No execution history for {identity}"

/-! ### The configuration -/

/-- The file that standard settings are written to. -/
def initTarget (c : Context) : Job Path := do
  match c.configFile, (← get).globalSettingsFile? with
  | some file, _ => return file
  | none, some file => return file
  | none, none => throw (.configuration (.place .noConfigHome))

/-- Writes the standard settings to a file that is not there yet, or over it if forced. -/
def runInitConfig (c : Context) (force : Bool) : Job String := do
  let file ← c.initTarget
  if (← get).files.pathExists file && !force then throw (.configuration (.fileExists file))
  match file.parent? with
  | some parent => Job.makeDirectories parent
  | none => pure ()
  let now := (← get).now.toNanos
  Job.change fun files => files.write file (Text.utf8 Settings.standard.toToml) now
  return s!"Wrote default configuration to {file.display}"

/-! ### Every command -/

/-- Carries a command out. -/
def run (c : Context) : Command → Job String
  | .scan request => c.runScan request
  | .check request => c.runCheck request
  | .showHistory identity format => c.runShowHistory identity format
  | .clearHistory identity => c.runClearHistory identity
  | .initConfig force => c.runInitConfig force
  | .showConfig => return c.settings.toToml

end Context

/-- Carries out the command of an invocation. -/
def Invocation.run (i : Invocation) : Job String := do
  match Context.open (← get) i.workspace i.config with
  | .error e => throw e
  | .ok c => c.run i.command

end TreeDigest.CommandLine

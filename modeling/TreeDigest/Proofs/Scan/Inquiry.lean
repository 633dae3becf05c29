import TreeDigest.Proofs.Scan.Survey

/-!
Exploring a file system that changes on the way.

A leaf hasher may do anything to the file system, and every later step of the walk sees what it
left. An inquiry is what a scan goes by apart from the file system. It explores by recursion as a
survey does, but hands the file system on from one entry to the next.

* `Inquiry.through` explores some entries one after another.
* `Inquiry.find` explores from a listed entry on, and `Inquiry.findRoot` from the root.
* `Survey.find_eq` and `Survey.findRoot_eq`: where nothing changes, an inquiry finds what a survey
  explores.
-/

namespace TreeDigest

/-- What a scan goes by, whatever becomes of the file system. -/
structure Inquiry where
  options : ScanOptions
  hash : HashFunction
  hasher : LeafHasher
  root : RootLocation

namespace Inquiry

variable (q : Inquiry)

/-- What is recorded of a place besides its digest. -/
def location (depth : ℕ) (path : Path) (viaLink : Bool) : Location :=
  if depth = 0 then ⟨q.root.pathText path, q.root.name, q.root.access⟩
  else ⟨q.root.pathText path, path.entryName, .ofLink viaLink⟩

lemma location_path (depth : ℕ) (path : Path) (viaLink : Bool) :
    (q.location depth path viaLink).path = q.root.pathText path := by
  rw [location]
  split <;> rfl

/-- A failed walk at some place: nothing is there, or the scan ends. -/
def failed (e : WalkError) (fs : FileSystem) : Except ScanFailure (Visible × FileSystem) :=
  match e with
  | .io depth (some path) error =>
    if error.isNotFound then .ok (.absent (q.location depth path (fs.isLink path)), fs)
    else .error ⟨.io (.walking e), fs⟩
  | _ => .error ⟨.io (.walking e), fs⟩

/-- A file that could not be read: it is gone, or the scan ends. -/
def unread (location : Location) (failure : FileFailure) (fs : FileSystem) :
    Except ScanFailure (Visible × FileSystem) :=
  if failure.isNotFound then .ok (.leaf (.missing q.hash location), fs)
  else .error ⟨.io (.hashing location.path failure), fs⟩

/-- A file: its facts are read first, and then it is hashed. -/
def file (e : WalkEntry) (fs : FileSystem) : Except ScanFailure (Visible × FileSystem) :=
  let location := q.location e.depth e.path e.viaLink
  match fs.node e.viaLink e.path with
  | .error error => q.unread location (.facts e.path error) fs
  | .ok node => match (q.hasher e.path fs).result with
    | .error error => q.unread location (.content error) (q.hasher e.path fs).files
    | .ok digest =>
      .ok (.leaf ⟨location, digest, .file (Scan.facts node)⟩, (q.hasher e.path fs).files)

/-- Explores some entries one after another, up to the first failure. -/
def through {α : Type} (f : α → FileSystem → Except ScanFailure (Visible × FileSystem)) :
    List α → FileSystem → Except ScanFailure (List Visible × FileSystem)
  | [], fs => .ok ([], fs)
  | a :: as, fs => do
    let (t, fs) ← f a fs
    let (ts, fs) ← through f as fs
    return (t :: ts, fs)

/-- Explores from a listed entry on. -/
def find : ℕ → List Path → ℕ → Path → Bytes → NodeKind → FileSystem →
    Except ScanFailure (Visible × FileSystem)
  | 0, _, depth, path, _, _, fs => q.failed (.io depth (some path) .nameTooLong) fs
  | room + 1, ancestors, depth, path, name, kind, fs =>
    match Walk.entryOf q.options.walk fs ancestors depth path kind with
    | .error e => q.failed e fs
    | .ok e =>
      if 0 < e.depth && q.options.walk.leavesOut name then .ok (.ignored, fs)
      else match e.kind with
      | .directory => match fs.list e.path with
        | .error error => q.failed (.io e.depth (some e.path) error) fs
        | .ok listing => do
          let (ts, fs) ← through (fun item => find room (path :: ancestors) (depth + 1)
            (path.join ⟨item.1⟩) item.1 item.2) (Walk.arrange q.options.walk listing) fs
          return (.directory (q.location e.depth e.path e.viaLink) ts, fs)
      | .file => q.file e fs
      | .link => .ok (.skippedLink, fs)
      | .special => .ok (.skippedSpecial, fs)

/-- A root that is not there is a missing leaf. -/
def missingRoot (error : IoError) (fs : FileSystem) : Except ScanFailure (Visible × FileSystem) :=
  if error.isNotFound then .ok (.leaf (.missing q.hash (q.location 0 q.root.walked false)), fs)
  else .error ⟨.io (.walking (.io 0 (some q.root.walked) error)), fs⟩

/-- Explores the tree at the root. -/
def findRoot (fs : FileSystem) : Except ScanFailure (Visible × FileSystem) :=
  match fs.node false q.root.walked with
  | .error e => q.missingRoot e fs
  | .ok node =>
    match node.kind, fs.node true q.root.walked with
    | .link, .error e => q.missingRoot e fs
    | kind, _ => q.find FileSystem.maxPath [] 0 q.root.walked [] kind fs

/-- The tree is explored from the kind of the root on. -/
lemma findRoot_eq_rootKind (fs : FileSystem) :
    q.findRoot fs = match fs.rootKind q.root.walked with
      | .error e => q.missingRoot e fs
      | .ok kind => q.find FileSystem.maxPath [] 0 q.root.walked [] kind fs :=
  FileSystem.match_rootKind _ _ _ _

end Inquiry

/-! ### Where nothing changes -/

namespace Survey

variable (v : Survey)

/-- The inquiry of a survey. -/
def inquiry : Inquiry := ⟨v.options, v.hash, v.hasher, v.root⟩

lemma location_path (v : Survey) (depth : ℕ) (path : Path) (viaLink : Bool) :
    (v.location depth path viaLink).path = v.root.pathText path :=
  v.inquiry.location_path depth path viaLink

/-- A scan under way in a survey. -/
def scan (b : Builder) (counts : ScanCounts) (messages : List (List Part)) : Scan :=
  ⟨v.options, v.hash, v.hasher, v.root, v.files, b, counts, messages⟩

/-- A scan of the survey that has not met anything. -/
def start : Scan := Scan.start v.options v.hash v.hasher v.root v.files

/-- The file system that a survey leaves goes with every result. -/
def unchanged {α : Type} : Except StorageError α → Except ScanFailure (α × FileSystem)
  | .ok a => .ok (a, v.files)
  | .error e => .error ⟨e, v.files⟩

lemma failed_eq (e : WalkError) : v.inquiry.failed e v.files = v.unchanged (v.failed e) := by
  rcases e with ⟨depth, _ | path, error⟩ | ⟨depth, ancestor, child⟩
  · rfl
  · simp only [Inquiry.failed, failed]
    split <;> rfl
  · rfl

lemma file_eq (e : WalkEntry) : v.inquiry.file e v.files = v.unchanged (v.file e) := by
  have hstill := v.still e.path
  simp only [Inquiry.file, file, read, inquiry, Inquiry.unread]
  cases v.files.node e.viaLink e.path with
  | error error =>
      dsimp only
      split <;> rfl
  | ok node =>
      cases (v.hasher e.path v.files).result with
      | ok digest => simp only [hstill]; rfl
      | error error =>
          simp only [hstill]
          split <;> rfl

lemma through_eq {α : Type} {f : α → FileSystem → Except ScanFailure (Visible × FileSystem)}
    {g : α → Except StorageError Visible} (hf : ∀ a, f a v.files = v.unchanged (g a))
    (as : List α) : Inquiry.through f as v.files = v.unchanged (as.mapM g) := by
  induction as with
  | nil => rfl
  | cons a as ih =>
      rw [Inquiry.through, hf, List.mapM_cons]
      cases g a with
      | error e => rfl
      | ok t =>
          simp only [unchanged, bind, Except.bind, ih]
          cases as.mapM g <;> rfl

/-- **Where nothing changes, an inquiry finds what a survey explores**, from every listed entry
on. -/
lemma find_eq (room : ℕ) (ancestors : List Path) (depth : ℕ) (path : Path) (name : Bytes)
    (kind : NodeKind) :
    v.inquiry.find room ancestors depth path name kind v.files
      = v.unchanged (v.explore room ancestors depth path name kind) := by
  induction room generalizing ancestors depth path name kind with
  | zero => exact v.failed_eq _
  | succ room ih =>
      rw [Inquiry.find, explore_succ, show v.inquiry.options = v.options from rfl]
      cases Walk.entryOf v.options.walk v.files ancestors depth path kind with
      | error e => exact v.failed_eq e
      | ok e =>
          simp only [make]
          split
          · rfl
          · cases e.kind with
            | file => exact v.file_eq e
            | link => rfl
            | special => rfl
            | directory =>
                dsimp only
                cases v.files.list e.path with
                | error error => exact v.failed_eq _
                | ok listing =>
                    have hbelow : Inquiry.through _ (Walk.arrange v.options.walk listing) v.files
                        = v.unchanged (v.below room ancestors depth path listing) :=
                      v.through_eq (fun item : Bytes × NodeKind => ih (path :: ancestors)
                        (depth + 1) (path.join ⟨item.1⟩) item.1 item.2) _
                    simp only [hbelow]
                    cases v.below room ancestors depth path listing <;> rfl

/-- Where nothing changes, an inquiry finds what a survey explores. -/
lemma findRoot_eq : v.inquiry.findRoot v.files = v.unchanged v.view := by
  rw [Inquiry.findRoot_eq_rootKind, view_eq_rootKind, show v.inquiry.root = v.root from rfl]
  cases v.files.rootKind v.root.walked with
  | error e =>
      simp only [Inquiry.missingRoot, missingRoot]
      split <;> rfl
  | ok kind => exact v.find_eq FileSystem.maxPath [] 0 v.root.walked [] kind

end Survey

end TreeDigest

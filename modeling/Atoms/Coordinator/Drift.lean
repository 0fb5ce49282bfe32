import Atoms.Coordinator.Descriptors
import Atoms.Fs.Evidence
import Atoms.Store.Assembly

open atoms.errors atoms.paths atoms.store atoms.fs checked dict

namespace atoms.coordinator

def WORK_DIRECTORY : String := "work"

/-- The bound project, and what the kernel answers about its directories while nothing changes. A descriptor is of a
directory. -/
structure CurrentTree (Fd : Type) where
  project_root_fd : Fd
  metadata_root_fd : Fd
  filesystem_type : String
  /-- A name is opened as a directory of the same mount, through no symbolic link. -/
  open_child_directory : Fd → String → Except Errno Fd
  fstat : Fd → FilesystemIdentity
  /-- The lookup relation and the name bound of an ext4 directory. -/
  constraints : Fd → DirectoryConstraints
  read_mount_id : Fd → Nat
  /-- `os.stat(name, dir_fd=fd, follow_symlinks=False)` -/
  stat : Fd → String → EntryKind

/-- The error numbers of a name that is not the directory that was approved. -/
def mismatch_errnos : List Errno := [.ENOENT, .ENOTDIR, .ELOOP, .EXDEV, .EACCES, .EPERM]

def WORK_BASE_PATH : String := ".#~work_base"

def WORK_ROOT_PATH : String := ".#~work_root"

section

variable [UnicodeData] {Fd : Type} (tree : CurrentTree Fd)

/-- `AssemblyFinding(path, kind, observed)` -/
def finding (path : String) (kind : AssemblyFindingKind) (observed : List (String × String)) :
    Except Raised AssemblyFinding :=
  raised (assembly_finding path kind observed)

/-- `_factless` -/
def factless (path : String) (kind : AssemblyFindingKind) : Except Raised AssemblyFinding := finding path kind []

/-- `_wrong_kind` -/
def wrong_kind (parent_fd : Fd) (component path : String) : Except Raised AssemblyFinding :=
  finding path .WRONG_ENTRY_KIND [("observed_kind", match tree.stat parent_fd component with
    | .REGULAR_FILE => "file"
    | .SYMLINK => "symlink"
    | _ => "other")]

/-- `read_lookup_constraints` -/
def read_lookup_constraints (fd : Fd) : Except Raised DirectoryConstraints := do
  require_supported tree.filesystem_type
  pure (tree.constraints fd)

/-- The identity of a directory that existed when it was approved. -/
def identity_changes (fd : Fd) (path : String) : Option FilesystemIdentity → Except Raised (List AssemblyFinding)
  | none => pure []
  | some identity =>
    if tree.fstat fd = identity then pure []
    else do
      let changed ← finding path .IDENTITY_CHANGED
        [("st_dev", toString (tree.fstat fd).device), ("st_ino", toString (tree.fstat fd).inode)]
      pure [changed]

/-- `_directory_changes` -/
def directory_changes (fd : Fd) (path : String) (expected : DirectoryEvidence) : Except Raised (List AssemblyFinding) := do
  let identity ← identity_changes tree fd path expected.identity
  let constraints ← read_lookup_constraints tree fd
  if constraints = expected.constraints then pure identity
  else do
    let changed ← finding path .CONSTRAINTS_CHANGED
      [("lookup_proof", constraints.lookup_proof.value), ("name_max", toString constraints.name_max)]
    pure (identity ++ [changed])

/-- `WORK_ROOT_CHANGED` with its fact -/
def work_root_changed (work_base : String) : Except Raised AssemblyFinding :=
  finding WORK_BASE_PATH .WORK_ROOT_CHANGED [("work_base", work_base)]

/-- The finding of a work base that does not open. -/
def work_base_failure (errno : Errno) : Except Raised AssemblyFinding :=
  match errno with
  | .EXDEV => factless WORK_BASE_PATH .MOUNT_BOUNDARY
  | .EACCES | .EPERM => factless WORK_BASE_PATH .ACCESS_DENIED
  | .ENOENT => work_root_changed "absent"
  | .ENOTDIR | .ELOOP => work_root_changed "present"
  | errno => throw (.OSError errno)

/-- `_work_base_findings` -/
def work_base_findings : Option DirectoryFacts → Except Raised (List AssemblyFinding × Option Fd)
  | none => pure ([], none)
  | some expected => match tree.open_child_directory tree.metadata_root_fd WORK_DIRECTORY with
    | .error errno => do
      let found ← work_base_failure errno
      pure ([found], none)
    | .ok fd => do
      let constraints ← read_lookup_constraints tree fd
      if tree.fstat fd = expected.identity ∧ constraints = expected.constraints then pure ([], some fd)
      else do
        let changed ← work_root_changed "present"
        pure ([changed], some fd)

/-- What the pass has collected. -/
structure Pass (Fd : Type) where
  findings : List AssemblyFinding
  project_fds : Dict String Fd
  blocked : List String

/-- The findings of a directory that does not open; a directory that was only planned may be missing or replaced. -/
def open_failure (parent_fd : Fd) (component pseudo : String) (planned : Bool) (errno : Errno) :
    Except Raised (List AssemblyFinding) :=
  match errno with
  | .EXDEV => do
    let found ← factless pseudo .MOUNT_BOUNDARY
    pure [found]
  | .EACCES | .EPERM => do
    let found ← factless pseudo .ACCESS_DENIED
    pure [found]
  | .ENOENT =>
    if planned then pure []
    else do
      let found ← factless pseudo .NODE_MISSING
      pure [found]
  | .ENOTDIR | .ELOOP =>
    if planned then pure []
    else do
      let found ← wrong_kind tree parent_fd component pseudo
      pure [found]
  | errno => throw (.OSError errno)

/-- The work slot, in the work base that was opened. -/
def diff_work_root (work_base_fd : Option Fd) (txid : String) (pass : Pass Fd) (item : DirectoryEvidence) :
    Except Raised (Pass Fd) :=
  match work_base_fd with
  | none => pure pass
  | some parent_fd => match tree.open_child_directory parent_fd txid with
    | .error errno => do
      let found ← open_failure tree parent_fd txid WORK_ROOT_PATH false errno
      pure { pass with findings := pass.findings ++ found }
    | .ok fd => do
      let changes ← directory_changes tree fd WORK_ROOT_PATH item
      pure { pass with findings := pass.findings ++ changes }

/-- The project root -/
def diff_project_root (mount_id : Nat) (pass : Pass Fd) (item : DirectoryEvidence) : Except Raised (Pass Fd) := do
  let changes ← directory_changes tree tree.project_root_fd "" item
  let observed_mount := tree.read_mount_id tree.project_root_fd
  if observed_mount = mount_id then pure { pass with findings := pass.findings ++ changes }
  else do
    let changed ← finding "" .MOUNT_CHANGED [("mount_id", toString observed_mount)]
    pure { pass with findings := pass.findings ++ changes ++ [changed] }

/-- `path.rpartition("/")[2]` -/
def component_of (path : String) : String := (components path).getLastD ""

/-- A directory below the project root. -/
def diff_directory (path : String) (pass : Pass Fd) (item : DirectoryEvidence) : Except Raised (Pass Fd) :=
  if ∃ above ∈ pass.blocked, path = above ∨ starts_with (above ++ "/") path = true then pure pass
  else do
    let parent_fd ← subscript pass.project_fds (parent_text path)
    match tree.open_child_directory parent_fd (component_of path) with
    | .error errno => do
      let found ← open_failure tree parent_fd (component_of path) path item.identity.isNone errno
      pure { pass with findings := pass.findings ++ found, blocked := path :: pass.blocked }
    | .ok fd => do
      let changes ← directory_changes tree fd path item
      pure { pass with findings := pass.findings ++ changes, project_fds := pass.project_fds.put path fd }

/-- One item of the loop of `_diff_approved_topology`. -/
def diff_item (mount_id : Nat) (work_base_fd : Option Fd) (txid : String) (pass : Pass Fd) (item : DirectoryEvidence) :
    Except Raised (Pass Fd) :=
  match item.path with
  | none => diff_work_root tree work_base_fd txid pass item
  | some path => if path = "" then diff_project_root tree mount_id pass item else diff_directory tree path pass item

/-- The depth of a directory's path, or -1 for the work root, which comes first. -/
def pass_depth : Option String → Int
  | none => -1
  | some path => depth path

/-- The order of the pass: by depth, then by path. -/
def pass_le (left right : DirectoryEvidence) : Prop :=
  pass_depth left.path < pass_depth right.path ∨
    pass_depth left.path = pass_depth right.path ∧ left.path.getD "" ≤ right.path.getD ""

instance (left right : DirectoryEvidence) : Decidable (pass_le left right) := inferInstanceAs (Decidable (_ ∨ _))

/-- `_diff_approved_topology` -/
def diff_approved_topology (expected : ApprovalEvidence) (txid : String) : Except Raised (List AssemblyFinding) := do
  let work ← work_base_findings tree expected.work_root
  let pass ← (expected.directories.insertionSort pass_le).foldlM (diff_item tree expected.mount_id work.2 txid)
    { findings := work.1, project_fds := [("", tree.project_root_fd)], blocked := [] }
  pure (sorted_findings pass.findings)

end

end atoms.coordinator

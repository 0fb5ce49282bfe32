import Atoms.Fs.Names
import Atoms.Store.Bodies

open atoms.errors atoms.identifiers atoms.fs atoms.spec checked keyed crash

namespace atoms.store

/-- The metadata root as its lease holds it: the tables, and the volume that its tree is on. -/
structure Metadata where
  db : Database
  disk : Disk

abbrev Storing (α : Type) := Prog Metadata Raised α

def Metadata.tree : Lens Metadata Disk where
  get m := m.disk
  put m disk := { m with disk }
  get_put _ _ := rfl
  put_get _ := rfl
  put_put _ _ _ := rfl

/-- Calls on the tree of the root. -/
def in_tree {α : Type} (p : Call α) : Storing α := Prog.zoom Metadata.tree p

/-- A query of the tables. -/
def query {α : Type} (f : Database → Except Raised α) : Storing α := Prog.read fun m => f m.db

def STAGING_PARENT : String := "staging"

def WORK_PARENT : String := "work"

/-- The two directories of a transaction that are on disk, opened. -/
structure Workspace where
  txid : String
  staging_fd : Option Inode
  work_fd : Option Inode

/-- `os.stat` of a name, without following a symlink. -/
def stat (parent_fd : Inode) (name : String) : Call Entry := Prog.read fun d =>
  match d.lookup parent_fd name with
  | none => .error (.OSError .ENOENT)
  | some entry => .ok entry

def stat_or_none (parent_fd : Inode) (name : String) : Call (Option Entry) := Prog.read fun d =>
  .ok (d.lookup parent_fd name)

/-- A check of the tree against what only the engine may have put there. -/
abbrev require_tree (condition : Prop) [Decidable condition] (message : String) : Call Unit :=
  if condition then pure () else throw (.MetadataStoreInvalid message)

/-- A check of what a caller asks for. -/
abbrev require_asked (condition : Prop) [Decidable condition] (message : String) : Call Unit :=
  if condition then pure () else throw (.AtomsError (.ProtocolError message))

section

variable [UnicodeData]

def require_identifier (label value : String) : Call Unit :=
  require_asked (is_valid_identifier value)
    (label ++ " " ++ py_repr value ++ " is not 1-64 characters of [A-Za-z0-9_-]")

/-- `_parent_fd` -/
def parent_fd (metadata_root_fd : Inode) (name : String) : Call Inode := open_child_directory metadata_root_fd name

/-- `_open_child` -/
def open_child (parent_fd : Inode) (parent txid : String) : Call (Option Inode) :=
  tryCatch (do
      let fd ← open_child_directory parent_fd txid
      pure (some fd))
    fun caught => match caught with
      | .OSError .ENOENT => pure none
      | .OSError .ENOTDIR | .OSError .ELOOP => throw (.MetadataStoreInvalid (parent ++ "/" ++ txid ++
          " is not a directory; create_workspace is the only permitted producer here and it makes directories"))
      | _ => throw caught

/-- One name of `_require_permitted_children`. -/
def require_permitted_child (parent_fd : Inode) (parent name : String) : Call Unit := do
  let info ← stat parent_fd name
  require_tree (info.kind = .directory) (parent ++ "/" ++ name ++
    " is not a directory; no permitted producer could have written it")
  require_tree (is_valid_identifier name) (parent ++ "/" ++ py_repr name ++
    " is not a well-formed txid; no permitted producer could have written it")

/-- `_require_permitted_children` -/
def require_permitted_children (parent_fd : Inode) (parent : String) : Call (List String) := do
  let names ← listdir parent_fd
  (sorted_by id names).forM (require_permitted_child parent_fd parent)
  pure (sorted_by id names)

/-- `_open_both` -/
def open_both (txid : String) (staging_parent work_parent : Inode) : Call Workspace := do
  let staging_fd ← open_child staging_parent STAGING_PARENT txid
  let work_fd ← open_child work_parent WORK_PARENT txid
  pure { txid, staging_fd, work_fd }

/-- The refusal of a survivor in `create_workspace`. -/
def require_no_survivor (parent_fd : Inode) (parent txid : String) : Call Unit := do
  let survivor ← stat_or_none parent_fd txid
  require_asked (survivor = none) (parent ++ "/" ++ txid ++
    " already exists; a survivor is evidence about a previous attempt and adoption would bypass the occupancy question")

def create_workspace (metadata_root_fd : Inode) (txid : String) : Call Workspace := do
  require_identifier "txid" txid
  let staging_parent ← parent_fd metadata_root_fd STAGING_PARENT
  let work_parent ← parent_fd metadata_root_fd WORK_PARENT
  require_no_survivor staging_parent STAGING_PARENT txid
  require_no_survivor work_parent WORK_PARENT txid
  mkdir_child staging_parent txid 0o700
  mkdir_child work_parent txid 0o700
  flush_directory staging_parent
  flush_directory work_parent
  open_both txid staging_parent work_parent

def reopen_workspace (metadata_root_fd : Inode) (txid : String) : Call Workspace := do
  require_identifier "txid" txid
  let staging_parent ← parent_fd metadata_root_fd STAGING_PARENT
  let work_parent ← parent_fd metadata_root_fd WORK_PARENT
  let workspace ← open_both txid staging_parent work_parent
  require_asked (¬ (workspace.staging_fd = none ∧ workspace.work_fd = none))
    ("no workspace on disk for txid " ++ py_repr txid)
  pure workspace

def list_workspaces (metadata_root_fd : Inode) : Call (List String) := do
  let staging_parent ← parent_fd metadata_root_fd STAGING_PARENT
  let staged ← require_permitted_children staging_parent STAGING_PARENT
  let work_parent ← parent_fd metadata_root_fd WORK_PARENT
  let worked ← require_permitted_children work_parent WORK_PARENT
  pure (sorted_by id (staged ++ worked).dedup)

/-- One name of the staging directory that `remove_workspace` is about to empty. -/
def require_staged_file (staging_fd : Inode) (txid name : String) : Call Unit := do
  let info ← stat staging_fd name
  require_tree (info.kind = .file) ("staging/" ++ txid ++ "/" ++ name ++
    " is not a regular file; preimage capture writes regular files and nothing else")

/-- What `remove_workspace` is to unlink. -/
def staging_names (txid : String) : Option Inode → Call (List String)
  | none => pure []
  | some staging_fd => do
    let names ← listdir staging_fd
    (sorted_by id names).forM (require_staged_file staging_fd txid)
    pure (sorted_by id names)

def require_no_work (txid : String) : Option Inode → Call Unit
  | none => pure ()
  | some work_fd => do
    let names ← listdir work_fd
    require_asked (names = []) ("work/" ++ txid ++ "/ is not empty; recovery classifies work-directory contents by " ++
      "inode against the live filesystem before workspace cleanup")

def remove_staging (staging_parent : Inode) (txid : String) (names : List String) : Option Inode → Call Unit
  | none => pure ()
  | some staging_fd => do
    names.forM (unlink_child staging_fd)
    flush_directory staging_fd
    rmdir_child staging_parent txid
    flush_directory staging_parent

def remove_work (work_parent : Inode) (txid : String) : Option Inode → Call Unit
  | none => pure ()
  | some _ => do
    rmdir_child work_parent txid
    flush_directory work_parent

def remove_workspace (metadata_root_fd : Inode) (workspace : Workspace) : Call Unit := do
  let staging_parent ← parent_fd metadata_root_fd STAGING_PARENT
  let work_parent ← parent_fd metadata_root_fd WORK_PARENT
  let names ← staging_names workspace.txid workspace.staging_fd
  require_no_work workspace.txid workspace.work_fd
  remove_staging staging_parent workspace.txid names workspace.staging_fd
  remove_work work_parent workspace.txid workspace.work_fd

end

end atoms.store

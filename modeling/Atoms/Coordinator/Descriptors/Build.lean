import Atoms.Coordinator.Descriptors
import Atoms.Fs.Approval
import Atoms.Fs.Observe

open atoms.errors atoms.effects atoms.fs atoms.paths atoms.recovery atoms.compiler checked crash keyed

namespace atoms.coordinator

/-- What is asked of a directory besides its names: where it is mounted, and how names are looked up in it. -/
structure Mounts where
  device : Nat
  /-- The bound volume's mount. -/
  mount_id : Nat
  read_mount_id : Inode → Nat
  read_lookup_constraints : Inode → Except Raised DirectoryConstraints

/-- A value that is computed without a call, or its error. -/
def lifted {α : Type} (value : Except Raised α) : Call α := Prog.read fun _ => value

/-- `_NAMESPACE_CONTRADICTIONS` -/
def NAMESPACE_CONTRADICTIONS : List Errno := [.ENOENT, .ENOTDIR, .ELOOP, .EXDEV]

/-- `translated_lookup`, then the translation of a denied access. -/
def translated_open {α : Type} (context : String) (call : Call α) : Call α :=
  tryCatch call fun caught => match caught with
    | .OSError errno =>
      if errno ∈ NAMESPACE_CONTRADICTIONS then throw (.AtomsError (.PreconditionRefused
        ("the namespace no longer matches approval while " ++ context)))
      else if errno = .EOPNOTSUPP then throw (.AtomsError (.CapabilityUnavailable
        ("the backend cannot supply the semantics needed while " ++ context)))
      else if errno = .EACCES then throw (.AtomsError (.PreconditionRefused ("access was denied " ++ context)))
      else throw caught
    | _ => throw caught

/-- Where a walk stands: the descriptors it has opened, the stops with what is there, and every node at which it has
stopped, also for its parent's stop. -/
structure Descent where
  fds : List (TopologyNode × Inode)
  stops : List (WalkStop × ObservedEntry)
  stopped_nodes : List TopologyNode

/-- A table, and what was observed at each of its stops. -/
structure Descended where
  table : DescriptorTable
  stops : List (WalkStop × ObservedEntry)

variable [UnicodeData]

/-- What execution reads of an approval. -/
def executed (approved : fs.ProjectApprovedSpec) : ProjectApprovedSpec where
  compiled := approved.compiled
  txid := approved.txid
  topology := approved.topology
  directories := approved.directories.map fun entry => { node := entry.node, planned := entry.planned }
  paths := approved.paths
  scratch := approved.scratch

/-- `_validate_open_directory` -/
def validate_open_directory (approved : fs.ProjectApprovedSpec) (mounts : Mounts) (fd : Inode) (node : TopologyNode) :
    Except Raised Unit := do
  let constraints ← mounts.read_lookup_constraints fd
  require (mounts.read_mount_id fd = mounts.mount_id) (.AtomsError (.PreconditionRefused (node_repr node ++
    " is on mount " ++ toString (mounts.read_mount_id fd) ++ ", not the bound volume's " ++ toString mounts.mount_id)))
  match approved.directories.find? fun entry => entry.node = node with
  | none => protocol_error (node_repr node ++ " bears a descriptor but has no approved directory record")
  | some baseline => do
    require (constraints = baseline.constraints) (.AtomsError (.PreconditionRefused (node_repr node ++
      " has constraints " ++ constraints.py_repr ++ ", not " ++ baseline.constraints.py_repr)))
    match baseline with
    | .ApprovedPlannedDirectory _ _ => pure ()
    | .ApprovedExistingDirectory _ identity _ =>
      require (⟨mounts.device, fd⟩ = identity) (.AtomsError (.PreconditionRefused (node_repr node ++ " has identity " ++
        FilesystemIdentity.py_repr ⟨mounts.device, fd⟩ ++ ", not " ++ identity.py_repr)))

/-- `_modeled_children`: the declared names directly beneath a node. -/
def modeled_children (paths : List (TopologyNode × String)) (node : TopologyNode) : List String :=
  let lead := (path_of paths node).getD ""
  let base := if lead = "" then [] else lead.toList ++ ['/']
  paths.filterMap fun item =>
    let rest := item.2.toList.drop base.length
    if base.isPrefixOf item.2.toList ∧ item.2 ≠ lead ∧ '/' ∉ rest then some (String.ofList rest) else none

variable [Sha256]

/-- One node of the walk of `_build_descriptor_table`. -/
def descend (approved : fs.ProjectApprovedSpec) (mounts : Mounts) (paths : List (TopologyNode × String))
    (descent : Descent) (node : TopologyNode) : Call Descent := do
  let parent ← lifted (parent_of (executed approved) node)
  match find_key Prod.fst descent.fds parent with
  | none => do
    lifted (require (parent ∈ descent.stopped_nodes) (.AtomsError (.ProtocolError (node_repr node ++
      " was reached before its parent " ++ node_repr parent ++
      " was opened or stopped; the walk is not visiting parents first"))))
    pure { descent with stopped_nodes := descent.stopped_nodes ++ [node] }
  | some (_, parent_fd) => do
    let name ← lifted (component paths parent node)
    if (approved.directories.find? fun entry => entry.node = node ∧ entry.planned = true).isSome then do
      let observed ← observe parent_fd name (modeled_children paths node)
      let stop : WalkStop := ⟨node, (path_of paths node).getD "", parent_fd, name⟩
      pure { descent with
        stops := descent.stops ++ [(stop, observed)], stopped_nodes := descent.stopped_nodes ++ [node] }
    else do
      let fd ← translated_open ("opening " ++ py_repr name ++ " for " ++ node_repr node)
        (open_child_directory parent_fd name)
      lifted (validate_open_directory approved mounts fd node)
      pure { descent with fds := descent.fds ++ [(node, fd)] }

/-- The roots of the walk: the project root, and the work root if the approval has one. -/
def open_roots (approved : fs.ProjectApprovedSpec) (mounts : Mounts) (project_root_fd work_fd : Inode) :
    Except Raised (List (TopologyNode × Inode)) := do
  validate_open_directory approved mounts project_root_fd .ProjectRoot
  match approved.work_base with
  | none => pure [(.ProjectRoot, project_root_fd)]
  | some _ => do
    validate_open_directory approved mounts work_fd .WorkRoot
    pure [(.ProjectRoot, project_root_fd), (.WorkRoot, work_fd)]

/-- `_build_descriptor_table` -/
def build_descriptor_table (approved : fs.ProjectApprovedSpec) (mounts : Mounts) (project_root_fd work_fd : Inode) :
    Call Descended := do
  let paths ← lifted (directory_paths (executed approved))
  let fds ← lifted (open_roots approved mounts project_root_fd work_fd)
  let order ← lifted (walk_order (executed approved) paths)
  let descent ← order.foldlM (descend approved mounts paths) { fds, stops := [], stopped_nodes := [] }
  pure
    { table :=
        { fds := descent.fds
          stops := descent.stops.map Prod.fst
          unreachable := closure (executed approved) descent.stopped_nodes }
      stops := descent.stops }

end atoms.coordinator

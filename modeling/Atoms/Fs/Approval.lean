import Atoms.Fs.Judgment

open atoms.errors atoms.effects atoms.identifiers atoms.paths atoms.spec atoms.recovery atoms.compiler checked dict

namespace atoms.fs

/-- What approval reads of a bound project, and the txid. -/
structure ProjectContext where
  tree : ProjectTree
  metadata_identity : FilesystemIdentity
  path_max : Nat
  filesystem_type : String
  work_base : DirectoryFacts
  mount_id : Nat
  txid : String

/-- `ProjectApprovedSpec`; `work_base` is the `ApprovedWorkBase`. -/
structure ProjectApprovedSpec [UnicodeData] where
  compiled : CompiledSpec
  txid : String
  topology : RecoveryTopology
  directories : List ApprovedDirectory
  directory_paths : List (Prefix × TopologyNode)
  paths : List ApprovedPath
  scratch : List ApprovedScratch
  work_base : Option DirectoryFacts

/-- One directory of the approval evidence. -/
structure DirectoryEvidence where
  node : String
  path : Option String
  identity : Option FilesystemIdentity
  constraints : DirectoryConstraints
  deriving DecidableEq

structure ApprovalEvidence where
  directories : List DirectoryEvidence
  mount_id : Nat
  work_root : Option DirectoryFacts
  deriving DecidableEq

variable [UnicodeData]

/-- `_node_key` -/
def node_key : TopologyNode → Except Raised String
  | .ProjectRoot => pure "project_root"
  | .WorkRoot => pure "work_root"
  | .TopologyDirectory node_id => do
    require (0 ≤ node_id) (.AtomsError (.ProtocolError "topology directory node_id is not a canonical decimal"))
    pure ("topology_directory:" ++ toString node_id)
  | .PersistentNode path => pure ("persistent:" ++ path)
  | .ScratchNode _ _ => topology_error "ScratchNode is not a directory topology node with a stable key"

/-- The document that `encode_approval_evidence` writes. -/
def approval_evidence (approved : ProjectApprovedSpec) (mount_id : Nat) : Except Raised ApprovalEvidence := do
  let directories ← approved.directories.mapM fun entry => do
    let node ← node_key entry.node
    let path ← if entry.node = .WorkRoot then pure none
      else do
        let path ← subscript (approved.directory_paths.map fun route => (route.2, joined route.1)) entry.node
        pure (some path)
    let identity := match entry with
      | .ApprovedExistingDirectory _ identity _ => some identity
      | .ApprovedPlannedDirectory _ _ => none
    pure { node, path, identity, constraints := entry.constraints : DirectoryEvidence }
  pure { directories := sorted_by DirectoryEvidence.node directories, mount_id, work_root := approved.work_base }

/-- `_proof_directory_paths` -/
def proof_directory_paths (resolved : ResolvedTopology) : Except Raised (List (Prefix × TopologyNode)) := do
  let routes ← (resolved.directories.filter fun entry => entry.node ≠ .WorkRoot).mapM fun entry =>
    match resolved.directory_nodes.filter fun route => route.2 = entry.node with
    | [route] => pure (route.1, entry.node)
    | found => topology_error ("approved directory " ++ node_repr entry.node ++ " has " ++ toString found.length ++
        " project routes")
  pure (sorted_by (fun route => joined route.1) routes)

/-- Phase B: where each declared path leads, in path order. -/
def resolve_all (context : ProjectContext) (compiled : CompiledSpec) : Except Raised (Dict RelPath ResolvedPrefix) :=
  (sorted_by id compiled.paths).mapM fun path => do
    let resolved ← resolve context.tree context.metadata_identity path context.path_max
    pure (path, resolved)

/-- The work base, and what a directory under it inherits; only a spec that creates a directory needs them. -/
def approve_work_base (context : ProjectContext) (compiled : CompiledSpec) :
    Except Raised (Option (DirectoryFacts × DirectoryConstraints)) :=
  if created_paths compiled.effects = [] then pure none
  else do
    require (context.work_base.constraints.lookup_proof ≠ .UNREPRODUCIBLE_CASEFOLD)
      (approval_refused "metadata_root/work is a casefold directory; its lookup relation cannot be reproduced")
    require (width context.txid ≤ context.work_base.constraints.name_max) (approval_refused ("txid " ++
      py_repr context.txid ++ " is " ++ toString (width context.txid) ++ " bytes, over the work base name limit of " ++
      toString context.work_base.constraints.name_max))
    let constraints ← inherited_constraints context.work_base.constraints context.filesystem_type
    pure (some (context.work_base, constraints))

/-- The check that recovery, which finds directories that it has made, leaves out. -/
def unless_recovering (recovering : Bool) (check : Except Raised Unit) : Except Raised Unit :=
  if recovering then pure () else check

/-- Phase A, as far as the txid goes. -/
def require_txid (txid : String) : Except Raised Unit :=
  match require_valid_identifier "txid" txid with
  | .error (.SpecValidationError caught) => throw (.AtomsError (.ProtocolError
      ("approve_for_project requires a well-formed txid: " ++ caught)))
  | .error other => throw (.AtomsError other)
  | .ok () => pure ()

/-- Phase C: the topology, and every judgment on it. -/
def judge (compiled : CompiledSpec) (prefixes : Dict RelPath ResolvedPrefix) (filesystem_type : String)
    (work_constraints : Option DirectoryConstraints) (recovering : Bool) : Except Raised ResolvedTopology := do
  let resolved ← build_topology compiled prefixes filesystem_type work_constraints
  require_endpoints_distinct resolved
  unless_recovering recovering (require_ancestors_legal compiled prefixes resolved)
  require_resolved_surface_and_ordering compiled resolved
  pure resolved

/-- `_approve` -/
def approve (compiled : CompiledSpec) (context : ProjectContext) (recovery_evidence : Option ApprovalEvidence) :
    Except Raised ProjectApprovedSpec := do
  require_txid context.txid
  let prefixes ← resolve_all context compiled
  let work ← approve_work_base context compiled
  let resolved ← judge compiled prefixes context.filesystem_type (work.map Prod.snd) recovery_evidence.isSome
  let scratch ← bind_scratch compiled context.txid resolved
  let directory_paths ← proof_directory_paths resolved
  let approved :=
    { compiled
      txid := context.txid
      topology := resolved.topology
      directories := resolved.directories
      directory_paths
      paths := resolved.paths
      scratch
      work_base := work.map Prod.fst }
  match recovery_evidence with
  | none => pure approved
  | some evidence => do
    let found ← approval_evidence approved context.mount_id
    require (found = evidence)
      (approval_refused "the recovery approval does not match the durable approval evidence")
    pure approved

end atoms.fs

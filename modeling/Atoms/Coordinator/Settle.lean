import Atoms.Coordinator.Descriptors
import Atoms.Fs.Observe
import Atoms.Recovery.Authorization

open atoms.errors atoms.effects atoms.fs atoms.recovery atoms.paths atoms.compiler checked keyed crash

namespace atoms.coordinator

variable [UnicodeData] [Sha256]

/-- A check that calls nothing. -/
def checked_call {α : Type} (value : Except Raised α) : Call α := Prog.read fun _ => value

/-- A check of the recovery model. -/
def modeled {α : Type} : Except AtomsError α → Except Raised α
  | .ok value => .ok value
  | .error error => .error (.AtomsError error)

/-- `path.rsplit("/", 1)[-1]` -/
def last_component (path : String) : String := ((components path).getLast?).getD path

/-- `_children`: the children of each node, with their names. -/
def children (approved : ProjectApprovedSpec) : Except Raised (List (TopologyNode × TopologyNode × String)) := do
  let directory_paths ← directory_paths approved
  let rows ← approved.topology.parents.mapM fun edge => match edge.node with
    | .PersistentNode path => match find_key ApprovedPath.path approved.paths path with
      | some row => pure (some (edge.parent, edge.node, row.leaf))
      | none => protocol_error ("approved proof has no path row for " ++ py_repr path)
    | .ScratchNode effect_id role =>
      match find_key (fun row : ApprovedScratch => (row.effect_id, row.role)) approved.scratch (effect_id, role) with
      | some row => pure (some (edge.parent, edge.node, row.leaf))
      | none => protocol_error ("approved proof has no scratch row for " ++ py_repr effect_id)
    | .TopologyDirectory _ => match path_of directory_paths edge.node with
      | some path => pure (some (edge.parent, edge.node, last_component path))
      | none => protocol_error (node_label edge.node ++ " has no path")
    | _ => pure none
  pure (rows.filterMap id)

/-- The names of a node's children. -/
def child_names (children : List (TopologyNode × TopologyNode × String)) (parent : TopologyNode) : List String :=
  (children.filter fun row => row.1 = parent).map fun row => row.2.2

/-- `_effect` -/
def effect_named (approved : ProjectApprovedSpec) (effect_id : String) : Except Raised Effect :=
  match approved.compiled.spec.effects.find? fun effect => effect.effect_id = effect_id with
  | some effect => pure effect
  | none => protocol_error ("the durable spec has no effect " ++ py_repr effect_id)

/-- `effect.post`, of an effect that stages a file. -/
def staged_state : Effect → Option fingerprint.FileState
  | .ReplaceFile e => some e.post
  | .CreateFileNoClobber e => some e.post
  | _ => none

/-- The relation of a staged file to the planned content. -/
def staged_relation (blobs : Blobs) (effect : Effect) (identity : EntryIdentity) : Call (Option FileBuildRelation) :=
  match staged_state effect with
  | none => throw (.AtomsError (.ProtocolError "the effect stages no file"))
  | some state => do
    let planned ← open_blob blobs state.content_hash
    let relation ← build_relation identity planned
    pure (some relation)

/-- `_observe_occupancy` -/
def observe_occupancy (table : DescriptorTable) (children : List (TopologyNode × TopologyNode × String))
    (expected : ParentOccupancy) : Call ParentOccupancy := do
  let fd ← checked_call (table.fd_for expected.parent)
  let names ← listdir fd
  let rows := children.filter fun row => row.1 = expected.parent
  pure
    { parent := expected.parent
      present_children := (rows.filter fun row => row.2.2 ∈ names).map fun row => row.2.1
      has_unmodeled_child := some (names.any fun name => name ∉ rows.map fun row => row.2.2) }

/-- The observation of one declared path. -/
def observe_persistent (approved : ProjectApprovedSpec) (table : DescriptorTable)
    (children : List (TopologyNode × TopologyNode × String)) (path : RelPath) : Call PersistentObservation := do
  let (fd, leaf) ← checked_call (approved_path approved table path)
  let entry ← observe fd leaf (child_names children (.PersistentNode path))
  pure { path, entry }

/-- Where the approved proof puts a scratch name. -/
def scratch_row (approved : ProjectApprovedSpec) (table : DescriptorTable) (effect_id : String) (role : ScratchRole) :
    Except Raised (Inode × String) :=
  match find_key (fun row : ApprovedScratch => (row.effect_id, row.role)) approved.scratch (effect_id, role) with
  | none => protocol_error ("approved proof has no scratch row for " ++ py_repr effect_id)
  | some row => do
    let fd ← table.fd_for row.parent_node
    pure (fd, row.leaf)

/-- The observation of one scratch name, with its build relation where the coverage has one. -/
def observe_scratch (blobs : Blobs) (approved : ProjectApprovedSpec) (table : DescriptorTable)
    (children : List (TopologyNode × TopologyNode × String)) (item : ScratchObservation) :
    Call ScratchObservation := do
  let (fd, leaf) ← checked_call (scratch_row approved table item.effect_id item.role)
  let entry ← observe fd leaf (child_names children (.ScratchNode item.effect_id item.role))
  let file_build_relation ← match item.file_build_relation, entry with
    | some _, .ObservedFile _ identity => do
      let effect ← checked_call (effect_named approved item.effect_id)
      staged_relation blobs effect identity
    | _, _ => pure none
  pure { effect_id := item.effect_id, role := item.role, entry, file_build_relation }

/-- `_observe_joint` -/
def observe_joint (blobs : Blobs) (approved : ProjectApprovedSpec) (table : DescriptorTable)
    (coverage : JointObservation) : Call JointObservation := do
  let children ← checked_call (children approved)
  let persistent ← coverage.persistent.mapM fun item => observe_persistent approved table children item.path
  let scratch ← coverage.scratch.mapM (observe_scratch blobs approved table children)
  let parent_occupancy ← coverage.parent_occupancy.mapM (observe_occupancy table children)
  pure { persistent, scratch, parent_occupancy }

/-- `_require_result` -/
def require_result (blobs : Blobs) (approved : ProjectApprovedSpec) (table : DescriptorTable)
    (expected : JointObservation) : Call Unit := do
  let observed ← observe_joint blobs approved table expected
  let observed_projection ← checked_call (modeled (authorization.authorization_projection observed))
  let expected_projection ← checked_call (modeled (authorization.authorization_projection expected))
  require_match (observed_projection = expected_projection) "verify_settlement" "covered tuple"

/-- The mutation of a settlement cell, and the directories to flush after it. -/
def settle (effect : Effect) (site : Site) (step : TransformEffectTuple) : Call (List Inode) :=
  match step.variant, step.settlement, effect, site with
  | .REPLACE_FILE, .RESTORE_PRE, .ReplaceFile effect, .ReplaceSite site => do
    run_determinate .exchange effect.path [] (exchange site.parent_fd site.live_leaf site.staging_leaf)
    pure [site.parent_fd]
  | .CREATE_FILE_NO_CLOBBER, .REMOVE_ATTRIBUTABLE_CREATION, .CreateFileNoClobber effect, .CreateFileSite site => do
    run_determinate .transfer_noclobber effect.path []
      (transfer_noclobber site.parent_fd site.live_leaf site.parent_fd site.staging_leaf)
    pure [site.parent_fd]
  | .DELETE_PATH, .RESTORE_PRE, .DeletePath effect, .DeleteSite site => do
    run_determinate .transfer_noclobber effect.path []
      (transfer_noclobber site.parent_fd site.tombstone_leaf site.parent_fd site.live_leaf)
    pure [site.parent_fd]
  | .MOVE_NO_CLOBBER, .RESTORE_PRE, .MoveNoClobber effect, .MoveSite site => do
    run_determinate .transfer_noclobber effect.source []
      (transfer_noclobber site.destination_fd site.destination_leaf site.source_fd site.source_leaf)
    pure [site.source_fd, site.destination_fd]
  | .MOVE_NO_CLOBBER, .REPAIR_INTERMEDIATE, .MoveNoClobber effect, .MoveSite site =>
    let source := step.expected_before.persistent_entry 0
    let destination := step.expected_before.persistent_entry 1
    let anchor := step.expected_before.scratch_entry
    if source.is_absent ∧ destination.is_absent ∧ anchor.is_file then do
      run_determinate .link_anchor effect.source []
        (link_anchor site.source_fd site.anchor_leaf site.source_fd site.source_leaf)
      pure [site.source_fd]
    else if destination.is_file ∧ anchor.is_file then do
      run_determinate .unlink_child effect.destination [] (unlink_child site.destination_fd site.destination_leaf)
      pure [site.destination_fd]
    else throw (.AtomsError (.ProtocolError "move repair transform has an unrecognized recovery tuple"))
  | .CREATE_DIRECTORY, .REMOVE_ATTRIBUTABLE_CREATION, .CreateDirectory effect, .MkdirSite site => do
    run_determinate .rmdir_child effect.path [] (rmdir_child site.parent_fd site.live_leaf)
    pure [site.parent_fd]
  | _, _, _, _ => throw (.AtomsError (.ProtocolError "transform variant does not match the durable effect"))

def apply_transform (blobs : Blobs) (approved : ProjectApprovedSpec) (table : DescriptorTable)
    (step : TransformEffectTuple) : Call Unit := do
  let effect ← checked_call (effect_named approved step.effect_id)
  let site ← checked_call (site_for approved table effect)
  let parents ← settle effect site step
  require_result blobs approved table step.result_after
  parents.forM flush_directory

def apply_remove_scratch (blobs : Blobs) (approved : ProjectApprovedSpec) (table : DescriptorTable)
    (step : RemoveScratch) : Call Unit := do
  match approved.scratch.find? fun row => row.effect_id = step.effect_id ∧ row.role = step.role with
  | none => throw (.AtomsError (.ProtocolError "the approved proof has no row for this scratch slot"))
  | some row => do
    let parent_fd ← checked_call (table.fd_for row.parent_node)
    match step.expected_before.scratch_entry with
    | .ObservedDirectory _ _ _ => run_determinate .rmdir_child row.leaf [] (rmdir_child parent_fd row.leaf)
    | .ObservedFile _ _ => run_determinate .unlink_child row.leaf [] (unlink_child parent_fd row.leaf)
    | .ObservedSymlink _ => run_determinate .unlink_child row.leaf [] (unlink_child parent_fd row.leaf)
    | _ => throw (.AtomsError (.ProtocolError "RemoveScratch expected a present file, symlink, or directory"))
    require_result blobs approved table step.result_after
    flush_directory parent_fd

/-- `_execute_mutating` -/
def execute_mutating (blobs : Blobs) (approved : ProjectApprovedSpec) (table : DescriptorTable)
    (authorized : AuthorizedStep) : Call Unit :=
  match authorized.step with
  | .TransformEffectTuple step => apply_transform blobs approved table step
  | .RemoveScratch step => apply_remove_scratch blobs approved table step

end atoms.coordinator

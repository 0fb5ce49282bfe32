import Atoms.Coordinator.Effects
import Atoms.Fs.Topology

open atoms.errors atoms.effects atoms.fs atoms.paths atoms.recovery atoms.compiler checked keyed

namespace atoms.coordinator

/-- `ApprovedExistingDirectory | ApprovedPlannedDirectory` -/
structure ApprovedDirectory where
  node : TopologyNode
  planned : Bool

/-- The approval of a spec for one project and one txid, as far as execution reads it. -/
structure ProjectApprovedSpec [UnicodeData] where
  compiled : CompiledSpec
  txid : String
  topology : RecoveryTopology
  directories : List ApprovedDirectory
  paths : List ApprovedPath
  scratch : List ApprovedScratch

/-- Where the walk stopped: a planned directory that has no descriptor yet. -/
structure WalkStop where
  node : TopologyNode
  path : String
  parent_fd : Inode
  component : String

/-- The descriptors that the engine holds, by topology node. -/
structure DescriptorTable where
  fds : List (TopologyNode × Inode)
  stops : List WalkStop
  unreachable : List TopologyNode

/-- `raise ProtocolError(message)` -/
def protocol_error {α : Type} (message : String) : Except Raised α := throw (.AtomsError (.ProtocolError message))

/-- A node's text in a message. -/
def node_label : TopologyNode → String
  | .ProjectRoot => "ProjectRoot()"
  | .WorkRoot => "WorkRoot()"
  | .TopologyDirectory node_id => "TopologyDirectory(node_id=" ++ toString node_id ++ ")"
  | .PersistentNode path => "PersistentNode(path=" ++ path ++ ")"
  | .ScratchNode effect_id role => "ScratchNode(effect_id=" ++ effect_id ++ ", role=" ++ role.value ++ ")"

/-- `paths[node]` -/
def path_of (paths : List (TopologyNode × String)) (node : TopologyNode) : Option String :=
  (find_key Prod.fst paths node).map Prod.snd

namespace DescriptorTable

def fd_for (table : DescriptorTable) (node : TopologyNode) : Except Raised Inode :=
  match find_key Prod.fst table.fds node with
  | some (_, fd) => pure fd
  | none => protocol_error (node_label node ++ " has no descriptor in this table")

def is_unreachable (table : DescriptorTable) (node : TopologyNode) : Bool := node ∈ table.unreachable

def adopt (table : DescriptorTable) (node : TopologyNode) (fd : Inode) : Except Raised DescriptorTable := do
  require ((find_key Prod.fst table.fds node).isNone)
    (.AtomsError (.ProtocolError (node_label node ++ " already has a descriptor in this table")))
  require (node ∈ table.stops.map WalkStop.node)
    (.AtomsError (.ProtocolError (node_label node ++ " is not a stopped planned directory")))
  pure
    { fds := table.fds ++ [(node, fd)]
      stops := table.stops.filter fun stop => stop.node ≠ node
      unreachable := table.unreachable.filter fun other => other ≠ node }

end DescriptorTable

/-- `path.rpartition("/")[0]` -/
def parent_text (path : String) : String := String.intercalate "/" (components path).dropLast

/-- The climb from a path's parent up to a node that already has a path. -/
def climb (edges : List TopologyParent) : (fuel : Nat) → List (TopologyNode × String) → TopologyNode → String →
    Except Raised (List (TopologyNode × String))
  | 0, paths, _, _ => pure paths
  | fuel + 1, paths, node, lead =>
    if (path_of paths node).isSome then pure paths
    else match topology.parent_of edges node with
      | none => protocol_error (node_label node ++ " has no parent edge")
      | some parent => climb edges fuel (paths ++ [(node, lead)]) parent (parent_text lead)

section

variable [UnicodeData]

/-- `_directory_paths` -/
def directory_paths (approved : ProjectApprovedSpec) : Except Raised (List (TopologyNode × String)) :=
  approved.paths.foldlM (fun paths entry =>
    climb approved.topology.parents (approved.topology.parents.length + 1)
      (paths ++ [(.PersistentNode entry.path, entry.path)]) entry.parent_node (parent_text entry.path))
    [(.ProjectRoot, "")]

/-- `path.count("/")` -/
def depth (path : String) : Nat := path.toList.count '/'

/-- `_walk_order` -/
def walk_order (approved : ProjectApprovedSpec) (paths : List (TopologyNode × String)) :
    Except Raised (List TopologyNode) := do
  let directories := (approved.directories.map ApprovedDirectory.node).filter fun node =>
    node ≠ .ProjectRoot ∧ node ≠ .WorkRoot
  match directories.find? fun node => (path_of paths node).isNone with
  | some missing => protocol_error (node_label missing ++
      " has no path in the walk's directory table; the topology and the approved directories disagree")
  | none => pure (directories.insertionSort fun left right =>
      depth ((path_of paths left).getD "") ≤ depth ((path_of paths right).getD ""))

/-- `_parent_of` -/
def parent_of (approved : ProjectApprovedSpec) (node : TopologyNode) : Except Raised TopologyNode :=
  match approved.topology.parents.find? fun edge => edge.node = node with
  | some edge => pure edge.parent
  | none => protocol_error (node_label node ++ " has no parent edge in the approved topology")

/-- One pass of `_closure`: the nodes below a node that is already unreachable. -/
def close_once (edges : List TopologyParent) (unreachable : List TopologyNode) : List TopologyNode :=
  edges.foldl (fun found edge => if edge.parent ∈ found ∧ edge.node ∉ found then found ++ [edge.node] else found)
    unreachable

/-- `_closure`: each pass but the last adds a node. -/
def closure (approved : ProjectApprovedSpec) (stopped : List TopologyNode) : List TopologyNode :=
  (close_once approved.topology.parents)^[approved.topology.parents.length + 1] stopped

/-- `_component` -/
def component (paths : List (TopologyNode × String)) (parent node : TopologyNode) : Except Raised String :=
  let child_path := (path_of paths node).getD ""
  let parent_path := (path_of paths parent).getD ""
  let remainder := (child_path.toList.drop parent_path.toList.length).dropWhile fun c => c = '/'
  if remainder = [] ∨ '/' ∈ remainder then
    protocol_error (child_path ++ " is not one component below " ++ parent_path ++
      "; the walk would have to assemble a multi-component path")
  else pure (String.ofList remainder)

/-- `_register_planned_children`, less the observations, which forward execution does not read. -/
def register_planned_children (table : DescriptorTable) (approved : ProjectApprovedSpec) (node : TopologyNode) :
    Except Raised DescriptorTable := do
  let paths ← directory_paths approved
  let planned := (approved.directories.filter fun entry => entry.planned).map ApprovedDirectory.node
  let parent_fd ← table.fd_for node
  let order ← walk_order approved paths
  let stops ← order.foldlM (fun stops child => do
    let parent ← if child ∈ planned then (do
        let parent ← parent_of approved child
        pure (some parent))
      else pure none
    if parent = some node then do
      let name ← component paths node child
      pure (stops ++ [⟨child, (path_of paths child).getD "", parent_fd, name⟩])
    else pure stops) table.stops
  pure { table with stops, unreachable := closure approved (stops.map WalkStop.node) }

/-! Sites. -/

def approved_path (approved : ProjectApprovedSpec) (table : DescriptorTable) (value : RelPath) :
    Except Raised (Inode × String) :=
  match find_key ApprovedPath.path approved.paths value with
  | none => protocol_error ("approved proof has no path row for " ++ py_repr value)
  | some entry => do
    let fd ← table.fd_for entry.parent_node
    pure (fd, entry.leaf)

def scratch_slot (approved : ProjectApprovedSpec) (table : DescriptorTable) (effect : Effect) (role : ScratchRole) :
    Except Raised (Inode × String) :=
  match find_key (fun entry : ApprovedScratch => (entry.effect_id, entry.role)) approved.scratch
      (effect.effect_id, role) with
  | none => protocol_error ("approved proof has no " ++ role.value ++ " scratch row for " ++ py_repr effect.effect_id)
  | some entry => do
    let fd ← table.fd_for entry.parent_node
    pure (fd, entry.leaf)

/-- `raise ProtocolError(message)` if two parents differ. -/
abbrev require_same_parent (left right : Inode) (message : String) : Except Raised Unit :=
  require (left = right) (.AtomsError (.ProtocolError message))

/-- `_site_for` -/
def site_for (approved : ProjectApprovedSpec) (table : DescriptorTable) (effect : Effect) : Except Raised Site :=
  match effect with
  | .ReplaceFile e => do
    let (parent_fd, live_leaf) ← approved_path approved table e.path
    let (scratch_fd, staging_leaf) ← scratch_slot approved table effect .STAGING
    require_same_parent scratch_fd parent_fd "replace staging and live path have different parents"
    pure (.ReplaceSite { effect_id := e.effect_id, parent_fd, live_leaf, staging_leaf })
  | .CreateFileNoClobber e => do
    let (parent_fd, live_leaf) ← approved_path approved table e.path
    let (scratch_fd, staging_leaf) ← scratch_slot approved table effect .STAGING
    require_same_parent scratch_fd parent_fd "create staging and live path have different parents"
    pure (.CreateFileSite { effect_id := e.effect_id, parent_fd, live_leaf, staging_leaf })
  | .DeletePath e => do
    let (parent_fd, live_leaf) ← approved_path approved table e.path
    let (scratch_fd, tombstone_leaf) ← scratch_slot approved table effect .TOMBSTONE
    require_same_parent scratch_fd parent_fd "delete tombstone and live path have different parents"
    pure (.DeleteSite { effect_id := e.effect_id, parent_fd, live_leaf, tombstone_leaf })
  | .MoveNoClobber e => do
    let (source_fd, source_leaf) ← approved_path approved table e.source
    let (destination_fd, destination_leaf) ← approved_path approved table e.destination
    let (anchor_fd, anchor_leaf) ← scratch_slot approved table effect .ANCHOR
    require_same_parent anchor_fd source_fd "move anchor and source path have different parents"
    pure (.MoveSite
      { effect_id := e.effect_id, source_fd, source_leaf, anchor_leaf, destination_fd, destination_leaf })
  | .CreateDirectory e => do
    let (parent_fd, live_leaf) ← approved_path approved table e.path
    let (work_fd, work_leaf) ← scratch_slot approved table effect .WORK
    pure (.MkdirSite { effect_id := e.effect_id, work_fd, work_leaf, parent_fd, live_leaf })

end

end atoms.coordinator

import Atoms.Core.Compiler
import Atoms.Recovery.Model

open atoms.errors atoms.effects atoms.compiler checked keyed

namespace atoms.recovery

inductive TopologyNode
  | ProjectRoot
  | WorkRoot
  | TopologyDirectory (node_id : Int)
  | PersistentNode (path : RelPath)
  | ScratchNode (effect_id : String) (role : ScratchRole)
  deriving DecidableEq

structure TopologyParent where
  node : TopologyNode
  parent : TopologyNode
  deriving DecidableEq

structure RecoveryTopology where
  parents : List TopologyParent
  deriving DecidableEq

def required_scratch_role : Effect → ScratchRole
  | .ReplaceFile _ => .STAGING
  | .CreateFileNoClobber _ => .STAGING
  | .DeletePath _ => .TOMBSTONE
  | .MoveNoClobber _ => .ANCHOR
  | .CreateDirectory _ => .WORK

/-- The key of the one scratch observation that an effect owns. -/
def scratch_key (effect : Effect) : String × ScratchRole := (effect.effect_id, required_scratch_role effect)

def scratch_node (effect : Effect) : TopologyNode := .ScratchNode effect.effect_id (required_scratch_role effect)

/-- `_fail(message)` unless `condition` holds. -/
abbrev require_protocol (condition : Prop) [Decidable condition] (message : String) : Except AtomsError Unit :=
  require condition (.ProtocolError message)

namespace topology

/-- `parents[node]`, where each node has at most one parent. -/
def parent_of (edges : List TopologyParent) (node : TopologyNode) : Option TopologyNode :=
  (find_key TopologyParent.node edges node).map TopologyParent.parent

/-- `children.get(node, ())`: in edge order. -/
def children_of (edges : List TopologyParent) (node : TopologyNode) : List TopologyNode :=
  (edges.filter fun edge => edge.parent = node).map TopologyParent.node

/-- Every node that an edge names. -/
def nodes_of (edges : List TopologyParent) : List TopologyNode :=
  edges.flatMap fun edge => [edge.node, edge.parent]

def require_edges : List TopologyNode → List TopologyParent → Except AtomsError Unit
  | _, [] => .ok ()
  | seen, edge :: rest => do
    require_protocol (edge.node ≠ edge.parent) "topology may not contain a self-parent edge"
    require_protocol (edge.node ≠ .ProjectRoot) "topology project root may not have a parent"
    require_protocol (edge.node ∉ seen) "topology node has more than one parent"
    require_edges (edge.node :: seen) rest

/-- Count one incoming edge of each of `children` as seen and push those that have none left. -/
def release (indegree : TopologyNode → Int) (worklist : List TopologyNode) :
    List TopologyNode → (TopologyNode → Int) × List TopologyNode
  | [] => (indegree, worklist)
  | child :: rest =>
    let indegree := Function.update indegree child (indegree child - 1)
    release indegree (if indegree child = 0 then child :: worklist else worklist) rest

/-- The worklist loop: `fuel` bounds the number of nodes popped. -/
def visit (edges : List TopologyParent) : Nat → (TopologyNode → Int) → List TopologyNode → List TopologyNode →
    List TopologyNode
  | _, _, [], visited => visited
  | 0, _, _, visited => visited
  | fuel + 1, indegree, node :: worklist, visited =>
    if node ∈ visited then visit edges fuel indegree worklist visited
    else
      let (indegree, worklist) := release indegree worklist (children_of edges node)
      visit edges fuel indegree worklist (node :: visited)

/-- The path whose parent an effect's scratch must share; a directory's work entry has a root of its own. -/
def scratch_sibling : Effect → Option RelPath
  | .ReplaceFile e => some e.path
  | .CreateFileNoClobber e => some e.path
  | .DeletePath e => some e.path
  | .MoveNoClobber e => some e.source
  | .CreateDirectory _ => none

variable [UnicodeData]

def require_scratch_parent (edges : List TopologyParent) (effect : Effect) : Except AtomsError Unit :=
  if required_scratch_role effect = .WORK then
    require_protocol (parent_of edges (scratch_node effect) = some .WorkRoot)
      "topology work scratch must be parented by the work root"
  else
    require_protocol (parent_of edges (scratch_node effect) ≠ some .WorkRoot)
      "topology non-work scratch may not be parented by the work root"

def require_shared_parent (edges : List TopologyParent) (effect : Effect) : Except AtomsError Unit :=
  match scratch_sibling effect with
  | none => .ok ()
  | some path => require_protocol (parent_of edges (scratch_node effect) = parent_of edges (.PersistentNode path))
      "topology scratch and persistent nodes must share the same resolved parent"

def validate_topology (compiled : CompiledSpec) (topology : RecoveryTopology) : Except AtomsError Unit := do
  let edges := topology.parents
  let nodes := nodes_of edges
  require_edges [] edges
  require_protocol (.ProjectRoot ∈ nodes) "topology is missing the project root"
  require_protocol (∀ node ∈ nodes, node = .ProjectRoot ∨ node ∈ edges.map TopologyParent.node)
    "topology node is missing a parent"
  require_protocol (∀ parent ∈ parent_of edges .WorkRoot, parent = .ProjectRoot)
    "topology work root must be parented by the project root"
  require_protocol (set_eq (nodes.filterMap fun | .PersistentNode path => some path | _ => none)
      (compiled.timelines.map (·.path)))
    "topology does not provide exact persistent coverage"
  require_protocol (set_eq (nodes.filterMap fun | .ScratchNode effect_id role => some (effect_id, role) | _ => none)
      (compiled.spec.effects.map scratch_key))
    "topology does not provide exact scratch coverage"
  compiled.spec.effects.forM (require_scratch_parent edges)
  compiled.spec.effects.forM (require_shared_parent edges)
  let indegree := fun node => if node ∈ edges.map TopologyParent.node then (1 : Int) else 0
  require_protocol (set_eq (visit edges (edges.length + 1) indegree [.ProjectRoot] []) nodes)
    "topology must be an acyclic tree rooted at the project root"

end topology

end atoms.recovery

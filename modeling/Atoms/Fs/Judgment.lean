import Atoms.Fs.Topology

open atoms.errors atoms.effects atoms.identifiers atoms.paths atoms.spec atoms.recovery atoms.compiler checked dict

namespace atoms.fs

/-- `_REMOVABLE_KINDS` -/
def REMOVABLE_KINDS : List EntryKind := [.REGULAR_FILE, .SYMLINK]

/-- The path from which an effect takes the entry away. -/
def removed_path : Effect → Option RelPath
  | .DeletePath e => some e.path
  | .MoveNoClobber e => some e.source
  | _ => none

/-- The first effect on each directory, where `path_of` says which path an effect is on. -/
def first_on_directory (path_of : Effect → Option RelPath) (resolved : ResolvedTopology) (effects : List Effect) :
    Dict TopologyNode Nat :=
  effects.zipIdx.foldl (fun found (effect, index) =>
    match (path_of effect).bind fun path => resolved.directory_node (components path) with
    | some node => found.setdefault node index
    | none => found) []

/-- `first_touch` -/
def first_touch (effects : List Effect) : Dict RelPath Nat :=
  effects.zipIdx.foldl (fun found (effect, index) =>
    (occurrences effect).foldl (fun found occurrence => found.setdefault occurrence.path index) found) []

variable [UnicodeData]

/-- `_node_of` -/
def node_of (resolved : ResolvedTopology) (lead : Prefix) : Except Raised TopologyNode :=
  match resolved.directory_node lead with
  | some node => pure node
  | none => topology_error (py_repr (joined lead) ++ " is an ancestor of a declared path but the topology assigned it " ++
      "no directory node; construction and judgment disagree about the candidates")

/-- `_require_frontier_convertible` -/
def require_frontier_convertible (path : RelPath) (resolved : ResolvedPrefix) (component : String) : Except Raised Unit :=
  match resolved.frontier with
  | .AbsentFrontier => pure ()
  | .PresentFrontier _ .DIRECTORY => topology_error ("resolution of " ++ py_repr path ++ " stopped at directory " ++
      py_repr component ++ " with " ++ toString resolved.remainder.length ++
      " components remaining; open_child_directory succeeds on a directory, so the walk should have continued")
  | .PresentFrontier _ kind => require (kind ∈ REMOVABLE_KINDS) (approval_refused ("component " ++ py_repr component ++
      " of " ++ py_repr path ++ " is " ++ kind.value ++
      ", which no effect variant can remove, so no timeline can make it a directory"))

/-- `_require_name_fits` -/
def require_name_fits (name : String) (path : RelPath) (constraints : DirectoryConstraints) : Except Raised Unit :=
  require (width name ≤ constraints.name_max) (approval_refused ("component " ++ py_repr name ++ " of " ++
    py_repr path ++ " is " ++ toString (width name) ++ " bytes, over its parent's NAME_MAX of " ++
    toString constraints.name_max))

/-- `_require_created_first` -/
def require_created_first (ancestor : Prefix) (node : TopologyNode) (path : RelPath) (touched_at : Nat)
    (creators : Dict TopologyNode Nat) : Except Raised Unit :=
  match creators.get node with
  | none => throw (approval_refused (py_repr path ++ " needs directory " ++ py_repr (joined ancestor) ++
      ", which does not exist and which no CreateDirectory effect creates; a parent that neither exists nor is " ++
      "created by this transaction cannot be captured"))
  | some creator => require (creator < touched_at) (approval_refused (py_repr path ++ " is touched by effect " ++
      toString touched_at ++ " but its ancestor " ++ py_repr (joined ancestor) ++ " is created by effect " ++
      toString creator ++ "; outer directory creation must precede every affected descendant"))

/-- `_require_removed_before_creation` -/
def require_removed_before_creation (blocking : Prefix) (node : TopologyNode) (creators removers : Dict TopologyNode Nat) :
    Except Raised Unit := do
  let creator ← subscript creators node
  match removers.get node with
  | none => throw (approval_refused (py_repr (joined blocking) ++
      " exists and is not a directory, but no effect removes it before effect " ++ toString creator ++
      " creates a directory there"))
  | some remover => require (remover < creator) (approval_refused (py_repr (joined blocking) ++
      " is removed by effect " ++ toString remover ++ " and created by effect " ++ toString creator ++
      "; the removal must come first"))

/-- The check of one component of `path` past the frontier of its resolution. -/
def require_ancestor_created (compiled : CompiledSpec) (resolved : ResolvedTopology) (path : RelPath) (index : Nat) :
    Except Raised Unit := do
  let ancestor := (components path).take (index + 1)
  let node ← node_of resolved ancestor
  let parent ← resolved.parent_node_of node
  let constraints ← resolved.constraints_of parent
  require_name_fits ((components path)[index]?.getD "") path constraints
  let touched_at ← subscript (first_touch compiled.effects) path
  require_created_first ancestor node path touched_at (first_on_directory created_path resolved compiled.effects)

/-- `require_ancestors_legal` -/
def require_ancestors_legal (compiled : CompiledSpec) (prefixes : Dict RelPath ResolvedPrefix)
    (resolved : ResolvedTopology) : Except Raised Unit :=
  (sorted_by Prod.fst prefixes).forM fun item => do
    let (path, found) := item
    if found.remainder = [] then pure ()
    else do
      let depth := found.hops.length
      require_frontier_convertible path found ((components path)[depth]?.getD "")
      (List.range' depth ((components path).length - 1 - depth)).forM (require_ancestor_created compiled resolved path)
      match found.frontier with
      | .AbsentFrontier => pure ()
      | .PresentFrontier _ _ => do
        let blocking := (components path).take (depth + 1)
        let node ← node_of resolved blocking
        require_removed_before_creation blocking node (first_on_directory created_path resolved compiled.effects)
          (first_on_directory removed_path resolved compiled.effects)

/-- `require_endpoints_distinct` -/
def require_endpoints_distinct (resolved : ResolvedTopology) : Except Raised Unit := do
  let _ ← resolved.paths.foldlM (fun (seen : Dict (TopologyNode × String) RelPath) entry => do
    let constraints ← resolved.constraints_of entry.parent_node
    require_name_fits entry.leaf entry.path constraints
    let name ← lookup_equivalence_key constraints entry.leaf
    match seen.get (entry.parent_node, name) with
    | some path => throw (approval_refused ("declared paths " ++ py_repr path ++ " and " ++ py_repr entry.path ++
        " name one entry under the actual lookup policy of their shared parent " ++ node_repr entry.parent_node))
    | none => pure (seen.put (entry.parent_node, name) entry.path)) []
  pure ()

/-- `scratch_leaf` -/
def scratch_leaf (txid effect_id : String) (role : ScratchRole) : Except AtomsError String := do
  require_valid_identifier "txid" txid
  require_valid_identifier "effect_id" effect_id
  pure (SCRATCH_SIGIL ++ txid ++ "." ++ effect_id ++ "." ++ role.value)

/-- An error of the layer below. -/
def raised {α : Type} (x : Except AtomsError α) : Except Raised α := x.mapError .AtomsError

/-- `bind_scratch` -/
def bind_scratch (compiled : CompiledSpec) (txid : String) (resolved : ResolvedTopology) :
    Except Raised (List ApprovedScratch) := do
  let bound ← compiled.effects.mapM fun effect => do
    let parent_node ← match topology.scratch_sibling effect with
      | none => pure TopologyNode.WorkRoot
      | some path => resolved.parent_of path
    let leaf ← raised (scratch_leaf txid effect.effect_id (required_scratch_role effect))
    pure { effect_id := effect.effect_id, role := required_scratch_role effect, parent_node, leaf }
  let _ ← bound.foldlM (fun (seen : Dict (TopologyNode × String) String) (entry : ApprovedScratch) => do
    let constraints ← resolved.constraints_of entry.parent_node
    require (width entry.leaf ≤ constraints.name_max) (approval_refused ("scratch leaf " ++ py_repr entry.leaf ++ " is " ++
      toString (width entry.leaf) ++ " bytes, over its parent's name limit of " ++ toString constraints.name_max))
    let name ← lookup_equivalence_key constraints entry.leaf
    match seen.get (entry.parent_node, name) with
    | some leaf => throw (approval_refused ("scratch leaves " ++ py_repr leaf ++ " and " ++ py_repr entry.leaf ++
        " collide in one parent under its actual lookup policy; regenerating the txid is not a remedy because an " ++
        "intrinsic collision recurs under every txid"))
    | none => pure (seen.put (entry.parent_node, name) entry.leaf)) []
  pure bound

end atoms.fs

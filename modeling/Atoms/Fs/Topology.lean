import Atoms.Core.Compiler.Facts
import Atoms.Core.Paths.Components
import Atoms.Fs.Resolve
import Atoms.Library.Dict
import Atoms.Recovery.Topology

open atoms.errors atoms.effects atoms.fingerprint atoms.paths atoms.spec atoms.recovery atoms.compiler checked dict

namespace atoms.fs

/-- A directory's components below the project root; the root itself has none. -/
abbrev Prefix := List String

def ROOT_PREFIX : Prefix := []

inductive ApprovedDirectory
  | ApprovedExistingDirectory (node : TopologyNode) (identity : FilesystemIdentity) (constraints : DirectoryConstraints)
  | ApprovedPlannedDirectory (node : TopologyNode) (constraints : DirectoryConstraints)
  deriving DecidableEq

namespace ApprovedDirectory

def node : ApprovedDirectory → TopologyNode
  | .ApprovedExistingDirectory node _ _ => node
  | .ApprovedPlannedDirectory node _ => node

def constraints : ApprovedDirectory → DirectoryConstraints
  | .ApprovedExistingDirectory _ _ constraints => constraints
  | .ApprovedPlannedDirectory _ constraints => constraints

def planned : ApprovedDirectory → Bool
  | .ApprovedExistingDirectory _ _ _ => false
  | .ApprovedPlannedDirectory _ _ => true

end ApprovedDirectory

structure ApprovedPath where
  path : RelPath
  parent_node : TopologyNode
  leaf : String
  deriving DecidableEq

structure ApprovedScratch where
  effect_id : String
  role : ScratchRole
  parent_node : TopologyNode
  leaf : String
  deriving DecidableEq

structure ResolvedTopology where
  topology : RecoveryTopology
  directories : List ApprovedDirectory
  paths : List ApprovedPath
  directory_nodes : List (Prefix × TopologyNode)

/-- The facts of a directory: what was observed of it, or what it inherits if nothing was. -/
abbrev DirectoryFact := Option FilesystemIdentity × DirectoryConstraints

/-- One key per directory. -/
inductive DirectoryKey
  | identity (identity : FilesystemIdentity)
  | child (parent : DirectoryKey) (name : String)
  deriving DecidableEq

/-- `DirectoryFacts | Frontier` -/
inductive Observed
  | DirectoryFacts (facts : DirectoryFacts)
  | Frontier (frontier : Frontier)
  deriving DecidableEq

def Observed.facts : Observed → Option fs.DirectoryFacts
  | .DirectoryFacts facts => some facts
  | .Frontier _ => none

/-- `_is_same_directory` -/
def is_same_directory (facts : DirectoryFacts) : Observed → Bool
  | .Frontier (.PresentFrontier identity .DIRECTORY) => identity = facts.identity
  | _ => false

/-- `d[key]` -/
def subscript {κ α : Type} [DecidableEq κ] (d : Dict κ α) (key : κ) : Except Raised α :=
  match d.get key with
  | some value => pure value
  | none => throw .KeyError

/-- `_depth_then_name`: parents come before children. -/
def depth_then_name (left right : Prefix) : Prop :=
  left.length < right.length ∨ left.length = right.length ∧ joined left ≤ joined right

instance : DecidableRel depth_then_name := fun _ _ => inferInstanceAs (Decidable (_ ∨ _))

def in_depth_order (leads : List Prefix) : List Prefix := leads.insertionSort depth_then_name

/-! Texts of the values in messages. -/

def FilesystemIdentity.py_repr (identity : FilesystemIdentity) : String :=
  "FilesystemIdentity(device=" ++ toString identity.device ++ ", inode=" ++ toString identity.inode ++ ")"

def LookupProof.py_repr : LookupProof → String
  | .EXACT_BYTES => "<LookupProof.EXACT_BYTES: 'exact_bytes'>"
  | .UNREPRODUCIBLE_CASEFOLD => "<LookupProof.UNREPRODUCIBLE_CASEFOLD: 'unreproducible_casefold'>"

def DirectoryConstraints.py_repr (constraints : DirectoryConstraints) : String :=
  "DirectoryConstraints(lookup_proof=" ++ constraints.lookup_proof.py_repr ++ ", name_max=" ++
    toString constraints.name_max ++ ")"

def EntryKind.py_repr : EntryKind → String
  | .DIRECTORY => "<EntryKind.DIRECTORY: 'directory'>"
  | .REGULAR_FILE => "<EntryKind.REGULAR_FILE: 'regular_file'>"
  | .SYMLINK => "<EntryKind.SYMLINK: 'symlink'>"
  | .OTHER => "<EntryKind.OTHER: 'other'>"

def Observed.py_repr : Observed → String
  | .DirectoryFacts facts => "DirectoryFacts(identity=" ++ facts.identity.py_repr ++ ", constraints=" ++
      facts.constraints.py_repr ++ ")"
  | .Frontier .AbsentFrontier => "AbsentFrontier()"
  | .Frontier (.PresentFrontier identity kind) => "PresentFrontier(identity=" ++ identity.py_repr ++ ", kind=" ++
      kind.py_repr ++ ")"

variable [UnicodeData]

def node_repr : TopologyNode → String
  | .ProjectRoot => "ProjectRoot()"
  | .WorkRoot => "WorkRoot()"
  | .TopologyDirectory node_id => "TopologyDirectory(node_id=" ++ toString node_id ++ ")"
  | .PersistentNode path => "PersistentNode(path=" ++ py_repr path ++ ")"
  | .ScratchNode effect_id role => "ScratchNode(effect_id=" ++ py_repr effect_id ++ ", role=" ++ role.value ++ ")"

/-- `raise ProtocolError(message)` -/
def topology_error {α : Type} (message : String) : Except Raised α := throw (.AtomsError (.ProtocolError message))

namespace ResolvedTopology

def constraints_of (resolved : ResolvedTopology) (node : TopologyNode) : Except Raised DirectoryConstraints :=
  match resolved.directories.find? fun entry => entry.node = node with
  | some entry => pure entry.constraints
  | none => topology_error ("no approved directory facts for topology node " ++ node_repr node)

def parent_of (resolved : ResolvedTopology) (path : RelPath) : Except Raised TopologyNode :=
  match resolved.paths.find? fun entry => entry.path = path with
  | some entry => pure entry.parent_node
  | none => topology_error ("no approved path entry for " ++ py_repr path)

def parent_node_of (resolved : ResolvedTopology) (node : TopologyNode) : Except Raised TopologyNode :=
  match resolved.topology.parents.find? fun edge => edge.node = node with
  | some edge => pure edge.parent
  | none => topology_error ("topology node " ++ node_repr node ++ " has no parent edge")

/-- The node of the directory at `lead`, if one sits there. -/
def directory_node (resolved : ResolvedTopology) (lead : Prefix) : Option TopologyNode :=
  (resolved.directory_nodes.find? fun entry => entry.1 = lead).map Prod.snd

end ResolvedTopology

/-- `_record_observation` -/
def record_observation (observations : Dict Prefix Observed) (lead : Prefix) (observed : Observed) :
    Except Raised (Dict Prefix Observed) :=
  match observations.get lead with
  | none => pure (observations.put lead observed)
  | some previous =>
    if previous = observed then pure observations
    else if previous.facts.any (is_same_directory · observed) then pure observations
    else if observed.facts.any (is_same_directory · previous) then pure (observations.put lead observed)
    else throw (.AtomsError (.PreconditionRefused ("prefix " ++ py_repr (joined lead) ++
      " changed between declared-path resolutions: " ++ previous.py_repr ++ " then " ++ observed.py_repr ++
      "; the engine will not assemble one topology from different filesystem moments")))

/-- The directories that the resolution of `path` went through, each under its prefix. -/
def hops_of (path : RelPath) (resolved : ResolvedPrefix) : List (Prefix × DirectoryFacts) :=
  (ROOT_PREFIX, resolved.root) :: resolved.hops.zipIdx.map fun (hop, index) =>
    ((components path).take (index + 1), hop.facts)

/-- Every directory candidate: each proper prefix of a declared path, and each directory that is created, with its own
prefixes. -/
def candidates (declared created : List RelPath) : List Prefix :=
  ((declared.flatMap fun path => (List.range ((components path).length - 1)).map fun index =>
      (components path).take (index + 1)) ++
    (created.flatMap fun path => (List.range (components path).length).map fun index =>
      (components path).take (index + 1))).dedup

section

variable (prefixes : Dict RelPath ResolvedPrefix) (declared created : List RelPath) (filesystem_type : String)

/-- The first loop of `_facts_by_prefix`, as far as it can refuse: what was observed at a prefix once must be there
again. -/
def record_observations : Except Raised (Dict Prefix Observed) :=
  (sorted_by Prod.fst prefixes).foldlM (fun observations item => do
    let observations ← (hops_of item.1 item.2).foldlM
      (fun observations hop => record_observation observations hop.1 (.DirectoryFacts hop.2)) observations
    record_observation observations ((components item.1).take (item.2.hops.length + 1)) (.Frontier item.2.frontier)) []

/-- The facts that the first loop of `_facts_by_prefix` collects. -/
def observed_facts : Dict Prefix DirectoryFact :=
  ((sorted_by Prod.fst prefixes).flatMap fun item => hops_of item.1 item.2).foldl
    (fun facts hop => facts.setdefault hop.1 (some hop.2.identity, hop.2.constraints)) []

/-- The body of the second loop of `_facts_by_prefix`. -/
def derive_fact (facts : Dict Prefix DirectoryFact) (candidate : Prefix) : Except Raised (Dict Prefix DirectoryFact) := do
  let parent ← subscript facts candidate.dropLast
  let inherited ← inherited_constraints parent.2 filesystem_type
  if joined candidate ∈ created then
    pure (facts.put candidate ((facts.get candidate).bind Prod.fst, inherited))
  else pure (facts.setdefault candidate (none, inherited))

/-- `_facts_by_prefix` -/
def facts_by_prefix : Except Raised (Dict Prefix DirectoryFact) := do
  let _ ← record_observations prefixes
  (in_depth_order (candidates prefixes.keys created)).foldlM (derive_fact created filesystem_type)
    (observed_facts prefixes)

/-- The key of the directory at `lead`, after the keys of the prefixes before it. -/
def key_of (facts : Dict Prefix DirectoryFact) (keys : Dict Prefix DirectoryKey) (lead : Prefix) :
    Except Raised DirectoryKey := do
  let fact ← subscript facts lead
  match fact.1 with
  | some identity => pure (.identity identity)
  | none => do
    let parent ← subscript facts lead.dropLast
    let parent_key ← subscript keys lead.dropLast
    let name ← lookup_equivalence_key parent.2 (lead.getLast?.getD "")
    pure (.child parent_key name)

/-- `_keys_by_prefix` -/
def keys_by_prefix (facts : Dict Prefix DirectoryFact) : Except Raised (Dict Prefix DirectoryKey) :=
  (in_depth_order facts.keys).foldlM (fun keys lead => do
    let key ← key_of facts keys lead
    pure (keys.put lead key)) []

/-- The body of the loop of `_nodes_by_key`, with the nodes so far and the next free id. -/
def assign_node (keys : Dict Prefix DirectoryKey) (state : Dict DirectoryKey TopologyNode × Nat) (lead : Prefix) :
    Except Raised (Dict DirectoryKey TopologyNode × Nat) := do
  let key ← subscript keys lead
  if lead = ROOT_PREFIX then pure (state.1.put key .ProjectRoot, state.2)
  else if joined lead ∈ declared then do
    match state.1.get key with
    | some (.PersistentNode path) => require (path = joined lead) (approval_refused ("declared directories " ++
        py_repr path ++ " and " ++ py_repr (joined lead) ++
        " name one entry under the actual lookup policy of their shared parent; construction cannot choose which of " ++
        "them the directory is"))
    | _ => pure ()
    pure (state.1.put key (.PersistentNode (joined lead)), state.2)
  else if (state.1.get key).isSome then pure state
  else pure (state.1.put key (.TopologyDirectory state.2), state.2 + 1)

/-- `_nodes_by_key` -/
def nodes_by_key (keys : Dict Prefix DirectoryKey) : Except Raised (Dict DirectoryKey TopologyNode) := do
  let (nodes, _) ← (in_depth_order keys.keys).foldlM (assign_node declared keys) ([], 0)
  pure nodes

/-- `nodes[keys[lead]]` -/
def node_at (keys : Dict Prefix DirectoryKey) (nodes : Dict DirectoryKey TopologyNode) (lead : Prefix) :
    Except Raised TopologyNode := do
  let key ← subscript keys lead
  subscript nodes key

end

/-- The path at which an effect creates a directory. -/
def created_path : Effect → Option RelPath
  | .CreateDirectory e => some e.path
  | _ => none

def created_paths (effects : List Effect) : List RelPath := effects.filterMap created_path

section

variable (facts : Dict Prefix DirectoryFact) (node_of : Prefix → Except Raised TopologyNode)

/-- The edge of each directory to its parent. -/
def directory_edges : Except Raised (Dict TopologyNode TopologyNode) :=
  ((in_depth_order facts.keys).filter fun lead => lead ≠ ROOT_PREFIX).foldlM (fun edges lead => do
    let node ← node_of lead
    let parent ← node_of lead.dropLast
    pure (edges.setdefault node parent)) []

def approved_paths (declared : List RelPath) : Except Raised (List ApprovedPath) :=
  (sorted_by id declared).mapM fun path => do
    let parent_node ← node_of (components path).dropLast
    pure { path, parent_node, leaf := (components path).getLast?.getD "" }

/-- `_scratch_edges` -/
def scratch_edges (effects : List Effect) (paths : List ApprovedPath) : Except Raised (List TopologyParent) :=
  effects.mapM fun effect =>
    match topology.scratch_sibling effect with
    | none => pure { node := scratch_node effect, parent := .WorkRoot }
    | some anchor => do
      let parent ← subscript (paths.map fun entry => (entry.path, entry.parent_node)) anchor
      pure { node := scratch_node effect, parent }

/-- The entry of a directory: planned if an effect creates it or nothing was observed of it. -/
def directory_entry (node : TopologyNode) (created : Option DirectoryConstraints) (fact : DirectoryFact) :
    ApprovedDirectory :=
  match created, fact.1 with
  | some constraints, _ => .ApprovedPlannedDirectory node constraints
  | none, none => .ApprovedPlannedDirectory node fact.2
  | none, some identity => .ApprovedExistingDirectory node identity fact.2

/-- `_directory_entries` -/
def directory_entries (parents : List TopologyNode) (created : List RelPath) : Except Raised (List ApprovedDirectory) := do
  let created_constraints ← created.foldlM (fun (constraints : Dict TopologyNode DirectoryConstraints) path => do
    let node ← node_of (components path)
    let fact ← subscript facts (components path)
    pure (constraints.put node fact.2)) []
  let entries ← (in_depth_order facts.keys).foldlM (fun (entries : Dict TopologyNode ApprovedDirectory) lead => do
    let fact ← subscript facts lead
    let node ← node_of lead
    if node ∉ parents then pure entries
    else pure (entries.put node (directory_entry node (created_constraints.get node) fact))) []
  pure (entries.map Prod.snd)

end

/-- `build_topology` -/
def build_topology (compiled : CompiledSpec) (prefixes : Dict RelPath ResolvedPrefix) (filesystem_type : String)
    (work_constraints : Option DirectoryConstraints) : Except Raised ResolvedTopology := do
  let declared := compiled.paths
  let created := created_paths compiled.effects
  let facts ← facts_by_prefix prefixes created filesystem_type
  let keys ← keys_by_prefix facts
  let nodes ← nodes_by_key declared keys
  let edges ← directory_edges facts (node_at keys nodes)
  let paths ← approved_paths (node_at keys nodes) declared
  let edges := paths.foldl (fun edges entry => edges.setdefault (.PersistentNode entry.path) entry.parent_node) edges
  let scratch ← scratch_edges compiled.effects paths
  let ordered := edges.map (fun edge => TopologyParent.mk edge.1 edge.2) ++
    (work_constraints.toList.map fun _ => TopologyParent.mk .WorkRoot .ProjectRoot) ++ scratch
  let directories ← directory_entries facts (node_at keys nodes) (ordered.map TopologyParent.parent) created
  let directory_nodes ← (in_depth_order facts.keys).mapM fun lead => do
    let node ← node_at keys nodes lead
    pure (lead, node)
  pure
    { topology := { parents := ordered }
      directories := directories ++ work_constraints.toList.map (.ApprovedPlannedDirectory .WorkRoot)
      paths
      directory_nodes }

/-- The chain of parents above a node: the topology has no cycles, so it ends within its edges. -/
def ancestors (edges : List TopologyParent) : (fuel : Nat) → TopologyNode → List TopologyNode
  | 0, _ => []
  | fuel + 1, node => match topology.parent_of edges node with
    | none => []
    | some parent => parent :: ancestors edges fuel parent

/-- One side of the surface check of `require_resolved_surface_and_ordering`. -/
def require_resolved_surface (edges : List TopologyParent) (label : String) (surface : List SurfaceEntry) :
    Except Raised Unit :=
  surface.forM fun entry =>
    (ancestors edges (edges.length + 1) (.PersistentNode entry.path)).forM fun ancestor =>
      match surface.find? fun other => TopologyNode.PersistentNode other.path = ancestor with
      | some ⟨_, .DirectoryState _⟩ => pure ()
      | some ⟨_, state⟩ => require (entry.state = ABSENT) (approval_refused (label ++ " places " ++
          node_repr (.PersistentNode entry.path) ++ " beneath " ++ node_repr ancestor ++ ", which is " ++
          state.type_name ++ " and cannot contain entries; the descendant must be declared absent"))
      | none => pure ()

/-- `creators`: the effect that creates the directory at a node, the last one if several do. -/
def creators_by_path (effects : List Effect) : Dict TopologyNode Nat :=
  effects.zipIdx.foldl (fun creators (effect, index) => match created_path effect with
    | some path => creators.put (.PersistentNode path) index
    | none => creators) []

/-- `require_resolved_surface_and_ordering` -/
def require_resolved_surface_and_ordering (compiled : CompiledSpec) (resolved : ResolvedTopology) :
    Except Raised Unit := do
  let edges := resolved.topology.parents
  require_resolved_surface edges "initial_surface" compiled.spec.initial_surface
  require_resolved_surface edges "final_surface" compiled.spec.final_surface
  compiled.effects.zipIdx.forM fun (effect, index) =>
    (occurrences effect).forM fun occurrence =>
      (ancestors edges (edges.length + 1) (.PersistentNode occurrence.path)).forM fun ancestor =>
        match (creators_by_path compiled.effects).get ancestor with
        | none => pure ()
        | some creator => require (creator < index) (approval_refused ("effect " ++ py_repr effect.effect_id ++
            " touches " ++ py_repr occurrence.path ++ " beneath a directory this transaction creates at effect " ++
            toString creator ++ "; creation must come first"))

end atoms.fs

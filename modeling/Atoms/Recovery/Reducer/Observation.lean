import Atoms.Recovery.Variants

open atoms.errors atoms.fingerprint atoms.effects atoms.compiler checked keyed

namespace atoms.recovery.reducer

/-- `_joint_keys`: the slots that an observation lists. -/
structure JointKeys where
  persistent : List RelPath
  scratch : List (String × ScratchRole)
  parents : List TopologyNode

def joint_keys (observation : JointObservation) : Except AtomsError JointKeys := do
  observation.persistent.forM fun item => snapshot.validate_observed_entry "step persistent observations" item.entry
  observation.scratch.forM fun item => snapshot.validate_observed_entry "step scratch observations" item.entry
  observation.parent_occupancy.forM fun item =>
    require_protocol item.present_children.Nodup "step parent occupancy children must be unique"
  let persistent := observation.persistent.map PersistentObservation.path
  let scratch := observation.scratch.map ScratchObservation.key
  let parents := observation.parent_occupancy.map ParentOccupancy.parent
  require_protocol persistent.Nodup "step persistent observation keys must be unique"
  require_protocol scratch.Nodup "step scratch observation keys must be unique"
  require_protocol parents.Nodup "step parent occupancy keys must be unique"
  pure { persistent, scratch, parents }

def validate_joint_coverage (expected result : JointObservation) : Except AtomsError Unit := do
  let expected_keys ← joint_keys expected
  let result_keys ← joint_keys result
  require_protocol (set_eq expected_keys.persistent result_keys.persistent ∧
      set_eq expected_keys.scratch result_keys.scratch ∧ set_eq expected_keys.parents result_keys.parents)
    "joint observations do not have exact matching node coverage"

def validate_identity_relations (relations : List DiagnosticIdentityRelation) : Except AtomsError Unit :=
  let pairs := relations.map snapshot.DiagnosticIdentityRelation.pair
  require_protocol (pairs = pairs.insertionSort snapshot.pair_le ∧ pairs.Nodup)
    "transform identity relations must be sorted and unique"

/-- `_effect_observed_nodes`: an effect's paths and its scratch, each with the entry the observation lists. -/
def effect_observed_nodes (effect : Effect) (observation : JointObservation) : List (TopologyNode × ObservedEntry) :=
  (occurrences effect).map (fun occurrence =>
    (.PersistentNode occurrence.path,
      ((find_key PersistentObservation.path observation.persistent occurrence.path).map
        PersistentObservation.entry).getD OBSERVED_ABSENT)) ++
  [(scratch_node effect,
    ((find_key ScratchObservation.key observation.scratch (scratch_key effect)).map
      ScratchObservation.entry).getD OBSERVED_ABSENT)]

/-- `_require_exact_entry_transfers`: a step moves and removes entries, and makes none. -/
def require_exact_entry_transfers (expected result : JointObservation) : Except AtomsError Unit :=
  require_protocol (∀ entry ∈ result.entries, entry = .ObservedAbsent ∨ entry ∈ expected.entries)
    ("step result fabricates or alters an entry, including identity or " ++
      "unmodeled evidence, instead of transferring it exactly")

def has_unmodeled : ObservedEntry → Bool
  | .ObservedDirectory _ _ has_unmodeled_child => has_unmodeled_child == some true
  | _ => false

/-- `_require_removed_directories_empty` -/
def require_removed_directories_empty (effect : Effect) (expected result : JointObservation) :
    Except AtomsError Unit :=
  match effect with
  | .CreateDirectory _ => do
    let expected_nodes := effect_observed_nodes effect expected
    let result_nodes := effect_observed_nodes effect result
    let removed := (expected_nodes.zip result_nodes).filter fun (before, after) =>
      after.2.is_absent && !before.2.is_absent
    require_protocol (∀ item ∈ removed, item.1.2.is_directory = true)
      "CreateDirectory removal requires an exact directory before-entry"
    require_protocol (¬ ((∀ item ∈ result_nodes, item.2.is_absent = true) ∧ removed = []))
      "CreateDirectory removal requires an exact directory before-entry"
    expected_nodes.forM fun (node, entry) =>
      if ¬ entry.is_directory ∨ entry ∈ result.entries then .ok ()
      else require_protocol (¬ has_unmodeled entry ∧
          ∀ occupancy ∈ find_key ParentOccupancy.parent expected.parent_occupancy node,
            occupancy.present_children = [])
        "directory is not empty and may not be removed"
  | _ => .ok ()

/-- `_require_parent_unmodeled_conservation` -/
def require_parent_unmodeled_conservation (expected result : JointObservation) : Except AtomsError Unit :=
  require_protocol (∀ item ∈ result.parent_occupancy,
      (find_key ParentOccupancy.parent expected.parent_occupancy item.parent).map ParentOccupancy.has_unmodeled_child =
        some item.has_unmodeled_child)
    "step result changes parent unmodeled-child evidence"

variable [UnicodeData]

/-- `_topology_nodes` -/
def topology_nodes (s : RecoverySnapshot) : List TopologyNode :=
  .ProjectRoot :: topology.nodes_of s.topology.parents

/-- `_validate_occupancy_topology` -/
def validate_occupancy_topology (s : RecoverySnapshot) (occupancy : List ParentOccupancy) : Except AtomsError Unit :=
  occupancy.forM fun item => do
    let children := topology.children_of s.topology.parents item.parent
    require_protocol (children ≠ []) "parent occupancy does not name an actual topology parent"
    require_protocol (∀ child ∈ item.present_children, child ∈ children)
      "parent occupancy names a child outside its topology parent"

/-- `_current_directory_unmodeled_fact` -/
def current_directory_unmodeled_fact (persistent : List PersistentObservation) (scratch : List ScratchObservation)
    (parent : TopologyNode) : Except AtomsError (Option Bool) := do
  let entry := match parent with
    | .PersistentNode path => (find_key PersistentObservation.path persistent path).map PersistentObservation.entry
    | .ScratchNode effect_id role =>
      (find_key ScratchObservation.key scratch (effect_id, role)).map ScratchObservation.entry
    | _ => none
  match entry with
  | some (.ObservedDirectory _ _ (some fact)) => pure (some fact)
  | some (.ObservedDirectory _ _ none) => throw (.ProtocolError "current directory occupancy is unobservable")
  | some _ => throw (.ProtocolError "current occupancy parent is absent or not an exact directory")
  | none => throw (.ProtocolError "current occupancy parent has no exact directory observation")

/-- `_recompute_occupancy`, where `unmodeled` gives each parent's unmodeled-child fact. -/
def recompute_occupancy (s : RecoverySnapshot) (occupancy : List ParentOccupancy)
    (persistent : List PersistentObservation) (scratch : List ScratchObservation)
    (unmodeled : ParentOccupancy → Except AtomsError (Option Bool)) : Except AtomsError (List ParentOccupancy) := do
  validate_occupancy_topology s occupancy
  occupancy.mapM fun item => do
    let has_unmodeled_child ← unmodeled item
    pure
      { parent := item.parent
        present_children := variants.present_children s.topology persistent scratch item.parent
        has_unmodeled_child }

/-- `_current_joint_observation`: what the snapshot observes at the slots of `template`. -/
def current_joint_observation (s : RecoverySnapshot) (template : JointObservation) :
    Except AtomsError JointObservation := do
  let _ ← joint_keys template
  let persistent ← template.persistent.mapM fun item =>
    match find_key PersistentObservation.path s.persistent_observations item.path with
    | some current => pure current
    | none => throw (.ProtocolError "step observation names an unknown persistent path")
  let scratch ← template.scratch.mapM fun item =>
    match find_key ScratchObservation.key s.scratch_observations item.key with
    | some current => pure current
    | none => throw (.ProtocolError "step observation names an unknown scratch entry")
  let parent_occupancy ← recompute_occupancy s template.parent_occupancy s.persistent_observations
    s.scratch_observations fun item =>
      current_directory_unmodeled_fact s.persistent_observations s.scratch_observations item.parent
  pure { persistent, scratch, parent_occupancy }

/-- `_merge_joint_observation`: the snapshot's observations with those of a step's result in place. -/
def merge_joint_observation (s : RecoverySnapshot) (observation : JointObservation) :
    Except AtomsError (List PersistentObservation × List ScratchObservation) := do
  let keys ← joint_keys observation
  require_protocol (∀ path ∈ keys.persistent, path ∈ s.persistent_observations.map PersistentObservation.path)
    "step result names an unknown persistent path"
  require_protocol (∀ key ∈ keys.scratch, key ∈ s.scratch_observations.map ScratchObservation.key)
    "step result names an unknown scratch entry"
  pure (merge PersistentObservation.path observation.persistent s.persistent_observations,
    merge ScratchObservation.key observation.scratch s.scratch_observations)

/-- Drop a build relation that the observation's construction state does not require. -/
def normalize_scratch (compiled : CompiledSpec) (journals : List EffectJournalState)
    (persistent : List PersistentObservation) (item : ScratchObservation) : ScratchObservation :=
  if snapshot.relation_required compiled journals persistent item then item
  else { item with file_build_relation := none }

/-- `_normalize_file_build_relations` -/
def normalize_file_build_relations (compiled : CompiledSpec) (journals : List EffectJournalState)
    (persistent : List PersistentObservation) (scratch : List ScratchObservation) :
    Except AtomsError (List ScratchObservation) :=
  scratch.mapM fun item => do
    require_protocol ((snapshot.effect_of compiled item.effect_id).isSome ∧
        (snapshot.journal_of journals item.effect_id).isSome)
      "scratch normalization has incomplete effect coverage"
    pure (normalize_scratch compiled journals persistent item)

/-- `_normalize_joint_observation` -/
def normalize_joint_observation (s : RecoverySnapshot) (observation : JointObservation) :
    Except AtomsError JointObservation := do
  let (persistent, scratch) ← merge_joint_observation s observation
  validate_occupancy_topology s observation.parent_occupancy
  let normalized ← normalize_file_build_relations s.compiled s.journals persistent scratch
  pure
    { persistent := observation.persistent
      scratch := observation.scratch.filterMap fun item => find_key ScratchObservation.key normalized item.key
      parent_occupancy := observation.parent_occupancy }

end atoms.recovery.reducer

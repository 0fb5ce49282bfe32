import Atoms.Recovery.Variants.Decision

open atoms.errors atoms.fingerprint atoms.effects atoms.compiler checked keyed

namespace atoms.recovery.variants

variable [UnicodeData]

def parent_occupancy (s : RecoverySnapshot) (parent : TopologyNode) (entry : ObservedEntry) : ParentOccupancy :=
  { parent
    present_children := present_children s.topology s.persistent_observations s.scratch_observations parent
    has_unmodeled_child := match entry with
      | .ObservedDirectory _ _ has_unmodeled_child => has_unmodeled_child
      | _ => none }

/-- The nodes of an effect with their entries: its paths, then its scratch. -/
def effect_nodes (effect : Effect) (persistent : List PersistentObservation) (scratch : ScratchObservation) :
    List (TopologyNode × ObservedEntry) :=
  persistent.map (fun item => (.PersistentNode item.path, item.entry)) ++ [(scratch_node effect, scratch.entry)]

/-- `_joint`: what the snapshot observes at the effect's own names. -/
def joint (s : RecoverySnapshot) (effect : Effect) : Except AtomsError JointObservation := do
  let persistent ← (effect_paths effect).mapM fun path =>
    match find_key PersistentObservation.path s.persistent_observations path with
    | some item => pure { path, entry := item.entry : PersistentObservation }
    | none => throw (.ProtocolError "snapshot is missing effect observation coverage")
  let scratch ← match find_key ScratchObservation.key s.scratch_observations (scratch_key effect) with
    | some item => pure item
    | none => throw (.ProtocolError "snapshot is missing effect observation coverage")
  let topology_parents := s.topology.parents.map TopologyParent.parent
  let occupied := (effect_nodes effect persistent scratch).filter fun (node, entry) =>
    entry.is_directory && node ∈ topology_parents
  pure
    { persistent
      scratch := [scratch]
      parent_occupancy := occupied.map fun (node, entry) => parent_occupancy s node entry }

/-- `_journal` -/
def journal (s : RecoverySnapshot) (effect_id : String) : Except AtomsError JournalState :=
  match s.journals.find? fun row => row.effect_id = effect_id with
  | some row => pure row.state
  | none => throw (.ProtocolError "snapshot is missing effect journal coverage")

/-- `_replace_persistent`: the observation's paths with new entries. -/
def replace_persistent (observed : JointObservation) (entries : List ObservedEntry) : List PersistentObservation :=
  observed.persistent.zipWith (fun item entry => { path := item.path, entry }) entries

/-- `_replace_scratch`: the observation's one scratch name with a new entry and no build relation. -/
def replace_scratch (observed : JointObservation) (entry : ObservedEntry) : List ScratchObservation :=
  observed.scratch.map fun item =>
    { effect_id := item.effect_id, role := item.role, entry, file_build_relation := none }

/-- `_transform` -/
def transform (effect : Effect) (observed : JointObservation) (persistent : List ObservedEntry)
    (scratch : ObservedEntry) (settlement : SettlementKind)
    (identity_relations : List DiagnosticIdentityRelation) : TransformEffectTuple :=
  { effect_id := effect.effect_id
    variant := effect_variant effect
    settlement
    expected_before := observed
    result_after :=
      { persistent := replace_persistent observed persistent
        scratch := replace_scratch observed scratch
        parent_occupancy := observed.parent_occupancy }
    identity_relations }

/-- `_remove_scratch` -/
def remove_scratch (effect : Effect) (observed : JointObservation) : RemoveScratch :=
  { effect_id := effect.effect_id
    role := required_scratch_role effect
    expected_before := observed
    result_after :=
      { persistent := observed.persistent
        scratch := replace_scratch observed OBSERVED_ABSENT
        parent_occupancy := observed.parent_occupancy } }

/-- `_remove_after_transform` -/
def remove_after_transform (effect : Effect) (transform : TransformEffectTuple) : RemoveScratch :=
  remove_scratch effect transform.result_after

/-- `_preserve` -/
def preserve (nodes : List TopologyNode) : PreserveExternal := { nodes }

def same_identity (left right : ObservedEntry) : Bool :=
  left.identity?.isSome && left.identity? = right.identity?

/-- `_remove_scratch` as the only step of a decision. -/
def remove_decision (kind : EffectDecisionKind) (effect : Effect) (observed : JointObservation) : EffectDecision :=
  decision kind observed [.RemoveScratch (remove_scratch effect observed)]

/-- A transformation followed by the removal of what it leaves in scratch. -/
def transform_decision (kind : EffectDecisionKind) (effect : Effect) (observed : JointObservation)
    (step : TransformEffectTuple) : EffectDecision :=
  decision kind observed [.TransformEffectTuple step, .RemoveScratch (remove_after_transform effect step)]

end atoms.recovery.variants

import Atoms.Recovery.Reducer.Observation

open atoms.errors atoms.fingerprint atoms.effects atoms.compiler checked keyed

namespace atoms.recovery.reducer

/-- `_TRANSACTION_RECOVERY_EDGES` -/
def transaction_recovery_edge (from_state to_state : TransactionState) : Bool :=
  match from_state, to_state with
  | .PREPARED, .ROLLING_BACK | .APPLYING, .ROLLING_BACK | .APPLIED, .ROLLING_BACK => true
  | .ROLLING_BACK, .ROLLED_BACK => true
  | .HALTED, .HALTED => false
  | _, .HALTED => true
  | _, _ => false

/-- `_EFFECT_RECOVERY_EDGES` -/
def effect_recovery_edge (from_state to_state : JournalState) : Bool :=
  match from_state, to_state with
  | .STARTED, .UNDO_STARTED | .DONE, .UNDO_STARTED | .UNDO_STARTED, .UNDONE => true
  | _, _ => false

variable [UnicodeData]

/-- `_rebuild`: the snapshot with new fields, its build relations normalized and every check of the factory made again. -/
def rebuild (s : RecoverySnapshot) (fields : SnapshotFields) : Except AtomsError RecoverySnapshot := do
  let scratch ← normalize_file_build_relations s.compiled fields.journals fields.persistent_observations
    fields.scratch_observations
  build_recovery_snapshot { fields with scratch_observations := scratch }

def transition_transaction (s : RecoverySnapshot) (step : TransitionTransactionState) :
    Except AtomsError RecoverySnapshot := do
  require_protocol (s.transaction_state = step.from_state) "transaction transition does not match current state"
  require_protocol (transaction_recovery_edge step.from_state step.to_state)
    "transaction transition is not an allowed recovery edge"
  require_protocol step.valid_payload "transaction transition has invalid terminal payloads"
  require_protocol (step.to_state = .HALTED →
      ∀ diagnostic ∈ step.halt_diagnostic, diagnostic.pre_halt_state = step.from_state)
    "halt diagnostic pre-halt state does not match its transition source"
  rebuild s
    { s.toSnapshotFields with
      transaction_state := step.to_state
      rollback_result := step.rollback_result
      halt_diagnostic := step.halt_diagnostic }

/-- The journals with the state of one effect replaced. -/
def set_journal (journals : List EffectJournalState) (effect_id : String) (state : JournalState) :
    List EffectJournalState :=
  journals.map fun journal =>
    if journal.effect_id = effect_id then { effect_id := journal.effect_id, state } else journal

def transition_effect (s : RecoverySnapshot) (step : TransitionEffectState) : Except AtomsError RecoverySnapshot :=
  match s.journals.filter fun journal => journal.effect_id = step.effect_id with
  | [journal] => do
    require_protocol (journal.state = step.from_state) "effect transition does not match current journal state"
    require_protocol (effect_recovery_edge step.from_state step.to_state)
      "effect transition is not an allowed recovery edge"
    rebuild s { s.toSnapshotFields with journals := set_journal s.journals step.effect_id step.to_state }
  | _ => throw (.ProtocolError "effect transition names an unknown effect")

/-- `_validate_mutating_step_header` -/
def mutating_step_effect (s : RecoverySnapshot) (effect_id : String) : Except AtomsError Effect :=
  match s.compiled.spec.effects.filter fun effect => effect.effect_id = effect_id with
  | [effect] => pure effect
  | _ => throw (.ProtocolError "mutating step names an unknown effect")

/-- `_required_effect_occupancy_parents` -/
def required_effect_occupancy_parents (s : RecoverySnapshot) (effect : Effect) (observation : JointObservation) :
    List TopologyNode :=
  ((effect_observed_nodes effect observation).filter fun (node, entry) =>
    entry.is_directory && node ∈ s.topology.parents.map TopologyParent.parent).map Prod.fst

/-- `_validate_effect_joint_coverage` -/
def validate_effect_joint_coverage (s : RecoverySnapshot) (effect : Effect) (observation : JointObservation) :
    Except AtomsError Unit := do
  require_protocol (set_eq (observation.persistent.map PersistentObservation.path)
      ((occurrences effect).map Occurrence.path))
    "effect tuple omits or adds persistent nodes instead of exact effect coverage"
  require_protocol (set_eq (observation.scratch.map ScratchObservation.key) [scratch_key effect])
    "effect tuple omits or adds scratch nodes instead of exact effect coverage"
  require_protocol (set_eq (observation.parent_occupancy.map ParentOccupancy.parent)
      (required_effect_occupancy_parents s effect observation))
    "effect tuple does not have exact affected occupancy coverage"

/-- `_validate_remove_scratch_joint_coverage` -/
def validate_remove_scratch_joint_coverage (s : RecoverySnapshot) (effect : Effect) (step : RemoveScratch) :
    Except AtomsError Unit :=
  if ¬ (step.expected_before.persistent = [] ∧ step.expected_before.parent_occupancy = []) then
    validate_effect_joint_coverage s effect step.expected_before
  else do
    require_protocol (s.transaction_state = .COMMITTED ∧ s.commit_decision = .COMMITTED)
      "scratch-only RemoveScratch requires an exact COMMITTED transaction"
    require_protocol (variants.expected_retained_scratch_state effect).isSome
      "scratch-only RemoveScratch requires a retained-scratch effect"
    require_protocol ((s.journals.filter fun journal => journal.effect_id = effect.effect_id).map
        EffectJournalState.state = [.DONE])
      "scratch-only RemoveScratch requires the exact DONE effect journal"
    require_protocol (set_eq (step.expected_before.scratch.map ScratchObservation.key) [scratch_key effect])
      "scratch-only RemoveScratch requires the exact effect scratch key"
    require_protocol (step.role = required_scratch_role effect)
      "scratch-only RemoveScratch requires the effect's exact scratch role"

/-- The checks that both mutating steps share, from `expected_before` against the
snapshot to the removal of directories. -/
def require_mutation (s : RecoverySnapshot) (effect : Effect) (expected_before result_after : JointObservation)
    (message : String) : Except AtomsError Unit := do
  let current ← current_joint_observation s expected_before
  require_protocol (current = expected_before) message
  require_exact_entry_transfers expected_before result_after
  require_parent_unmodeled_conservation expected_before result_after
  require_removed_directories_empty effect expected_before result_after

/-- Put a step's result into the snapshot, refusing an occupancy that does not follow from it. -/
def apply_result (s : RecoverySnapshot) (result_after : JointObservation) (message : String) :
    Except AtomsError RecoverySnapshot := do
  let (persistent, scratch) ← merge_joint_observation s result_after
  let recomputed ← recompute_occupancy s result_after.parent_occupancy persistent scratch fun item =>
    pure item.has_unmodeled_child
  require_protocol (recomputed = result_after.parent_occupancy) message
  rebuild s { s.toSnapshotFields with persistent_observations := persistent, scratch_observations := scratch }

def transform_effect_tuple (s : RecoverySnapshot) (step : TransformEffectTuple) :
    Except AtomsError RecoverySnapshot := do
  let effect ← mutating_step_effect s step.effect_id
  require_protocol (variants.effect_variant effect = step.variant) "transform variant does not match its compiled effect"
  validate_identity_relations step.identity_relations
  validate_joint_coverage step.expected_before step.result_after
  validate_effect_joint_coverage s effect step.expected_before
  require_mutation s effect step.expected_before step.result_after
    "transform expected_before does not match current observation"
  apply_result s step.result_after "transform result_after has stale parent occupancy"

/-- The checks on what a `RemoveScratch` step removes and on what it leaves alone. -/
def require_removal (step : RemoveScratch) : Except AtomsError Unit := do
  let key := (step.effect_id, step.role)
  match find_key ScratchObservation.key step.expected_before.scratch key,
    find_key ScratchObservation.key step.result_after.scratch key with
  | some expected, some removed => do
    require_protocol (¬ expected.entry.is_absent) "remove scratch names an already absent entry"
    require_protocol (removed.entry.is_absent ∧ removed.file_build_relation = none)
      "remove scratch result must make its named entry absent"
  | _, _ => throw (.ProtocolError "remove scratch tuple does not contain its named scratch entry")
  require_protocol (step.result_after.persistent = step.expected_before.persistent)
    "remove scratch may not change persistent observations"
  require_protocol (∀ item ∈ step.expected_before.scratch, item.key ≠ key →
      find_key ScratchObservation.key step.result_after.scratch item.key = some item)
    "remove scratch may not change another scratch entry"

def remove_scratch (s : RecoverySnapshot) (step : RemoveScratch) : Except AtomsError RecoverySnapshot := do
  let effect ← mutating_step_effect s step.effect_id
  validate_joint_coverage step.expected_before step.result_after
  validate_remove_scratch_joint_coverage s effect step
  require_mutation s effect step.expected_before step.result_after
    "remove scratch expected_before does not match current observation"
  require_removal step
  apply_result s step.result_after "remove scratch result_after has stale parent occupancy"

def preserve_external (s : RecoverySnapshot) (step : PreserveExternal) : Except AtomsError RecoverySnapshot := do
  require_protocol step.nodes.Nodup "preserved nodes must be unique"
  require_protocol (∀ node ∈ step.nodes, node ∈ topology_nodes s) "preserve external names an unknown topology node"
  pure s

def detach_active (s : RecoverySnapshot) : Except AtomsError RecoverySnapshot := do
  require_protocol s.active "active binding is already detached"
  require_protocol (s.transaction_state = .COMMITTED ∨ s.transaction_state = .ROLLED_BACK)
    "active binding may detach only from a terminal transaction"
  rebuild s { s.toSnapshotFields with active := false }

/-- `_apply_step` -/
def apply_step (s : RecoverySnapshot) : RecoveryStep → Except AtomsError RecoverySnapshot
  | .TransitionTransactionState step => transition_transaction s step
  | .TransitionEffectState step => transition_effect s step
  | .TransformEffectTuple step => transform_effect_tuple s step
  | .RemoveScratch step => remove_scratch s step
  | .PreserveExternal step => preserve_external s step
  | .DetachActive => detach_active s

/-- `_apply_steps` -/
def apply_steps (s : RecoverySnapshot) (steps : List RecoveryStep) : Except AtomsError RecoverySnapshot :=
  steps.foldlM apply_step s

def reduce_recovery_plan_prefix (s : RecoverySnapshot) (plan : RecoveryPlan) (completed_steps : Nat) :
    Except AtomsError RecoverySnapshot := do
  require_protocol (s = plan.bound_snapshot) "plan does not match its bound source snapshot"
  require_protocol (completed_steps ≤ plan.steps.length) "completed_steps is outside the plan step range"
  apply_steps s (plan.steps.take completed_steps)

def apply_recovery_plan (s : RecoverySnapshot) (plan : RecoveryPlan) : Except AtomsError RecoverySnapshot :=
  reduce_recovery_plan_prefix s plan plan.steps.length

end atoms.recovery.reducer

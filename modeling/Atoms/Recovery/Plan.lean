import Atoms.Recovery.Snapshot

open atoms.errors checked keyed

namespace atoms.recovery

inductive PlanDisposition
  | ROLL_BACK | ROLL_BACK_REFUSED | COMMITTED_CLEANUP | DETACH_TERMINAL | HALT | NO_RECOVERY
  deriving DecidableEq

inductive SettlementKind
  | RESTORE_PRE | REMOVE_ATTRIBUTABLE_CREATION | REPAIR_INTERMEDIATE | FINISH_LANDED_UNDO | REMOVE_COMMITTED_SCRATCH
  deriving DecidableEq

inductive EffectVariant
  | REPLACE_FILE | CREATE_FILE_NO_CLOBBER | DELETE_PATH | MOVE_NO_CLOBBER | CREATE_DIRECTORY
  deriving DecidableEq

structure ParentOccupancy where
  parent : TopologyNode
  present_children : List TopologyNode
  has_unmodeled_child : Option Bool
  deriving DecidableEq

structure JointObservation where
  persistent : List PersistentObservation
  scratch : List ScratchObservation
  parent_occupancy : List ParentOccupancy
  deriving DecidableEq

namespace JointObservation

/-- Every entry that the observation lists. -/
def entries (observation : JointObservation) : List ObservedEntry :=
  observation.persistent.map PersistentObservation.entry ++ observation.scratch.map ScratchObservation.entry

/-- `observation.persistent[index].entry`: the joint observation of an effect has an entry for each of its paths. -/
def persistent_entry (observation : JointObservation) (index : Nat) : ObservedEntry :=
  (observation.persistent[index]?.map PersistentObservation.entry).getD OBSERVED_ABSENT

/-- `observation.scratch[0].entry`: the joint observation of an effect has one scratch entry. -/
def scratch_entry (observation : JointObservation) : ObservedEntry :=
  (observation.scratch[0]?.map ScratchObservation.entry).getD OBSERVED_ABSENT

/-- `observation.scratch[0].file_build_relation` -/
def scratch_relation (observation : JointObservation) : Option FileBuildRelation :=
  observation.scratch[0]?.bind ScratchObservation.file_build_relation

end JointObservation

structure TransitionTransactionState where
  from_state : TransactionState
  to_state : TransactionState
  rollback_result : Option RollbackResult
  halt_diagnostic : Option HaltDiagnostic
  deriving DecidableEq

structure TransitionEffectState where
  effect_id : String
  from_state : JournalState
  to_state : JournalState
  deriving DecidableEq

structure TransformEffectTuple where
  effect_id : String
  variant : EffectVariant
  settlement : SettlementKind
  expected_before : JointObservation
  result_after : JointObservation
  identity_relations : List DiagnosticIdentityRelation
  deriving DecidableEq

structure RemoveScratch where
  effect_id : String
  role : ScratchRole
  expected_before : JointObservation
  result_after : JointObservation
  deriving DecidableEq

structure PreserveExternal where
  nodes : List TopologyNode
  deriving DecidableEq

inductive RecoveryStep
  | TransitionTransactionState (step : TransitionTransactionState)
  | TransitionEffectState (step : TransitionEffectState)
  | TransformEffectTuple (step : TransformEffectTuple)
  | RemoveScratch (step : RemoveScratch)
  | PreserveExternal (step : PreserveExternal)
  | DetachActive
  deriving DecidableEq

/-- A transition to a terminal state carries exactly that state's payload. -/
def TransitionTransactionState.valid_payload (step : TransitionTransactionState) : Bool :=
  match step.to_state with
  | .ROLLED_BACK => step.rollback_result.isSome && step.halt_diagnostic.isNone
  | .HALTED => step.halt_diagnostic.isSome && step.rollback_result.isNone
  | _ => step.rollback_result.isNone && step.halt_diagnostic.isNone

def validate_steps (steps : List RecoveryStep) : Except AtomsError Unit :=
  steps.forM fun
    | .TransitionTransactionState step =>
      require_protocol step.valid_payload "transaction transition has invalid terminal payloads"
    | _ => .ok ()

/-- The rollback result that a disposition of an action plan implies. -/
def expected_result : PlanDisposition → Option (Option RollbackResult)
  | .ROLL_BACK => some (some .RESTORED)
  | .ROLL_BACK_REFUSED => some (some .EXTERNAL_DRIFT_PRESERVED)
  | .COMMITTED_CLEANUP => some none
  | .DETACH_TERMINAL => some none
  | .HALT | .NO_RECOVERY => none

variable [UnicodeData]

structure ActionPlan where
  bound_snapshot : RecoverySnapshot
  disposition : PlanDisposition
  steps : List RecoveryStep
  rollback_result : Option RollbackResult
  issued : expected_result disposition = some rollback_result
  deriving DecidableEq

structure HaltPlan where
  bound_snapshot : RecoverySnapshot
  diagnostic : HaltDiagnostic
  steps : List TransitionTransactionState
  deriving DecidableEq

structure NoRecoveryPlan where
  bound_snapshot : RecoverySnapshot
  deriving DecidableEq

inductive RecoveryPlan
  | ActionPlan (plan : ActionPlan)
  | HaltPlan (plan : HaltPlan)
  | NoRecoveryPlan (plan : NoRecoveryPlan)

namespace RecoveryPlan

def bound_snapshot : RecoveryPlan → RecoverySnapshot
  | .ActionPlan plan => plan.bound_snapshot
  | .HaltPlan plan => plan.bound_snapshot
  | .NoRecoveryPlan plan => plan.bound_snapshot

def steps : RecoveryPlan → List RecoveryStep
  | .ActionPlan plan => plan.steps
  | .HaltPlan plan => plan.steps.map .TransitionTransactionState
  | .NoRecoveryPlan _ => []

/-- `type(plan) is HaltPlan` -/
def is_halt : RecoveryPlan → Bool
  | .HaltPlan _ => true
  | _ => false

end RecoveryPlan

def new_action_plan (bound_snapshot : RecoverySnapshot) (disposition : PlanDisposition)
    (steps : List RecoveryStep) : Except AtomsError RecoveryPlan := do
  validate_steps steps
  match h : expected_result disposition with
  | none => throw (.ProtocolError "action plan has a non-action disposition")
  | some rollback_result => pure (.ActionPlan { bound_snapshot, disposition, steps, rollback_result, issued := h })

def new_halt_plan (bound_snapshot : RecoverySnapshot) (diagnostic : HaltDiagnostic)
    (steps : List TransitionTransactionState) : Except AtomsError RecoveryPlan := do
  require_protocol
    (if bound_snapshot.transaction_state = .HALTED then
      steps = [] ∧ bound_snapshot.halt_diagnostic = some diagnostic
    else steps = [⟨bound_snapshot.transaction_state, .HALTED, none, some diagnostic⟩])
    "halt plan has an invalid transition or diagnostic"
  pure (.HaltPlan { bound_snapshot, diagnostic, steps })

def new_no_recovery_plan (bound_snapshot : RecoverySnapshot) : RecoveryPlan :=
  .NoRecoveryPlan { bound_snapshot }

end atoms.recovery

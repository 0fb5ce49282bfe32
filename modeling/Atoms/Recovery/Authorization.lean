import Atoms.Recovery.Classifier

open atoms.errors checked keyed

namespace atoms.recovery

/-- `TransformEffectTuple | RemoveScratch` -/
inductive MutatingStep
  | TransformEffectTuple (step : TransformEffectTuple)
  | RemoveScratch (step : RemoveScratch)
  deriving DecidableEq

namespace MutatingStep

def expected_before : MutatingStep → JointObservation
  | .TransformEffectTuple step => step.expected_before
  | .RemoveScratch step => step.expected_before

def step : MutatingStep → RecoveryStep
  | .TransformEffectTuple step => .TransformEffectTuple step
  | .RemoveScratch step => .RemoveScratch step

end MutatingStep

/-- A step that changes the volume. -/
def mutating_step : RecoveryStep → Option MutatingStep
  | .TransformEffectTuple step => some (.TransformEffectTuple step)
  | .RemoveScratch step => some (.RemoveScratch step)
  | _ => none

variable [UnicodeData]

/-- The step at an index, where it changes the volume. -/
def RecoveryPlan.mutating_step_at (plan : RecoveryPlan) (step_index : Nat) : Option MutatingStep :=
  plan.steps[step_index]?.bind mutating_step

structure AuthorizedStep where
  plan : RecoveryPlan
  step_index : Nat
  step : MutatingStep

/-- `AuthorizedStep | HaltPlan` -/
inductive Authorization
  | AuthorizedStep (step : AuthorizedStep)
  | HaltPlan (plan : RecoveryPlan)

namespace authorization

/-- What `_authorization_projection` compares. -/
structure Projection where
  entries : List DiagnosticEntry
  parent_occupancy : List ParentOccupancy
  relations : List DiagnosticIdentityRelation
  deriving DecidableEq

omit [UnicodeData] in
def authorization_projection (observation : JointObservation) : Except AtomsError Projection := do
  let entries ← diagnostics.project_entries (some observation)
  let relations ← diagnostics.project_identity_relations "authorization" (some observation)
  pure { entries, parent_occupancy := observation.parent_occupancy, relations }

/-- `_halt_for_observation` -/
def halt_for_observation (before : RecoverySnapshot) (expected observed : JointObservation) (reason : HaltReason) :
    Except AtomsError RecoveryPlan := do
  let normalized ← reducer.normalize_joint_observation before observed
  let (persistent, scratch) ← reducer.merge_joint_observation before normalized
  let conflicting ← build_recovery_snapshot
    { before.toSnapshotFields with persistent_observations := persistent, scratch_observations := scratch }
  let diagnostic ← diagnostics.diagnostic conflicting reason none none (some expected) (some observed)
  new_halt_plan conflicting diagnostic [⟨conflicting.transaction_state, .HALTED, none, some diagnostic⟩]

def authorize_recovery_step (plan : RecoveryPlan) (step_index : Nat) (observed : JointObservation) :
    Except AtomsError Authorization := do
  match plan.steps[step_index]? with
  | none => throw (.ProtocolError "step_index is outside the plan step range")
  | some raw_step => match mutating_step raw_step with
    | none => throw (.ProtocolError "step_index must name a filesystem-mutating step")
    | some step => do
      let before ← reducer.reduce_recovery_plan_prefix plan.bound_snapshot plan step_index
      reducer.validate_joint_coverage step.expected_before observed
      if classifier.non_authorizable observed then do
        let halt ← halt_for_observation before step.expected_before observed .PLAN_PRECONDITION_CHANGED
        pure (.HaltPlan halt)
      else do
        let observed_projection ← authorization_projection observed
        let expected_projection ← authorization_projection step.expected_before
        if observed_projection = expected_projection then pure (.AuthorizedStep { plan, step_index, step })
        else do
          let halt ← halt_for_observation before step.expected_before observed .PLAN_PRECONDITION_CHANGED
          pure (.HaltPlan halt)

/-- `_mutation_denied` -/
def mutation_denied (authorized : AuthorizedStep) (observed : JointObservation) : Except AtomsError RecoveryPlan := do
  let expected := authorized.step.expected_before
  reducer.validate_joint_coverage expected observed
  let observed_projection ← authorization_projection observed
  let expected_projection ← authorization_projection expected
  require_protocol (observed_projection = expected_projection) "observed no longer authorizes the supplied step"
  let before ← reducer.reduce_recovery_plan_prefix authorized.plan.bound_snapshot authorized.plan authorized.step_index
  halt_for_observation before expected observed .MUTATION_DENIED

end authorization

end atoms.recovery

import Atoms.Coordinator.Reconcile

open atoms.errors atoms.effects atoms.fs atoms.recovery atoms.store atoms.compiler checked keyed crash

namespace atoms.coordinator

section

variable [UnicodeData]

/-- `_persist_halt` -/
def persist_halt (approved : ProjectApprovedSpec) (plan : RecoveryPlan) : Walking RecoveryPlan := do
  Prog.call fun walk => .ok ((), { walk with plan, cursor := 0 })
  let persisted ← persist_plan_prefix approved plan 0
  in_engine (require_step (persisted = plan.steps.length)
    "a halt plan unexpectedly contains a filesystem mutation")
  pure plan

variable [Sha256]

/-- `_observe_for_step` -/
def observe_for_step (blobs : Blobs) (approved : ProjectApprovedSpec) (table : DescriptorTable) (step : MutatingStep) :
    Step JointObservation := on_disk (observe_joint blobs approved table step.expected_before)

/-- What follows a mutation that raised `EffectMismatch`: a halt, if there is one to be reported. -/
def reconsider (blobs : Blobs) (approved : ProjectApprovedSpec) (table : DescriptorTable) (plan : RecoveryPlan)
    (cursor : Nat) (step : MutatingStep) (errno : Option Errno) : Walking RecoveryPlan := do
  let observed ← in_engine (observe_for_step blobs approved table step)
  let reconsidered ← in_engine (modeled_step (authorization.authorize_recovery_step plan cursor observed))
  match reconsidered with
  | .HaltPlan halt => persist_halt approved halt
  | .AuthorizedStep authorized =>
    if errno = some .EACCES ∨ errno = some .EPERM then do
      let denied ← in_engine (modeled_step (authorization.mutation_denied authorized observed))
      persist_halt approved denied
    else throw (.AtomsError (.ProtocolError
      "a recovery mutation failed while its observable world stayed unchanged"))

/-- One mutating step of a plan: the halt plan that replaces the rest of the plan, or none when the step is done. -/
def run_mutation (blobs : Blobs) (approved : ProjectApprovedSpec) (table : DescriptorTable) (plan : RecoveryPlan)
    (cursor : Nat) (step : MutatingStep) : Walking (Option RecoveryPlan) := do
  let observed ← in_engine (observe_for_step blobs approved table step)
  let authorized ← in_engine (modeled_step (authorization.authorize_recovery_step plan cursor observed))
  match authorized with
  | .HaltPlan halt => do
    let halted ← persist_halt approved halt
    pure (some halted)
  | .AuthorizedStep authorized =>
    tryCatch
      (do
        in_engine (on_disk (execute_mutating blobs approved table authorized))
        pure none)
      fun caught => match caught with
        | .EffectMismatch _ _ errno => do
          let halted ← reconsider blobs approved table plan cursor step errno
          pure (some halted)
        | _ => throw caught

/-- The loop of `run_plan` from `cursor` on; every turn but the last passes at least one step. -/
def run_steps (project_root_fd : Inode) (blobs : Blobs) (approved : ProjectApprovedSpec) (table : DescriptorTable)
    (plan : RecoveryPlan) : (fuel cursor : Nat) → Walking RecoveryPlan
  | 0, _ => pure plan
  | fuel + 1, cursor =>
    if cursor < plan.steps.length then do
      let cursor ← persist_plan_prefix approved plan cursor
      match plan.steps[cursor]? with
      | none => pure plan
      | some .DetachActive => do
        in_engine (reconcile_settlement project_root_fd approved)
        let cursor ← persist_detach approved plan cursor
        run_steps project_root_fd blobs approved table plan fuel cursor
      | some step => match mutating_step step with
        | none => throw (.AtomsError (.ProtocolError "the plan stopped before a non-mutating step"))
        | some step => do
          let halted ← run_mutation blobs approved table plan cursor step
          match halted with
          | some halt => pure halt
          | none => do
            advance
            run_steps project_root_fd blobs approved table plan fuel (cursor + 1)
    else pure plan

/-- `run_plan`, started with the plan at its first step. -/
def run_plan (project_root_fd : Inode) (blobs : Blobs) (approved : ProjectApprovedSpec) (table : DescriptorTable)
    (plan : RecoveryPlan) : Walking RecoveryPlan :=
  match plan with
  | .NoRecoveryPlan _ => pure plan
  | _ => run_steps project_root_fd blobs approved table plan plan.steps.length 0

end

end atoms.coordinator

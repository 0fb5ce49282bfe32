import Atoms.Recovery.Diagnostics
import Atoms.Recovery.Reducer

open atoms.errors atoms.fingerprint atoms.effects atoms.compiler checked keyed

namespace atoms.recovery.classifier

/-- The kinds of step a decision may hold. -/
inductive SemanticStep
  | TransformEffectTuple | RemoveScratch | PreserveExternal
  deriving DecidableEq

def semantic_step : RecoveryStep → Option SemanticStep
  | .TransformEffectTuple _ => some .TransformEffectTuple
  | .RemoveScratch _ => some .RemoveScratch
  | .PreserveExternal _ => some .PreserveExternal
  | _ => none

/-- `_DECISION_STEP_SHAPES` -/
def decision_step_shapes : EffectDecisionKind → List (List SemanticStep)
  | .NO_ACTION => [[]]
  | .PRESERVE_EXTERNAL => [[.PreserveExternal]]
  | .UNDO_WITHOUT_MUTATION => [[]]
  | .REMOVE_SCRATCH => [[.RemoveScratch]]
  | .EXCHANGE_BACK => [[.TransformEffectTuple, .RemoveScratch]]
  | .REFUSED_EXCHANGE_BACK => [[.TransformEffectTuple, .PreserveExternal, .RemoveScratch]]
  | .ALREADY_UNDONE => [[]]
  | .REMOVE_LIVE_CREATION => [[.TransformEffectTuple, .RemoveScratch]]
  | .REFUSED_PRESERVE_LIVE => [[.PreserveExternal], [.PreserveExternal, .RemoveScratch]]
  | .RESTORE_TOMBSTONE => [[.TransformEffectTuple]]
  | .REMOVE_ANCHOR => [[.RemoveScratch]]
  | .RESTORE_SOURCE => [[.TransformEffectTuple, .RemoveScratch]]
  | .REMOVE_DESTINATION => [[.TransformEffectTuple, .RemoveScratch]]
  | .RESTORE_FROM_ANCHOR => [[.TransformEffectTuple, .RemoveScratch]]
  | .REFUSED_PRESERVE_DESTINATION => [[.PreserveExternal, .RemoveScratch]]
  | .REMOVE_WORK => [[.RemoveScratch]]
  | .REMOVE_LIVE_DIRECTORY => [[.TransformEffectTuple]]
  | .REMOVE_DUAL_NAME_DIRECTORY => [[.RemoveScratch, .TransformEffectTuple]]
  | .HALT => [[]]

/-- `_REFUSED_DECISION_KINDS` -/
def refused_decision_kind (kind : EffectDecisionKind) : Bool :=
  kind ∈ [EffectDecisionKind.PRESERVE_EXTERNAL, .REFUSED_EXCHANGE_BACK, .REFUSED_PRESERVE_LIVE,
    .REFUSED_PRESERVE_DESTINATION]

def validate_decision_step : RecoveryStep → Except AtomsError Unit
  | .TransformEffectTuple step => do
    reducer.validate_identity_relations step.identity_relations
    reducer.validate_joint_coverage step.expected_before step.result_after
  | .RemoveScratch step => reducer.validate_joint_coverage step.expected_before step.result_after
  | _ => .ok ()

/-- `_validate_effect_decision` -/
def validate_effect_decision (decision : EffectDecision) : Except AtomsError Unit := do
  validate_steps decision.steps
  require_protocol (∀ step ∈ decision.steps, (semantic_step step).isSome)
    "effect decision steps must be closed semantic step variants"
  decision.steps.forM validate_decision_step
  reducer.validate_joint_coverage decision.expected decision.observed
  if decision.kind = .HALT then
    require_protocol (decision.steps = [] ∧ ¬ decision.refused ∧ decision.halt_reason.isSome)
      "effect halt decision payload is inconsistent"
  else do
    require_protocol (decision.halt_reason = none) "non-halt effect decision may not carry a halt reason"
    require_protocol (decision.refused = refused_decision_kind decision.kind)
      "effect decision refused flag is inconsistent with its kind"
    require_protocol (decision.steps.filterMap semantic_step ∈ decision_step_shapes decision.kind)
      "effect decision step payload is inconsistent with its kind"

/-- `_non_authorizable`: an entry that no step may touch. -/
def non_authorizable_entry : ObservedEntry → Bool
  | .ObservedUnrecognized _ | .ObservedContended | .ObservedInaccessible => true
  | .ObservedDirectory _ _ none => true
  | _ => false

def non_authorizable (observed : JointObservation) : Bool := observed.entries.any non_authorizable_entry

/-- `_joint_from_cursor`, inlined where a provisional step is bound. -/
def joint_from_cursor [UnicodeData] (cursor : RecoverySnapshot) (template : JointObservation) :
    Except AtomsError JointObservation := do
  let current ← reducer.current_joint_observation cursor template
  reducer.normalize_joint_observation cursor current

variable [UnicodeData]

/-- Bind one provisional step to the cursor. -/
def bind_step (cursor : RecoverySnapshot) : RecoveryStep → Except AtomsError RecoveryStep
  | .TransformEffectTuple step => do
    let expected_before ← joint_from_cursor cursor step.expected_before
    let result_after ← reducer.normalize_joint_observation cursor step.result_after
    pure (.TransformEffectTuple { step with expected_before, result_after })
  | .RemoveScratch step => do
    let expected_before ← joint_from_cursor cursor step.expected_before
    let result_after ← reducer.normalize_joint_observation cursor step.result_after
    pure (.RemoveScratch { step with expected_before, result_after })
  | .PreserveExternal step => pure (.PreserveExternal step)
  | _ => throw (.ProtocolError "effect decision contains a non-semantic step")

/-- `_bind_effect_steps`: each provisional step bound to the cursor that the earlier ones lead to. -/
def bind_effect_steps (cursor : RecoverySnapshot) :
    List RecoveryStep → Except AtomsError (List RecoveryStep × RecoverySnapshot)
  | [] => pure ([], cursor)
  | provisional :: rest => do
    let step ← bind_step cursor provisional
    let current ← reducer.apply_steps cursor [step]
    let (bound, final) ← bind_effect_steps current rest
    pure (step :: bound, final)

/-- Whether rollback has an effect in this journal state to settle. -/
def needs_reversal (state : JournalState) : Bool :=
  state ∈ [JournalState.STARTED, .DONE, .UNDO_STARTED]

/-- `_reverse_effect_steps` -/
def reverse_effect_steps (cursor : RecoverySnapshot) (effect_index : Nat) (decision : EffectDecision) :
    Except AtomsError (List RecoveryStep) :=
  match cursor.compiled.spec.effects[effect_index]?, cursor.journals[effect_index]? with
  | some effect, some row => do
    let opening := if row.state = .STARTED ∨ row.state = .DONE then
      [RecoveryStep.TransitionEffectState
        { effect_id := effect.effect_id, from_state := row.state, to_state := .UNDO_STARTED }] else []
    let opened ← reducer.apply_steps cursor opening
    let (bound, reversed) ← bind_effect_steps opened decision.steps
    let closing := if needs_reversal row.state then
      [RecoveryStep.TransitionEffectState
        { effect_id := effect.effect_id, from_state := .UNDO_STARTED, to_state := .UNDONE }] else []
    let closed ← reducer.apply_steps reversed closing
    require_protocol (closed.journals[effect_index]?.map EffectJournalState.state =
        some (if needs_reversal row.state then .UNDONE else row.state))
      "effect reversal projection did not settle"
    pure (opening ++ bound ++ closing)
  | _, _ => throw (.ProtocolError "effect_index is outside compiled effect coverage")

/-- `_stable_halt_plan` -/
def stable_halt_plan (source : RecoverySnapshot) : Except AtomsError RecoveryPlan :=
  match source.halt_diagnostic with
  | none => throw (.ProtocolError "HALTED snapshot is missing its exact halt diagnostic")
  | some diagnostic => new_halt_plan source diagnostic []

/-- `_halt_plan` -/
def halt_plan (source : RecoverySnapshot) (reason : HaltReason) (effect_id : Option String)
    (expected observed : Option JointObservation) (projected : Option RecoverySnapshot) :
    Except AtomsError RecoveryPlan :=
  if source.transaction_state = .HALTED then stable_halt_plan source
  else do
    let diagnostic ← diagnostics.diagnostic source reason projected effect_id expected observed
    new_halt_plan source diagnostic
      [{ from_state := source.transaction_state
         to_state := .HALTED
         rollback_result := none
         halt_diagnostic := some diagnostic }]

/-- `_terminal_detach_plan` -/
def terminal_detach_plan (source : RecoverySnapshot) : Except AtomsError RecoveryPlan :=
  new_action_plan source .DETACH_TERMINAL [.DetachActive]

/-- What the reverse loop of `_rollback_plan` carries from effect to effect. -/
structure RollbackProgress where
  cursor : RecoverySnapshot
  steps : List RecoveryStep
  refused : Bool

/-- One effect of the reverse loop: its decision, its steps and the cursor they lead to. -/
def roll_back_effect (progress : RollbackProgress) (index : Nat) :
    Except AtomsError (EffectDecision × RollbackProgress) := do
  let frontiers ← journal.reconstruct_frontiers progress.cursor
  let decision ← variants.classify_effect progress.cursor index frontiers
  validate_effect_decision decision
  if decision.halt_reason.isSome then pure (decision, progress)
  else do
    let local_steps ← reverse_effect_steps progress.cursor index decision
    let cursor ← reducer.apply_steps progress.cursor local_steps
    pure (decision, { cursor, steps := progress.steps ++ local_steps, refused := progress.refused || decision.refused })

/-- The reverse loop of `_rollback_plan` over the first `count` effects: the halt
plan of the first effect it cannot attribute, or its end. -/
def roll_back_effects (source : RecoverySnapshot) :
    (count : Nat) → RollbackProgress → Except AtomsError (RecoveryPlan ⊕ RollbackProgress)
  | 0, progress => pure (.inr progress)
  | index + 1, progress => do
    let (decision, next) ← roll_back_effect progress index
    match decision.halt_reason with
    | some reason => do
      let plan ← halt_plan source reason (source.compiled.spec.effects[index]?.map Effect.effect_id)
        (some decision.expected) (some decision.observed) (some progress.cursor)
      pure (.inl plan)
    | none => roll_back_effects source index next

/-- The transition that opens a rollback, unless it is already open. -/
def opening_transition (source : RecoverySnapshot) : List RecoveryStep :=
  if source.transaction_state = .ROLLING_BACK then []
  else [.TransitionTransactionState
    { from_state := source.transaction_state, to_state := .ROLLING_BACK, rollback_result := none,
      halt_diagnostic := none }]

/-- The steps that end a rollback. -/
def terminal_steps (result : RollbackResult) : List RecoveryStep :=
  [.TransitionTransactionState
    { from_state := .ROLLING_BACK, to_state := .ROLLED_BACK, rollback_result := some result, halt_diagnostic := none },
    .DetachActive]

/-- `_rollback_plan` -/
def rollback_plan (source : RecoverySnapshot) : Except AtomsError RecoveryPlan := do
  let opening := opening_transition source
  let cursor ← reducer.apply_steps source opening
  let outcome ← roll_back_effects source source.compiled.spec.effects.length
    { cursor, steps := opening, refused := false }
  match outcome with
  | .inl plan => pure plan
  | .inr progress => do
    let terminal := terminal_steps (if progress.refused then .EXTERNAL_DRIFT_PRESERVED else .RESTORED)
    let settled ← reducer.apply_steps progress.cursor terminal
    require_protocol (settled.transaction_state = .ROLLED_BACK ∧ ¬ settled.active)
      "terminal rollback projection did not settle"
    new_action_plan source (if progress.refused then .ROLL_BACK_REFUSED else .ROLL_BACK) (progress.steps ++ terminal)

/-- `_committed_surface_matches` -/
def committed_surface_matches (source : RecoverySnapshot) : Except AtomsError Bool := do
  let matching ← source.persistent_observations.mapM fun observation => do
    let state ← variants.entry_state observation.entry
    pure (some state == surface_map source.compiled.spec.final_surface observation.path)
  pure (matching.all id)

/-- The loop of `_committed_plan` over the effects from `index` on. -/
def clean_up_effects (source : RecoverySnapshot) : List Nat → RecoverySnapshot → List RecoveryStep →
    Except AtomsError (RecoveryPlan ⊕ RecoverySnapshot × List RecoveryStep)
  | [], cursor, steps => pure (.inr (cursor, steps))
  | index :: rest, cursor, steps => do
    let decision ← variants.classify_committed_cleanup cursor index
    validate_effect_decision decision
    match decision.halt_reason with
    | some reason => do
      let plan ← halt_plan source reason (source.compiled.spec.effects[index]?.map Effect.effect_id)
        (some decision.expected) (some decision.observed) (some cursor)
      pure (.inl plan)
    | none => do
      require_protocol (¬ decision.refused) "committed cleanup may not refuse rollback"
      require_protocol (∀ step ∈ decision.steps, semantic_step step = some .RemoveScratch)
        "committed cleanup effect decision contains a non-cleanup step"
      let (local_steps, next) ← bind_effect_steps cursor decision.steps
      clean_up_effects source rest next (steps ++ local_steps)

/-- `_committed_plan` -/
def committed_plan (source : RecoverySnapshot) : Except AtomsError RecoveryPlan := do
  let matching ← committed_surface_matches source
  if ¬ matching then halt_plan source .COMMITTED_SURFACE_MISMATCH none none none none
  else do
    let outcome ← clean_up_effects source (List.range source.compiled.spec.effects.length) source []
    match outcome with
    | .inl plan => pure plan
    | .inr (cursor, steps) => do
      let settled ← reducer.apply_steps cursor [.DetachActive]
      require_protocol (settled.transaction_state = .COMMITTED ∧ ¬ settled.active)
        "terminal committed projection did not settle"
      new_action_plan source .COMMITTED_CLEANUP (steps ++ [.DetachActive])

/-- The first effect whose observation no step may touch. -/
def first_non_authorizable (s : RecoverySnapshot) :
    List Effect → Except AtomsError (Option (Effect × JointObservation))
  | [] => pure none
  | effect :: rest => do
    let observed ← variants.joint s effect
    if non_authorizable observed then pure (some (effect, observed)) else first_non_authorizable s rest

def classify_recovery (s : RecoverySnapshot) : Except AtomsError RecoveryPlan := do
  let authority ← journal.classify_transaction_authority s
  match authority.kind, authority.halt_reason with
  | .NO_RECOVERY, _ => pure (new_no_recovery_plan s)
  | .STABLE_HALT, _ => stable_halt_plan s
  | .HALT, some reason => halt_plan s reason none none none none
  | .HALT, none => throw (.ProtocolError "transaction authority decision is outside the closed set")
  | .DETACH, _ => terminal_detach_plan s
  | .CLASSIFY, _ => do
    let refused ← first_non_authorizable s s.compiled.spec.effects
    match refused with
    | some (effect, observed) =>
      halt_plan s .EFFECT_TUPLE_UNATTRIBUTABLE (some effect.effect_id) none (some observed) none
    | none => if s.transaction_state = .COMMITTED then committed_plan s else rollback_plan s

end atoms.recovery.classifier

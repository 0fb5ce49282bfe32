import Atoms.Coordinator.Execute
import Atoms.Coordinator.Settle

open atoms.errors atoms.effects atoms.fs atoms.recovery atoms.store atoms.compiler checked crash

namespace atoms.coordinator

/-- `raise ProtocolError(message)` unless `condition` holds. -/
def require_step (condition : Prop) [Decidable condition] (message : String) : Step Unit :=
  if condition then pure () else throw (.AtomsError (.ProtocolError message))

section

variable [UnicodeData]

/-- The engine while it persists a plan: which plan it is, and how many of its steps are done. -/
structure Walk where
  engine : Engine
  plan : RecoveryPlan
  cursor : Nat

abbrev Walking (α : Type) := Prog Walk Raised α

/-- Calls of the engine that leave the plan and the cursor alone. -/
def in_engine {α : Type} (p : Step α) : Walking α :=
  Prog.zoom ⟨Walk.engine, fun walk engine => { walk with engine }, fun _ _ => rfl, fun _ => rfl, fun _ _ _ => rfl⟩ p

/-- `cursor += 1` -/
def advance : Walking Unit := Prog.call fun walk => .ok ((), { walk with cursor := walk.cursor + 1 })

/-- The commit of one step, after which `cursor += 1`. -/
def commit_step (body : StoreTransaction → Except Raised StoreTransaction) : Walking Unit := Prog.call fun walk => do
  let db ← transaction walk.engine.db body
  pure ((), { walk with engine := { walk.engine with db }, cursor := walk.cursor + 1 })

/-- `lease._store.read_active()` -/
def read_active_record : Step (Option StoredRecord) := Prog.read fun engine => read_active engine.db

/-- A check of the recovery model. -/
def modeled_step {α : Type} (value : Except AtomsError α) : Step α := Prog.read fun _ => modeled value

/-- `type(step) in _STOP` -/
def is_stop : RecoveryStep → Bool
  | .TransformEffectTuple _ | .RemoveScratch _ | .DetachActive => true
  | _ => false

/-- `_require_projection_matches` -/
def require_projection_matches (record : StoredRecord) (plan : RecoveryPlan) (start : Nat)
    (approved : ProjectApprovedSpec) : Except AtomsError Unit := do
  let source := plan.bound_snapshot
  require_protocol (source.compiled = approved.compiled)
    "the plan's bound snapshot names a different compiled spec than the proof"
  require_protocol (source.topology = approved.topology)
    "the plan's bound snapshot names a different topology than the proof"
  let expected ← reducer.reduce_recovery_plan_prefix source plan start
  require_protocol (canonicalize record.spec = canonicalize expected.compiled.spec)
    ("the active record's spec disagrees with the plan prefix reduced to step " ++ toString start)
  let disagrees := fun label => "the active record's " ++ label ++ " disagrees with the plan prefix reduced to step " ++
    toString start
  require_protocol (record.state = expected.transaction_state) (disagrees "transaction state")
  require_protocol (record.committed = expected.commit_decision) (disagrees "commit decision")
  require_protocol (record.rollback_result = expected.rollback_result) (disagrees "rollback result")
  require_protocol (record.halt_diagnostic = expected.halt_diagnostic) (disagrees "halt diagnostic")
  require_protocol (record.journals = expected.journals) (disagrees "journals")
  require_protocol expected.active ("the plan prefix reduced to step " ++ toString start ++
    " projects a detached transaction, but this record is still the active one")

/-- `if step.rollback_result is not None` -/
def write_result (txid : String) (result : Option RollbackResult) (txn : StoreTransaction) :
    Except Raised StoreTransaction :=
  match result with
  | some result => txn.set_rollback_result txid result
  | none => pure txn

/-- `if step.halt_diagnostic is not None` -/
def write_diagnostic (txid : String) (diagnostic : Option HaltDiagnostic) (txn : StoreTransaction) :
    Except Raised StoreTransaction :=
  match diagnostic with
  | some diagnostic => txn.set_halt_diagnostic txid diagnostic
  | none => pure txn

/-- The writes of a transaction transition, in one store transaction. -/
def transition_body (txid : String) (step : TransitionTransactionState) (txn : StoreTransaction) :
    Except Raised StoreTransaction := do
  let txn ← txn.set_transaction_state txid step.to_state
  let txn ← write_result txid step.rollback_result txn
  write_diagnostic txid step.halt_diagnostic txn

/-- `_persist_one`, and the step after it. -/
def persist_one (txid : String) : RecoveryStep → Walking Unit
  | .PreserveExternal _ => advance
  | .TransitionEffectState step => commit_step fun txn => txn.set_journal_state txid step.effect_id step.to_state
  | .TransitionTransactionState step => commit_step (transition_body txid step)
  | _ => throw (.AtomsError (.ProtocolError
      "step is neither mutating nor persistable; the walk should have returned before reaching it"))

/-- The walk of `persist_plan_prefix` over the steps from `cursor` on. -/
def persist_steps (txid : String) : (cursor : Nat) → List RecoveryStep → Walking Nat
  | cursor, [] => pure cursor
  | cursor, step :: rest =>
    if is_stop step then pure cursor
    else do
      persist_one txid step
      persist_steps txid (cursor + 1) rest

/-- The checks on the active record: it is the one that the plan's prefix leads to. -/
def require_record (approved : ProjectApprovedSpec) (plan : RecoveryPlan) (start : Nat) (absent : String)
    (foreign : String → String) : Step StoredRecord := do
  let record ← read_active_record
  match record with
  | none => throw (.AtomsError (.ProtocolError absent))
  | some record => do
    require_step (record.txid = approved.txid) (foreign record.txid)
    modeled_step (require_projection_matches record plan start approved)
    pure record

def persist_plan_prefix (approved : ProjectApprovedSpec) (plan : RecoveryPlan) (start : Nat) : Walking Nat := do
  in_engine (require_step (start ≤ plan.steps.length) ("start " ++ toString start ++
    " is outside the plan step range 0.." ++ toString plan.steps.length))
  let record ← in_engine (require_record approved plan start "no active record to advance"
    fun txid => "active record " ++ py_repr txid ++ " is not the proof's " ++ py_repr approved.txid)
  persist_steps record.txid start (plan.steps.drop start)

def persist_detach (approved : ProjectApprovedSpec) (plan : RecoveryPlan) (cursor : Nat) : Walking Nat := do
  in_engine (require_step (cursor < plan.steps.length) "detach cursor is outside the plan step range")
  in_engine (require_step (plan.steps[cursor]? = some .DetachActive) "detach cursor does not name DetachActive")
  let record ← in_engine (require_record approved plan cursor "the proof's transaction is not active"
    fun _ => "the proof's transaction is not active")
  in_engine (require_step (record.registration_digest.isSome ∧ record.settlement_digest.isSome)
    "detach requires registration and settlement bindings")
  commit_step fun txn => txn.set_active none
  pure (cursor + 1)

end

end atoms.coordinator

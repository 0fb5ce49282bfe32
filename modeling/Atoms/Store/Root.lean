import Atoms.Core.Identifiers
import Atoms.Core.Fingerprint

open atoms.errors atoms.fingerprint atoms.identifiers checked

namespace atoms.store

/-! The tables of the root: at most one operation that created it, and at most one row of its lifecycle. -/

inductive RootOperationKind
  | register | replicate | fork
  deriving DecidableEq

inductive RootOperationPhase
  | recorded | source_snapshot_durable | tree_durable | complete
  deriving DecidableEq

inductive RootLifecycleState
  | writable | read_only_serviceable | read_only_unserviceable
  deriving DecidableEq

inductive RootLifecycleOrigin
  | register | replicate | fork | read_serviceability | migration_v2
  deriving DecidableEq

/-- A stored snapshot, decoded: the head of the chain, and the state of each path in ascending order. -/
structure Snapshot where
  chain_head : String
  entries : List (String × PathState)
  deriving DecidableEq

structure RootLifecycleRow where
  state : RootLifecycleState
  machine_id : String
  root_path : String
  origin : RootLifecycleOrigin
  deriving DecidableEq

structure RootOperationRow where
  operation_id : String
  kind : RootOperationKind
  phase : RootOperationPhase
  request_json : String
  request_hash : String
  source_snapshot : Option Snapshot
  destination_snapshot : Option Snapshot
  genesis_digest : Option String
  deriving DecidableEq

structure RootTables where
  operation : Option RootOperationRow
  lifecycle : Option RootLifecycleRow

/-- The grammar `[0-9a-f]{32}`. -/
def is_operation_id (value : String) : Bool := value.toList.all is_lower_hex && value.toList.length == 32

/-- `NEW.origin = kind` -/
def RootOperationKind.origin : RootOperationKind → RootLifecycleOrigin
  | .register => .register
  | .replicate => .replicate
  | .fork => .fork

def RootLifecycleOrigin.value : RootLifecycleOrigin → String
  | .register => "register"
  | .replicate => "replicate"
  | .fork => "fork"
  | .read_serviceability => "read-serviceability"
  | .migration_v2 => "migration-v2"

/-- The states that the rows of an origin may have. -/
def RootLifecycleOrigin.states : RootLifecycleOrigin → List RootLifecycleState
  | .register | .fork => [.read_only_unserviceable, .writable]
  | .replicate => [.read_only_unserviceable, .read_only_serviceable]
  | .read_serviceability => [.read_only_serviceable]
  | .migration_v2 => [.writable]

/-- The proofs that a row of each kind carries in each phase. -/
def RootOperationRow.proved (row : RootOperationRow) : Bool :=
  let source := row.source_snapshot.isSome
  let destination := row.destination_snapshot.isSome
  let genesis := row.genesis_digest.isSome
  match row.kind, row.phase with
  | .register, .recorded => !source && !destination && !genesis
  | .register, .source_snapshot_durable => false
  | .register, _ => !source && destination && genesis
  | .replicate, .recorded => !source && !destination && !genesis
  | .replicate, .source_snapshot_durable => source && !destination && !genesis
  | .replicate, _ => source && destination && !genesis
  | .fork, .recorded => !source && !destination && !genesis
  | .fork, .source_snapshot_durable => source && !destination && !genesis
  | .fork, _ => source && destination && genesis

/-- `RAISE(ABORT, message)` unless `condition` holds. -/
def require_trigger (condition : Prop) [Decidable condition] (message : String) : Except Raised Unit :=
  require condition (.IntegrityError message)

/-- The phases that may follow one another. -/
def follows (kind : RootOperationKind) : RootOperationPhase → RootOperationPhase → Bool
  | .recorded, .source_snapshot_durable => kind == .replicate || kind == .fork
  | .recorded, .tree_durable => kind == .register
  | .source_snapshot_durable, .tree_durable => true
  | .tree_durable, .complete => true
  | _, _ => false

namespace RootTables

def insert_root_operation (tables : RootTables) (operation_id : String) (kind : RootOperationKind)
    (request_json request_hash : String) : Except Raised RootTables := do
  require_trigger (tables.lifecycle = none) "root operation insert requires empty lifecycle and recorded phase"
  require_trigger (is_operation_id operation_id ∧ is_hex_digest request_hash) "CHECK constraint failed: root_operation"
  require_trigger (tables.operation = none) "UNIQUE constraint failed: root_operation.singleton"
  let row : RootOperationRow :=
    { operation_id, kind, phase := .recorded, request_json, request_hash, source_snapshot := none,
      destination_snapshot := none, genesis_digest := none }
  pure { tables with operation := some row }

/-- `trg_root_lifecycle_insert_gate` -/
def admits_lifecycle (operation : Option RootOperationRow) (state : RootLifecycleState) (origin : RootLifecycleOrigin) :
    Bool :=
  match origin with
  | .read_serviceability => state = .read_only_serviceable ∧ operation = none
  | .migration_v2 => state = .writable ∧ operation = none
  | _ => state = .read_only_unserviceable ∧ ∃ row ∈ operation, row.kind.origin = origin ∧ row.phase = .recorded

def insert_root_lifecycle (tables : RootTables) (state : RootLifecycleState) (machine_id root_path : String)
    (origin : RootLifecycleOrigin) : Except Raised RootTables := do
  require_trigger (admits_lifecycle tables.operation state origin) "root lifecycle insert lacks initial operation state"
  require_trigger (is_operation_id machine_id ∧ machine_id ≠ String.ofList (List.replicate 32 '0') ∧ root_path ≠ "" ∧
    state ∈ origin.states) "CHECK constraint failed: root_lifecycle"
  require_trigger (tables.lifecycle = none) "UNIQUE constraint failed: root_lifecycle.singleton"
  let row : RootLifecycleRow := { state, machine_id, root_path, origin }
  pure { tables with lifecycle := some row }

/-- `trg_root_lifecycle_transition` -/
def admits_transition (operation : Option RootOperationRow) (row : RootLifecycleRow) (state : RootLifecycleState) : Bool :=
  state = row.state ∨
  row.state = .read_only_unserviceable ∧ state = .read_only_serviceable ∧
    (∀ found ∈ operation, found.phase = .complete) ∨
  row.state = .read_only_unserviceable ∧ state = .writable ∧ (row.origin = .register ∨ row.origin = .fork) ∧
    ∃ found ∈ operation, found.kind.origin = row.origin ∧ found.phase = .tree_durable

def set_root_lifecycle_state (tables : RootTables) (state : RootLifecycleState) : Except Raised RootTables :=
  match tables.lifecycle with
  | none => throw (.AtomsError (.ProtocolError "no root lifecycle row to transition"))
  | some row => do
    require_trigger (admits_transition tables.operation row state) "illegal root lifecycle transition"
    require_trigger (state ∈ row.origin.states) "CHECK constraint failed: root_lifecycle"
    pure { tables with lifecycle := some { row with state } }

/-- `trg_root_operation_proof_write_once`, for one column. -/
def write_once {α : Type} [DecidableEq α] (old new : Option α) : Bool := old = none ∨ new = old

/-- An update of the row of the operation, with the triggers that it fires. -/
def update_operation (tables : RootTables) (absent : String) (update : RootOperationRow → RootOperationRow) :
    Except Raised RootTables :=
  match tables.operation with
  | none => throw (.AtomsError (.ProtocolError absent))
  | some row => do
    let row' := update row
    require_trigger (write_once row.source_snapshot row'.source_snapshot ∧
      write_once row.destination_snapshot row'.destination_snapshot ∧
      write_once row.genesis_digest row'.genesis_digest) "root operation proof fields are write-once"
    require_trigger (follows row.kind row.phase row'.phase) "illegal root operation phase transition"
    require_trigger (row'.phase = .complete → ∃ lifecycle ∈ tables.lifecycle, lifecycle.origin = row.kind.origin ∧
      lifecycle.state = if row.kind = .replicate then .read_only_unserviceable else .writable)
      "root operation completion lacks lifecycle state"
    require_trigger (row'.proved ∧ ∀ digest ∈ row'.genesis_digest, is_hex_digest digest)
      "CHECK constraint failed: root_operation"
    pure { tables with operation := some row' }

def set_root_operation_phase (tables : RootTables) (phase : RootOperationPhase) : Except Raised RootTables :=
  tables.update_operation "no root operation row to advance" fun row => { row with phase }

def set_root_operation_source_snapshot (tables : RootTables) (snapshot : Snapshot) : Except Raised RootTables :=
  tables.update_operation "no root operation row for the snapshot proof" fun row =>
    { row with source_snapshot := some snapshot, phase := .source_snapshot_durable }

def set_root_operation_tree_proof (tables : RootTables) (snapshot : Snapshot) (genesis_digest : Option String) :
    Except Raised RootTables :=
  tables.update_operation "no root operation row for the tree proof" fun row =>
    { row with destination_snapshot := some snapshot, genesis_digest, phase := .tree_durable }

end RootTables

/-- `require_root_row_pair` -/
def require_root_row_pair [UnicodeData] (lifecycle : Option RootLifecycleRow) (operation : Option RootOperationRow) :
    Except Raised Unit :=
  let refuse := fun message => Raised.MetadataStoreInvalid ("root lifecycle bookkeeping is malformed: " ++ message)
  match lifecycle, operation with
  | none, none => pure ()
  | none, some _ => throw (refuse "a root operation row exists without its atomic lifecycle row")
  | some row, none => require (row.origin ∉ [.register, .replicate, .fork])
      (refuse ("lifecycle origin " ++ py_repr row.origin.value ++ " has no operation row"))
  | some row, some operation => do
    require (row.origin ∈ [.register, .replicate, .fork])
      (refuse ("lifecycle origin " ++ py_repr row.origin.value ++ " must not carry an operation row"))
    require (operation.kind.origin = row.origin) (refuse ("lifecycle origin " ++ py_repr row.origin.value ++
      " does not match operation kind " ++ py_repr operation.kind.origin.value))

end atoms.store

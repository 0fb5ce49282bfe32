import Atoms.Coordinator.Commands
import Atoms.Coordinator.Lifecycle

open atoms.errors atoms.fingerprint atoms.paths atoms.spec atoms.recovery atoms.fs atoms.store atoms.chain checked crash

namespace atoms.coordinator

/-! The registration of a project root. -/

/-- A project root on its volume, and what the metadata root of the caller holds of it. -/
structure RootState where
  disk : Disk
  carrier : Carrier

abbrev Rooted (α : Type) := Prog RootState Raised α

/-- Calls on the volume. -/
def in_root {α : Type} (p : Call α) : Rooted α :=
  Prog.zoom ⟨RootState.disk, fun state disk => { state with disk }, fun _ _ => rfl, fun _ => rfl, fun _ _ _ => rfl⟩ p

/-- `with store.transaction() as txn: body(txn)`, on the tables of the root. -/
def commit_tables (body : RootTables → Except Raised RootTables) : Rooted Unit := Prog.call fun state => do
  let tables ← body state.carrier.tables
  pure ((), { state with carrier := { state.carrier with tables } })

/-- `store.read_root_operation()` -/
def read_root_operation : Rooted (Option RootOperationRow) := Prog.read fun state => .ok state.carrier.tables.operation

/-- `open_store`: a store that is not there yet is created with empty tables. -/
def open_store : Rooted Unit := Prog.call fun state =>
  if state.carrier.version = 0 then .ok ((), { state with carrier := ⟨3, ⟨none, none⟩⟩ })
  else if state.carrier.version = 2 then .error (.MetadataStoreInvalid ("this is a pre-lifecycle version-2 store; " ++
    "normal open never migrates it. migrate_root_to_lifecycle_v3 is its only transition to this build's schema"))
  else .ok ((), state)

/-- `raise PreconditionRefused(message)` unless `condition` holds. -/
def require_precondition (condition : Prop) [Decidable condition] (message : String) : Rooted Unit :=
  if condition then pure () else throw (.AtomsError (.PreconditionRefused message))

section

variable [UnicodeData]

/-- `_validate_registered_surface` -/
def validate_registered_surface (paths : List String) : Except Raised Unit := do
  require (paths = sorted_by id paths) (.AtomsError (.PreconditionRefused "registered_surface must be sorted"))
  require paths.Nodup (.AtomsError (.PreconditionRefused "registered_surface must be duplicate-free"))
  paths.forM fun path => match require_rel_path "registered surface path" path with
    | .error caught => throw (.AtomsError (.PreconditionRefused (error_text caught)))
    | .ok _ => pure ()

/-! Capture of the baseline. -/

/-- The directory that holds a path, or none where one of its components is no directory. -/
def open_parents : Inode → List String → Call (Option Inode)
  | parent_fd, [] => pure (some parent_fd)
  | parent_fd, component :: rest => do
    let opened ← tryCatch
      (do
        let fd ← open_child_directory parent_fd component
        pure (some fd))
      fun caught => match caught with
        | .OSError errno => if errno ∈ [.ENOENT, .ENOTDIR, .ELOOP] then pure none else throw caught
        | _ => throw caught
    match opened with
    | none => pure none
    | some fd => open_parents fd rest

/-- The state of what was observed, if the vocabulary of states has it. -/
def captured_state (path : String) : ObservedEntry → Except Raised PathState
  | .ObservedAbsent => pure ABSENT
  | .ObservedFile state _ => pure state
  | .ObservedSymlink state => pure state
  | .ObservedDirectory state _ _ => pure state
  | _ => throw (.AtomsError (.PreconditionRefused
    (py_repr path ++ " was observed outside the closed path-state vocabulary")))

variable [Sha256]

/-- `_capture_path` -/
def capture_path (project_root_fd : Inode) (path : String) : Call PathState := do
  let parent ← open_parents project_root_fd (components path).dropLast
  match parent with
  | none => pure ABSENT
  | some parent_fd => do
    let observed ← observe parent_fd ((components path).getLast?.getD "") []
    lift (captured_state path observed)

/-- `_capture_baseline` -/
def capture_baseline (project_root_fd : Inode) : List String → Call (List (String × PathStateJSON))
  | [] => pure []
  | path :: rest => do
    let state ← capture_path project_root_fd path
    let facts ← lift (state_to_json state)
    let baseline ← capture_baseline project_root_fd rest
    pure ((path, facts) :: baseline)

/-! The chain of the root. -/

def bootstrap_chain (project_root_fd : Inode) : Call Inode := do
  tryCatch (mkdir_child project_root_fd CHAIN_LEAF 0o700) fun caught => match caught with
    | .OSError .EEXIST => pure ()
    | _ => throw caught
  let chain_fd ← tryCatch (open_child_directory project_root_fd CHAIN_LEAF) fun caught => match caught with
    | .OSError errno =>
      if errno ∈ [.ENOENT, .ENOTDIR, .ELOOP, .EXDEV] then
        throw (.ChainStateInvalid "the reserved chain leaf is not a stable directory")
      else throw caught
    | _ => throw caught
  flush_directory project_root_fd
  pure chain_fd

/-- The chain directory, or none where the leaf is absent. -/
def find_chain (project_root_fd : Inode) : Call (Option Inode) :=
  tryCatch
    (do
      let chain_fd ← open_child_directory project_root_fd CHAIN_LEAF
      pure (some chain_fd))
    fun caught => match caught with
      | .OSError .ENOENT => pure none
      | .OSError errno => throw (chain_leaf_error errno)
      | _ => throw caught

/-- `resolve`, where the store has no active record. -/
def resolve_chain (project_root_fd : Inode) : Call Unit := do
  let found ← find_chain project_root_fd
  match found with
  | none => pure ()
  | some chain_fd => do
    let validated ← validate_chain chain_fd []
    let fresh ← validate_chain chain_fd []
    require_chain (same_history fresh validated) "the chain changed after reconciliation derivation"
    let _ ← apply_survivors chain_fd fresh
    pure ()

/-- The genesis that a chain of a root starts with is the one that a registration asks for. -/
def is_genesis_of (genesis_payload : List UInt8) (registered_surface : List String) : chain.Entry → Bool
  | .GenesisEntry genesis => genesis.payload = genesis_payload ∧ genesis.baseline.map Prod.fst = registered_surface
  | _ => false

/-- What a chain without a claim and without a carrier says to a registration. -/
def refuse_genesis (genesis_payload : List UInt8) (registered_surface : List String) :
    Except ChainDefect ChainScan → Except Raised Unit
  | .error _ => pure ()
  | .ok scan => match inspect_scan scan with
    | .WellFormedChain chain => match chain.entries with
      | [] => pure ()
      | (_, genesis) :: _ =>
        if is_genesis_of genesis_payload registered_surface genesis then
          throw (.AtomsError (.PreconditionRefused "matching genesis has no local initialization operation"))
        else throw (.AtomsError (.PreconditionRefused
          "the project root is already registered with a different payload or surface"))
    | _ => pure ()

/-- `_refuse_bare_genesis`; a chain leaf that is no directory is a malformed chain. -/
def refuse_bare_genesis (project_root_fd : Inode) (genesis_payload : List UInt8) (registered_surface : List String) :
    Call Unit := do
  let found ← tryCatch
    (do
      let chain_fd ← open_child_directory project_root_fd CHAIN_LEAF
      pure (some chain_fd))
    fun caught => match caught with
      | .OSError errno => if errno ∈ [.ENOENT, .ENOTDIR, .ELOOP, .EXDEV] then pure none else throw caught
      | _ => throw caught
  match found with
  | none => pure ()
  | some chain_fd => do
    let scanned ← scan_chain_directory chain_fd
    lift (refuse_genesis genesis_payload registered_surface scanned)

/-! `register_root` -/

/-- The arguments of a registration in canonical spelling, and the machine that it runs on. -/
structure Registration where
  project_root : String
  metadata_root : String
  storage : StorageProfile
  genesis_payload : List UInt8
  registered_surface : List String
  machine_id : String

def Registration.request (args : Registration) : Except Raised OperationRequest :=
  OperationRequest.of (register_request args.project_root args.metadata_root args.storage args.genesis_payload
    args.registered_surface)

/-- `_register_completed_retry` -/
def register_completed_retry (view : CarrierView) (args : Registration) : Except Raised String :=
  match view.operation with
  | none => throw not_registered
  | some operation =>
    if operation.kind ≠ .register then throw not_registered
    else do
      let request ← args.request
      require (operation.request_json = request.operation_json) (.AtomsError (.RootOperationMismatch
        "the project root is already registered with a different payload or surface"))
      match operation.genesis_digest with
      | none => throw (.AtomsError (.RootOperationInvalid "a completed register operation carries no genesis digest"))
      | some digest => pure digest
where
  not_registered : Raised := .AtomsError (.PreconditionRefused
    "this writable root was not created by register_root; forked or migrated roots are never register retries")

/-- The claim names the request. -/
def require_claimed (claim : RootClaim) (request : OperationRequest) : Except Raised Unit :=
  require (claim.request_json = request.operation_json)
    (.AtomsError (.RootOperationMismatch "the root claim names a different register operation"))

/-- The operation that an existing claim names. -/
def claimed_operation (existing_claim : Option (List UInt8)) (request : OperationRequest) :
    Except Raised (Option String) :=
  match existing_claim with
  | none => pure none
  | some bytes => do
    let claim ← decode_claim bytes
    require_claimed claim request
    pure (some claim.operation_id)

/-- The recorded operation is this request, and the claim does not contradict it. -/
def adopt_row (row : RootOperationRow) (request : OperationRequest) (claimed_id : Option String) :
    Except Raised String := do
  require (row.kind = .register ∧ row.request_json = request.operation_json)
    (.AtomsError (.RootOperationMismatch "the recorded operation is not this register request"))
  require (∀ operation_id ∈ claimed_id, operation_id = row.operation_id)
    (.AtomsError (.RootOperationMismatch "the root claim and the recorded operation disagree"))
  pure row.operation_id

/-- The claim of a caller that finds none; one that loses the race adopts the claim of the winner. -/
def publish_root_claim (root_fd : Inode) (minted : String) (request : OperationRequest) : Call String := do
  let claim ← lift (encode_claim minted request)
  tryCatch
    (do
      create_root_claim root_fd claim
      pure minted)
    fun caught => match caught with
      | .OSError .EEXIST => do
        let raced ← read_root_claim root_fd
        match raced with
        | none => throw (.AtomsError (.RootOperationMismatch
          "the root claim appeared and vanished during registration"))
        | some bytes => do
          let claim ← lift (decode_claim bytes)
          lift (require_claimed claim request)
          pure claim.operation_id
      | _ => throw caught

/-- `_register_operation`; `minted` is the identity that a new operation takes. -/
def register_operation (root_fd : Inode) (args : Registration) (minted : String) (request : OperationRequest) :
    Rooted String := do
  let row ← read_root_operation
  let existing_claim ← in_root (read_root_claim root_fd)
  let claimed_id ← in_root (lift (claimed_operation existing_claim request))
  match row with
  | some row => in_root (lift (adopt_row row request claimed_id))
  | none => do
    let operation_id ← match claimed_id with
      | some operation_id => pure operation_id
      | none => in_root (publish_root_claim root_fd minted request)
    commit_tables fun tables => do
      let tables ← tables.insert_root_operation operation_id .register request.operation_json request.operation_hash
      tables.insert_root_lifecycle .read_only_unserviceable args.machine_id args.project_root .register
    pure operation_id

/-- `_prove_register_tree` -/
def prove_register_tree (depth : Nat) (root_fd : Inode) (digest : String) : Rooted Unit := do
  let snapshot ← in_root (tree_snapshot depth root_fd digest false)
  let row ← read_root_operation
  match row with
  | none => throw (.AtomsError (.ProtocolError "the register operation row vanished mid-command"))
  | some row =>
    if row.phase = .recorded then commit_tables fun tables => tables.set_root_operation_tree_proof snapshot (some digest)
    else do
      in_root (lift (require_valid (row.genesis_digest = some digest)
        "the recorded genesis digest does not name the durable genesis"))
      in_root (lift (require_valid (row.destination_snapshot = some snapshot)
        "the recorded tree proof does not match the pre-grant tree"))

/-- `_complete_root_operation` -/
def complete_root_operation (final_state : RootLifecycleState) : Rooted Unit := commit_tables fun tables => do
  let tables ← tables.set_root_lifecycle_state final_state
  tables.set_root_operation_phase .complete

/-- The genesis of the root: the one its chain has, or the one that is appended. -/
def register_genesis (root_fd : Inode) (args : Registration) : Call String := do
  let chain_fd ← bootstrap_chain root_fd
  let validated ← validate_chain chain_fd []
  require_call (validated.survivor = none) "chain staging appeared after lease resolution"
  lift (require_no_pending validated.entries)
  match validated.entries with
  | (digest, genesis) :: _ => do
    lift (require_valid (is_genesis_of args.genesis_payload args.registered_surface genesis)
      "the durable genesis contradicts this root's recorded register operation")
    pure digest
  | [] => do
    let baseline ← capture_baseline root_fd args.registered_surface
    append_entry chain_fd validated (.GenesisEntry { payload := args.genesis_payload, baseline })

/-- `register_root` from the lease on. -/
def register_under_lease (depth : Nat) (root_fd : Inode) (args : Registration) (minted : String) : Rooted String := do
  open_store
  in_root (resolve_chain root_fd)
  let request ← in_root (lift args.request)
  let operation_id ← register_operation root_fd args minted request
  let claim ← in_root (lift (encode_claim operation_id request))
  let digest ← in_root (register_genesis root_fd args)
  prove_register_tree depth root_fd digest
  in_root (remove_root_claim root_fd claim)
  complete_root_operation .writable
  pure digest

/-- The carriers that a registration goes on from. -/
def admit_carrier (root_fd : Inode) (args : Registration) (view : CarrierView) : Rooted Unit :=
  match view.state with
  | .BINDING_MISMATCHED => throw (.AtomsError (.PreconditionRefused
      "the root lifecycle binding is mismatched; a moved or copied root is never a register retry"))
  | .READ_ONLY_SERVICEABLE => throw (.AtomsError (.PreconditionRefused
      "a read-only-serviceable root is never a register retry"))
  | state => do
    require_precondition (view.schema_version ≠ 2)
      "this root's metadata store is the pre-lifecycle version 2; migrate_root_to_lifecycle_v3 is its only transition"
    if state = .READ_ONLY_UNSERVICEABLE then
      require_precondition (∃ row ∈ view.operation, row.kind = .register) ("this read-only root was not created by " ++
        "an interrupted register_root; replicated or forked roots are never register retries")
    else do
      let claim ← in_root (read_root_claim root_fd)
      if claim = none then in_root (refuse_bare_genesis root_fd args.genesis_payload args.registered_surface)
      else pure ()

def register_root (depth : Nat) (root_fd : Inode) (args : Registration) (minted : String) : Rooted String := do
  in_root (lift (validate_registered_surface args.registered_surface))
  let view ← Prog.read fun state => classify_carrier state.carrier args.machine_id args.project_root
  if view.state = .WRITABLE then in_root (lift (register_completed_retry view args))
  else do
    admit_carrier root_fd args view
    register_under_lease depth root_fd args minted

end

end atoms.coordinator

import Atoms.Chain.Append
import Atoms.Coordinator.Transitions

open atoms.errors atoms.fingerprint atoms.spec atoms.fs atoms.recovery atoms.store atoms.chain checked keyed crash

namespace atoms.coordinator

/-- `CHAIN_LEAF` -/
def CHAIN_LEAF : String := ".#~chain"

/-- `_Backfill | _Append` -/
inductive ReconciliationAction
  | Backfill (digest : String)
  | Append (entry : chain.Entry)
  deriving DecidableEq

structure Reconciliation where
  registration : Option ReconciliationAction
  settlement : Option ReconciliationAction
  deriving DecidableEq

/-- The entries that a reconciliation appends. -/
def Reconciliation.appends (actions : Reconciliation) : List chain.Entry :=
  [actions.registration, actions.settlement].filterMap fun
    | some (.Append entry) => some entry
    | _ => none

/-- `raise ChainStateInvalid(message)` unless `condition` holds. -/
abbrev require_chain_state (condition : Prop) [Decidable condition] (message : String) : Except Raised Unit :=
  require condition (.ChainStateInvalid message)

/-- The state of a registered path on a surface; both surfaces of a compiled spec name every path. -/
def surface_state (surface : List SurfaceEntry) (path : String) : PathState :=
  ((find_key SurfaceEntry.path surface path).map SurfaceEntry.state).getD ABSENT

/-- One side of a registration. -/
def registered_surface (surface : List SurfaceEntry) (paths : List String) :
    Except Raised (List (String × PathStateJSON)) :=
  paths.mapM fun path => do
    let facts ← state_to_json (surface_state surface path)
    pure (path, facts)

/-- `_registration_entry` -/
def registration_entry (spec : TransactionSpec) (txid : String) : Except Raised chain.Entry := do
  let initial ← registered_surface spec.initial_surface spec.registered_paths
  let final ← registered_surface spec.final_surface spec.registered_paths
  pure (.RegisteredEntry
    { txid, intent_digest := spec.intent_digest, consumer_tag := spec.consumer_tag, initial, final,
      fulfills := spec.fulfills })

/-- `_terminal_outcome` -/
def terminal_outcome (record : StoredRecord) : Option ChainOutcome :=
  match record.state with
  | .COMMITTED => some .COMMITTED
  | .ROLLED_BACK => some .ROLLED_BACK
  | _ => none

/-- The registrations of a transaction, in the order of the chain. -/
def registrations (entries : List (String × chain.Entry)) (txid : String) : List (String × RegisteredEntry) :=
  entries.filterMap fun
    | (digest, .RegisteredEntry entry) => if entry.txid = txid then some (digest, entry) else none
    | _ => none

/-- The settlements of a transaction, in the order of the chain. -/
def settlements (entries : List (String × chain.Entry)) (txid : String) : List (String × SettledEntry) :=
  entries.filterMap fun
    | (digest, .SettledEntry entry) => if entry.txid = txid then some (digest, entry) else none
    | _ => none

/-- `entries.get(digest)` -/
def bound_entry (entries : List (String × chain.Entry)) (digest : String) : Option chain.Entry :=
  (find_key Prod.fst entries digest).map Prod.snd

section

variable [UnicodeData]

/-- What `_derive_reconciliation` does about the registration. -/
def derive_registration (record : StoredRecord) (entries : List (String × chain.Entry)) :
    Except Raised (Option ReconciliationAction) := do
  let found := registrations entries record.txid
  require_chain_state (found.length ≤ 1) "the chain contains duplicate registration entries"
  match record.registration_digest with
  | some digest => match bound_entry entries digest with
    | some (.RegisteredEntry bound) => do
      require_chain_state (bound.txid = record.txid)
        "the registration binding does not resolve to this transaction"
      pure none
    | _ => throw (.ChainStateInvalid "the registration binding does not resolve to this transaction")
  | none => do
    require_chain_state (record.state = .PREPARED ∧ ∀ journal ∈ record.journals, journal.state = .PENDING)
      "the durable record is missing its registration"
    match found with
    | (digest, _) :: _ => pure (some (.Backfill digest))
    | [] => do
      let entry ← registration_entry record.spec record.txid
      pure (some (.Append entry))

/-- A record that was committed when it halted. -/
def committed_halt (record : StoredRecord) : Bool :=
  record.state = .HALTED ∧ ∃ diagnostic ∈ record.halt_diagnostic, diagnostic.pre_halt_state = .COMMITTED

/-- What `_derive_reconciliation` does about the settlement. -/
def derive_settlement (record : StoredRecord) (entries : List (String × chain.Entry)) :
    Except Raised (Option ReconciliationAction) := do
  let found := settlements entries record.txid
  require_chain_state (found.length ≤ 1) "the chain contains duplicate settlement entries"
  let outcome := terminal_outcome record
  match record.settlement_digest with
  | some digest => match bound_entry entries digest with
    | some (.SettledEntry bound) => do
      let expected := if committed_halt record then some ChainOutcome.COMMITTED else outcome
      require_chain_state (bound.txid = record.txid ∧ some bound.registration = record.registration_digest ∧
          some bound.outcome = expected) "the settlement binding contradicts the durable record"
      require_chain_state (outcome.isSome ∨ committed_halt record)
        "only a committed halt may retain a terminal settlement"
      pure none
    | _ => throw (.ChainStateInvalid "the settlement binding contradicts the durable record")
  | none => match outcome with
    | some outcome =>
      let expected : SettledEntry :=
        { txid := record.txid, registration := record.registration_digest.getD "", outcome }
      match found with
      | (digest, entry) :: _ => do
        require_chain_state (entry = expected) "the unbound settlement contradicts the durable record"
        pure (some (.Backfill digest))
      | [] => pure (some (.Append (.SettledEntry expected)))
    | none => do
      require_chain_state (found = []) "a nonterminal record has a settlement entry"
      pure none

/-- `_derive_reconciliation` -/
def derive_reconciliation (record : Option StoredRecord) (validated : ValidatedChain) :
    Except Raised Reconciliation :=
  match record with
  | none => pure ⟨none, none⟩
  | some record => do
    let registration ← derive_registration record validated.entries
    let settlement ← derive_settlement record validated.entries
    pure { registration, settlement }

/-- The envelope of the one entry to be appended, if there is one. -/
def planned_envelope (tip : Option String) : List chain.Entry → Except Raised (Option (List UInt8))
  | [] => pure none
  | [entry] => do
    let envelope ← encode_entry tip entry
    pure (some envelope)
  | _ => protocol_error "one reconciliation cannot append two chain entries"

variable [Sha256]

/-- The digest that an action binds, after the append that it may need. -/
def publish (chain_fd : Inode) (envelope : Option (List UInt8)) (fresh : ValidatedChain) :
    ReconciliationAction → Step (String × ValidatedChain)
  | .Backfill digest => pure (digest, fresh)
  | .Append entry =>
    let digest := entry_digest (envelope.getD [])
    if digest ∈ fresh.entries.map Prod.fst then pure (digest, fresh)
    else do
      let appended ← on_disk (append_entry chain_fd fresh entry)
      require_step (appended = digest) "the chain append returned an unexpected digest"
      let fresh ← on_disk (validate_chain chain_fd [])
      pure (digest, fresh)

/-- One turn of the loop over the two columns. -/
def perform_action (chain_fd : Inode) (envelope : Option (List UInt8))
    (bind : StoreTransaction → String → Except Raised StoreTransaction) (fresh : ValidatedChain) :
    Option ReconciliationAction → Step ValidatedChain
  | none => pure fresh
  | some action => do
    let (digest, fresh) ← publish chain_fd envelope fresh action
    commit fun txn => bind txn digest
    pure fresh

/-- `_perform_reconciliation` -/
def perform_reconciliation (chain_fd : Inode) (validated : ValidatedChain) (actions : Reconciliation) :
    Step ValidatedChain := do
  let envelope ← Prog.read fun _ => planned_envelope validated.tip actions.appends
  let fresh ← on_disk (validate_chain chain_fd envelope.toList)
  on_disk (require_chain (same_history fresh validated) "the chain changed after reconciliation derivation")
  let fresh ← on_disk (apply_survivors chain_fd fresh)
  let record ← read_active_record
  match record with
  | none => do
    require_step (actions = ⟨none, none⟩) "reconciliation actions require an active record"
    pure fresh
  | some record => do
    let fresh ← perform_action chain_fd envelope (fun txn => txn.set_registration_digest record.txid) fresh
      actions.registration
    perform_action chain_fd envelope (fun txn => txn.set_settlement_digest record.txid) fresh actions.settlement

/-- What a lookup of the chain leaf that fails says, when it is no missing leaf. -/
def chain_leaf_error (errno : Errno) : Raised :=
  if errno ∈ [.ENOTDIR, .ELOOP, .EXDEV] then .ChainStateInvalid "the reserved chain leaf is not a stable directory"
  else .OSError errno

/-- `_registered_root`, up to its `yield`. -/
def registered_root (project_root_fd : Inode) : Step (Inode × ValidatedChain) := do
  let chain_fd ← tryCatch (on_disk (open_child_directory project_root_fd CHAIN_LEAF)) fun caught => match caught with
    | .OSError .ENOENT => do
      let record ← read_active_record
      if record.isSome then throw (.ChainStateInvalid "a live transaction record exists without its project chain")
      else throw (.AtomsError (.PreconditionRefused "the project root is not registered"))
    | .OSError errno => throw (chain_leaf_error errno)
    | _ => throw caught
  let validated ← on_disk (validate_chain chain_fd [])
  on_disk (require_chain (validated.survivor = none) "chain staging appeared after lease resolution")
  if validated.entries = [] then do
    let record ← read_active_record
    if record.isSome then throw (.ChainStateInvalid "a live transaction record exists without a chain genesis")
    else throw (.AtomsError (.PreconditionRefused "the project root is not registered"))
  else pure (chain_fd, validated)

/-- `_reconcile_settlement` -/
def reconcile_settlement (project_root_fd : Inode) (approved : ProjectApprovedSpec) : Step Unit := do
  let record ← read_active_record
  match record with
  | none => throw (.AtomsError (.ProtocolError "the proof's transaction is not active"))
  | some record => do
    require_step (record.txid = approved.txid) "the proof's transaction is not active"
    let (chain_fd, validated) ← registered_root project_root_fd
    let actions ← Prog.read fun _ => derive_reconciliation (some record) validated
    let _ ← perform_reconciliation chain_fd validated actions
    pure ()

end

end atoms.coordinator

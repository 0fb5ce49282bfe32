import Atoms.Recovery.Variants
import Atoms.Store.Diagnostic

open atoms.errors atoms.fingerprint atoms.effects atoms.recovery atoms.spec atoms.compiler checked keyed

namespace atoms.store

inductive AssemblyFindingKind
  | NODE_MISSING | WRONG_ENTRY_KIND | MOUNT_BOUNDARY | ACCESS_DENIED | IDENTITY_CHANGED | CONSTRAINTS_CHANGED
  | MOUNT_CHANGED | WORK_ROOT_CHANGED
  deriving DecidableEq

structure AssemblyFinding where
  path : String
  kind : AssemblyFindingKind
  observed : List (String × String)
  deriving DecidableEq

/-- The halt of a transaction whose approved topology has changed; its reason and its action have one value each. -/
structure AssemblyHalt where
  txid : String
  expected : String
  findings : List AssemblyFinding
  deriving DecidableEq

/-- A row of `transaction_record`. Its texts `spec_json` and `assembly_halt` are held as what they encode. -/
structure RecordRow where
  txid : String
  spec : TransactionSpec
  state : TransactionState
  committed : CommitDecision
  rollback_result : Option RollbackResult
  halt_diagnostic : Option String
  registration_digest : Option String
  settlement_digest : Option String
  approval_evidence : String
  assembly_halt : Option AssemblyHalt

/-- A row of `effect`. -/
structure EffectRow where
  txid : String
  effect_id : String
  variant : EffectVariant
  journal_state : JournalState

/-- The primary key of `effect`. -/
def EffectRow.key (row : EffectRow) : String × String := (row.txid, row.effect_id)

/-- A row of `blob`. -/
structure BlobRow where
  digest : String
  byte_len : Int

/-- The tables of one store; `active` holds at most one row. -/
structure Database where
  records : List RecordRow
  effects : List EffectRow
  blobs : List BlobRow
  active : Option String

/-- An entry of a promotion manifest, of which the index keeps the digest and the length. -/
structure StagedBlob where
  name : String
  digest : String
  byte_len : Int

/-- The column that one `UPDATE` of `transaction_record` sets, with its new value. -/
inductive Column
  | state (value : TransactionState)
  | committed (value : CommitDecision)
  | rollback_result (value : RollbackResult)
  | halt_diagnostic (value : String)
  | registration_digest (value : String)
  | settlement_digest (value : String)
  | assembly_halt (value : AssemblyHalt)

def RecordRow.set (row : RecordRow) : Column → RecordRow
  | .state value => { row with state := value }
  | .committed value => { row with committed := value }
  | .rollback_result value => { row with rollback_result := some value }
  | .halt_diagnostic value => { row with halt_diagnostic := some value }
  | .registration_digest value => { row with registration_digest := some value }
  | .settlement_digest value => { row with settlement_digest := some value }
  | .assembly_halt value => { row with assembly_halt := some value }

/-- `state IN ('committed', 'rolled_back')` -/
def is_terminal : TransactionState → Bool
  | .COMMITTED | .ROLLED_BACK => true
  | _ => false

/-- `SELECT RAISE(ABORT, message)` of a trigger, when its condition does not hold. -/
abbrev require_integrity (condition : Prop) [Decidable condition] (message : String) : Except Raised Unit :=
  require condition (.IntegrityError message)

/-- `raise ProtocolError(message)` unless `condition` holds. -/
abbrev require_store (condition : Prop) [Decidable condition] (message : String) : Except Raised Unit :=
  require condition (.AtomsError (.ProtocolError message))

namespace Database

def record? (db : Database) (txid : String) : Option RecordRow := find_key RecordRow.txid db.records txid

def effect? (db : Database) (txid effect_id : String) : Option EffectRow :=
  find_key EffectRow.key db.effects (txid, effect_id)

/-- `SELECT effect_id, variant, journal_state FROM effect WHERE txid = ?` -/
def effects_of (db : Database) (txid : String) : List EffectRow := db.effects.filter fun row => row.txid = txid

/-- The triggers that run before an `UPDATE` of one column of `transaction_record`. -/
def before_update (db : Database) (old : RecordRow) (column : Column) : Except Raised Unit := do
  match column with
  | .registration_digest _ => do
    require_integrity (old.registration_digest = none) "registration_digest is write-once"
    require_integrity (old.state = .PREPARED ∧ ∀ row ∈ db.effects_of old.txid, row.journal_state = .PENDING)
      "registration window is closed"
  | .settlement_digest _ => do
    require_integrity (old.settlement_digest = none) "settlement_digest is write-once"
    require_integrity (old.registration_digest.isSome ∧ is_terminal old.state)
      "settlement requires a registered terminal record"
  | .assembly_halt _ => require_integrity (old.assembly_halt = none) "assembly_halt is write-once"
  | .state value =>
    require_integrity (¬ (old.state = .PREPARED ∧ value ≠ .PREPARED ∧ old.registration_digest = none))
      "departure requires registration"
  | _ => pure ()
  require_integrity (old.assembly_halt = none) "assembly_halt freezes record"

/-- The `UNIQUE` columns of `transaction_record`. -/
def unique_digests (db : Database) (row : RecordRow) : Except Raised Unit := do
  require_integrity (∀ other ∈ db.records, other.txid ≠ row.txid → row.registration_digest.isSome →
      other.registration_digest ≠ row.registration_digest)
    "UNIQUE constraint failed: transaction_record.registration_digest"
  require_integrity (∀ other ∈ db.records, other.txid ≠ row.txid → row.settlement_digest.isSome →
      other.settlement_digest ≠ row.settlement_digest)
    "UNIQUE constraint failed: transaction_record.settlement_digest"

def put_record (db : Database) (row : RecordRow) : Database :=
  { db with records := db.records.map fun old => if old.txid = row.txid then row else old }

def put_journal (db : Database) (txid effect_id : String) (state : JournalState) : Database :=
  { db with effects := db.effects.map fun row =>
      if row.key = (txid, effect_id) then { row with journal_state := state } else row }

/-- The triggers that run before an `UPDATE` of `journal_state`. -/
def before_journal (db : Database) (old : EffectRow) (state : JournalState) : Except Raised Unit := do
  require_integrity (state = .STARTED → old.journal_state = .PENDING → ∀ record ∈ db.record? old.txid,
      record.state = .APPLYING ∧ record.registration_digest.isSome)
    "journal start requires applying and registration"
  require_integrity (∀ record ∈ db.record? old.txid, record.assembly_halt = none) "assembly_halt freezes journal"

end Database

/-! Coherence. -/

def effect_variant_value : EffectVariant → String
  | .REPLACE_FILE => "replace_file"
  | .CREATE_FILE_NO_CLOBBER => "create_file_no_clobber"
  | .DELETE_PATH => "delete_path"
  | .MOVE_NO_CLOBBER => "move_no_clobber"
  | .CREATE_DIRECTORY => "create_directory"

/-- The order of pairs of a digest and a length. -/
def digest_le (left right : String × Int) : Prop := left.1 < right.1 ∨ left.1 = right.1 ∧ left.2 ≤ right.2

instance (left right : String × Int) : Decidable (digest_le left right) := inferInstanceAs (Decidable (_ ∨ _))

/-- Every file state that the spec names, by digest and length. -/
def referenced_digests (spec : TransactionSpec) : List (String × Int) :=
  let states := (spec.initial_surface ++ spec.final_surface).map SurfaceEntry.state ++
    (spec.effects.flatMap occurrences).flatMap fun occurrence => [occurrence.pre, occurrence.post]
  let digests := states.filterMap fun
    | .FileState state => some (state.content_hash, state.byte_len)
    | _ => none
  digests.dedup.insertionSort digest_le

/-- The journal of each effect of the spec, in the order of the spec. -/
def journal_vector (spec : TransactionSpec) (rows : List EffectRow) : List EffectJournalState :=
  spec.effects.filterMap fun effect =>
    (find_key EffectRow.effect_id rows effect.effect_id).map fun row => ⟨effect.effect_id, row.journal_state⟩

variable [UnicodeData]

/-- `_finding(rule, detail)`, unless `condition` holds. -/
def finding (condition : Prop) [Decidable condition] (rule detail : String) : List String :=
  if condition then [] else [rule ++ ": " ++ detail]

/-- The findings about the effect rows of a spec. -/
def effect_findings (spec : TransactionSpec) (rows : List EffectRow) : List String :=
  let declared := spec.effects.map Effect.effect_id
  let stored := rows.map EffectRow.effect_id
  ((sorted_by id declared).flatMap fun effect_id => finding (effect_id ∈ stored) "effect_coverage"
    ("effect row missing for effect_id " ++ py_repr effect_id)) ++
  ((sorted_by id stored).flatMap fun effect_id => finding (effect_id ∈ declared) "effect_coverage"
    ("effect row " ++ py_repr effect_id ++ " is not in spec_json")) ++
  (sorted_by Effect.effect_id spec.effects).flatMap fun effect =>
    match find_key EffectRow.effect_id rows effect.effect_id with
    | none => []
    | some row => finding (row.variant = variants.effect_variant effect) "effect_variant"
      ("effect " ++ py_repr effect.effect_id ++ " has variant " ++ py_repr (effect_variant_value row.variant) ++
        ", spec_json says " ++ py_repr (effect_variant_value (variants.effect_variant effect)))

/-- The findings about the blobs that a spec references. -/
def blob_findings (spec : TransactionSpec) (blobs : List BlobRow) : List String :=
  (referenced_digests spec).flatMap fun (digest, byte_len) =>
    match find_key BlobRow.digest blobs digest with
    | none => ["blob_row_present: no blob row for referenced digest " ++ py_repr digest]
    | some row => finding (row.byte_len = byte_len) "blob_byte_len" ("blob " ++ py_repr digest ++ " has byte_len " ++
      toString row.byte_len ++ ", the record declares " ++ toString byte_len)

/-- The findings about the halt diagnostic of a record. -/
def diagnostic_findings (row : RecordRow) (rows : List EffectRow) : Except Raised (List String) :=
  match row.halt_diagnostic with
  | none => pure []
  | some text => do
    let diagnostic ← decode_diagnostic text
    pure (finding (diagnostic.commit_decision = row.committed) "diagnostic_commit_decision"
        "the diagnostic's commit_decision disagrees with the durable row" ++
      if set_eq (row.spec.effects.map Effect.effect_id) (rows.map EffectRow.effect_id) then
        finding (diagnostic.journals = journal_vector row.spec rows) "diagnostic_journal_vector"
          "the diagnostic's journal vector disagrees with the durable rows"
      else ["diagnostic_journal_vector: the diagnostic's journal vector cannot be compared: the effect rows do not " ++
        "cover spec_json"])

/-- The finding about the active transaction. -/
def active_findings (db : Database) : List String :=
  finding (∀ active ∈ db.active, (db.record? active).isSome) "active_record_exists"
    "active names a txid which has no record"

def coherence_findings (db : Database) (txid : String) : Except Raised (List String) :=
  match db.record? txid with
  | none => pure (active_findings db)
  | some row => do
    let rows := db.effects_of txid
    let compiles := match compile_spec row.spec with
      | .ok _ => []
      | .error _ => ["spec_json_compiles: spec_json is a spec compile_spec refuses"]
    let diagnostics ← diagnostic_findings row rows
    pure (compiles ++ effect_findings row.spec rows ++ blob_findings row.spec db.blobs ++
      finding (row.state = .ROLLED_BACK ↔ row.rollback_result.isSome) "rollback_result_exactly"
        "rollback_result must be present exactly when state is rolled_back" ++
      finding (row.state = .HALTED ↔ row.halt_diagnostic.isSome) "halt_diagnostic_exactly"
        "halt_diagnostic must be present exactly when state is halted" ++
      diagnostics ++ active_findings db)

structure StoredRecord where
  txid : String
  spec : TransactionSpec
  state : TransactionState
  committed : CommitDecision
  rollback_result : Option RollbackResult
  halt_diagnostic : Option HaltDiagnostic
  registration_digest : Option String
  settlement_digest : Option String
  approval_evidence : String
  assembly_halt : Option AssemblyHalt
  journals : List EffectJournalState

/-- A diagnostic column that may be null. -/
def decode_optional_diagnostic : Option String → Except Raised (Option HaltDiagnostic)
  | none => pure none
  | some text => do
    let diagnostic ← decode_diagnostic text
    pure (some diagnostic)

/-- `require_assembly_halt_binding` -/
def require_assembly_halt_binding (txid approval_evidence : String) (halt : AssemblyHalt) : Except AtomsError Unit := do
  require_protocol (halt.txid = txid)
    ("assembly halt txid " ++ py_repr halt.txid ++ " does not match record txid " ++ py_repr txid)
  require_protocol (halt.expected = approval_evidence)
    "assembly halt expected evidence does not match the record's approval_evidence"

/-- The assembly halt of a row, which must be bound to the row. -/
def require_stored_halt (txid : String) (row : RecordRow) : Except Raised Unit :=
  match row.assembly_halt with
  | none => pure ()
  | some halt => match require_assembly_halt_binding txid row.approval_evidence halt with
    | .ok () => pure ()
    | .error _ => throw (.MetadataStoreInvalid ("the record for txid " ++ py_repr txid ++
      " has malformed assembly halt evidence"))

def load_record (db : Database) (txid : String) : Except Raised (Option StoredRecord) := do
  let findings ← coherence_findings db txid
  require (findings = []) (.MetadataStoreInvalid ("the record for txid " ++ py_repr txid ++ " cannot be interpreted: " ++
    String.intercalate "; " findings))
  match db.record? txid with
  | none => pure none
  | some row => do
    require_stored_halt txid row
    let halt_diagnostic ← decode_optional_diagnostic row.halt_diagnostic
    pure (some
      { txid
        spec := row.spec
        state := row.state
        committed := row.committed
        rollback_result := row.rollback_result
        halt_diagnostic
        registration_digest := row.registration_digest
        settlement_digest := row.settlement_digest
        approval_evidence := row.approval_evidence
        assembly_halt := row.assembly_halt
        journals := journal_vector row.spec (db.effects_of txid) })

def read_active (db : Database) : Except Raised (Option StoredRecord) :=
  match db.active with
  | none => pure none
  | some txid => load_record db txid

/-! Writing: what an open transaction holds, and which records it has touched. -/

structure StoreTransaction where
  db : Database
  touched : List String

namespace StoreTransaction

/-- `_set_column` -/
def set_column (txn : StoreTransaction) (txid : String) (column : Column) : Except Raised StoreTransaction :=
  match txn.db.record? txid with
  | none => throw (.AtomsError (.ProtocolError ("no transaction_record row for txid " ++ py_repr txid)))
  | some old => do
    txn.db.before_update old column
    let row := old.set column
    txn.db.unique_digests row
    pure { db := txn.db.put_record row, touched := txid :: txn.touched }

def set_transaction_state (txn : StoreTransaction) (txid : String) (state : TransactionState) :
    Except Raised StoreTransaction := txn.set_column txid (.state state)

def set_commit_decision (txn : StoreTransaction) (txid : String) (decision : CommitDecision) :
    Except Raised StoreTransaction := txn.set_column txid (.committed decision)

def set_rollback_result (txn : StoreTransaction) (txid : String) (result : RollbackResult) :
    Except Raised StoreTransaction := txn.set_column txid (.rollback_result result)

def set_halt_diagnostic (txn : StoreTransaction) (txid : String) (diagnostic : HaltDiagnostic) :
    Except Raised StoreTransaction := txn.set_column txid (.halt_diagnostic (encode_diagnostic diagnostic))

def set_registration_digest (txn : StoreTransaction) (txid digest : String) : Except Raised StoreTransaction :=
  txn.set_column txid (.registration_digest digest)

def set_settlement_digest (txn : StoreTransaction) (txid digest : String) : Except Raised StoreTransaction :=
  txn.set_column txid (.settlement_digest digest)

def set_assembly_halt (txn : StoreTransaction) (txid : String) (halt : AssemblyHalt) :
    Except Raised StoreTransaction :=
  match txn.db.record? txid with
  | none => throw (.AtomsError (.ProtocolError ("no transaction_record row for txid " ++ py_repr txid)))
  | some row => match require_assembly_halt_binding txid row.approval_evidence halt with
    | .error error => throw (.AtomsError error)
    | .ok () => txn.set_column txid (.assembly_halt halt)

def set_journal_state (txn : StoreTransaction) (txid effect_id : String) (state : JournalState) :
    Except Raised StoreTransaction :=
  match txn.db.effect? txid effect_id with
  | none => throw (.AtomsError (.ProtocolError ("no effect row for txid " ++ py_repr txid ++ " effect_id " ++
    py_repr effect_id)))
  | some old => do
    txn.db.before_journal old state
    pure { db := txn.db.put_journal txid effect_id state, touched := txid :: txn.touched }

/-- The index rows of `promote_staging`: `INSERT ... ON CONFLICT(digest) DO NOTHING`. -/
def promote_staging (txn : StoreTransaction) (txid : String) (manifest : List StagedBlob) : StoreTransaction where
  db := { txn.db with
    blobs := manifest.foldl (fun blobs entry =>
      if (find_key BlobRow.digest blobs entry.digest).isSome then blobs else blobs ++ [⟨entry.digest, entry.byte_len⟩])
      txn.db.blobs }
  touched := txid :: txn.touched

def insert_record (txn : StoreTransaction) (txid : String) (spec : TransactionSpec) (approval_evidence : String) :
    Except Raised StoreTransaction := do
  require_integrity (txn.db.record? txid).isNone "UNIQUE constraint failed: transaction_record.txid"
  let row : RecordRow :=
    { txid, spec, state := .PREPARED, committed := .UNCOMMITTED, rollback_result := none, halt_diagnostic := none,
      registration_digest := none, settlement_digest := none, approval_evidence, assembly_halt := none }
  let rows : List EffectRow := spec.effects.map fun effect =>
    { txid, effect_id := effect.effect_id, variant := variants.effect_variant effect, journal_state := .PENDING }
  require_integrity ((txn.db.effects ++ rows).map EffectRow.key).Nodup
    "UNIQUE constraint failed: effect.txid, effect.effect_id"
  pure
    { db := { txn.db with records := txn.db.records ++ [row], effects := txn.db.effects ++ rows }
      touched := txid :: txn.touched }

def set_active (txn : StoreTransaction) : Option String → Except Raised StoreTransaction
  | none => match txn.db.active with
    | none => pure txn
    | some active => do
      require_integrity (∃ row, txn.db.record? active = some row ∧ is_terminal row.state ∧
          row.registration_digest.isSome ∧ row.settlement_digest.isSome ∧ row.assembly_halt = none)
        "active delete requires a bound unhalted terminal record"
      pure { txn with db := { txn.db with active := none } }
  | some txid => do
    require_integrity txn.db.active.isNone "UNIQUE constraint failed: active.singleton"
    pure { db := { txn.db with active := some txid }, touched := txid :: txn.touched }

/-- `_run_barrier` -/
def run_barrier (txn : StoreTransaction) : Except Raised Unit :=
  (sorted_by id txn.touched.dedup).forM fun txid => do
    let findings ← coherence_findings txn.db txid
    require_store (findings = []) ("the record for txid " ++ py_repr txid ++ " would not be coherent: " ++
      String.intercalate "; " findings)

end StoreTransaction

/-- `with store.transaction() as txn: body(txn)`: the tables after the commit, or what was raised in place of it. -/
def transaction (db : Database) (body : StoreTransaction → Except Raised StoreTransaction) : Except Raised Database := do
  let txn ← body { db, touched := [] }
  txn.run_barrier
  pure txn.db

end atoms.store

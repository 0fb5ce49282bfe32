import Atoms.Coordinator.Copy

open atoms.errors atoms.fingerprint atoms.paths atoms.spec atoms.recovery atoms.fs atoms.store atoms.chain checked crash

namespace atoms.coordinator

section

variable [UnicodeData] [Sha256]

/-! The chain as a caller without a store sees it. -/

def OCCUPIED_CHAIN_LEAF : ChainDefect :=
  { kind := .FOREIGN_LEAF, subject := some CHAIN_LEAF, detail := "the reserved chain leaf is not a stable directory" }

/-- A staged registration that follows the tip is pending too. -/
def staged_pending (scan : ChainScan) (chain : WellFormedChain) : WellFormedChain :=
  match scan.staged with
  | none => chain
  | some staged => match decode_entry staged with
    | .ok (previous, .RegisteredEntry entry) =>
      if previous = some chain.tip ∧ entry_digest staged ∉ chain.entries.map Prod.fst then
        { chain with pending := chain.pending ++ [(entry.txid, entry_digest staged)] }
      else chain
    | _ => chain

/-- `_inspect_detached` -/
def inspect_detached (project_root_fd : Inode) : Call ChainInspection := do
  let opened ← tryCatch
    (do
      let chain_fd ← open_child_directory project_root_fd CHAIN_LEAF
      pure (Except.ok chain_fd))
    fun caught => match caught with
      | .OSError .ENOENT => pure (.error .AbsentChain)
      | .OSError errno =>
        if errno ∈ [.ENOTDIR, .ELOOP, .EXDEV] then pure (.error (.MalformedChain OCCUPIED_CHAIN_LEAF)) else throw caught
      | _ => throw caught
  match opened with
  | .error inspection => pure inspection
  | .ok chain_fd => do
    let scanned ← scan_chain_directory chain_fd
    match scanned with
    | .error defect => pure (.MalformedChain defect)
    | .ok scan => match inspect_scan scan with
      | .WellFormedChain chain => pure (.WellFormedChain (staged_pending scan chain))
      | inspection => pure inspection

/-! The grant of serviceability, and the migration of a store of version 2. -/

/-- Whether the chain directory has a staging leaf, as `os.stat` of its path tells. A symlink in the place of the directory is
followed, to what `beyond` says of its target. -/
def stat_staging (root_fd : Inode) (beyond : String → Except Raised Bool) : Call Bool := Prog.read fun d =>
  match d.lookup root_fd CHAIN_LEAF with
  | none => .ok false
  | some ⟨.directory, chain_fd⟩ => .ok (d.lookup chain_fd STAGING_LEAF).isSome
  | some ⟨.file, _⟩ => .error (.OSError .ENOTDIR)
  | some ⟨.symlink target, _⟩ => beyond target

/-- `raise PreconditionRefused(message)` unless the chain is well formed and has an entry. -/
def require_registered (inspected : ChainInspection) (message : String) : Except Raised WellFormedChain :=
  match inspected with
  | .WellFormedChain chain => do
    require (chain.entries ≠ []) (.AtomsError (.PreconditionRefused message))
    pure chain
  | _ => throw (.AtomsError (.PreconditionRefused message))

/-- `_require_grantable_tree` -/
def require_grantable_tree (root_fd : Inode) (beyond : String → Except Raised Bool) : Call Unit := do
  let claim ← read_root_claim root_fd
  lift (require (claim = none) (.AtomsError (.PreconditionRefused ("the root carries a root-claim residue of an incomplete " ++
    "creation and cannot be made serviceable"))))
  let staged ← stat_staging root_fd beyond
  lift (require (staged = false) (.AtomsError (.PreconditionRefused ("the root carries a chain staging survivor and cannot be " ++
    "made serviceable"))))
  let inspected ← inspect_detached root_fd
  let _ ← lift (require_registered inspected "the root's chain is not a well-formed registered chain")

/-- `_transition_serviceability`: the triggers of the table judge the update. -/
def transition_serviceability : Rooted Unit := commit_tables fun tables =>
  match tables.lifecycle with
  | none => throw (.MetadataStoreInvalid "no root lifecycle row to make serviceable")
  | some _ => match tables.set_root_lifecycle_state .read_only_serviceable with
    | .ok tables => pure tables
    | .error (.IntegrityError caught) =>
      throw (.AtomsError (.PreconditionRefused ("the lifecycle transition was refused by the store: " ++ caught)))
    | .error caught => throw caught

def grant_read_serviceability (root_fd : Inode) (beyond : String → Except Raised Bool) (machine_id root_path : String) :
    Rooted Unit := do
  let view ← Prog.read fun state => classify_carrier state.carrier machine_id root_path
  require_precondition (view.state ≠ .WRITABLE) "a writable root does not take a read-serviceability grant"
  require_precondition (view.state ≠ .BINDING_MISMATCHED)
    "the root lifecycle binding is mismatched; the grant never overwrites a mismatch"
  require_precondition (view.schema_version ≠ 2) ("this root's metadata store is the pre-lifecycle version 2; " ++
    "migrate_root_to_lifecycle_v3 or discard the carrier before cold admission")
  in_root (require_grantable_tree root_fd beyond)
  match view.state with
  | .READ_ONLY_SERVICEABLE => pure ()
  | .READ_ONLY_UNSERVICEABLE => do
    require_precondition (∃ row ∈ view.operation, row.phase = .complete)
      "the root carries an incomplete root operation and cannot be made serviceable"
    transition_serviceability
  | _ => do
    open_store
    commit_tables fun tables =>
      tables.insert_root_lifecycle .read_only_serviceable machine_id root_path .read_serviceability

/-- `_migrate_v2_store`: a store of version 2 has no tables of the root; the statements add them and one row. -/
def migrate_v2_store (machine_id root_path : String) : Rooted Unit := Prog.call fun state => do
  let tables ← RootTables.insert_root_lifecycle ⟨none, none⟩ .writable machine_id root_path .migration_v2
  pure ((), { state with carrier := ⟨3, tables⟩ })

def migrate_root_to_lifecycle_v3 (root_fd : Inode) (machine_id root_path : String) : Rooted Unit := do
  let view ← Prog.read fun state => classify_carrier state.carrier machine_id root_path
  require_precondition (view.state ≠ .METADATA_LESS) "a metadata-less root has no version-2 store to migrate"
  require_precondition (view.state ≠ .BINDING_MISMATCHED)
    "the root lifecycle binding is mismatched; migration never overwrites a mismatch"
  let lifecycle ← Prog.read fun state => .ok state.carrier.tables.lifecycle
  if view.schema_version = 3 then
    -- the exact retry of the migration writes nothing
    require_precondition ((∃ row ∈ lifecycle, row.origin = .migration_v2) ∧ view.state = .WRITABLE)
      ("this store already carries the version-3 lifecycle; migration accepts only the exact pre-lifecycle version 2")
  else do
    let inspected ← in_root (inspect_detached root_fd)
    let chain ← in_root (lift (require_registered inspected "migration requires a well-formed registered chain"))
    require_precondition (∀ item ∈ chain.pending, item.2 ∈ chain.entries.map Prod.fst)
      "migration refuses a chain staging survivor"
    migrate_v2_store machine_id root_path

end

end atoms.coordinator

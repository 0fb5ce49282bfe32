import Atoms.Chain.Inspect

open atoms.errors atoms.fs checked crash

namespace atoms.chain

inductive SurvivorDisposition
  | FINISH | REMOVE
  deriving DecidableEq

/-- What to do with the staging leaf; to finish it, with the bytes it holds. -/
inductive SurvivorAction
  | FINISH (envelope : List UInt8)
  | REMOVE
  deriving DecidableEq

structure ValidatedChain where
  entries : List (String × Entry)
  tip : Option String
  survivor : Option SurvivorAction
  deriving DecidableEq

/-- `raise ChainStateInvalid(message)` unless `condition` holds. -/
def require_chain (condition : Prop) [Decidable condition] (message : String) : Call Unit :=
  if condition then pure () else throw (.ChainStateInvalid message)

/-- `raise ProtocolError(message)` unless `condition` holds. -/
def require_call (condition : Prop) [Decidable condition] (message : String) : Call Unit :=
  if condition then pure () else throw (.AtomsError (.ProtocolError message))

/-- A check that calls nothing. -/
def lift {α : Type} (value : Except Raised α) : Call α := Prog.read fun _ => value

variable [UnicodeData] [Sha256]

/-- `_planned`: the predecessor that each planned envelope names. -/
def planned_entries : List (List UInt8) → Except Raised (List (List UInt8 × Option String))
  | [] => pure []
  | envelope :: rest => do
    let (previous, _) ← match decode_entry envelope with
      | .ok decoded => pure decoded
      | .error _ => throw (.AtomsError (.ProtocolError "planned envelope is not a canonical chain entry"))
    require (envelope ∉ rest) (.AtomsError (.ProtocolError "planned envelopes must be duplicate-free"))
    let planned ← planned_entries rest
    pure ((envelope, previous) :: planned)

/-- The entries and the tip of a scan, or the defect that it has. -/
def validate_scan (scan : ChainScan) : Except Raised (List (String × Entry) × Option String) :=
  match inspect_scan scan with
  | .WellFormedChain chain => pure (chain.entries, some chain.tip)
  | .AbsentChain => pure ([], none)
  | .MalformedChain defect => throw (.ChainStateInvalid defect.detail)

/-- `durable_envelopes.get(entry_digest(envelope)) == envelope` -/
def is_durable (scan : ChainScan) (envelope : List UInt8) : Bool :=
  (keyed.find_key Row.digest scan.found (entry_digest envelope)).map Row.envelope == some envelope

/-- What is done with a staging leaf: it is finished when it is planned and not yet published. -/
def disposition (rows : List Row) (planned : List (List UInt8)) (staged : List UInt8) : SurvivorAction :=
  if staged ∈ planned ∧ staged ∉ rows.map Row.envelope then .FINISH staged else .REMOVE

def validate_chain (chain_fd : Inode) (planned : List (List UInt8)) : Call ValidatedChain := do
  let planned_entries ← lift (planned_entries planned)
  let scanned ← scan_chain_directory chain_fd
  match scanned with
  | .error defect => throw (.ChainStateInvalid defect.detail)
  | .ok scan => do
    let (entries, tip) ← lift (validate_scan scan)
    require_call (∀ item ∈ planned_entries, is_durable scan item.1 ∨ item.2 = tip)
      "a planned envelope must already be durable or derive from the validated tip"
    let survivor := scan.staged.map fun staged =>
      if staged ∈ planned ∧ ¬ is_durable scan staged then SurvivorAction.FINISH staged else .REMOVE
    pure { entries, tip, survivor }

/-- The checks of `_validated` on a history: each digest names the envelope of its entry. -/
def require_history : Option String → List (String × Entry) → Except Raised (Option String)
  | previous, [] => pure previous
  | previous, (digest, entry) :: rest => do
    let envelope ← encode_entry previous entry
    require (entry_digest envelope = digest)
      (.AtomsError (.ProtocolError "validated chain entry digest does not name its envelope"))
    require_history (some digest) rest

/-- `_validated` -/
def require_validated (validated : ValidatedChain) : Except Raised Unit := do
  let previous ← require_history none validated.entries
  require (validated.tip = previous)
    (.AtomsError (.ProtocolError "validated chain tip does not match its history"))
  match validated.survivor with
  | some (.FINISH envelope) => match decode_entry envelope with
    | .error _ => throw (.AtomsError (.ProtocolError "a FINISH survivor must carry a canonical envelope"))
    | .ok (previous, _) => do
      require (previous = validated.tip)
        (.AtomsError (.ProtocolError "a FINISH survivor must link from the validated tip"))
  | _ => pure ()

/-- `_read_regular` -/
def read_regular (chain_fd : Inode) (name : String) : Call (List UInt8) := do
  let bytes ← read_leaf chain_fd name
  match bytes with
  | some data => pure data
  | none => throw (.ChainStateInvalid (foreign_leaf name).detail)

/-- `_same_history` -/
def same_history (left right : ValidatedChain) : Bool := left.entries = right.entries ∧ left.tip = right.tip

/-- `_unlink_stage` -/
def unlink_stage (chain_fd : Inode) : Call Unit := do
  tryCatch (unlink_child chain_fd STAGING_LEAF) fun caught => match caught with
    | .OSError .ENOENT => pure ()
    | _ => throw caught
  flush_directory chain_fd

/-- `_finish`: the staging leaf is given the name of its digest; only the directory is flushed. -/
def finish (chain_fd : Inode) (envelope : List UInt8) (digest : String) : Call Unit := do
  let staged ← read_regular chain_fd STAGING_LEAF
  require_chain (staged = envelope) "the staging survivor changed after validation"
  let renamed ← tryCatch
    (do
      transfer_noclobber chain_fd STAGING_LEAF chain_fd digest
      pure true)
    fun caught => match caught with
      | .OSError .EEXIST => do
        let existing ← read_regular chain_fd digest
        require_chain (existing = envelope) "the existing destination is not the planned chain entry"
        let staged ← read_regular chain_fd STAGING_LEAF
        require_chain (staged = envelope) "the staging survivor is not the planned chain entry"
        pure false
      | _ => throw caught
  if renamed then flush_directory chain_fd else unlink_stage chain_fd

/-- The end of `apply_survivors` for a survivor to be finished. -/
def finish_survivor (chain_fd : Inode) (validated : ValidatedChain) (envelope : List UInt8) :
    Call ValidatedChain := do
  let (previous, entry) ← lift (decode_entry envelope)
  require_call (previous = validated.tip) "a FINISH survivor must link from the validated tip"
  let digest := entry_digest envelope
  let expected_entries := validated.entries ++ [(digest, entry)]
  let current ← validate_chain chain_fd []
  if same_history current validated then do
    require_chain current.survivor.isSome "the staging survivor changed after validation"
    finish chain_fd envelope digest
  else if current.entries = expected_entries ∧ current.tip = some digest then
    if current.survivor.isSome then do
      let staged ← read_regular chain_fd STAGING_LEAF
      require_chain (staged = envelope) "the duplicate staging survivor is not the planned entry"
      unlink_stage chain_fd
    else pure ()
  else throw (.ChainStateInvalid "the chain changed before survivor completion")
  let fresh ← validate_chain chain_fd []
  require_chain (fresh.entries = expected_entries ∧ fresh.tip = some digest ∧ fresh.survivor = none)
    "survivor completion did not produce the planned chain"
  pure fresh

def apply_survivors (chain_fd : Inode) (validated : ValidatedChain) : Call ValidatedChain := do
  lift (require_validated validated)
  match validated.survivor with
  | none => do
    let fresh ← validate_chain chain_fd []
    require_chain (fresh = validated) "the chain changed after validation"
    pure fresh
  | some .REMOVE => do
    let current ← validate_chain chain_fd []
    require_chain (same_history current validated) "the durable chain changed before survivor removal"
    match current.survivor with
    | none => pure current
    | some _ => do
      unlink_stage chain_fd
      validate_chain chain_fd []
  | some (.FINISH envelope) => finish_survivor chain_fd validated envelope

/-- `_write_all`: each write takes what it takes of what is left, at most `fuel` times. -/
def write_all (fd : Inode) : (fuel : Nat) → List UInt8 → Call Unit
  | _, [] => pure ()
  | 0, _ => throw (.AtomsError (.ProtocolError "backend.write did not make a valid forward step"))
  | fuel + 1, data => do
    let written ← write fd data
    require_call (0 < written ∧ written ≤ data.length) "backend.write did not make a valid forward step"
    write_all fd fuel (data.drop written)

/-- `_prove_eexist` -/
def prove_eexist (chain_fd : Inode) (envelope : List UInt8) (digest : String) (expected : Option String × Entry) :
    Call Unit := do
  let destination ← read_regular chain_fd digest
  require_chain (destination = envelope) "the existing destination is not the entry being appended"
  let decoded ← lift (decode_entry destination)
  require_chain (decoded = expected) "the existing destination is not the entry being appended"
  let staged ← read_regular chain_fd STAGING_LEAF
  require_chain (staged = envelope) "the staging survivor changed before EEXIST proof"
  unlink_stage chain_fd

def append_entry (chain_fd : Inode) (validated : ValidatedChain) (entry : Entry) : Call String := do
  lift (require_validated validated)
  require_call (validated.survivor = none) "survivors must be applied before appending"
  let envelope ← lift (encode_entry validated.tip entry)
  let digest := entry_digest envelope
  let current ← validate_chain chain_fd []
  require_chain (current = validated) "the chain changed after validation"
  let staging_fd ← tryCatch (create_exclusive chain_fd STAGING_LEAF 0o600) fun caught => match caught with
    | .OSError .EEXIST => throw (.ChainStateInvalid "the staging leaf appeared after validation")
    | _ => throw caught
  write_all staging_fd envelope.length envelope
  flush_file staging_fd
  let renamed ← tryCatch
    (do
      transfer_noclobber chain_fd STAGING_LEAF chain_fd digest
      pure true)
    fun caught => match caught with
      | .OSError .EEXIST => do
        prove_eexist chain_fd envelope digest (validated.tip, entry)
        pure false
      | _ => throw caught
  if renamed then flush_directory chain_fd else pure ()
  pure digest

end atoms.chain

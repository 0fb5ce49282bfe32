import Atoms.Chain.Append
import Atoms.Coordinator.Reconcile
import Atoms.Fs.Observe
import Atoms.Store.Root

open atoms.errors atoms.fingerprint atoms.identifiers atoms.spec atoms.fs atoms.store atoms.chain checked keyed json crash

namespace atoms.coordinator

def ROOT_CLAIM_LEAF : String := ".#~root-claim"

def CLAIM_MODE : Nat := 0o600

def OPERATION_DOMAIN : String := "atoms.root-operation.v1"

def CLAIM_DOMAIN : String := "atoms.root-claim.v1"

structure StorageProfile where
  profile_id : String

def invalid_fault : Fault := fun message => .AtomsError (.RootOperationInvalid message)

/-! The one canonical serializer. -/

/-- What the canonical grammar says of a value that it has no place for. -/
def outside_grammar (label type_name : String) : Raised := .AtomsError (.ProtocolError
  (label ++ " has type " ++ type_name ++ ", outside the closed canonical grammar (dict, list, str, int, None)"))

mutual

/-- `_validate_canonical_value` -/
def validate_canonical_value (label : String) : Json → Except Raised Unit
  | .null => pure ()
  | .str value => require (Char.ofNat 0 ∉ value.toList) (.AtomsError (.ProtocolError (label ++ " contains a NUL byte")))
  | .int _ => pure ()
  | .arr items => validate_canonical_items label 0 items
  | .obj members => validate_canonical_members label members
  | .bool _ => throw (outside_grammar label "bool")
  | .float _ => throw (outside_grammar label "float")

def validate_canonical_items (label : String) (index : Nat) : List Json → Except Raised Unit
  | [] => pure ()
  | item :: rest => do
    validate_canonical_value (label ++ "[" ++ toString index ++ "]") item
    validate_canonical_items label (index + 1) rest

def validate_canonical_members (label : String) : List (String × Json) → Except Raised Unit
  | [] => pure ()
  | (key, value) :: rest => do
    validate_canonical_value (label ++ "." ++ key) value
    validate_canonical_members label rest

end

/-- `_canonical_bytes`, as the text that it encodes in UTF-8. -/
def canonical_text (value : Json) : Except Raised String := do
  validate_canonical_value "canonical value" value
  pure (dumps false value)

/-- `_decode_canonical` -/
def decode_canonical (data : List UInt8) (fault : Fault) (label : String) : Except Raised Json :=
  match utf8_decode data with
  | none => throw (fault (label ++ " is not canonical UTF-8 JSON"))
  | some text => match loads text with
    | .error .malformed => throw (fault (label ++ " is not canonical UTF-8 JSON"))
    | .error (.duplicate_key _) => throw (fault (label ++ " bytes are not the canonical encoding"))
    | .ok decoded => match canonical_text decoded with
      | .error _ => throw (fault (label ++ " is outside the closed canonical grammar"))
      | .ok canonical => do
        require (utf8 canonical = data) (fault (label ++ " bytes are not the canonical encoding"))
        pure decoded

/-- The closed register request shape. -/
def register_request (project_root metadata_root : String) (storage : StorageProfile) (genesis_payload : List UInt8)
    (registered_surface : List String) : Json :=
  .obj
    [("domain", .str OPERATION_DOMAIN), ("kind", .str "register"), ("project_root", .str project_root),
     ("metadata_root", .str metadata_root), ("storage_profile", .obj [("profile_id", .str storage.profile_id)]),
     ("genesis_payload_b64", payload_obj genesis_payload), ("registered_surface", .arr (registered_surface.map .str))]

section

variable [Sha256]

structure OperationRequest where
  operation_json : String
  operation_hash : String
  deriving DecidableEq

/-- `OperationRequest.of` -/
def OperationRequest.of (request_obj : Json) : Except Raised OperationRequest := do
  let operation_json ← canonical_text request_obj
  pure { operation_json, operation_hash := Sha256.hexdigest (utf8 operation_json) }

/-! The root-local claim. -/

def claim_obj (operation_id : String) (request : OperationRequest) : Json :=
  .obj
    [("domain", .str CLAIM_DOMAIN), ("operation_id", .str operation_id), ("request_hash", .str request.operation_hash),
     ("request_json", .str request.operation_json)]

def encode_claim (operation_id : String) (request : OperationRequest) : Except Raised (List UInt8) := do
  let text ← canonical_text (claim_obj operation_id request)
  pure (utf8 text)

structure RootClaim where
  operation_id : String
  request_hash : String
  request_json : String
  deriving DecidableEq

/-- `raise RootOperationInvalid(message)` unless `condition` holds. -/
def require_valid (condition : Prop) [Decidable condition] (message : String) : Except Raised Unit :=
  require condition (.AtomsError (.RootOperationInvalid message))

/-- A member of a claim that must be a text of a grammar. -/
def claim_text (obj : List (String × Json)) (key : String) (grammar : String → Bool) (message : String) :
    Except Raised String :=
  match member obj key with
  | .str value => do
    require_valid (grammar value) message
    pure value
  | _ => throw (.AtomsError (.RootOperationInvalid message))

def decode_claim (data : List UInt8) : Except Raised RootClaim := do
  let decoded ← decode_canonical data invalid_fault "root claim"
  match decoded with
  | .obj obj => do
    require_valid (set_eq (obj.map Prod.fst) ["domain", "operation_id", "request_hash", "request_json"])
      "root claim has missing or unexpected fields"
    let _ ← claim_text obj "domain" (fun domain => domain = CLAIM_DOMAIN) "root claim carries the wrong domain"
    let operation_id ← claim_text obj "operation_id" is_operation_id "root claim operation_id is malformed"
    let request_hash ← claim_text obj "request_hash" is_hex_digest "root claim request_hash is malformed"
    let request_json ← claim_text obj "request_json" (fun _ => true) "root claim request_json must be a string"
    require_valid (Sha256.hexdigest (utf8 request_json) = request_hash)
      "root claim request_hash does not name its request bytes"
    let _ ← decode_canonical (utf8 request_json) invalid_fault "root claim request"
    pure { operation_id, request_hash, request_json }
  | _ => throw (.AtomsError (.RootOperationInvalid "root claim must be a canonical object"))

end

def create_root_claim (root_fd : Inode) (claim : List UInt8) : Call Unit := do
  let fd ← create_exclusive root_fd ROOT_CLAIM_LEAF CLAIM_MODE
  write_all fd claim.length claim
  flush_file fd
  flush_directory root_fd

/-- The bytes of the claim leaf, if there is one. -/
def read_root_claim (root_fd : Inode) : Call (Option (List UInt8)) := do
  let opened ← tryCatch
    (do
      let entry ← open_regular_nofollow root_fd ROOT_CLAIM_LEAF
      pure (some entry))
    fun caught => match caught with
      | .OSError errno =>
        if errno = .ENOENT then pure none
        else if errno ∈ [.ELOOP, .EISDIR, .ENOTDIR] then
          throw (.AtomsError (.RootOperationInvalid "the reserved root-claim leaf is not a regular file"))
        else throw caught
      | _ => throw caught
  match opened with
  | none => pure none
  | some entry => do
    let bytes ← read_all entry
    pure (some bytes)

def remove_root_claim (root_fd : Inode) (expected : List UInt8) : Call Unit := do
  let found ← read_root_claim root_fd
  match found with
  | none => pure ()
  | some bytes => do
    lift (require_valid (bytes = expected) "the root claim does not carry this operation's bytes")
    unlink_child root_fd ROOT_CLAIM_LEAF
    flush_directory root_fd

/-! Snapshot proof. -/

section

variable [Sha256]

/-- `_state_of_entry`: the state of one child, and the object to walk into if it is a directory. The mode of a symlink
is fixed. -/
def state_of_entry (d : Disk) (parent_fd : Inode) (name : String) : Except Raised (PathState × Option Inode) :=
  match d.lookup parent_fd name with
  | none => throw (.OSError .ENOENT)
  | some ⟨.directory, inode⟩ => pure (.DirectoryState { mode := d.modes.get inode }, some inode)
  | some ⟨.symlink target, _⟩ => pure (.SymlinkState { target, mode := 0o777 }, none)
  | some ⟨.file, inode⟩ => pure (.FileState (file_state d inode), none)

/-- `f"{prefix}/{name}" if prefix else name` -/
def join_path (lead name : String) : String := if lead = "" then name else lead ++ "/" ++ name

/-- One name of a directory, and what `walk` finds below it if it is a directory. -/
def walk_name (walk : Inode → String → Except Raised (List (String × PathState))) (d : Disk) (parent_fd : Inode)
    (lead name : String) : Except Raised (List (String × PathState)) := do
  let (state, directory) ← state_of_entry d parent_fd name
  let below ← (directory.map fun child_fd => walk child_fd (join_path lead name)).getD (pure [])
  pure ((join_path lead name, state) :: below)

/-- `_walk_tree`; `depth` is how many directories deep the interpreter recurses. -/
def walk_tree (d : Disk) : (depth : Nat) → (parent_fd : Inode) → (lead : String) → (skipped : List String) →
    Except Raised (List (String × PathState))
  | 0, _, _, _ => throw .RecursionError
  | depth + 1, parent_fd, lead, skipped => do
    let names := (sorted_by id (d.listdir parent_fd)).filter fun name => name ∉ skipped
    let found ← names.mapM (walk_name (fun child_fd path => walk_tree d depth child_fd path []) d parent_fd lead)
    pure found.flatten

/-- The names at the root that a snapshot passes over. -/
def passed_over (exclude_chain : Bool) : List String :=
  if exclude_chain then [ROOT_CLAIM_LEAF, CHAIN_LEAF] else [ROOT_CLAIM_LEAF]

def snapshot_of (d : Disk) (depth : Nat) (root_fd : Inode) (chain_head : String) (exclude_chain : Bool) :
    Except Raised Snapshot := do
  let entries ← walk_tree d depth root_fd "" (passed_over exclude_chain)
  pure { chain_head, entries := sorted_by Prod.fst entries }

/-- `tree_snapshot` -/
def tree_snapshot (depth : Nat) (root_fd : Inode) (chain_head : String) (exclude_chain : Bool) : Call Snapshot :=
  Prog.read fun d => snapshot_of d depth root_fd chain_head exclude_chain

end

/-! Read-only classification. -/

inductive LifecycleState
  | WRITABLE | READ_ONLY_SERVICEABLE | READ_ONLY_UNSERVICEABLE | METADATA_LESS | BINDING_MISMATCHED
  deriving DecidableEq

/-- What the metadata root holds: the version of its store, zero where there is none, and its tables of the root. -/
structure Carrier where
  version : Nat
  tables : RootTables

structure CarrierView where
  state : LifecycleState
  operation : Option RootOperationRow
  schema_version : Nat

def lifecycle_state : RootLifecycleState → LifecycleState
  | .writable => .WRITABLE
  | .read_only_serviceable => .READ_ONLY_SERVICEABLE
  | .read_only_unserviceable => .READ_ONLY_UNSERVICEABLE

/-- `_classify_connection` -/
def classify_carrier [UnicodeData] (carrier : Carrier) (machine_id root_path : String) : Except Raised CarrierView :=
  if carrier.version = 0 then pure ⟨.METADATA_LESS, none, 0⟩
  else if carrier.version = 2 then pure ⟨.READ_ONLY_UNSERVICEABLE, none, 2⟩
  else do
    require_root_row_pair carrier.tables.lifecycle carrier.tables.operation
    match carrier.tables.lifecycle with
    | none => pure ⟨.METADATA_LESS, carrier.tables.operation, 3⟩
    | some row =>
      if row.machine_id = machine_id ∧ row.root_path = root_path then
        pure ⟨lifecycle_state row.state, carrier.tables.operation, 3⟩
      else pure ⟨.BINDING_MISMATCHED, carrier.tables.operation, 3⟩

end atoms.coordinator

import Atoms.Core.Spec
import Atoms.Library.Json.RoundTrip
import Atoms.Recovery.Model

open atoms.errors atoms.fingerprint atoms.effects atoms.recovery atoms.spec checked json

namespace atoms.store

/-! The values of the enumerations, and the members in the order of their declaration. -/

def transaction_states : List TransactionState :=
  [.PREPARED, .APPLYING, .APPLIED, .COMMITTED, .ROLLING_BACK, .ROLLED_BACK, .HALTED]

def transaction_state_value : TransactionState → String
  | .PREPARED => "prepared"
  | .APPLYING => "applying"
  | .APPLIED => "applied"
  | .COMMITTED => "committed"
  | .ROLLING_BACK => "rolling_back"
  | .ROLLED_BACK => "rolled_back"
  | .HALTED => "halted"

def commit_decisions : List CommitDecision := [.UNCOMMITTED, .COMMITTED]

def commit_decision_value : CommitDecision → String
  | .UNCOMMITTED => "uncommitted"
  | .COMMITTED => "committed"

def journal_states : List JournalState := [.PENDING, .STARTED, .DONE, .UNDO_STARTED, .UNDONE]

def journal_state_value : JournalState → String
  | .PENDING => "pending"
  | .STARTED => "started"
  | .DONE => "done"
  | .UNDO_STARTED => "undo_started"
  | .UNDONE => "undone"

def halt_reasons : List HaltReason :=
  [.JOURNAL_TOPOLOGY_INVALID, .COMMIT_DECISION_CONFLICT, .ACTIVE_BINDING_MISSING, .EFFECT_TUPLE_UNATTRIBUTABLE,
    .DIRECTORY_NOT_EMPTY, .COMMITTED_SURFACE_MISMATCH, .PLAN_PRECONDITION_CHANGED, .MUTATION_DENIED]

def halt_reason_value : HaltReason → String
  | .JOURNAL_TOPOLOGY_INVALID => "journal_topology_invalid"
  | .COMMIT_DECISION_CONFLICT => "commit_decision_conflict"
  | .ACTIVE_BINDING_MISSING => "active_binding_missing"
  | .EFFECT_TUPLE_UNATTRIBUTABLE => "effect_tuple_unattributable"
  | .DIRECTORY_NOT_EMPTY => "directory_not_empty"
  | .COMMITTED_SURFACE_MISMATCH => "committed_surface_mismatch"
  | .PLAN_PRECONDITION_CHANGED => "plan_precondition_changed"
  | .MUTATION_DENIED => "mutation_denied"

def file_build_relations : List FileBuildRelation := [.EXACT, .STRICT_PREFIX, .DIVERGED]

def file_build_relation_value : FileBuildRelation → String
  | .EXACT => "exact"
  | .STRICT_PREFIX => "strict_prefix"
  | .DIVERGED => "diverged"

def identity_relations : List IdentityRelation := [.SAME, .DIFFERENT]

def identity_relation_value : IdentityRelation → String
  | .SAME => "same"
  | .DIFFERENT => "different"

def operator_actions : List OperatorAction := [.INSPECT_PRESERVED_EVIDENCE, .REPAIR_DURABLE_METADATA]

def operator_action_value : OperatorAction → String
  | .INSPECT_PRESERVED_EVIDENCE => "inspect_preserved_evidence"
  | .REPAIR_DURABLE_METADATA => "repair_durable_metadata"

/-! Writing. -/

/-- `_state_obj` -/
def state_obj : DiagnosticState → Json
  | .ObservedUnrecognized st_mode => .obj [("kind", .str "unrecognized"), ("st_mode", .int st_mode)]
  | .ObservedContended => .obj [("kind", .str "contended")]
  | .ObservedInaccessible => .obj [("kind", .str "inaccessible")]
  | .state .AbsentState => .obj [("kind", .str "absent")]
  | .state (.FileState state) =>
    .obj [("kind", .str "file"), ("content_hash", .str state.content_hash), ("mode", .int state.mode),
      ("byte_len", .int state.byte_len)]
  | .state (.DirectoryState state) => .obj [("kind", .str "directory"), ("mode", .int state.mode)]
  | .state (.SymlinkState state) =>
    .obj [("kind", .str "symlink"), ("target", .str state.target), ("mode", .int state.mode)]

/-- A field that may be null. -/
def optional {α : Type} (write : α → Json) : Option α → Json
  | none => .null
  | some value => write value

/-- `_entry_obj` -/
def entry_obj (entry : DiagnosticEntry) : Json :=
  .obj [("slot", .str entry.slot), ("state", state_obj entry.state),
    ("has_unmodeled_child", optional .bool entry.has_unmodeled_child),
    ("file_build_relation", optional (fun relation => .str (file_build_relation_value relation)) entry.file_build_relation)]

def journal_obj (journal : EffectJournalState) : Json :=
  .obj [("effect_id", .str journal.effect_id), ("state", .str (journal_state_value journal.state))]

def relation_obj (relation : DiagnosticIdentityRelation) : Json :=
  .obj [("left_slot", .str relation.left_slot), ("right_slot", .str relation.right_slot),
    ("relation", .str (identity_relation_value relation.relation))]

/-- The object that `encode_diagnostic` dumps. -/
def diagnostic_obj (diagnostic : HaltDiagnostic) : Json :=
  .obj [("pre_halt_state", .str (transaction_state_value diagnostic.pre_halt_state)),
    ("commit_decision", .str (commit_decision_value diagnostic.commit_decision)),
    ("journals", .arr (diagnostic.journals.map journal_obj)),
    ("projected_transaction_state", .str (transaction_state_value diagnostic.projected_transaction_state)),
    ("projected_journals", .arr (diagnostic.projected_journals.map journal_obj)),
    ("effect_id", optional .str diagnostic.effect_id),
    ("paths", .arr (diagnostic.paths.map .str)),
    ("expected", .arr (diagnostic.expected.map entry_obj)),
    ("observed", .arr (diagnostic.observed.map entry_obj)),
    ("identity_relations", .arr (diagnostic.identity_relations.map relation_obj)),
    ("reason", .str (halt_reason_value diagnostic.reason)),
    ("operator_action", .str (operator_action_value diagnostic.operator_action))]

def encode_diagnostic (diagnostic : HaltDiagnostic) : String := dumps true (diagnostic_obj diagnostic)

/-! Reading. -/

/-- `_refuse` -/
def refuse {α : Type} (message : String) : Except Raised α :=
  throw (.MetadataStoreInvalid ("halt diagnostic payload is malformed: " ++ message))

/-- `type(value).__name__` -/
def type_name : Json → String
  | .null => "NoneType"
  | .bool _ => "bool"
  | .int _ => "int"
  | .float _ => "float"
  | .str _ => "str"
  | .arr _ => "list"
  | .obj _ => "dict"

abbrev Members := List (String × Json)

/-- `obj[key]`, of an object that has the key. -/
def field (obj : Members) (key : String) : Json := (obj.lookup key).getD .null

section

variable [UnicodeData]

mutual

/-- `repr` of a value, with a floating number as it was written. -/
def json_repr : Json → String
  | .null => "None"
  | .bool true => "True"
  | .bool false => "False"
  | .int value => toString value
  | .float text => text
  | .str value => py_repr value
  | .arr items => "[" ++ String.intercalate ", " (items_repr items) ++ "]"
  | .obj members => "\x7b" ++ String.intercalate ", " (members_repr members) ++ "\x7d"

def items_repr : List Json → List String
  | [] => []
  | item :: rest => json_repr item :: items_repr rest

def members_repr : List (String × Json) → List String
  | [] => []
  | (key, value) :: rest => (py_repr key ++ ": " ++ json_repr value) :: members_repr rest

end

/-- `_member` -/
def member {α : Type} (members : List α) (value_of : α → String) (label : String) (value : Json) : Except Raised α :=
  match value with
  | .str text => match members.find? fun item => value_of item = text with
    | some item => pure item
    | none => refuse (json_repr value ++ " is not a " ++ label)
  | _ => refuse (json_repr value ++ " is not a " ++ label)

/-- `_text` -/
def text (obj : Members) (key : String) : Except Raised String :=
  match field obj key with
  | .str value => pure value
  | value => refuse (key ++ " must be a string, got " ++ type_name value)

/-- `_integer` -/
def integer (obj : Members) (key : String) : Except Raised Int :=
  match field obj key with
  | .int value => pure value
  | value => refuse (key ++ " must be an integer, got " ++ type_name value)

/-- `_flag` -/
def flag (obj : Members) (key : String) : Except Raised Bool :=
  match field obj key with
  | .bool value => pure value
  | value => refuse (key ++ " must be a boolean, got " ++ type_name value)

/-- `_optional_text` -/
def optional_text (obj : Members) (key : String) : Except Raised (Option String) :=
  match field obj key with
  | .null => pure none
  | _ => do
    let value ← text obj key
    pure (some value)

/-- `_optional_flag` -/
def optional_flag (obj : Members) (key : String) : Except Raised (Option Bool) :=
  match field obj key with
  | .null => pure none
  | _ => do
    let value ← flag obj key
    pure (some value)

/-- `_sequence` -/
def sequence (obj : Members) (key : String) : Except Raised (List Json) :=
  match field obj key with
  | .arr items => pure items
  | value => refuse (key ++ " must be an array, got " ++ type_name value)

/-- `_require_keys` -/
def require_keys (obj : Members) (expected : List String) : Except Raised Unit :=
  if keyed.set_eq (obj.map Prod.fst) expected then .ok ()
  else refuse ("expected keys " ++ repr_list (sorted_by id expected) ++ ", got " ++
    repr_list (sorted_by id (obj.map Prod.fst)))

/-- `isinstance(obj, dict)` -/
def require_dict (value : Json) (message : String) : Except Raised Members :=
  match value with
  | .obj members => pure members
  | _ => refuse message

/-- `_decode_state` -/
def decode_state (value : Json) : Except Raised DiagnosticState := do
  let obj ← require_dict value "a path state must be an object"
  match field obj "kind" with
  | .str "absent" => do
    require_keys obj ["kind"]
    pure (.state .AbsentState)
  | .str "file" => do
    require_keys obj ["kind", "content_hash", "mode", "byte_len"]
    let content_hash ← text obj "content_hash"
    let mode ← integer obj "mode"
    let byte_len ← integer obj "byte_len"
    pure (.state (.FileState { content_hash, mode, byte_len }))
  | .str "directory" => do
    require_keys obj ["kind", "mode"]
    let mode ← integer obj "mode"
    pure (.state (.DirectoryState { mode }))
  | .str "symlink" => do
    require_keys obj ["kind", "target", "mode"]
    let target ← text obj "target"
    let mode ← integer obj "mode"
    pure (.state (.SymlinkState { target, mode }))
  | .str "unrecognized" => do
    require_keys obj ["kind", "st_mode"]
    let mode ← integer obj "st_mode"
    if is_unrecognized_st_mode mode then pure (.ObservedUnrecognized mode)
    else refuse "st_mode is not a bounded unrecognized kernel entry kind"
  | .str "contended" => do
    require_keys obj ["kind"]
    pure .ObservedContended
  | .str "inaccessible" => do
    require_keys obj ["kind"]
    pure .ObservedInaccessible
  | kind => refuse (json_repr kind ++ " is not a path-state kind")

/-- `_decode_journal` -/
def decode_journal (value : Json) : Except Raised EffectJournalState := do
  let obj ← require_dict value "a journal entry must be an object"
  require_keys obj ["effect_id", "state"]
  let effect_id ← text obj "effect_id"
  let state ← member journal_states journal_state_value "JournalState" (field obj "state")
  pure { effect_id, state }

/-- A build relation, or null. -/
def optional_relation : Json → Except Raised (Option FileBuildRelation)
  | .null => pure none
  | value => do
    let relation ← member file_build_relations file_build_relation_value "FileBuildRelation" value
    pure (some relation)

/-- `_decode_entry` -/
def decode_entry (value : Json) : Except Raised DiagnosticEntry := do
  let obj ← require_dict value "a diagnostic entry must be an object"
  require_keys obj ["slot", "state", "has_unmodeled_child", "file_build_relation"]
  let slot ← text obj "slot"
  let state ← decode_state (field obj "state")
  let has_unmodeled_child ← optional_flag obj "has_unmodeled_child"
  let file_build_relation ← optional_relation (field obj "file_build_relation")
  pure { slot, state, has_unmodeled_child, file_build_relation }

/-- `_decode_relation` -/
def decode_relation (value : Json) : Except Raised DiagnosticIdentityRelation := do
  let obj ← require_dict value "an identity relation must be an object"
  require_keys obj ["left_slot", "right_slot", "relation"]
  let left_slot ← text obj "left_slot"
  let right_slot ← text obj "right_slot"
  let relation ← member identity_relations identity_relation_value "IdentityRelation" (field obj "relation")
  pure { left_slot, right_slot, relation }

/-- `_DIAGNOSTIC_FIELDS` -/
def diagnostic_fields : List String :=
  ["pre_halt_state", "commit_decision", "journals", "projected_transaction_state", "projected_journals", "effect_id",
    "paths", "expected", "observed", "identity_relations", "reason", "operator_action"]

/-- `paths`, from the entry at `index` on. -/
def decode_paths : Nat → List Json → Except Raised (List RelPath)
  | _, [] => pure []
  | index, .str path :: rest => do
    let paths ← decode_paths (index + 1) rest
    pure (path :: paths)
  | index, entry :: _ => refuse ("paths[" ++ toString index ++ "] must be a string, got " ++ type_name entry)

/-- What the reader makes of the payload's text. -/
def load_payload (payload : String) : Except Raised Json :=
  match loads payload with
  | .ok value => pure value
  | .error (.duplicate_key key) => refuse ("duplicate key " ++ py_repr key)
  | .error .malformed => throw (.MetadataStoreInvalid "halt diagnostic payload is not valid JSON")

def decode_diagnostic (payload : String) : Except Raised HaltDiagnostic := do
  let value ← load_payload payload
  let obj ← require_dict value "the payload must be an object"
  require_keys obj diagnostic_fields
  let path_items ← sequence obj "paths"
  let paths ← decode_paths 0 path_items
  let pre_halt_state ← member transaction_states transaction_state_value "TransactionState" (field obj "pre_halt_state")
  let commit_decision ← member commit_decisions commit_decision_value "CommitDecision" (field obj "commit_decision")
  let journal_items ← sequence obj "journals"
  let journals ← journal_items.mapM decode_journal
  let projected_transaction_state ← member transaction_states transaction_state_value "TransactionState"
    (field obj "projected_transaction_state")
  let projected_items ← sequence obj "projected_journals"
  let projected_journals ← projected_items.mapM decode_journal
  let effect_id ← optional_text obj "effect_id"
  let expected_items ← sequence obj "expected"
  let expected ← expected_items.mapM decode_entry
  let observed_items ← sequence obj "observed"
  let observed ← observed_items.mapM decode_entry
  let relation_items ← sequence obj "identity_relations"
  let identity_relations ← relation_items.mapM decode_relation
  let reason ← member halt_reasons halt_reason_value "HaltReason" (field obj "reason")
  let operator_action ← member operator_actions operator_action_value "OperatorAction" (field obj "operator_action")
  pure
    { pre_halt_state, commit_decision, journals, projected_transaction_state, projected_journals, effect_id, paths,
      expected, observed, identity_relations, reason, operator_action }

end

end atoms.store

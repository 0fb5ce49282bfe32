import Atoms.Store.Codec
import Atoms.Store.Record

open atoms.errors atoms.recovery atoms.spec checked json

namespace atoms.store

/-! The rules of `AssemblyFinding` and `AssemblyHalt`. -/

/-- The members in the order of their declaration, which is `_FINDING_ORDER`. -/
def assembly_finding_kinds : List AssemblyFindingKind :=
  [.NODE_MISSING, .WRONG_ENTRY_KIND, .MOUNT_BOUNDARY, .ACCESS_DENIED, .IDENTITY_CHANGED, .CONSTRAINTS_CHANGED,
    .MOUNT_CHANGED, .WORK_ROOT_CHANGED]

def assembly_finding_kind_value : AssemblyFindingKind → String
  | .NODE_MISSING => "node-missing"
  | .WRONG_ENTRY_KIND => "wrong-entry-kind"
  | .MOUNT_BOUNDARY => "mount-boundary"
  | .ACCESS_DENIED => "access-denied"
  | .IDENTITY_CHANGED => "identity-changed"
  | .CONSTRAINTS_CHANGED => "constraints-changed"
  | .MOUNT_CHANGED => "mount-changed"
  | .WORK_ROOT_CHANGED => "work-root-changed"

/-- The one value of `AssemblyHaltReason` -/
def APPROVAL_EVIDENCE_MISMATCH : String := "approval-evidence-mismatch"

/-- The one value of `AssemblyOperatorAction` -/
def RESTORE_APPROVED_TOPOLOGY : String := "restore-approved-topology"

/-- `_FACT_KEYS` -/
def fact_keys : AssemblyFindingKind → List String
  | .NODE_MISSING | .MOUNT_BOUNDARY | .ACCESS_DENIED => []
  | .WRONG_ENTRY_KIND => ["observed_kind"]
  | .IDENTITY_CHANGED => ["st_dev", "st_ino"]
  | .CONSTRAINTS_CHANGED => ["lookup_proof", "name_max"]
  | .MOUNT_CHANGED => ["mount_id"]
  | .WORK_ROOT_CHANGED => ["work_base"]

/-- `_DECIMAL_FACTS` -/
def decimal_facts : List String := ["st_dev", "st_ino", "mount_id", "name_max"]

/-- `_LOOKUP_PROOFS` -/
def lookup_proofs : List String := ["exact_bytes", "unreproducible_casefold"]

/-- `_is_decimal` -/
def is_decimal (value : String) : Bool :=
  value = "0" || (value.toList.headD '0' ∈ "123456789".toList && value.toList.all Char.isDigit)

/-- Kinds that are the sole finding at their path. -/
def sole_kinds : List AssemblyFindingKind := [.NODE_MISSING, .WRONG_ENTRY_KIND, .MOUNT_BOUNDARY, .ACCESS_DENIED]

/-- The order of findings: by path, then by kind. -/
def AssemblyFinding.le (left right : AssemblyFinding) : Prop :=
  left.path < right.path ∨ left.path = right.path ∧
    assembly_finding_kinds.idxOf left.kind ≤ assembly_finding_kinds.idxOf right.kind

instance (left right : AssemblyFinding) : Decidable (left.le right) := inferInstanceAs (Decidable (_ ∨ _))

/-- `tuple(sorted(findings, key=...))` -/
def sorted_findings (findings : List AssemblyFinding) : List AssemblyFinding :=
  findings.insertionSort AssemblyFinding.le

variable [UnicodeData]

/-- The value of one observed fact. -/
def require_fact (fact : String × String) : Except AtomsError Unit :=
  if fact.1 ∈ decimal_facts then
    require (is_decimal fact.2) (.ProtocolError ("assembly finding " ++ py_repr fact.1 ++
      " must be a canonical decimal string"))
  else if fact.1 = "observed_kind" then
    require (fact.2 ∈ ["file", "symlink", "other"])
      (.ProtocolError "assembly finding observed_kind is outside its closed domain")
  else if fact.1 = "lookup_proof" then
    require (fact.2 ∈ lookup_proofs) (.ProtocolError "assembly finding lookup_proof is outside its closed domain")
  else if fact.1 = "work_base" then
    require (fact.2 ∈ ["present", "absent"]) (.ProtocolError "assembly finding work_base is outside its closed domain")
  else pure ()

/-- `AssemblyFinding(path, kind, observed)` -/
def assembly_finding (path : String) (kind : AssemblyFindingKind) (observed : List (String × String)) :
    Except AtomsError AssemblyFinding := do
  require (observed.map Prod.fst = fact_keys kind)
    (.ProtocolError "assembly finding observed fact keys do not match its kind")
  observed.forM require_fact
  pure { path, kind, observed }

/-- The loop of `AssemblyHalt` over its findings by pairs. -/
def require_sole : List AssemblyFinding → Except AtomsError Unit
  | left :: right :: rest => do
    require (¬ (left.path = right.path ∧ left.kind ∈ sole_kinds))
      (.ProtocolError "a fact-free or wrong-kind node must be its path's sole finding")
    require_sole (right :: rest)
  | _ => pure ()

/-- `AssemblyHalt(txid, reason, expected, findings, operator_action)` -/
def assembly_halt (txid expected : String) (findings : List AssemblyFinding) : Except AtomsError AssemblyHalt := do
  require (findings ≠ []) (.ProtocolError "assembly halt findings must be a non-empty exact tuple")
  require (sorted_findings findings = findings)
    (.ProtocolError "assembly halt findings must be ordered by path and finding kind")
  require_sole findings
  pure { txid, expected, findings }

/-! Writing. -/

/-- `list(fact)` -/
def fact_obj (fact : String × String) : Json := .arr [.str fact.1, .str fact.2]

/-- `_finding_obj` -/
def finding_obj (finding : AssemblyFinding) : Json :=
  .obj [("path", .str finding.path), ("kind", .str (assembly_finding_kind_value finding.kind)),
    ("observed", .arr (finding.observed.map fact_obj))]

/-- The object that `encode_assembly_halt` dumps. -/
def halt_obj (halt : AssemblyHalt) : Json :=
  .obj [("txid", .str halt.txid), ("reason", .str APPROVAL_EVIDENCE_MISMATCH), ("expected", .str halt.expected),
    ("findings", .arr (halt.findings.map finding_obj)), ("operator_action", .str RESTORE_APPROVED_TOPOLOGY)]

def encode_assembly_halt (halt : AssemblyHalt) : Except AtomsError String := do
  let _ ← assembly_halt halt.txid halt.expected halt.findings
  pure (dumps false (halt_obj halt))

/-! Reading. -/

/-- `_object` -/
def object (value : Json) (label : String) : Except AtomsError Members :=
  match value with
  | .obj members => pure members
  | _ => throw (.ProtocolError (label ++ " must be an object"))

/-- `_string` -/
def exact_string (value : Json) (label : String) : Except AtomsError String :=
  match value with
  | .str text => pure text
  | _ => throw (.ProtocolError (label ++ " must be an exact str"))

/-- `type(value) is list` -/
def array (value : Json) (label : String) : Except AtomsError (List Json) :=
  match value with
  | .arr items => pure items
  | _ => throw (.ProtocolError (label ++ " must be an array"))

/-- `_only` -/
def only (obj : Members) (fields : List String) (label : String) : Except AtomsError Unit :=
  require (keyed.set_eq (obj.map Prod.fst) fields) (.ProtocolError (label ++ " has missing or unexpected fields"))

/-- `_enum` -/
def closed_enum {α : Type} (members : List α) (value_of : α → String) (value : Json) (label : String) :
    Except AtomsError α := do
  let text ← exact_string value label
  match members.find? fun item => value_of item = text with
  | some item => pure item
  | none => throw (.ProtocolError (label ++ " is outside its closed domain"))

/-- The fact at `fact_index` of the finding at `index`. -/
def decode_fact (index fact_index : Nat) : Json → Except AtomsError (String × String)
  | .arr [key, value] => do
    let key ← exact_string key ("assembly halt findings[" ++ toString index ++ "] fact key")
    let value ← exact_string value ("assembly halt findings[" ++ toString index ++ "] fact value")
    pure (key, value)
  | _ => throw (.ProtocolError ("assembly halt findings[" ++ toString index ++ "].observed[" ++ toString fact_index ++
      "] must be a pair"))

/-- The facts of the finding at `index`, from the one at `fact_index` on. -/
def decode_facts (index : Nat) : (fact_index : Nat) → List Json → Except AtomsError (List (String × String))
  | _, [] => pure []
  | fact_index, raw_fact :: rest => do
    let fact ← decode_fact index fact_index raw_fact
    let facts ← decode_facts index (fact_index + 1) rest
    pure (fact :: facts)

def decode_finding (index : Nat) (raw_finding : Json) : Except AtomsError AssemblyFinding := do
  let label := "assembly halt findings[" ++ toString index ++ "]"
  let finding ← object raw_finding label
  only finding ["path", "kind", "observed"] label
  let raw_observed ← array (field finding "observed") (label ++ ".observed")
  let observed ← decode_facts index 0 raw_observed
  let path ← exact_string (field finding "path") (label ++ ".path")
  let kind ← closed_enum assembly_finding_kinds assembly_finding_kind_value (field finding "kind") (label ++ ".kind")
  assembly_finding path kind observed

/-- The findings from the one at `index` on. -/
def decode_findings : (index : Nat) → List Json → Except AtomsError (List AssemblyFinding)
  | _, [] => pure []
  | index, raw_finding :: rest => do
    let finding ← decode_finding index raw_finding
    let findings ← decode_findings (index + 1) rest
    pure (finding :: findings)

/-- What the reader makes of the payload's text. -/
def load_halt (payload : String) : Except AtomsError Json :=
  match loads payload with
  | .ok value => pure value
  | .error (.duplicate_key key) => throw (.ProtocolError ("duplicate assembly-halt JSON key: " ++ py_repr key))
  | .error .malformed => throw (.ProtocolError "assembly halt payload is not valid JSON")

def decode_assembly_halt (payload : String) : Except AtomsError AssemblyHalt := do
  let raw ← load_halt payload
  let obj ← object raw "assembly halt payload"
  only obj ["txid", "reason", "expected", "findings", "operator_action"] "assembly halt payload"
  let raw_findings ← array (field obj "findings") "assembly halt findings"
  let findings ← decode_findings 0 raw_findings
  let txid ← exact_string (field obj "txid") "assembly halt txid"
  let _ ← closed_enum [APPROVAL_EVIDENCE_MISMATCH] id (field obj "reason") "assembly halt reason"
  let expected ← exact_string (field obj "expected") "assembly halt expected"
  let _ ← closed_enum [RESTORE_APPROVED_TOPOLOGY] id (field obj "operator_action") "assembly halt operator_action"
  let halt ← assembly_halt txid expected findings
  let canonical ← encode_assembly_halt halt
  require (canonical = payload) (.ProtocolError "assembly halt payload is not canonical")
  pure halt

end atoms.store

import Atoms.Core.Paths
import Atoms.Core.Spec
import Atoms.Fs.Disk
import Atoms.Library.Base64
import Atoms.Library.Json
import Mathlib.Algebra.Group.Nat.Defs

open atoms.errors atoms.fingerprint atoms.effects atoms.identifiers atoms.paths atoms.spec atoms.fs checked keyed json

namespace atoms.chain

abbrev PathStateJSON := List (String × String)

inductive ChainOutcome
  | COMMITTED | ROLLED_BACK
  deriving DecidableEq

def chain_outcome_value : ChainOutcome → String
  | .COMMITTED => "committed"
  | .ROLLED_BACK => "rolled-back"

structure GenesisEntry where
  payload : List UInt8
  baseline : List (String × PathStateJSON)
  deriving DecidableEq

structure RegisteredEntry where
  txid : String
  intent_digest : String
  consumer_tag : String
  initial : List (String × PathStateJSON)
  final : List (String × PathStateJSON)
  fulfills : Option String
  deriving DecidableEq

structure SettledEntry where
  txid : String
  registration : String
  outcome : ChainOutcome
  deriving DecidableEq

structure IntentEntry where
  payload : List UInt8
  deriving DecidableEq

inductive Entry
  | GenesisEntry (entry : GenesisEntry)
  | RegisteredEntry (entry : RegisteredEntry)
  | SettledEntry (entry : SettledEntry)
  | IntentEntry (entry : IntentEntry)
  deriving DecidableEq

/-- The class of the errors that a check raises, applied to its message. -/
abbrev Fault := String → Raised

def protocol_fault : Fault := fun message => .AtomsError (.ProtocolError message)

def chain_fault : Fault := .ChainStateInvalid

def EMPTY_HASH : String := "e3b0c44298fc1c149afbf4c8996fb92427ae41e4649b934ca495991b7852b855"

def MAX_INTEGER : Nat := 2 ^ 63 - 1

def MAX_MODE : Nat := 0o7777

/-- `_digest` -/
def require_digest (value : String) (fault : Fault) (label : String) : Except Raised Unit :=
  require (is_hex_digest value) (fault (label ++ " must be 64 lowercase hexadecimal characters"))

/-- `_identifier` -/
def require_identifier (value : String) (fault : Fault) (label : String) : Except Raised Unit :=
  require (is_valid_identifier value) (fault (label ++ " must be 1–64 characters of [A-Za-z0-9_-]"))

/-- The text of an error of the engine's hierarchy. -/
def error_text : AtomsError → String
  | .ProtocolError message | .SpecValidationError message | .ProjectApprovalRefused message
  | .PreconditionRefused message | .CapabilityUnavailable message | .TransactionHalted message
  | .PendingUnresolved message | .RootOperationInvalid message | .RootOperationMismatch message
  | .SourceSnapshotMoved message => message

/-- `_path` -/
def require_path [UnicodeData] (value : String) (fault : Fault) (label : String) : Except Raised Unit :=
  match require_rel_path label value with
  | .ok () => pure ()
  | .error error => throw (fault (error_text error))

/-- A number without leading zeros, in digits up to `last`. -/
def is_canonical (last : Char) (digits : List Char) : Bool :=
  digits = ['0'] ∨ (digits.head?.any fun c => '1' ≤ c ∧ c ≤ last) ∧ digits.all fun c => '0' ≤ c ∧ c ≤ last

/-- `_mode` -/
def require_mode (value : String) (fault : Fault) (label : String) : Except Raised Int := do
  let digits := if starts_with "0o" value then value.toList.drop 2 else []
  require (value.toList.length ≤ 6 ∧ is_canonical '7' digits)
    (fault (label ++ " must be a canonical octal mode in 0o0..0o7777"))
  let parsed := Nat.ofDigitChars 8 digits 0
  require (parsed ≤ MAX_MODE) (fault (label ++ " exceeds 0o7777"))
  pure parsed

/-- `_decimal` -/
def require_decimal (value : String) (fault : Fault) (label : String) : Except Raised Int := do
  require (value.toList.length ≤ 19) (fault (label ++ " must be in 0..2**63 - 1"))
  require (is_canonical '9' value.toList) (fault (label ++ " must be a canonical decimal integer"))
  let parsed := Nat.ofDigitChars 10 value.toList 0
  require (parsed ≤ MAX_INTEGER) (fault (label ++ " exceeds 2**63 - 1"))
  pure parsed

/-- `_target` -/
def require_target (value : String) (fault : Fault) (label : String) : Except Raised Unit := do
  require (value ≠ "") (fault (label ++ " may not be empty"))
  require (Char.ofNat 0 ∉ value.toList) (fault (label ++ " contains a NUL byte"))

/-- `values[key]`, of facts that have the key. -/
def fact (facts : PathStateJSON) (key : String) : String := ((find_key Prod.fst facts key).map Prod.snd).getD ""

/-- `_state_from_json` -/
def state_from_json (facts : PathStateJSON) (fault : Fault) (label : String) : Except Raised PathState := do
  let keys := facts.map Prod.fst
  require (keys.head? = some "kind") (fault (label ++ " must start with kind"))
  let kind := fact facts "kind"
  if kind = "absent" then do
    require (keys = ["kind"]) (fault (label ++ " absent facts are not exact"))
    pure ABSENT
  else if kind = "file" then do
    require (keys = ["kind", "content_hash", "mode", "byte_len"]) (fault (label ++ " file facts are not exact"))
    require_digest (fact facts "content_hash") fault (label ++ ".content_hash")
    let mode ← require_mode (fact facts "mode") fault (label ++ ".mode")
    let byte_len ← require_decimal (fact facts "byte_len") fault (label ++ ".byte_len")
    require (fact facts "content_hash" = EMPTY_HASH ↔ byte_len = 0)
      (fault (label ++ " has inconsistent empty-file hash and length"))
    pure (.FileState { content_hash := "sha256:" ++ fact facts "content_hash", mode, byte_len })
  else if kind = "symlink" then do
    require (keys = ["kind", "target", "mode"]) (fault (label ++ " symlink facts are not exact"))
    require_target (fact facts "target") fault (label ++ ".target")
    let mode ← require_mode (fact facts "mode") fault (label ++ ".mode")
    pure (.SymlinkState { target := fact facts "target", mode })
  else if kind = "directory" then do
    require (keys = ["kind", "mode"]) (fault (label ++ " directory facts are not exact"))
    let mode ← require_mode (fact facts "mode") fault (label ++ ".mode")
    pure (.DirectoryState { mode })
  else throw (fault (label ++ ".kind is outside the closed path-state domain"))

/-- `oct(mode)` -/
def oct (mode : Int) : String := String.ofList ('0' :: 'o' :: Nat.toDigits 8 mode.toNat)

/-- A mode that the chain can hold. -/
def require_mode_range (mode : Int) (label : String) : Except Raised Unit :=
  require (0 ≤ mode ∧ mode ≤ MAX_MODE) (protocol_fault (label ++ " mode must be an exact int in 0..0o7777"))

/-- The facts of a state, before they are read back. -/
def state_facts : PathState → Except Raised PathStateJSON
  | .AbsentState => pure [("kind", "absent")]
  | .FileState state => do
    require (is_sha256_digest state.content_hash)
      (protocol_fault "file content_hash must match sha256:<64 lowercase hex>")
    require_mode_range state.mode "file"
    require (0 ≤ state.byte_len ∧ state.byte_len ≤ MAX_INTEGER)
      (protocol_fault "file byte_len must be an exact int in 0..2**63 - 1")
    pure [("kind", "file"), ("content_hash", String.ofList (state.content_hash.toList.drop 7)),
      ("mode", oct state.mode), ("byte_len", toString state.byte_len)]
  | .SymlinkState state => do
    require_mode_range state.mode "symlink"
    require_target state.target protocol_fault "symlink target"
    pure [("kind", "symlink"), ("target", state.target), ("mode", oct state.mode)]
  | .DirectoryState state => do
    require_mode_range state.mode "directory"
    pure [("kind", "directory"), ("mode", oct state.mode)]

/-- `state_to_json` -/
def state_to_json (state : PathState) : Except Raised PathStateJSON := do
  let facts ← state_facts state
  match state with
  | .AbsentState => pure facts
  | _ => do
    let _ ← state_from_json facts protocol_fault "path state"
    pure facts

section

variable [UnicodeData]

/-- The checks on the items of `_surface`, from the item at `index` on. -/
def require_surface_items (fault : Fault) (label : String) : Nat → List (String × PathStateJSON) → Except Raised Unit
  | _, [] => pure ()
  | index, (path, state) :: rest => do
    require_path path fault (label ++ "[" ++ toString index ++ "].path")
    let _ ← state_from_json state fault (label ++ "[" ++ toString index ++ "].state")
    require_surface_items fault label (index + 1) rest

/-- `_surface` -/
def require_surface (value : List (String × PathStateJSON)) (fault : Fault) (label : String) : Except Raised Unit := do
  require_surface_items fault label 0 value
  let paths := value.map Prod.fst
  require (paths = sorted_by id paths) (fault (label ++ " must be sorted by path"))
  require paths.Nodup (fault (label ++ " must be duplicate-free"))

def pair_obj (pair : String × String) : Json := .arr [.str pair.1, .str pair.2]

def surface_item_obj (item : String × PathStateJSON) : Json := .arr [.str item.1, .arr (item.2.map pair_obj)]

/-- `_surface_obj` -/
def surface_obj (value : List (String × PathStateJSON)) (fault : Fault) (label : String) : Except Raised Json := do
  require_surface value fault label
  pure (.arr (value.map surface_item_obj))

/-- `_string` -/
def string_from_obj (value : Json) (fault : Fault) (label : String) : Except Raised String :=
  match value with
  | .str text => pure text
  | _ => throw (fault (label ++ " must be an exact str"))

/-- The facts of one state, from the pair at `index` on. -/
def pairs_from_obj (fault : Fault) (label : String) : Nat → List Json → Except Raised PathStateJSON
  | _, [] => pure []
  | index, .arr [key, value] :: rest => do
    let key ← string_from_obj key fault (label ++ " fact key")
    let value ← string_from_obj value fault (label ++ " fact value")
    let facts ← pairs_from_obj fault label (index + 1) rest
    pure ((key, value) :: facts)
  | index, _ :: _ => throw (fault (label ++ ".state[" ++ toString index ++ "] must be a pair"))

def surface_item_from_obj (fault : Fault) (label : String) (value : Json) : Except Raised (String × PathStateJSON) :=
  match value with
  | .arr [path, .arr pairs] => do
    let facts ← pairs_from_obj fault label 0 pairs
    let path ← string_from_obj path fault (label ++ ".path")
    pure (path, facts)
  | .arr [_, _] => throw (fault (label ++ ".state must be an array"))
  | _ => throw (fault (label ++ " must be a path/state pair"))

/-- The items of a surface, from the one at `index` on. -/
def surface_items_from_obj (fault : Fault) (label : String) : Nat → List Json →
    Except Raised (List (String × PathStateJSON))
  | _, [] => pure []
  | index, item :: rest => do
    let item ← surface_item_from_obj fault (label ++ "[" ++ toString index ++ "]") item
    let items ← surface_items_from_obj fault label (index + 1) rest
    pure (item :: items)

/-- `_surface_from_obj` -/
def surface_from_obj (value : Json) (fault : Fault) (label : String) :
    Except Raised (List (String × PathStateJSON)) :=
  match value with
  | .arr items => do
    let surface ← surface_items_from_obj fault label 0 items
    require_surface surface fault label
    pure surface
  | _ => throw (fault (label ++ " must be an array"))

/-- `_payload` -/
def payload_obj (payload : List UInt8) : Json := .str (String.ofList (base64.encode payload))

/-- `_payload_from_obj` -/
def payload_from_obj (value : Json) (fault : Fault) (label : String) : Except Raised (List UInt8) := do
  let text ← string_from_obj value fault label
  match base64.decode text.toList with
  | none => throw (fault (label ++ " is not valid base64"))
  | some decoded => do
    require (base64.encode decoded = text.toList) (fault (label ++ " is not canonical base64"))
    pure decoded

def optional_obj : Option String → Json
  | none => .null
  | some value => .str value

/-- The digest of the entry before this one, which every entry but the genesis has. -/
def require_previous (previous : Option String) (fault : Fault) : Except Raised Unit :=
  match previous with
  | none => throw (fault "previous must be an exact str")
  | some digest => require_digest digest fault "previous"

/-- `_entry_obj` -/
def entry_obj (previous : Option String) (entry : Entry) (fault : Fault) : Except Raised Json :=
  match entry with
  | .GenesisEntry entry => do
    require (previous = none) (fault "genesis must not have a previous digest")
    let baseline ← surface_obj entry.baseline fault "genesis baseline"
    pure (.obj [("class", .str "genesis"), ("previous", .null), ("payload", payload_obj entry.payload),
      ("baseline", baseline)])
  | .RegisteredEntry entry => do
    require_previous previous fault
    require (is_sha256_digest entry.intent_digest)
      (fault "registered intent_digest must match sha256:<64 lowercase hex>")
    require (∀ digest ∈ entry.fulfills, is_hex_digest digest)
      (fault "registered fulfills must be 64 lowercase hexadecimal characters")
    require_identifier entry.txid fault "registered txid"
    require_identifier entry.consumer_tag fault "registered consumer_tag"
    let initial ← surface_obj entry.initial fault "registered initial"
    let final ← surface_obj entry.final fault "registered final"
    pure (.obj [("class", .str "registered"), ("previous", optional_obj previous), ("txid", .str entry.txid),
      ("intent_digest", .str entry.intent_digest), ("consumer_tag", .str entry.consumer_tag), ("initial", initial),
      ("final", final), ("fulfills", optional_obj entry.fulfills)])
  | .SettledEntry entry => do
    require_previous previous fault
    require_identifier entry.txid fault "settled txid"
    require_digest entry.registration fault "settled registration"
    pure (.obj [("class", .str "settled"), ("previous", optional_obj previous), ("txid", .str entry.txid),
      ("registration", .str entry.registration), ("outcome", .str (chain_outcome_value entry.outcome))])
  | .IntentEntry entry => do
    require_previous previous fault
    pure (.obj [("class", .str "intent"), ("previous", optional_obj previous), ("payload", payload_obj entry.payload)])

/-- `_canonical_bytes` -/
def canonical_bytes (obj : Json) : List UInt8 := utf8 (dumps false obj)

def encode_entry (previous : Option String) (entry : Entry) : Except Raised (List UInt8) := do
  let obj ← entry_obj previous entry protocol_fault
  pure (canonical_bytes obj)

/-- `obj[key]`, of an object that has the key. -/
def member (obj : List (String × Json)) (key : String) : Json := (obj.lookup key).getD .null

/-- `_only` -/
def require_only (obj : List (String × Json)) (fields : List String) (label : String) : Except Raised Unit :=
  require (set_eq (obj.map Prod.fst) fields) (chain_fault (label ++ " has missing or unexpected fields"))

/-- A digest that may be null. -/
def optional_digest (value : Json) (label : String) : Except Raised (Option String) :=
  match value with
  | .null => pure none
  | _ => do
    let digest ← string_from_obj value chain_fault label
    require_digest digest chain_fault label
    pure (some digest)

def chain_outcome (value : String) : Except Raised ChainOutcome :=
  match [ChainOutcome.COMMITTED, .ROLLED_BACK].find? fun outcome => chain_outcome_value outcome = value with
  | some outcome => pure outcome
  | none => throw (chain_fault "settled outcome is outside the closed domain")

/-- The fields of an entry of each class, read before the whole entry is checked. -/
def decode_fields (obj : List (String × Json)) (entry_class : String) : Except Raised (Option String × Entry) :=
  if entry_class = "genesis" then do
    require_only obj ["class", "previous", "payload", "baseline"] "genesis"
    let previous ← optional_digest (member obj "previous") "previous"
    let payload ← payload_from_obj (member obj "payload") chain_fault "genesis payload"
    let baseline ← surface_from_obj (member obj "baseline") chain_fault "genesis baseline"
    pure (previous, .GenesisEntry { payload, baseline })
  else if entry_class = "registered" then do
    require_only obj ["class", "previous", "txid", "intent_digest", "consumer_tag", "initial", "final", "fulfills"]
      "registered entry"
    let previous ← optional_digest (member obj "previous") "previous"
    let fulfills ← optional_digest (member obj "fulfills") "registered fulfills"
    let txid ← string_from_obj (member obj "txid") chain_fault "registered txid"
    let intent_digest ← string_from_obj (member obj "intent_digest") chain_fault "registered intent_digest"
    let consumer_tag ← string_from_obj (member obj "consumer_tag") chain_fault "registered consumer_tag"
    let initial ← surface_from_obj (member obj "initial") chain_fault "registered initial"
    let final ← surface_from_obj (member obj "final") chain_fault "registered final"
    pure (previous, .RegisteredEntry { txid, intent_digest, consumer_tag, initial, final, fulfills })
  else if entry_class = "settled" then do
    require_only obj ["class", "previous", "txid", "registration", "outcome"] "settled entry"
    let previous ← optional_digest (member obj "previous") "previous"
    let value ← string_from_obj (member obj "outcome") chain_fault "settled outcome"
    let outcome ← chain_outcome value
    let txid ← string_from_obj (member obj "txid") chain_fault "settled txid"
    let registration ← string_from_obj (member obj "registration") chain_fault "settled registration"
    pure (previous, .SettledEntry { txid, registration, outcome })
  else if entry_class = "intent" then do
    require_only obj ["class", "previous", "payload"] "intent entry"
    let previous ← optional_digest (member obj "previous") "previous"
    let payload ← payload_from_obj (member obj "payload") chain_fault "intent payload"
    pure (previous, .IntentEntry { payload })
  else throw (chain_fault ("unknown chain entry class " ++ py_repr entry_class))

/-- The object that the bytes hold. -/
def load_envelope (data : List UInt8) : Except Raised (List (String × Json)) :=
  match utf8_decode data with
  | none => throw (chain_fault "chain envelope is not valid UTF-8 JSON")
  | some text => match loads text with
    | .error (.duplicate_key key) => throw (chain_fault ("duplicate chain-envelope JSON key " ++ py_repr key))
    | .error .malformed => throw (chain_fault "chain envelope is not valid UTF-8 JSON")
    | .ok (.obj members) => pure members
    | .ok _ => throw (chain_fault "chain envelope must be an object")

def decode_entry (data : List UInt8) : Except Raised (Option String × Entry) := do
  let obj ← load_envelope data
  let entry_class ← string_from_obj (member obj "class") chain_fault "entry class"
  let (previous, entry) ← decode_fields obj entry_class
  let encoded ← entry_obj previous entry chain_fault
  require (canonical_bytes encoded = data) (chain_fault "chain envelope bytes are not canonical")
  pure (previous, entry)

end

def entry_digest [Sha256] (data : List UInt8) : String := Sha256.hexdigest data

end atoms.chain

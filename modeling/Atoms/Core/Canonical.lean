import Atoms.Core.Spec
import Atoms.Library.Json

open atoms.errors atoms.fingerprint atoms.effects atoms.spec checked json

namespace atoms.canonical

/-- `_state_obj` -/
def state_obj : PathState → Json
  | .AbsentState => .obj [("type", .str "absent")]
  | .FileState s => .obj [("type", .str "file"), ("content_hash", .str s.content_hash), ("mode", .int s.mode),
      ("byte_len", .int s.byte_len)]
  | .DirectoryState s => .obj [("type", .str "directory"), ("mode", .int s.mode)]
  | .SymlinkState s => .obj [("type", .str "symlink"), ("target", .str s.target), ("mode", .int s.mode)]

/-- `_effect_obj` -/
def effect_obj : Effect → Json
  | .ReplaceFile e => .obj [("type", .str "ReplaceFile"), ("effect_id", .str e.effect_id), ("path", .str e.path),
      ("pre", state_obj e.pre), ("post", state_obj e.post)]
  | .CreateFileNoClobber e => .obj [("type", .str "CreateFileNoClobber"), ("effect_id", .str e.effect_id),
      ("path", .str e.path), ("post", state_obj e.post)]
  | .DeletePath e => .obj [("type", .str "DeletePath"), ("effect_id", .str e.effect_id), ("path", .str e.path),
      ("pre", state_obj e.pre.state)]
  | .MoveNoClobber e => .obj [("type", .str "MoveNoClobber"), ("effect_id", .str e.effect_id), ("source", .str e.source),
      ("destination", .str e.destination), ("source_pre", state_obj e.source_pre)]
  | .CreateDirectory e => .obj [("type", .str "CreateDirectory"), ("effect_id", .str e.effect_id), ("path", .str e.path),
      ("post", state_obj e.post)]

/-- `_surface_obj` -/
def surface_obj (entry : SurfaceEntry) : Json := .obj [("path", .str entry.path), ("state", state_obj entry.state)]

/-- `_dependency_obj` -/
def dependency_obj (dep : Dependency) : Json := .obj [("before", .str dep.before), ("after", .str dep.after)]

/-- A text, or `None`. -/
def optional_obj (value : Option String) : Json := value.elim .null .str

/-- The set-like fields are sorted here, whatever their order in the spec. -/
def canonical_obj (spec : TransactionSpec) : Json :=
  .obj [("schema_version", .int spec.schema_version), ("consumer_tag", .str spec.consumer_tag),
    ("intent_digest", .str spec.intent_digest),
    ("initial_surface", .arr ((sorted_by SurfaceEntry.path spec.initial_surface).map surface_obj)),
    ("final_surface", .arr ((sorted_by SurfaceEntry.path spec.final_surface).map surface_obj)),
    ("effects", .arr (spec.effects.map effect_obj)),
    ("dependencies", .arr ((spec.dependencies.insertionSort Dependency.le).map dependency_obj)),
    ("fulfills", optional_obj spec.fulfills), ("registered_paths", .arr (spec.registered_paths.map .str))]

def canonical_json (spec : TransactionSpec) : String := dumps false (canonical_obj spec)

def canonical_bytes (spec : TransactionSpec) : List UInt8 := utf8 (canonical_json spec)

/-! Decoding. -/

/-- `_ensure` -/
def ensure (condition : Prop) [Decidable condition] (message : String) : Except AtomsError Unit :=
  require condition (.SpecValidationError message)

/-- `_as_dict` -/
def as_dict (value : Json) (ctx : String) : Except AtomsError (List (String × Json)) :=
  match value with
  | .obj members => pure members
  | _ => throw (.SpecValidationError (ctx ++ " must be an object"))

/-- `_as_list` -/
def as_list (value : Json) (ctx : String) : Except AtomsError (List Json) :=
  match value with
  | .arr items => pure items
  | _ => throw (.SpecValidationError (ctx ++ " must be an array"))

/-- `_as_str` -/
def as_str (value : Json) (ctx : String) : Except AtomsError String :=
  match value with
  | .str text => pure text
  | _ => throw (.SpecValidationError (ctx ++ " must be a string"))

/-- `_as_int`: a boolean is no integer here. -/
def as_int (value : Json) (ctx : String) : Except AtomsError Int :=
  match value with
  | .int number => pure number
  | _ => throw (.SpecValidationError (ctx ++ " must be an integer"))

/-- `obj[name]`, of an object that has the name. -/
def field (obj : List (String × Json)) (name : String) : Json := (obj.lookup name).getD .null

variable [UnicodeData]

/-- `_require_only` -/
def require_only (what : String) (obj : List (String × Json)) (allowed : List String) : Except AtomsError Unit := do
  allowed.forM fun name => ensure (name ∈ obj.map Prod.fst) (what ++ " is missing field " ++ py_repr name)
  let labels := sorted_by id (((obj.map Prod.fst).filter fun name => name ∉ allowed).map py_repr)
  ensure (labels = []) (what ++ " has unexpected field(s): " ++ repr_list labels)

/-- `_decode_discriminator` -/
def decode_discriminator (obj : List (String × Json)) (ctx kind : String) (variants : List String) :
    Except AtomsError String := do
  ensure ("type" ∈ obj.map Prod.fst) (ctx ++ " is missing field 'type'")
  let tag ← as_str (field obj "type") (ctx ++ " " ++ kind ++ " discriminator")
  ensure (tag ∈ variants) (ctx ++ ": unknown " ++ kind ++ " discriminator: " ++ py_repr tag)
  pure tag

/-- The keys of `_STATE_SPEC`. -/
def state_tags : List String := ["absent", "file", "directory", "symlink"]

/-- The fields of a state, by its discriminator. -/
def decode_state_fields (obj : List (String × Json)) (ctx tag : String) : Except AtomsError PathState :=
  if tag = "absent" then do
    require_only (ctx ++ " state " ++ tag) obj ["type"]
    pure .AbsentState
  else if tag = "file" then do
    require_only (ctx ++ " state " ++ tag) obj ["type", "content_hash", "mode", "byte_len"]
    let content_hash ← as_str (field obj "content_hash") (ctx ++ ".content_hash")
    let mode ← as_int (field obj "mode") (ctx ++ ".mode")
    let byte_len ← as_int (field obj "byte_len") (ctx ++ ".byte_len")
    pure (.FileState { content_hash, mode, byte_len })
  else if tag = "directory" then do
    require_only (ctx ++ " state " ++ tag) obj ["type", "mode"]
    let mode ← as_int (field obj "mode") (ctx ++ ".mode")
    pure (.DirectoryState { mode })
  else do
    require_only (ctx ++ " state " ++ tag) obj ["type", "target", "mode"]
    let target ← as_str (field obj "target") (ctx ++ ".target")
    let mode ← as_int (field obj "mode") (ctx ++ ".mode")
    pure (.SymlinkState { target, mode })

/-- `_decode_state` -/
def decode_state (value : Json) (ctx : String) : Except AtomsError PathState := do
  let obj ← as_dict value ctx
  let tag ← decode_discriminator obj ctx "path-state" state_tags
  decode_state_fields obj ctx tag

def as_file : PathState → Option FileState
  | .FileState state => some state
  | _ => none

def as_directory : PathState → Option DirectoryState
  | .DirectoryState state => some state
  | _ => none

def as_deletable : PathState → Option DeletableState
  | .FileState state => some (.FileState state)
  | .SymlinkState state => some (.SymlinkState state)
  | _ => none

/-- A state field of an effect, which may hold only the states that `hold` takes. -/
def decode_state_field {α : Type} (hold : PathState → Option α) (obj : List (String × Json)) (ctx tag name : String) :
    Except AtomsError α := do
  let state ← decode_state (field obj name) (ctx ++ "." ++ name)
  match hold state with
  | some held => pure held
  | none => throw (.SpecValidationError (ctx ++ " effect " ++ tag ++ " field " ++ py_repr name ++ " may not hold a " ++
      state.type_name))

/-- The keys of `_EFFECT_SPEC`. -/
def effect_tags : List String :=
  ["ReplaceFile", "CreateFileNoClobber", "DeletePath", "MoveNoClobber", "CreateDirectory"]

/-- The fields of an effect, by its discriminator. -/
def decode_effect_fields (obj : List (String × Json)) (ctx tag : String) : Except AtomsError Effect :=
  if tag = "ReplaceFile" then do
    require_only (ctx ++ " effect " ++ tag) obj ["type", "effect_id", "path", "pre", "post"]
    let effect_id ← as_str (field obj "effect_id") (ctx ++ ".effect_id")
    let path ← as_str (field obj "path") (ctx ++ ".path")
    let pre ← decode_state_field as_file obj ctx tag "pre"
    let post ← decode_state_field as_file obj ctx tag "post"
    pure (.ReplaceFile { effect_id, path, pre, post })
  else if tag = "CreateFileNoClobber" then do
    require_only (ctx ++ " effect " ++ tag) obj ["type", "effect_id", "path", "post"]
    let effect_id ← as_str (field obj "effect_id") (ctx ++ ".effect_id")
    let path ← as_str (field obj "path") (ctx ++ ".path")
    let post ← decode_state_field as_file obj ctx tag "post"
    pure (.CreateFileNoClobber { effect_id, path, post })
  else if tag = "DeletePath" then do
    require_only (ctx ++ " effect " ++ tag) obj ["type", "effect_id", "path", "pre"]
    let effect_id ← as_str (field obj "effect_id") (ctx ++ ".effect_id")
    let path ← as_str (field obj "path") (ctx ++ ".path")
    let pre ← decode_state_field as_deletable obj ctx tag "pre"
    pure (.DeletePath { effect_id, path, pre })
  else if tag = "MoveNoClobber" then do
    require_only (ctx ++ " effect " ++ tag) obj ["type", "effect_id", "source", "destination", "source_pre"]
    let effect_id ← as_str (field obj "effect_id") (ctx ++ ".effect_id")
    let source ← as_str (field obj "source") (ctx ++ ".source")
    let destination ← as_str (field obj "destination") (ctx ++ ".destination")
    let source_pre ← decode_state_field as_file obj ctx tag "source_pre"
    pure (.MoveNoClobber { effect_id, source, destination, source_pre })
  else do
    require_only (ctx ++ " effect " ++ tag) obj ["type", "effect_id", "path", "post"]
    let effect_id ← as_str (field obj "effect_id") (ctx ++ ".effect_id")
    let path ← as_str (field obj "path") (ctx ++ ".path")
    let post ← decode_state_field as_directory obj ctx tag "post"
    pure (.CreateDirectory { effect_id, path, post })

/-- `_decode_effect` -/
def decode_effect (value : Json) (ctx : String) : Except AtomsError Effect := do
  let obj ← as_dict value ctx
  let tag ← decode_discriminator obj ctx "effect" effect_tags
  decode_effect_fields obj ctx tag

def decode_surface_entry (value : Json) (ctx : String) : Except AtomsError SurfaceEntry := do
  let item ← as_dict value ctx
  require_only ctx item ["path", "state"]
  let path ← as_str (field item "path") (ctx ++ ".path")
  let state ← decode_state (field item "state") (ctx ++ ".state")
  pure { path, state }

def decode_dependency (value : Json) (ctx : String) : Except AtomsError Dependency := do
  let item ← as_dict value ctx
  require_only ctx item ["before", "after"]
  let before ← as_str (field item "before") (ctx ++ ".before")
  let after ← as_str (field item "after") (ctx ++ ".after")
  pure { before, after }

omit [UnicodeData] in
/-- The items of an array, each with its place in `key`. -/
def decode_items {α : Type} (decode : Json → String → Except AtomsError α) (value : Json) (key : String) :
    Except AtomsError (List α) := do
  let items ← as_list value key
  items.zipIdx.mapM fun (raw, index) => decode raw (key ++ "[" ++ toString index ++ "]")

omit [UnicodeData] in
def decode_optional (value : Json) (ctx : String) : Except AtomsError (Option String) :=
  match value with
  | .null => pure none
  | _ => do
    let text ← as_str value ctx
    pure (some text)

/-- `_decode_canonical_obj` -/
def from_canonical_obj (obj : Json) : Except AtomsError TransactionSpec := do
  let spec ← as_dict obj "spec"
  require_only "spec" spec ["schema_version", "consumer_tag", "intent_digest", "initial_surface", "final_surface",
    "effects", "dependencies", "fulfills", "registered_paths"]
  let version ← as_int (field spec "schema_version") "schema_version"
  ensure (version = SCHEMA_VERSION) ("unsupported schema_version: " ++ toString version)
  let initial_surface ← decode_items decode_surface_entry (field spec "initial_surface") "initial_surface"
  let final_surface ← decode_items decode_surface_entry (field spec "final_surface") "final_surface"
  let dependencies ← decode_items decode_dependency (field spec "dependencies") "dependencies"
  let effects ← decode_items decode_effect (field spec "effects") "effects"
  let consumer_tag ← as_str (field spec "consumer_tag") "consumer_tag"
  let intent_digest ← as_str (field spec "intent_digest") "intent_digest"
  let fulfills ← decode_optional (field spec "fulfills") "fulfills"
  let registered_paths ← decode_items as_str (field spec "registered_paths") "registered_paths"
  let decoded : TransactionSpec :=
    { schema_version := version, consumer_tag, intent_digest, initial_surface, final_surface, effects, dependencies,
      fulfills, registered_paths }
  validate_v2_members decoded
  pure decoded

def from_canonical_json (text : String) : Except AtomsError TransactionSpec :=
  match loads text with
  | .error (.duplicate_key key) => throw (.SpecValidationError ("duplicate JSON key: " ++ py_repr key))
  | .error .malformed => throw (.SpecValidationError "malformed canonical JSON")
  | .ok parsed => from_canonical_obj parsed

def from_canonical_bytes (data : List UInt8) : Except AtomsError TransactionSpec :=
  match utf8_decode data with
  | none => throw (.SpecValidationError "canonical bytes are not valid UTF-8")
  | some text => from_canonical_json text

end atoms.canonical

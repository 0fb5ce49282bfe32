import Atoms.Core.Compiler.Trie

open atoms.errors atoms.fingerprint atoms.effects atoms.identifiers atoms.paths atoms.spec atoms.timeline checked keyed

namespace atoms.compiler

/-- SHA-256 of the empty byte string. A zero-length file must carry exactly this hash. -/
def EMPTY_CONTENT_HASH : String := "sha256:e3b0c44298fc1c149afbf4c8996fb92427ae41e4649b934ca495991b7852b855"

def MAX_MODE : Int := 0o7777
def MAX_SQLITE_INTEGER : Int := 0x7fffffffffffffff

/-- `effects[index]` in a context label. -/
def effect_label (index : Nat) : String := "effects[" ++ toString index ++ "]"

/-- `label[index].field` for every entry of a surface. -/
def surface_labels {α : Type} (label field : String) (get : SurfaceEntry → α) (surface : List SurfaceEntry) :
    List (α × String) :=
  surface.zipIdx.map fun (entry, index) => (get entry, label ++ "[" ++ toString index ++ "]." ++ field)

/-- The state-valued fields of an effect, by name. -/
def state_fields : Effect → List (PathState × String)
  | .ReplaceFile e => [(e.pre, "pre"), (e.post, "post")]
  | .CreateFileNoClobber e => [(e.post, "post")]
  | .DeletePath e => [(e.pre.state, "pre")]
  | .MoveNoClobber e => [(e.source_pre, "source_pre")]
  | .CreateDirectory e => [(e.post, "post")]

/-- The path-valued fields of an effect, by name. -/
def path_fields : Effect → List (RelPath × String)
  | .ReplaceFile e => [(e.path, "path")]
  | .CreateFileNoClobber e => [(e.path, "path")]
  | .DeletePath e => [(e.path, "path")]
  | .MoveNoClobber e => [(e.source, "source"), (e.destination, "destination")]
  | .CreateDirectory e => [(e.path, "path")]

/-- Every path state reachable from the spec, each with a context label. -/
def every_state (spec : TransactionSpec) : List (PathState × String) :=
  surface_labels "initial_surface" "state" SurfaceEntry.state spec.initial_surface ++
  surface_labels "final_surface" "state" SurfaceEntry.state spec.final_surface ++
  spec.effects.zipIdx.flatMap fun (effect, index) =>
    (state_fields effect).map fun (state, field) => (state, effect_label index ++ "." ++ field)

/-- Every declared path with a context label, in a deterministic order. -/
def declared_paths (spec : TransactionSpec) : List (RelPath × String) :=
  surface_labels "initial_surface" "path" SurfaceEntry.path spec.initial_surface ++
  surface_labels "final_surface" "path" SurfaceEntry.path spec.final_surface ++
  spec.effects.zipIdx.flatMap fun (effect, index) =>
    (path_fields effect).map fun (path, field) => (path, effect_label index ++ "." ++ field)

variable [UnicodeData]

def phase1_structure (spec : TransactionSpec) : Except AtomsError Unit := do
  require (spec.schema_version = SCHEMA_VERSION)
    (.SpecValidationError ("unsupported schema_version; expected " ++ toString SCHEMA_VERSION))
  require_valid_identifier "consumer_tag" spec.consumer_tag
  require (is_sha256_digest spec.intent_digest) (.SpecValidationError
    ("intent_digest " ++ py_repr spec.intent_digest ++ " must match sha256:<64 lowercase hex>"))
  require (spec.effects ≠ []) (.SpecValidationError "spec must declare at least one effect")

def require_mode (what : String) (mode : Int) : Except AtomsError Unit :=
  require (0 ≤ mode ∧ mode ≤ MAX_MODE)
    (.SpecValidationError (what ++ ".mode must be permission bits in 0..0o7777"))

def require_fingerprint (what : String) : PathState → Except AtomsError Unit
  | .AbsentState => .ok ()
  | .FileState s => do
    require (is_sha256_digest s.content_hash) (.SpecValidationError
      (what ++ ".content_hash " ++ py_repr s.content_hash ++ " must match sha256:<64 lowercase hex>"))
    require (0 ≤ s.byte_len ∧ s.byte_len ≤ MAX_SQLITE_INTEGER)
      (.SpecValidationError (what ++ ".byte_len must be in 0..2**63 - 1"))
    require (s.content_hash = EMPTY_CONTENT_HASH ↔ s.byte_len = 0) (.SpecValidationError
      (what ++ " is inconsistent: byte_len 0 requires the empty-content hash and vice versa"))
    require_mode what s.mode
  | .DirectoryState s => require_mode what s.mode
  | .SymlinkState s => do
    require (s.target ≠ "") (.SpecValidationError (what ++ ".target may not be empty"))
    require (Char.ofNat 0 ∉ s.target.toList) (.SpecValidationError (what ++ ".target contains a NUL byte"))
    require_mode what s.mode

def phase2_fingerprints (spec : TransactionSpec) : Except AtomsError Unit := do
  (every_state spec).forM fun (state, what) => require_fingerprint what state
  spec.effects.zipIdx.forM fun (effect, index) => match effect with
    | .CreateDirectory e => require (bit_and e.post.mode 0o700 = 0o700) (.SpecValidationError
        (effect_label index ++ ".post.mode must grant owner read, write, and execute"))
    | .CreateFileNoClobber e => require (bit_and e.post.mode 0o400 = 0o400) (.SpecValidationError
        (effect_label index ++ ".post.mode must grant owner read access"))
    | .ReplaceFile e => require (bit_and e.post.mode 0o400 = 0o400) (.SpecValidationError
        (effect_label index ++ ".post.mode must grant owner read access"))
    | _ => .ok ()

def phase3_path_grammar (spec : TransactionSpec) : Except AtomsError Unit :=
  (declared_paths spec).forM fun (path, what) => require_rel_path what path

/-- `first_seen.setdefault(key(name), name)`, where `seen` are the names stored so far in order. -/
def first_seen (seen : List String) (name : String) : String :=
  (seen.find? fun earlier => portability_equivalence_key earlier = portability_equivalence_key name).getD name

def require_unaliased_paths : List RelPath → List RelPath → Except AtomsError Unit
  | _, [] => .ok ()
  | seen, path :: rest => do
    require (first_seen seen path = path) (.SpecValidationError ("declared paths " ++
      py_repr (first_seen seen path) ++ " and " ++ py_repr path ++ " alias one another under Unicode " ++
      "caseless matching; they may name a single entry on a case- or normalization-insensitive volume"))
    require_unaliased_paths (seen ++ [path]) rest

def phase4_alias_distinctness (spec : TransactionSpec) : Except AtomsError Unit :=
  require_unaliased_paths [] (sorted_by id ((declared_paths spec).map Prod.fst).dedup)

def phase5_variant_shapes (spec : TransactionSpec) : Except AtomsError Unit :=
  spec.effects.zipIdx.forM fun (effect, index) => do
    require_valid_identifier (effect_label index ++ ".effect_id") effect.effect_id
    match effect with
    | .MoveNoClobber e => require (e.source ≠ e.destination) (.SpecValidationError (effect_label index ++
        " moves " ++ py_repr e.source ++ " onto itself; source and destination must differ"))
    | _ => .ok ()

def require_unique_ids : List String → List String → Except AtomsError Unit
  | _, [] => .ok ()
  | seen, effect_id :: rest => do
    require (effect_id ∉ seen) (.SpecValidationError ("duplicate effect_id: " ++ py_repr effect_id))
    require (first_seen seen effect_id = effect_id) (.SpecValidationError ("portability-equivalent effect_id values " ++
      py_repr (first_seen seen effect_id) ++ " and " ++ py_repr effect_id ++ " would generate aliasing scratch leaves"))
    require_unique_ids (seen ++ [effect_id]) rest

def phase6_unique_effect_ids (spec : TransactionSpec) : Except AtomsError Unit :=
  require_unique_ids [] (spec.effects.map Effect.effect_id)

def require_dependencies (order : List String) : List Dependency → List (Dependency × Nat) → Except AtomsError Unit
  | _, [] => .ok ()
  | seen, (dependency, index) :: rest => do
    let what := "dependencies[" ++ toString index ++ "]"
    [dependency.before, dependency.after].forM fun endpoint =>
      require (endpoint ∈ order) (.SpecValidationError (what ++ " names unknown effect " ++ py_repr endpoint))
    require (dependency.before ≠ dependency.after) (.SpecValidationError
      (what ++ " makes effect " ++ py_repr dependency.before ++ " depend on itself"))
    require (dependency ∉ seen) (.SpecValidationError
      ("duplicate dependency: " ++ py_repr dependency.before ++ " -> " ++ py_repr dependency.after))
    require (order.idxOf dependency.before < order.idxOf dependency.after) (.SpecValidationError
      (what ++ " requires " ++ py_repr dependency.before ++ " before " ++ py_repr dependency.after ++
        ", but the authoritative effect order places it after"))
    require_dependencies order (seen ++ [dependency]) rest

def phase7_dependencies (spec : TransactionSpec) : Except AtomsError Unit :=
  require_dependencies (spec.effects.map Effect.effect_id) [] spec.dependencies.zipIdx

def require_distinct_entries (label : String) : List RelPath → List SurfaceEntry → Except AtomsError Unit
  | _, [] => .ok ()
  | seen, entry :: rest => do
    require (entry.path ∉ seen)
      (.SpecValidationError (label ++ " declares a duplicate path: " ++ py_repr entry.path))
    require_distinct_entries label (seen ++ [entry.path]) rest

def phase8_surface_shape (spec : TransactionSpec) : Except AtomsError Unit := do
  require_distinct_entries "initial_surface" [] spec.initial_surface
  require_distinct_entries "final_surface" [] spec.final_surface

def phase9_registration (spec : TransactionSpec) : Except AtomsError Unit := validate_v2_members spec

/-- `_surface_map`: the state that a surface declares for a path. -/
def surface_map (surface : List SurfaceEntry) (path : RelPath) : Option PathState :=
  (find_key SurfaceEntry.path surface path).map SurfaceEntry.state

def require_coverage (effect_paths : List RelPath) (label : String) (surface : List SurfaceEntry) :
    Except AtomsError Unit := do
  let declared := surface.map SurfaceEntry.path
  let undeclared := sorted_by id (effect_paths.filter fun path => path ∉ declared)
  require (undeclared = []) (.SpecValidationError (label ++ " omits " ++ toString undeclared.length ++
    " path(s) that an effect mutates: " ++ repr_list undeclared))
  let untouched := sorted_by id (declared.dedup.filter fun path => path ∉ effect_paths)
  require (untouched = []) (.SpecValidationError (label ++ " declares " ++ toString untouched.length ++
    " path(s) that no effect mutates: " ++ repr_list untouched))

def phase10_coverage (timelines : List PathTimeline) (spec : TransactionSpec) : Except AtomsError Unit := do
  require_coverage (timelines.map PathTimeline.path) "initial_surface" spec.initial_surface
  require_coverage (timelines.map PathTimeline.path) "final_surface" spec.final_surface

def phase11_endpoints (timelines : List PathTimeline) (spec : TransactionSpec) : Except AtomsError Unit :=
  timelines.forM fun timeline =>
    match timeline.occurrences.head?, timeline.occurrences.getLast?,
      surface_map spec.initial_surface timeline.path, surface_map spec.final_surface timeline.path with
    | some first, some last, some initial, some final => do
      require (first.pre = initial) (.SpecValidationError ("path " ++ py_repr timeline.path ++
        " declares an initial state of " ++ initial.py_repr ++ " but effect " ++ py_repr first.effect_id ++
        " expects " ++ first.pre.py_repr))
      require (last.post = final) (.SpecValidationError ("path " ++ py_repr timeline.path ++
        " declares a final state of " ++ final.py_repr ++ " but effect " ++ py_repr last.effect_id ++
        " leaves it " ++ last.post.py_repr))
    -- A timeline has an occurrence, and phase 10 has found its path in both surfaces.
    | _, _, _, _ => throw (.SpecValidationError "unreachable")

/-- Sort the set-like fields. Effect order is authoritative and never changed. -/
def canonicalize (spec : TransactionSpec) : TransactionSpec :=
  { spec with
    initial_surface := sorted_by SurfaceEntry.path spec.initial_surface
    final_surface := sorted_by SurfaceEntry.path spec.final_surface
    dependencies := spec.dependencies.insertionSort Dependency.le }

end atoms.compiler

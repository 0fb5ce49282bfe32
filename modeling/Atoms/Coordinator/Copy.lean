import Atoms.Coordinator.Register

open atoms.errors atoms.fingerprint atoms.identifiers atoms.paths atoms.spec atoms.fs atoms.store atoms.chain checked json
  crash

namespace atoms.coordinator

/-! The copies of a root: replicas and forks. -/

structure DestinationOverride where
  path : String
  payload : List UInt8
  mode : Int

def require_source_head (value : Json) : Except Raised String :=
  match value with
  | .str head => do
    require (is_hex_digest head)
      (.AtomsError (.PreconditionRefused "expected_source_head must be 64 lowercase hexadecimal characters"))
    pure head
  | _ => throw (.AtomsError (.ProtocolError "expected_source_head must be an exact str"))

/-- One override of `require_overrides`. -/
def require_override [UnicodeData] (override : DestinationOverride) : Except Raised Unit := do
  match require_rel_path "override path" override.path with
  | .error caught => throw (.AtomsError (.PreconditionRefused (error_text caught)))
  | .ok _ => pure ()
  require (0 ≤ override.mode ∧ override.mode ≤ 0o7777)
    (.AtomsError (.PreconditionRefused "override modes must be in 0..0o7777"))

def require_overrides [UnicodeData] (overrides : List DestinationOverride) : Except Raised Unit := do
  let paths := overrides.map DestinationOverride.path
  require (paths = sorted_by id paths) (.AtomsError (.PreconditionRefused "dest_overrides must be sorted by path"))
  require paths.Nodup (.AtomsError (.PreconditionRefused "dest_overrides must be duplicate-free"))
  overrides.forM require_override
  paths.forM fun path => paths.forM fun other =>
    require (other = path ∨ ¬ starts_with (path ++ "/") other) (.AtomsError (.PreconditionRefused
      ("override path " ++ py_repr path ++ " is an ancestor of " ++ py_repr other)))

/-! The copy of a tree. -/

/-- The descriptors of the directories that are open, by their components, the last one first. -/
abbrev Directories.Cache := List (List String × Inode)

/-- `directory_fd`, for the components of a path, the last one first. -/
def directory_fd (root_fd : Inode) (cache : Directories.Cache) : List String → Call (Inode × Directories.Cache)
  | [] => pure (root_fd, cache)
  | leaf :: parent => match cache.lookup (leaf :: parent) with
    | some fd => pure (fd, cache)
    | none => do
      let (parent_fd, cache) ← directory_fd root_fd cache parent
      let fd ← open_child_directory parent_fd leaf
      pure (fd, (leaf :: parent, fd) :: cache)

/-- The locals of `_copy_tree`. -/
structure CopyState where
  source_dirs : Directories.Cache
  dest_dirs : Directories.Cache
  changed : List Inode
  missing : List String
  missing_prefixes : List String

/-- `changed[fd] = None` -/
def CopyState.change (state : CopyState) (fd : Inode) : CopyState :=
  { state with changed := if fd ∈ state.changed then state.changed else state.changed ++ [fd] }

/-- A path that the destination does not have. -/
def CopyState.miss (copy : CopyState) (path : String) (state : PathState) : CopyState :=
  match state with
  | .DirectoryState _ =>
    { copy with missing := copy.missing ++ [path], missing_prefixes := copy.missing_prefixes ++ [path] }
  | _ => { copy with missing := copy.missing ++ [path] }

section

variable [UnicodeData] [Sha256]

/-- The bytes are those that the state of a file names. -/
def has_state_content (content : List UInt8) (state : FileState) : Bool :=
  "sha256:" ++ Sha256.hexdigest content = state.content_hash ∧ (content.length : Int) = state.byte_len

omit [Sha256] in
/-- `raise RootOperationInvalid(...)` unless a destination entry is as the snapshot has it. -/
def require_retained (condition : Prop) [Decidable condition] (path : String) : Call Unit :=
  lift (require_valid condition ("destination entry " ++ py_repr path ++ " contradicts the retained snapshot"))

omit [Sha256] in
def outside_vocabulary (path : String) : Raised :=
  .AtomsError (.RootOperationInvalid ("snapshot entry " ++ py_repr path ++ " is outside the closed vocabulary"))

/-- `source_bytes`, of a name in an open directory of the source. -/
def source_bytes (parent_fd : Inode) (leaf path : String) (expected : FileState) : Call (List UInt8) := do
  let fd ← open_regular_nofollow parent_fd leaf
  let content ← read_all fd
  lift (require_valid (has_state_content content expected)
    ("source entry " ++ py_repr path ++ " no longer matches the retained snapshot"))
  pure content

/-- `verify_existing` -/
def verify_existing (parent_fd : Inode) (leaf path : String) (kind : Kind) (mode : Nat) : PathState → Call Unit
  | .DirectoryState state => require_retained (kind = .directory ∧ (mode : Int) = state.mode) path
  | .SymlinkState state => match kind with
    | .symlink _ => do
      let target ← readlink parent_fd leaf
      require_retained (target = state.target) path
    | _ => require_retained False path
  | .FileState state => do
    require_retained (kind = .file ∧ (mode : Int) = state.mode) path
    let fd ← open_regular_nofollow parent_fd leaf
    let content ← read_all fd
    require_retained (has_state_content content state) path
  | .AbsentState => throw (outside_vocabulary path)

/-- The creation of an entry that the destination does not have. -/
def create_entry (source_root_fd : Inode) (copy : CopyState) (parent_fd : Inode) (parent : List String) (leaf path : String)
    (state : PathState) : Call CopyState :=
  match state with
  | .DirectoryState state => do
    mkdir_child parent_fd leaf state.mode.toNat
    let fd ← open_child_directory parent_fd leaf
    set_mode fd state.mode.toNat
    pure (({ copy with dest_dirs := (leaf :: parent, fd) :: copy.dest_dirs }.change fd).change parent_fd)
  | .SymlinkState state => do
    symlink_child parent_fd leaf state.target
    pure (copy.change parent_fd)
  | .FileState state => do
    let (source_fd, source_dirs) ← directory_fd source_root_fd copy.source_dirs parent
    let content ← source_bytes source_fd leaf path state
    let fd ← create_exclusive parent_fd leaf state.mode.toNat
    write_all fd content.length content
    set_mode fd state.mode.toNat
    flush_file fd
    pure ({ copy with source_dirs }.change parent_fd)
  | .AbsentState => throw (outside_vocabulary path)

/-- One turn of the loop of `_copy_tree`. -/
def copy_entry (source_root_fd : Option Inode) (dest_root_fd : Inode) (copy : CopyState) (entry : String × PathState) :
    Call CopyState := do
  let (path, state) := entry
  let parent := (components path).dropLast
  if joined parent ∈ copy.missing_prefixes then pure (copy.miss path state)
  else do
    let leaf := (components path).getLast?.getD ""
    let (parent_fd, dest_dirs) ← directory_fd dest_root_fd copy.dest_dirs parent.reverse
    let copy := { copy with dest_dirs }
    let info ← stat_child parent_fd leaf
    match info with
    | some (kind, mode) => do
      verify_existing parent_fd leaf path kind mode state
      pure copy
    | none => match source_root_fd with
      | none => pure (copy.miss path state)
      | some source_root_fd => create_entry source_root_fd copy parent_fd parent.reverse leaf path state

/-- `_copy_tree`: the paths that are missing, where there is no source to create them from. -/
def copy_tree (source_root_fd : Option Inode) (dest_root_fd : Inode) (entries : List (String × PathState)) :
    Call (List String) := do
  let copy ← entries.foldlM (copy_entry source_root_fd dest_root_fd)
    { source_dirs := [], dest_dirs := [], changed := [], missing := [], missing_prefixes := [] }
  copy.changed.forM flush_directory
  pure copy.missing

/-! The construction of a fork. -/

/-- One turn of the loop of `_apply_overrides`. A write that takes nothing, on which the loop over the payload would
stay, ends it. -/
def apply_override (dest_root_fd : Inode) (override : DestinationOverride) : Call Unit := do
  let leaf := (components override.path).getLast?.getD ""
  let parent_fd ← (components override.path).dropLast.foldlM open_child_directory dest_root_fd
  let info ← stat_child parent_fd leaf
  let applied ← match info with
    | none => pure false
    | some (kind, mode) =>
      if kind ≠ .file then throw (.AtomsError (.PreconditionRefused
        ("override target " ++ py_repr override.path ++ " is not absent or a regular file")))
      else do
        let fd ← open_regular_nofollow parent_fd leaf
        let existing ← read_all fd
        if existing = override.payload ∧ (mode : Int) = override.mode then pure true
        else do
          unlink_child parent_fd leaf
          pure false
  if applied then pure ()
  else do
    let fd ← create_exclusive parent_fd leaf override.mode.toNat
    write_all fd override.payload.length override.payload
    set_mode fd override.mode.toNat
    flush_file fd
    flush_directory parent_fd

/-- What a fork is given beside the roots. -/
structure ForkArguments where
  expected_source_head : String
  genesis_payload : List UInt8
  surface_paths : List String
  overrides : List DestinationOverride

/-- The genesis carries the payload of the fork. -/
def carries_payload (genesis_payload : List UInt8) : chain.Entry → Bool
  | .GenesisEntry genesis => genesis.payload = genesis_payload
  | _ => false

/-- `_finish_fork_construction` -/
def finish_fork_construction (fork : ForkArguments) (dest_root_fd : Inode) : Call String := do
  let chain_fd ← bootstrap_chain dest_root_fd
  let validated ← validate_chain chain_fd []
  lift (require_valid (validated.survivor = none) "the claimed destination chain carries a staging survivor")
  match validated.entries with
  | (digest, genesis) :: rest => do
    lift (require_valid (carries_payload fork.genesis_payload genesis ∧ rest = [])
      "the claimed destination chain contradicts the retained fork operation")
    pure digest
  | [] => do
    fork.overrides.forM (apply_override dest_root_fd)
    let baseline ← capture_baseline dest_root_fd fork.surface_paths
    append_entry chain_fd validated (.GenesisEntry { payload := fork.genesis_payload, baseline })

/-! The copy operation. -/

/-- The arguments of a copy in canonical spelling, the machine that it runs on, and where the destination lies; it is a
replica unless it is given what a fork is given. -/
structure CopyArguments where
  source_root : String
  source_metadata_root : String
  dest_root : String
  dest_metadata_root : String
  storage : StorageProfile
  fork : Option ForkArguments
  machine_id : String
  dest_parent_fd : Inode
  dest_leaf : String

/-- `_CopyPlan`, of which the head of the source and the operation are known. -/
structure CopyPlan where
  args : CopyArguments
  source_head : String
  operation_id : String

def CopyArguments.kind (args : CopyArguments) : RootOperationKind := if args.fork.isSome then .fork else .replicate

/-- `replicate_request`, `fork_request` -/
def CopyArguments.request_obj (args : CopyArguments) (source_head : String) : Json :=
  let roots := [("source_root", Json.str args.source_root), ("source_metadata_root", .str args.source_metadata_root),
    ("dest_root", .str args.dest_root), ("dest_metadata_root", .str args.dest_metadata_root),
    ("storage_profile", .obj [("profile_id", .str args.storage.profile_id)])]
  match args.fork with
  | none => .obj ([("domain", .str OPERATION_DOMAIN), ("kind", .str "replicate")] ++ roots ++
      [("source_head", .str source_head)])
  | some fork => .obj ([("domain", .str OPERATION_DOMAIN), ("kind", .str "fork")] ++ roots ++
      [("expected_source_head", .str source_head), ("genesis_payload_b64", payload_obj fork.genesis_payload),
       ("surface_paths", .arr (fork.surface_paths.map .str)),
       ("dest_overrides", .arr (fork.overrides.map fun override => .obj
         [("path", .str override.path), ("payload_b64", payload_obj override.payload), ("mode", .int override.mode)]))])

namespace CopyPlan

def request_obj (plan : CopyPlan) : Json := plan.args.request_obj plan.source_head

def request (plan : CopyPlan) : Except Raised OperationRequest := OperationRequest.of plan.request_obj

def claim (plan : CopyPlan) : Except Raised (List UInt8) := do
  let request ← plan.request
  encode_claim plan.operation_id request

def final_state (plan : CopyPlan) : RootLifecycleState :=
  match plan.args.kind with
  | .fork => .writable
  | _ => .read_only_unserviceable

end CopyPlan

/-- What the lease of the source yields. -/
structure CopySource where
  root_fd : Inode
  tip : String

/-- `_verify_copy_row` -/
def verify_copy_row (plan : CopyPlan) (row : RootOperationRow) : Except Raised Unit := do
  let request ← plan.request
  require (row.kind = plan.args.kind ∧ row.request_json = request.operation_json)
    (.AtomsError (.RootOperationMismatch "the recorded destination operation is not this request"))
  require (row.operation_id = plan.operation_id)
    (.AtomsError (.RootOperationMismatch "the root claim and the recorded operation disagree"))

/-- `_stamp_copy_destination` -/
def stamp_copy_destination (plan : CopyPlan) : Rooted Unit := do
  let request ← in_root (lift plan.request)
  commit_tables fun tables => do
    let tables ← tables.insert_root_operation plan.operation_id plan.args.kind request.operation_json request.operation_hash
    tables.insert_root_lifecycle .read_only_unserviceable plan.args.machine_id plan.args.dest_root plan.args.kind.origin

/-- The paths that a copy may have written. -/
def expected_paths (args : CopyArguments) (source_paths : List String) (genesis_digest : Option String) : List String :=
  match args.fork with
  | none => source_paths
  | some fork => source_paths.filter (fun path => (components path).head? ≠ some CHAIN_LEAF) ++
      fork.overrides.map DestinationOverride.path ++ CHAIN_LEAF :: (genesis_digest.map (CHAIN_LEAF ++ "/" ++ ·)).toList

/-- `_prove_destination` -/
def prove_destination (depth : Nat) (plan : CopyPlan) (dest_root_fd : Inode) (source_paths : List String)
    (genesis_digest : Option String) : Call Snapshot := do
  let chain_head := if plan.args.fork.isSome then genesis_digest.getD "" else plan.source_head
  let snapshot ← tree_snapshot depth dest_root_fd chain_head false
  let paths := snapshot.entries.map Prod.fst
  let expected := expected_paths plan.args source_paths genesis_digest
  let extras := paths.filter fun path => path ∉ expected
  let missing := expected.filter fun path => path ∉ paths
  lift (require_valid (extras = [] ∧ missing = []) ("the destination tree does not match this operation: extra " ++
    repr_list (sorted_by id extras.dedup) ++ ", missing " ++ repr_list (sorted_by id missing.dedup)))
  pure snapshot

/-- `row = store.read_root_operation()` and `assert row is not None`; the tables never fail it. -/
def operation_row : Rooted RootOperationRow := do
  let row ← read_root_operation
  match row with
  | some row => pure row
  | none => throw .KeyError

/-- The proof that a row carries in its phase; the checks of the table never fail it. -/
def proof_of (snapshot : Option Snapshot) : Rooted Snapshot :=
  match snapshot with
  | some snapshot => pure snapshot
  | none => throw .KeyError

/-- The row of the operation of a copy, stamped where there is none. -/
def stamped_row (plan : CopyPlan) : Rooted RootOperationRow := do
  let row ← read_root_operation
  match row with
  | none => do
    stamp_copy_destination plan
    operation_row
  | some row => do
    in_root (lift (verify_copy_row plan row))
    pure row

/-- The phase `recorded` of `_advance_copy`. -/
def take_source_snapshot (depth : Nat) (plan : CopyPlan) (source : Option CopySource) : Rooted Unit :=
  match source with
  | none => throw .NeedsSource
  | some source => do
    let snapshot ← in_root (tree_snapshot depth source.root_fd plan.source_head plan.args.fork.isSome)
    commit_tables fun tables => tables.set_root_operation_source_snapshot snapshot

/-- The tree of the destination: the copy of the snapshot, and what a fork adds to it. -/
def construct_destination (args : CopyArguments) (source : Option CopySource) (dest_root_fd : Inode)
    (entries : List (String × PathState)) : Call (Option String) := do
  let missing ← copy_tree (source.map CopySource.root_fd) dest_root_fd entries
  if missing = [] then
    match args.fork with
    | none => pure none
    | some fork => do
      let digest ← finish_fork_construction fork dest_root_fd
      pure (some digest)
  else throw .NeedsSource

/-- The phase `source-snapshot-durable` of `_advance_copy`. -/
def copy_destination (depth : Nat) (plan : CopyPlan) (source : Option CopySource) (dest_root_fd : Inode)
    (row : RootOperationRow) : Rooted Unit := do
  let snapshot ← proof_of row.source_snapshot
  let genesis_digest ← in_root (construct_destination plan.args source dest_root_fd snapshot.entries)
  let proof ← in_root (prove_destination depth plan dest_root_fd (snapshot.entries.map Prod.fst) genesis_digest)
  in_root (flush_directory dest_root_fd)
  commit_tables fun tables => tables.set_root_operation_tree_proof proof genesis_digest

/-- The phase `tree-durable` of `_advance_copy`. -/
def grant_destination (depth : Nat) (plan : CopyPlan) (dest_root_fd : Inode) (row : RootOperationRow) : Rooted Unit := do
  let snapshot ← proof_of row.source_snapshot
  let proof ← proof_of row.destination_snapshot
  let reproved ← in_root (prove_destination depth plan dest_root_fd (snapshot.entries.map Prod.fst) row.genesis_digest)
  in_root (lift (require_valid (reproved = proof) "the pre-grant destination tree contradicts its stored proof"))
  let claim ← in_root (lift plan.claim)
  in_root (remove_root_claim dest_root_fd claim)
  complete_root_operation plan.final_state

/-- A phase of `_advance_copy`: what is done in it, and the row that is there after it. -/
def in_phase (phase : RootOperationPhase) (row : RootOperationRow) (body : Rooted Unit) : Rooted RootOperationRow :=
  if row.phase = phase then do
    body
    operation_row
  else pure row

/-- `_advance_copy` -/
def advance_copy (depth : Nat) (plan : CopyPlan) (source : Option CopySource) (dest_root_fd : Inode) : Rooted Unit := do
  let row ← stamped_row plan
  let row ← in_phase .recorded row (take_source_snapshot depth plan source)
  let row ← in_phase .source_snapshot_durable row (copy_destination depth plan source dest_root_fd row)
  if row.phase = .tree_durable then grant_destination depth plan dest_root_fd row else pure ()

/-- `_claimed_destination_lease` -/
def claimed_destination_lease (args : CopyArguments) : Rooted Inode := do
  let dest_root_fd ← in_root (open_child_directory args.dest_parent_fd args.dest_leaf)
  open_store
  pure dest_root_fd

/-- `_publish_claimed_destination`; what fails before the rename takes back the private sibling. -/
def publish_claimed_destination (dest_parent_fd : Inode) (dest_leaf : String) (claim : List UInt8) (operation_id : String) :
    Call Unit := do
  let sibling := ".#~" ++ operation_id ++ ".root-claim"
  tryCatch
    (do
      mkdir_child dest_parent_fd sibling 0o700
      let sibling_fd ← open_child_directory dest_parent_fd sibling
      let fd ← create_exclusive sibling_fd ROOT_CLAIM_LEAF CLAIM_MODE
      write_all fd claim.length claim
      flush_file fd
      flush_directory sibling_fd
      transfer_noclobber dest_parent_fd sibling dest_parent_fd dest_leaf)
    fun caught => do
      unless_os_error do
        let sibling_fd ← open_child_directory dest_parent_fd sibling
        unlink_child sibling_fd ROOT_CLAIM_LEAF
      unless_os_error (rmdir_child dest_parent_fd sibling)
      throw caught
  flush_directory dest_parent_fd
where
  unless_os_error (p : Call Unit) : Call Unit := tryCatch p fun caught => match caught with
    | .OSError _ => pure ()
    | _ => throw caught

/-- The directory of the destination, if there is one. -/
def find_destination (args : CopyArguments) : Call (Option Inode) :=
  tryCatch
    (do
      let fd ← open_child_directory args.dest_parent_fd args.dest_leaf
      pure (some fd))
    fun caught => match caught with
      | .OSError errno => if errno ∈ [.ENOENT, .ENOTDIR] then pure none else throw caught
      | _ => throw caught

/-- `_preflight_claim` -/
def preflight_claim (args : CopyArguments) : Call (Option RootClaim) := do
  let found ← find_destination args
  match found with
  | none => pure none
  | some root_fd => do
    let payload ← read_root_claim root_fd
    match payload with
    | none => pure none
    | some bytes => do
      let claim ← lift (decode_claim bytes)
      pure (some claim)

/-- The object that a recorded request is; every request that the engine records is one. -/
def recorded_request (request_json : String) : Except Raised (List (String × Json)) :=
  match loads request_json with
  | .ok (.obj members) => pure members
  | _ => throw .KeyError

/-- The head of the source that a recorded request names. -/
def adopted_head (args : CopyArguments) (recorded : List (String × Json)) : Except Raised String :=
  match args.fork with
  | none => require_source_head (member recorded "source_head")
  | some fork => pure fork.expected_source_head

/-- `_adopt_claim`; a replica that has not observed a head adopts the one that is recorded. The requests are compared by
their canonical texts, in which the keys of an object are sorted. -/
def adopt_claim (args : CopyArguments) (observed : Option String) (claim : RootClaim) : Except Raised CopyPlan := do
  let recorded ← recorded_request claim.request_json
  let source_head ← match observed with
    | some head => pure head
    | none => adopted_head args recorded
  require (dumps false (args.request_obj source_head) = dumps false (.obj recorded))
    (.AtomsError (.RootOperationMismatch "the destination claim names a different operation request"))
  pure { args, source_head, operation_id := claim.operation_id }

/-- `raise SourceSnapshotMoved(...)` unless the source still has the head. -/
def require_head (expected observed : String) : Except Raised Unit :=
  require (observed = expected)
    (.AtomsError (.SourceSnapshotMoved ("the source head moved: expected " ++ expected ++ ", observed " ++ observed)))

/-- `_finish_with_source` -/
def finish_with_source (depth : Nat) (plan : CopyPlan) (source : Except Raised CopySource) : Rooted Unit := do
  let source ← in_root (lift source)
  in_root (lift (require_head plan.source_head source.tip))
  let dest_root_fd ← claimed_destination_lease plan.args
  let row ← read_root_operation
  match row with
  | none => pure ()
  | some row => in_root (lift (verify_copy_row plan row))
  advance_copy depth plan (some source) dest_root_fd

/-- The plan that a destination is resumed with: the one that its claim gave, or the one that its row gives. -/
def resumed_plan (args : CopyArguments) (claimed : Option CopyPlan) (row : Option RootOperationRow) :
    Except Raised CopyPlan :=
  match row, claimed with
  | none, none => throw (.AtomsError (.PreconditionRefused ("the copy destination " ++ py_repr args.dest_root ++
      " carries neither a claim nor a recorded operation; no-clobber refuses it")))
  | none, some plan => pure plan
  | some row, some plan => do
    verify_copy_row plan row
    pure plan
  | some row, none => do
    let recorded ← recorded_request row.request_json
    let source_head ← adopted_head args recorded
    let plan : CopyPlan := { args, source_head, operation_id := row.operation_id }
    verify_copy_row plan row
    pure plan

/-- `_resume_copy` -/
def resume_copy (depth : Nat) (args : CopyArguments) (claimed : Option CopyPlan) (source : Except Raised CopySource) :
    Rooted String := do
  let dest_root_fd ← claimed_destination_lease args
  let row ← read_root_operation
  let plan ← in_root (lift (resumed_plan args claimed row))
  let needs_source ← tryCatch
    (do
      advance_copy depth plan none dest_root_fd
      pure false)
    fun caught => match caught with
      | .NeedsSource => pure true
      | _ => throw caught
  if needs_source then finish_with_source depth plan source else pure ()
  pure plan.operation_id

/-- The plan of a fresh copy of the source. -/
def fresh_plan (args : CopyArguments) (source : CopySource) (minted : String) : Except Raised CopyPlan :=
  match args.fork with
  | none => pure { args, source_head := source.tip, operation_id := minted }
  | some fork => do
    require_head fork.expected_source_head source.tip
    pure { args, source_head := fork.expected_source_head, operation_id := minted }

/-- The publication of the destination; one that loses the race adopts the claim of the winner. -/
def publish_or_adopt (plan : CopyPlan) (claim : List UInt8) : Call CopyPlan :=
  tryCatch
    (do
      publish_claimed_destination plan.args.dest_parent_fd plan.args.dest_leaf claim plan.operation_id
      pure plan)
    fun caught => match caught with
      | .OSError .EEXIST => do
        let raced ← preflight_claim plan.args
        match raced with
        | none => throw (.AtomsError (.PreconditionRefused ("the copy destination " ++ py_repr plan.args.dest_root ++
          " appeared without a root claim; no-clobber refuses it")))
        | some raced => lift (adopt_claim plan.args (some plan.source_head) raced)
      | _ => throw caught

/-- `_fresh_copy`; `minted` is the identity that a new operation takes. -/
def fresh_copy (depth : Nat) (args : CopyArguments) (source : Except Raised CopySource) (minted : String) :
    Rooted String := do
  let source ← in_root (lift source)
  let plan ← in_root (lift (fresh_plan args source minted))
  let claim ← in_root (lift plan.claim)
  let plan ← in_root (publish_or_adopt plan claim)
  let dest_root_fd ← claimed_destination_lease args
  advance_copy depth plan (some source) dest_root_fd
  pure plan.operation_id

/-- `_copy_root`; `source` is what the lease of the source gives in this call. -/
def copy_root (depth : Nat) (args : CopyArguments) (source : Except Raised CopySource) (minted : String) :
    Rooted String := do
  let claim ← in_root (preflight_claim args)
  match claim with
  | some claim => do
    let plan ← in_root (lift (adopt_claim args none claim))
    resume_copy depth args (some plan) source
  | none => do
    let dest ← in_root (find_destination args)
    match dest with
    | none => fresh_copy depth args source minted
    | some _ => do
      let version ← Prog.read fun state => .ok state.carrier.version
      if version = 0 then throw (.AtomsError (.PreconditionRefused ("the copy destination " ++ py_repr args.dest_root ++
        " is occupied without a root claim; no-clobber refuses it")))
      else resume_copy depth args none source

/-- `replicate_root`, `fork_root` -/
def copy_command (depth : Nat) (args : CopyArguments) (source : Except Raised CopySource) (minted : String) :
    Rooted String := do
  match args.fork with
  | none => pure ()
  | some fork => in_root (lift do
      let _ ← require_source_head (.str fork.expected_source_head)
      validate_registered_surface fork.surface_paths
      require_overrides fork.overrides)
  copy_root depth args source minted

end

end atoms.coordinator

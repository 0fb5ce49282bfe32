import Atoms.Core.Effects
import Atoms.Fs.Disk

open atoms.errors atoms.fingerprint atoms.effects atoms.fs crash

namespace atoms.coordinator

/-- The operations of `_DETERMINATE`. -/
inductive Operation
  | unlink_child | rmdir_child | transfer_noclobber | exchange | link_anchor | create_exclusive | mkdir_child
  | repair_entry_mode | lstat | open_regular_nofollow | symlink_fingerprint | open_child_directory
  deriving DecidableEq

def Operation.name : Operation → String
  | .unlink_child => "unlink_child"
  | .rmdir_child => "rmdir_child"
  | .transfer_noclobber => "transfer_noclobber"
  | .exchange => "exchange"
  | .link_anchor => "link_anchor"
  | .create_exclusive => "create_exclusive"
  | .mkdir_child => "mkdir_child"
  | .repair_entry_mode => "repair_entry_mode"
  | .lstat => "lstat"
  | .open_regular_nofollow => "open_regular_nofollow"
  | .symlink_fingerprint => "symlink_fingerprint"
  | .open_child_directory => "open_child_directory"

/-- `_DETERMINATE`: the errors that leave no doubt that the call changed nothing. -/
def determinate : Operation → List Errno
  | .unlink_child => [.ENOENT, .EISDIR, .EBUSY, .EACCES, .EPERM]
  | .rmdir_child => [.ENOENT, .ENOTDIR, .EBUSY, .EACCES, .EPERM, .ENOTEMPTY, .EEXIST]
  | .transfer_noclobber => [.ENOENT, .EEXIST, .ENOTDIR, .EXDEV, .EBUSY, .EACCES, .EPERM]
  | .exchange => [.ENOENT, .ENOTDIR, .EXDEV, .EBUSY, .EACCES, .EPERM]
  | .link_anchor => [.ENOENT, .EEXIST, .ENOTDIR, .EXDEV, .EACCES, .EPERM]
  | .create_exclusive => [.ENOENT, .EEXIST, .ENOTDIR, .EACCES]
  | .mkdir_child => [.ENOENT, .EEXIST, .ENOTDIR, .EACCES]
  | .repair_entry_mode => [.ENOENT, .ENOTDIR, .EACCES, .EPERM]
  | .lstat => [.ENOENT, .ENOTDIR, .EACCES]
  | .open_regular_nofollow => [.ENOENT, .ENOTDIR, .ELOOP, .EISDIR, .EACCES]
  | .symlink_fingerprint => [.ENOENT, .ENOTDIR, .EINVAL, .EACCES]
  | .open_child_directory => [.ENOENT, .ENOTDIR, .ELOOP, .EXDEV, .EACCES]

def run_determinate {α : Type} (operation : Operation) (slot : String) (passthrough : List Errno) (call : Call α) :
    Call α :=
  tryCatch call fun caught => match caught with
    | .OSError errno =>
      if errno ∉ passthrough ∧ errno ∈ determinate operation then
        throw (.EffectMismatch operation.name slot (some errno))
      else throw caught
    | _ => throw caught

/-- `raise EffectMismatch(operation, slot)` unless `condition` holds. -/
def require_match (condition : Prop) [Decidable condition] (operation slot : String) : Call Unit :=
  if condition then pure () else throw (.EffectMismatch operation slot none)

/-- `_CHUNK` -/
def CHUNK : Nat := 64 * 1024

/-- The writes of one chunk: each takes what it takes of what is left, at most `fuel` times. -/
def write_chunk (dest_fd : Inode) : (fuel : Nat) → List UInt8 → Call Unit
  | _, [] => pure ()
  | 0, _ => throw (.MetadataStoreInvalid "a blob write made no progress")
  | fuel + 1, chunk => do
    let written ← write dest_fd chunk
    if written = 0 then throw (.MetadataStoreInvalid "a blob write made no progress")
    else write_chunk dest_fd fuel (chunk.drop written)

/-- The digest and the length of a content are the ones that a state declares. -/
def has_content [Sha256] (content : List UInt8) (state : FileState) : Bool :=
  "sha256:" ++ Sha256.hexdigest content = state.content_hash ∧ (content.length : Int) = state.byte_len

/-- The contents that the store holds, by digest. -/
abbrev Blobs := String → Option (List UInt8)

def open_blob (blobs : Blobs) (digest : String) : Call (List UInt8) :=
  match blobs digest with
  | some content => pure content
  | none => throw (.AtomsError (.ProtocolError (digest ++ " is not indexed by this store")))

def stream_blob [Sha256] (blobs : Blobs) (state : FileState) (dest_fd : Inode) : Call Unit := do
  let content ← open_blob blobs state.content_hash
  (content.toChunks CHUNK).forM fun chunk => write_chunk dest_fd chunk.length chunk
  if has_content content state then pure ()
  else throw (.MetadataStoreInvalid ("blob produced digest sha256:" ++ Sha256.hexdigest content ++ " and length " ++
    toString content.length ++ ", expected " ++ state.content_hash ++ " and " ++ toString state.byte_len))

def build_staged_file [Sha256] (blobs : Blobs) (parent_fd : Inode) (leaf : String) (state : FileState) : Call Inode := do
  let fd ← run_determinate .create_exclusive leaf [] (create_exclusive parent_fd leaf 0o600)
  stream_blob blobs state fd
  set_mode fd state.mode.toNat
  flush_file fd
  pure fd

def verify_live_file [Sha256] (retained : Entry) (parent_fd : Inode) (leaf : String) (state : FileState) : Call Unit := do
  let live ← run_determinate .lstat leaf [] (lstat parent_fd leaf)
  require_match (live = retained.inode) "verify_identity" leaf
  let content ← read_all retained
  require_match (has_content content state) "verify_content" leaf
  let mode ← fstat_mode retained.inode
  require_match ((mode : Int) = state.mode) "verify_mode" leaf

/-- A descriptor of a regular file. -/
def file_descriptor (inode : Inode) : Entry := ⟨.file, inode⟩

structure ReplaceSite where
  effect_id : String
  parent_fd : Inode
  live_leaf : String
  staging_leaf : String

structure CreateFileSite where
  effect_id : String
  parent_fd : Inode
  live_leaf : String
  staging_leaf : String

structure DeleteSite where
  effect_id : String
  parent_fd : Inode
  live_leaf : String
  tombstone_leaf : String

structure MoveSite where
  effect_id : String
  source_fd : Inode
  source_leaf : String
  anchor_leaf : String
  destination_fd : Inode
  destination_leaf : String

structure MkdirSite where
  effect_id : String
  work_fd : Inode
  work_leaf : String
  parent_fd : Inode
  live_leaf : String

inductive Site
  | ReplaceSite (site : ReplaceSite)
  | CreateFileSite (site : CreateFileSite)
  | DeleteSite (site : DeleteSite)
  | MoveSite (site : MoveSite)
  | MkdirSite (site : MkdirSite)

namespace replace_file

/-- `_verify_displaced_pre` -/
def verify_displaced_pre [Sha256] (site : ReplaceSite) (effect : ReplaceFile) : Call Unit := do
  let displaced_fd ← run_determinate .open_regular_nofollow effect.path []
    (open_regular_nofollow site.parent_fd site.staging_leaf)
  verify_live_file displaced_fd site.parent_fd site.staging_leaf effect.pre

/-- `_exchange_back_if_ours` -/
def exchange_back_if_ours (staged_fd : Inode) (site : ReplaceSite) : Call Unit := do
  let live ← run_determinate .lstat site.live_leaf [] (lstat site.parent_fd site.live_leaf)
  if live ≠ staged_fd then pure ()
  else do
    run_determinate .exchange site.live_leaf [] (exchange site.parent_fd site.live_leaf site.staging_leaf)
    flush_directory site.parent_fd

def apply [Sha256] (blobs : Blobs) (site : ReplaceSite) (effect : ReplaceFile) : Call Unit := do
  let staged_fd ← build_staged_file blobs site.parent_fd site.staging_leaf effect.post
  tryCatch
    (do
      run_determinate .exchange effect.path [] (exchange site.parent_fd site.live_leaf site.staging_leaf)
      verify_live_file (file_descriptor staged_fd) site.parent_fd site.live_leaf effect.post
      verify_displaced_pre site effect
      flush_directory site.parent_fd)
    fun caught => match caught with
      | .EffectMismatch _ _ _ => do
        exchange_back_if_ours staged_fd site
        throw caught
      | _ => throw caught

end replace_file

namespace create_file

/-- `_remove_attributable_staging` -/
def remove_attributable_staging (staged_fd : Inode) (site : CreateFileSite) : Call Unit := do
  let staged ← run_determinate .lstat site.staging_leaf [] (lstat site.parent_fd site.staging_leaf)
  require_match (staged = staged_fd) "staging_identity" site.staging_leaf
  run_determinate .unlink_child site.staging_leaf [] (unlink_child site.parent_fd site.staging_leaf)

def apply [UnicodeData] [Sha256] (blobs : Blobs) (site : CreateFileSite) (effect : CreateFileNoClobber) : Call Unit := do
  let staged_fd ← build_staged_file blobs site.parent_fd site.staging_leaf effect.post
  tryCatch
    (run_determinate .transfer_noclobber effect.path [.EEXIST]
      (transfer_noclobber site.parent_fd site.staging_leaf site.parent_fd site.live_leaf))
    fun caught => match caught with
      | .OSError .EEXIST => do
        remove_attributable_staging staged_fd site
        flush_directory site.parent_fd
        throw (.AtomsError (.PreconditionRefused
          (py_repr effect.path ++ " already exists; CreateFileNoClobber refuses")))
      | _ => throw caught
  verify_live_file (file_descriptor staged_fd) site.parent_fd site.live_leaf effect.post
  flush_directory site.parent_fd

end create_file

namespace delete_path

/-- `_verify_tombstone` -/
def verify_tombstone [Sha256] (site : DeleteSite) : DeletableState → Call Unit
  | .FileState pre => do
    let retained_fd ← run_determinate .open_regular_nofollow site.tombstone_leaf []
      (open_regular_nofollow site.parent_fd site.tombstone_leaf)
    verify_live_file retained_fd site.parent_fd site.tombstone_leaf pre
  | .SymlinkState pre => do
    let (target, mode) ← run_determinate .symlink_fingerprint site.tombstone_leaf []
      (symlink_fingerprint site.parent_fd site.tombstone_leaf)
    require_match (target = pre.target ∧ (mode : Int) = pre.mode) "verify_symlink" site.tombstone_leaf

def apply [Sha256] (site : DeleteSite) (effect : DeletePath) : Call Unit := do
  run_determinate .transfer_noclobber effect.path []
    (transfer_noclobber site.parent_fd site.live_leaf site.parent_fd site.tombstone_leaf)
  tryCatch
    (do
      verify_tombstone site effect.pre
      flush_directory site.parent_fd)
    fun caught => match caught with
      | .EffectMismatch _ _ _ => do
        run_determinate .transfer_noclobber effect.path []
          (transfer_noclobber site.parent_fd site.tombstone_leaf site.parent_fd site.live_leaf)
        flush_directory site.parent_fd
        throw caught
      | _ => throw caught

end delete_path

namespace move

/-- `_remove_anchor_if_ours` -/
def remove_anchor_if_ours (anchor_fd : Entry) (site : MoveSite) : Call Unit := do
  let anchor ← run_determinate .lstat site.anchor_leaf [] (lstat site.source_fd site.anchor_leaf)
  if anchor ≠ anchor_fd.inode then pure ()
  else run_determinate .unlink_child site.anchor_leaf [] (unlink_child site.source_fd site.anchor_leaf)

def apply [Sha256] (site : MoveSite) (effect : MoveNoClobber) : Call Unit := do
  run_determinate .link_anchor effect.source []
    (link_anchor site.source_fd site.source_leaf site.source_fd site.anchor_leaf)
  flush_directory site.source_fd
  let anchor_fd ← run_determinate .open_regular_nofollow site.anchor_leaf []
    (open_regular_nofollow site.source_fd site.anchor_leaf)
  tryCatch (verify_live_file anchor_fd site.source_fd site.anchor_leaf effect.source_pre)
    fun caught => match caught with
      | .EffectMismatch _ _ _ => do
        remove_anchor_if_ours anchor_fd site
        flush_directory site.source_fd
        throw caught
      | _ => throw caught
  run_determinate .transfer_noclobber effect.destination []
    (transfer_noclobber site.source_fd site.source_leaf site.destination_fd site.destination_leaf)
  tryCatch (verify_live_file anchor_fd site.destination_fd site.destination_leaf effect.source_pre)
    fun caught => match caught with
      | .EffectMismatch _ _ _ => do
        run_determinate .transfer_noclobber effect.source []
          (transfer_noclobber site.destination_fd site.destination_leaf site.source_fd site.source_leaf)
        flush_directory site.source_fd
        flush_directory site.destination_fd
        throw caught
      | _ => throw caught
  flush_directory site.destination_fd
  flush_directory site.source_fd

end move

namespace create_directory

/-- `_verify_directory` -/
def verify_directory (retained_fd : Inode) (site : MkdirSite) (effect : CreateDirectory) : Call Unit := do
  let live ← run_determinate .lstat site.live_leaf [] (lstat site.parent_fd site.live_leaf)
  require_match (live = retained_fd) "verify_identity" effect.path
  let mode ← fstat_mode retained_fd
  require_match ((mode : Int) = effect.post.mode) "verify_mode" effect.path
  let names ← listdir retained_fd
  require_match (names = []) "verify_empty" effect.path

/-- `_remove_work_if_ours` -/
def remove_work_if_ours (retained_fd : Inode) (site : MkdirSite) : Call Unit := do
  let work ← run_determinate .lstat site.work_leaf [] (lstat site.work_fd site.work_leaf)
  require_match (work = retained_fd) "work_identity" site.work_leaf
  run_determinate .rmdir_child site.work_leaf [] (rmdir_child site.work_fd site.work_leaf)

def apply [UnicodeData] (site : MkdirSite) (effect : CreateDirectory) (gate : Call Unit) : Call Inode := do
  run_determinate .mkdir_child site.work_leaf [] (mkdir_child site.work_fd site.work_leaf 0o700)
  run_determinate .repair_entry_mode site.work_leaf [] (repair_entry_mode site.work_fd site.work_leaf 0o700 gate)
  let retained_fd ← run_determinate .open_child_directory site.work_leaf []
    (open_child_directory site.work_fd site.work_leaf)
  set_mode retained_fd effect.post.mode.toNat
  flush_file retained_fd
  tryCatch
    (run_determinate .transfer_noclobber effect.path [.EEXIST]
      (transfer_noclobber site.work_fd site.work_leaf site.parent_fd site.live_leaf))
    fun caught => match caught with
      | .OSError .EEXIST => do
        remove_work_if_ours retained_fd site
        flush_directory site.work_fd
        throw (.AtomsError (.PreconditionRefused (py_repr effect.path ++ " already exists; CreateDirectory refuses")))
      | _ => throw caught
  flush_directory site.parent_fd
  verify_directory retained_fd site effect
  flush_directory site.work_fd
  pure retained_fd

end create_directory

end atoms.coordinator

import Atoms.Library.Dict
import Atoms.Store.Workspace

open atoms.errors atoms.identifiers atoms.fs atoms.spec checked keyed crash

namespace atoms.store

def BLOBS_DIRECTORY : String := "blobs"

def SHA256_DIRECTORY : String := "sha256"

def BLOBS_PARENT : String := BLOBS_DIRECTORY ++ "/" ++ SHA256_DIRECTORY

/-- `"sha256:" + hexdigest` of a content. -/
def content_digest [Sha256] (content : List UInt8) : String := "sha256:" ++ Sha256.hexdigest content

/-- `SELECT byte_len FROM blob WHERE digest = ?` -/
def select_blob (db : Database) (digest : String) : Option Int :=
  (find_key BlobRow.digest db.blobs digest).map BlobRow.byte_len

section

variable [UnicodeData]

def require_digest (value : String) : Call Unit :=
  require_asked (is_sha256_digest value) ("digest " ++ py_repr value ++ " is not sha256:<64 lowercase hex>")

def require_component (label value : String) : Call Unit :=
  require_asked (value ≠ "" ∧ value ≠ "." ∧ value ≠ ".." ∧ '/' ∉ value.toList ∧ '\x00' ∉ value.toList)
    (label ++ " " ++ py_repr value ++ " is not a single pathname component")

/-- The name of a digest's leaf. -/
def leaf_of (digest : String) : String := String.ofList (digest.toList.drop 7)

def digest_to_leaf (digest : String) : Call String := do
  require_digest digest
  pure (leaf_of digest)

def leaf_to_digest (leaf : String) : Call String := do
  require_digest ("sha256:" ++ leaf)
  pure ("sha256:" ++ leaf)

def leaf_to_digest_or_refuse (leaf : String) : Call String :=
  tryCatch (leaf_to_digest leaf) fun caught => match caught with
    | .AtomsError (.ProtocolError _) => throw (.MetadataStoreInvalid (BLOBS_PARENT ++ "/" ++ py_repr leaf ++
        " is not a name promotion could have written; leaf names are fixed-width hex by construction"))
    | _ => throw caught

/-- `_blobs_fd` -/
def blobs_fd (metadata_root_fd : Inode) : Call Inode := do
  let blobs_fd ← open_child_directory metadata_root_fd BLOBS_DIRECTORY
  open_child_directory blobs_fd SHA256_DIRECTORY

def open_entry_nofollow (parent_fd : Inode) (name what : String) : Call Entry :=
  tryCatch (open_regular_nofollow parent_fd name) fun caught => match caught with
    | .OSError .ELOOP => throw (.MetadataStoreInvalid (what ++ " is a symlink"))
    | _ => throw caught

variable [Sha256]

/-- The leaf is a regular file with the indexed length and digest. Returns its length. -/
def verify_leaf (fd : Entry) (digest : String) (byte_len : Option Int) : Call Int := do
  require_tree (fd.kind = .file) ("the leaf for " ++ digest ++ " is not a regular file")
  let content ← read_all fd
  require_tree (byte_len = none ∨ byte_len = some (content.length : Int)) ("the leaf for " ++ digest ++ " is " ++
    toString content.length ++ " bytes, the index says " ++ (byte_len.map toString).getD "None")
  require_tree (content_digest content = digest) ("the leaf named " ++ digest ++ " hashes to " ++ content_digest content)
  pure content.length

/-- A leaf whose absence is a fault. -/
def open_leaf (parent : Inode) (leaf digest : String) (absent : Raised) : Call Entry :=
  tryCatch (open_entry_nofollow parent leaf ("the leaf for " ++ digest)) fun caught => match caught with
    | .OSError .ENOENT => throw absent
    | _ => throw caught

def open_blob (metadata_root_fd : Inode) (digest : String) : Storing Entry := do
  in_tree (require_digest digest)
  let byte_len ← query fun db => match select_blob db digest with
    | some byte_len => .ok byte_len
    | none => .error (.AtomsError (.ProtocolError (digest ++ " is not indexed by this store")))
  in_tree do
    let unreadable := Raised.MetadataStoreInvalid (digest ++ " has a blob row but no leaf under " ++ BLOBS_PARENT ++ "/")
    let parent ← tryCatch (blobs_fd metadata_root_fd) fun caught => match caught with
      | .OSError .ENOENT => throw unreadable
      | _ => throw caught
    let leaf ← digest_to_leaf digest
    let fd ← open_leaf parent leaf digest unreadable
    let _ ← verify_leaf fd digest (some byte_len)
    pure fd

/-- One leaf of `list_unindexed_blobs`. -/
def list_leaf (parent : Inode) (orphans : List String) (leaf : String) : Storing (List String) := do
  let digest ← in_tree (leaf_to_digest_or_refuse leaf)
  let row ← query fun db => .ok (select_blob db digest)
  in_tree do
    let fd ← open_leaf parent leaf digest
      (.MetadataStoreInvalid ("the leaf for " ++ digest ++ " disappeared during enumeration"))
    let _ ← verify_leaf fd digest row
    pure (if row = none then orphans ++ [digest] else orphans)

def list_unindexed_blobs (metadata_root_fd : Inode) : Storing (List String) := do
  let parent ← in_tree (blobs_fd metadata_root_fd)
  let leaves ← in_tree (listdir parent)
  (sorted_by id leaves).foldlM (list_leaf parent) []

/-- The part of `remove_unindexed_blob` that works on the leaf. -/
def remove_leaf (metadata_root_fd : Inode) (digest : String) : Call Unit := do
  let stale := Raised.AtomsError (.ProtocolError ("no leaf for " ++ digest ++ "; the argument is stale, re-enumerate"))
  let parent ← blobs_fd metadata_root_fd
  let leaf ← digest_to_leaf digest
  let fd ← open_leaf parent leaf digest stale
  let _ ← verify_leaf fd digest none
  tryCatch (unlink_child parent leaf) fun caught => match caught with
    | .OSError .ENOENT => throw stale
    | _ => throw caught
  flush_directory parent

def remove_unindexed_blob (metadata_root_fd : Inode) (digest : String) : Storing Unit := do
  in_tree (require_digest digest)
  query fun db => match select_blob db digest with
    | none => .ok ()
    | some _ => .error (.AtomsError (.ProtocolError
        (digest ++ " is indexed; remove_unindexed_blob can only delete something no record names")))
  in_tree (remove_leaf metadata_root_fd digest)

/-! Promotion. -/

/-- What `_preflight` has seen of the manifest: the names, and the first length of each digest. -/
structure Preflight where
  names : List String
  lengths : dict.Dict String Int

/-- One entry of the manifest in `_preflight`. -/
def preflight_entry (seen : Preflight) (entry : StagedBlob) : Call Preflight := do
  require_component "a manifest name" entry.name
  require_digest entry.digest
  require_asked (0 ≤ entry.byte_len) ("byte_len " ++ toString entry.byte_len ++ " is negative")
  require_asked (entry.name ∉ seen.names) ("manifest name " ++ py_repr entry.name ++
    " appears twice; the second rename would fail ENOENT mid-batch")
  let previous := (seen.lengths.get entry.digest).getD entry.byte_len
  require_asked (previous = entry.byte_len) ("digest " ++ entry.digest ++ " carries byte_len " ++ toString previous ++
    " and " ++ toString entry.byte_len ++ " in one manifest; both descriptions arrived in the same argument")
  pure { names := entry.name :: seen.names, lengths := seen.lengths.setdefault entry.digest entry.byte_len }

/-- The staging directory holds the manifest's names and no others. -/
def require_described (staging_fd : Inode) (txid : String) (names : List String) : Call Unit := do
  let present ← listdir staging_fd
  let extra := sorted_by id (present.dedup.filter fun name => name ∉ names)
  let absent := sorted_by id (names.filter fun name => name ∉ present)
  require_asked (extra = [] ∧ absent = []) ("the manifest does not describe staging/" ++ txid ++ "/ exactly: missing " ++
    repr_list extra ++ ", absent " ++ repr_list absent)

/-- One staged leaf in `_preflight`. -/
def preflight_leaf (staging_fd : Inode) (txid : String) (entry : StagedBlob) : Call Unit := do
  let fd ← open_entry_nofollow staging_fd entry.name ("staging/" ++ txid ++ "/" ++ entry.name)
  let _ ← verify_leaf fd entry.digest (some entry.byte_len)

/-- One digest of the manifest that may be indexed already, in `_preflight`. -/
def preflight_row (parent : Inode) (item : String × Int) : Storing Unit := do
  let row ← query fun db => .ok (select_blob db item.1)
  in_tree <| match row with
    | none => pure ()
    | some byte_len => do
      require_tree (byte_len = item.2) ("the stored row for " ++ item.1 ++ " says byte_len " ++ toString byte_len ++
        ", the verified content is " ++ toString item.2)
      let leaf ← digest_to_leaf item.1
      let fd ← open_leaf parent leaf item.1 (.MetadataStoreInvalid (item.1 ++
        " is indexed but its leaf is gone; promotion does not silently re-create a blob open_blob calls unreadable"))
      let _ ← verify_leaf fd item.1 (some byte_len)

/-- `workspace.staging_fd` -/
def require_staging (workspace : Workspace) : Call Inode :=
  match workspace.staging_fd with
  | some fd => pure fd
  | none => throw (.AtomsError (.ProtocolError ("staging_fd is spent for txid " ++ py_repr workspace.txid ++
      ": that half of the workspace is not on disk, or promotion has already consumed it")))

/-- `_preflight` -/
def preflight (metadata_root_fd : Inode) (workspace : Workspace) (manifest : List StagedBlob) : Storing Unit := do
  let seen ← in_tree (manifest.foldlM preflight_entry { names := [], lengths := [] })
  let staging_fd ← in_tree (require_staging workspace)
  in_tree (require_described staging_fd workspace.txid seen.names)
  in_tree (manifest.forM (preflight_leaf staging_fd workspace.txid))
  let parent ← in_tree (blobs_fd metadata_root_fd)
  (sorted_by Prod.fst seen.lengths).forM (preflight_row parent)

/-- One staged leaf becomes a blob, unless the blob is there already. -/
def promote_leaf (staging_fd parent : Inode) (entry : StagedBlob) : Call Unit := do
  let leaf ← digest_to_leaf entry.digest
  tryCatch (transfer_noclobber staging_fd entry.name parent leaf) fun caught => match caught with
    | .OSError .EEXIST => do
      let existing ← open_entry_nofollow parent leaf ("the existing leaf for " ++ entry.digest)
      let _ ← verify_leaf existing entry.digest (some entry.byte_len)
      unlink_child staging_fd entry.name
    | _ => throw caught

/-- The part of `promote_staging` that works on the tree; the rows are inserted after it. -/
def promote_leaves (metadata_root_fd : Inode) (workspace : Workspace) (manifest : List StagedBlob) : Call Unit := do
  let staging_fd ← require_staging workspace
  let parent ← blobs_fd metadata_root_fd
  manifest.forM (promote_leaf staging_fd parent)
  flush_directory parent
  flush_directory staging_fd
  let remaining ← listdir staging_fd
  require_asked (remaining = []) ("staging/" ++ workspace.txid ++ "/ still holds " ++
    repr_list (sorted_by id remaining) ++ " after the rename loop; step 1's entry-set comparison and the loop disagree")
  let staging_parent ← open_child_directory metadata_root_fd STAGING_PARENT
  rmdir_child staging_parent workspace.txid
  flush_directory staging_parent

def promote_staging (metadata_root_fd : Inode) (workspace : Workspace) (manifest : List StagedBlob) : Storing Unit := do
  preflight metadata_root_fd workspace manifest
  in_tree (promote_leaves metadata_root_fd workspace manifest)

end

end atoms.store

import Atoms.Chain.Publish
import Atoms.Coordinator.Lease

open atoms.errors atoms.identifiers atoms.fs atoms.spec atoms.store checked keyed crash

namespace atoms.coordinator

section

variable [UnicodeData] [Sha256]

/-- `with store.transaction() as txn: body`, whose commit takes effect as a whole. -/
def commit_database (body : Body) (refused : Option Raised) : Storing Unit := Prog.call fun m =>
  match m.db.run body refused with
  | (.ok (), db) => .ok ((), { m with db })
  | (.error error, _) => .error error

/-- The rows of a preparation: the index of what was promoted, the record, and the active row. -/
def prepare_body (txid : String) (spec : TransactionSpec) (approval_evidence : String) (manifest : List StagedBlob) : Body :=
  .call (.promote_staging txid manifest) none .new fun answer _ => match answer with
    | .error error => .raises error
    | .ok () => .call (.insert_record txid spec approval_evidence) none .new fun answer _ => match answer with
      | .error error => .raises error
      | .ok () => .call (.set_active (some txid)) none .new fun answer _ => match answer with
        | .error error => .raises error
        | .ok () => .returns

/-- What a transaction asks for: its id, its spec with the evidence of its approval, what its capture stages under which
names, and the manifest. -/
structure Request where
  txid : String
  spec : TransactionSpec
  approval_evidence : String
  staged : List (String × List UInt8)
  manifest : List StagedBlob

/-- Everything of `prepare_transaction` that is in one transaction of the store. -/
def prepare_transaction (metadata_root_fd : Inode) (workspace : Workspace) (request : Request) (refused : Option Raised) :
    Storing Unit := do
  in_tree (require_asked (workspace.txid = request.txid) ("workspace txid " ++ py_repr workspace.txid ++
    " does not match the proof's " ++ py_repr request.txid ++ "; executing a proof under any other txid is forbidden"))
  promote_staging metadata_root_fd workspace request.manifest
  commit_database (prepare_body request.txid request.spec request.approval_evidence request.manifest) refused

/-- One leaf of a capture: it is created, written in as many parts as it takes, and flushed. -/
def stage_leaf (staging_fd : Inode) (leaf : String × List UInt8) : Call Unit := do
  let sink ← create_exclusive staging_fd leaf.1 0o600
  chain.write_all sink leaf.2.length leaf.2
  flush_file sink

/-- A transaction up to its preparation: the workspace is made, a capture stages in it, and the record is written. -/
def begin_transaction (metadata_root_fd : Inode) (request : Request) (refused : Option Raised) : Storing Unit := do
  let workspace ← in_tree (create_workspace metadata_root_fd request.txid)
  in_tree do
    let staging_fd ← require_staging workspace
    request.staged.forM (stage_leaf staging_fd)
  prepare_transaction metadata_root_fd workspace request refused

end

end atoms.coordinator

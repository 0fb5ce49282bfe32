import Atoms.Coordinator.Descriptors
import Atoms.Coordinator.Effects.Durable
import Atoms.Recovery.Journal.Authority
import Atoms.Store.Record

open atoms.errors atoms.effects atoms.fs atoms.recovery atoms.store crash writeback

namespace atoms.coordinator

/-- What the engine works on: the volume, the store and the descriptors it holds. -/
structure Engine where
  disk : Disk
  db : Database
  table : DescriptorTable

abbrev Step (α : Type) := Prog Engine Raised α

/-- Calls on the volume. -/
def on_disk {α : Type} (p : Call α) : Step α :=
  Prog.zoom ⟨Engine.disk, fun engine disk => { engine with disk }, fun _ _ => rfl, fun _ => rfl, fun _ _ _ => rfl⟩ p

section

variable [UnicodeData] [Sha256]

/-- `with lease._store.transaction() as txn: body(txn)` -/
def commit (body : StoreTransaction → Except Raised StoreTransaction) : Step Unit := Prog.call fun engine => do
  let db ← transaction engine.db body
  pure ((), { engine with db })

/-- `table.adopt(node, fd)`, then `_register_planned_children` for the node. -/
def adopt_directory (approved : ProjectApprovedSpec) (path : RelPath) (fd : Inode) : Step Unit :=
  Prog.call fun engine => do
    let adopted ← engine.table.adopt (.PersistentNode path) fd
    let table ← register_planned_children adopted approved (.PersistentNode path)
    pure ((), { engine with table })

/-- `_apply_effect` -/
def apply_effect (approved : ProjectApprovedSpec) (blobs : Blobs) (effect : Effect) : Step Unit := do
  let site ← Prog.read fun engine => site_for approved engine.table effect
  match effect, site with
  | .ReplaceFile effect, .ReplaceSite site => on_disk (replace_file.apply blobs site effect)
  | .CreateFileNoClobber effect, .CreateFileSite site => on_disk (create_file.apply blobs site effect)
  | .DeletePath effect, .DeleteSite site => on_disk (delete_path.apply site effect)
  | .MoveNoClobber effect, .MoveSite site => on_disk (move.apply site effect)
  | .CreateDirectory effect, .MkdirSite site => do
    let fd ← on_disk (create_directory.apply site effect (pure ()))
    adopt_directory approved effect.path fd
  | _, _ => throw (.AtomsError (.ProtocolError "effect and descriptor site variants disagree"))

/-- One turn of the loop: `STARTED`, the effect's executor, `DONE`. -/
def execute_effect (approved : ProjectApprovedSpec) (blobs : Blobs) (effect : Effect) : Step Unit := do
  commit fun txn => txn.set_journal_state approved.txid effect.effect_id .STARTED
  apply_effect approved blobs effect
  commit fun txn => txn.set_journal_state approved.txid effect.effect_id .DONE

/-- The effect loop of `_run_under_lease`. -/
def execute_effects (approved : ProjectApprovedSpec) (blobs : Blobs) : Step Unit :=
  approved.compiled.spec.effects.forM (execute_effect approved blobs)

/-- The names of an effect's tuple: the live ones and the scratch one. -/
def Site.names : Site → List (Inode × String)
  | .ReplaceSite site => [(site.parent_fd, site.live_leaf), (site.parent_fd, site.staging_leaf)]
  | .CreateFileSite site => [(site.parent_fd, site.live_leaf), (site.parent_fd, site.staging_leaf)]
  | .DeleteSite site => [(site.parent_fd, site.live_leaf), (site.parent_fd, site.tombstone_leaf)]
  | .MoveSite site =>
    [(site.source_fd, site.source_leaf), (site.source_fd, site.anchor_leaf), (site.destination_fd, site.destination_leaf)]
  | .MkdirSite site => [(site.work_fd, site.work_leaf), (site.parent_fd, site.live_leaf)]

section

omit [UnicodeData] [Sha256]

variable {α : Type} {engine engine' : Engine} {a : α}

end

section

variable {approved : ProjectApprovedSpec} {blobs : Blobs} {effect : Effect} {engine engine' : Engine}

end

end

section

attribute [local instance] journal.ascii

/-- The two creations of `two_directories`, approved below an empty project. -/
def two_directories_approved : ProjectApprovedSpec where
  compiled := journal.two_directories
  txid := "t"
  topology := journal.two_directories_topology
  directories := [⟨.ProjectRoot, false⟩, ⟨.WorkRoot, true⟩, ⟨.PersistentNode "a", true⟩, ⟨.PersistentNode "b", true⟩]
  paths := [⟨"a", .ProjectRoot, "a"⟩, ⟨"b", .ProjectRoot, "b"⟩]
  scratch := [⟨"e1", .WORK, .WorkRoot, "e1"⟩, ⟨"e2", .WORK, .WorkRoot, "e2"⟩]

/-- The engine before the first of the two creations: the project is object 0 and the work root object 1. -/
def two_directories_engine : Engine where
  disk := { entries := ⟨[], []⟩, contents := ⟨[], []⟩, modes := ⟨[], []⟩, next := 2, umask := 0o022, short_writes := [] }
  db :=
    { records := [⟨"t", journal.two_directories_spec, .APPLYING, .UNCOMMITTED, none, none, some "r", none, "", none⟩]
      effects := [⟨"t", "e1", .CREATE_DIRECTORY, .PENDING⟩, ⟨"t", "e2", .CREATE_DIRECTORY, .PENDING⟩]
      blobs := []
      active := some "t" }
  table :=
    { fds := [(.ProjectRoot, 0), (.WorkRoot, 1)]
      stops := [⟨.PersistentNode "a", "a", 0, "a"⟩, ⟨.PersistentNode "b", "b", 0, "b"⟩]
      unreachable := [.PersistentNode "a", .PersistentNode "b"] }

/-- The digest of the empty content. -/
@[reducible] def empty_digest : Sha256 where
  hexdigest _ := "e3b0c44298fc1c149afbf4c8996fb92427ae41e4649b934ca495991b7852b855"

attribute [local instance] empty_digest

end

end atoms.coordinator

import Atoms.Core.Effects

open atoms.fingerprint atoms.effects

namespace atoms.recovery

inductive TransactionState
  | PREPARED | APPLYING | APPLIED | COMMITTED | ROLLING_BACK | ROLLED_BACK | HALTED
  deriving DecidableEq

inductive CommitDecision
  | UNCOMMITTED | COMMITTED
  deriving DecidableEq

inductive JournalState
  | PENDING | STARTED | DONE | UNDO_STARTED | UNDONE
  deriving DecidableEq

inductive RollbackResult
  | RESTORED | EXTERNAL_DRIFT_PRESERVED
  deriving DecidableEq

inductive HaltReason
  | JOURNAL_TOPOLOGY_INVALID | COMMIT_DECISION_CONFLICT | ACTIVE_BINDING_MISSING
  | EFFECT_TUPLE_UNATTRIBUTABLE | DIRECTORY_NOT_EMPTY | COMMITTED_SURFACE_MISMATCH
  | PLAN_PRECONDITION_CHANGED | MUTATION_DENIED
  deriving DecidableEq

inductive ScratchRole
  | STAGING | TOMBSTONE | ANCHOR | WORK
  deriving DecidableEq

def ScratchRole.value : ScratchRole → String
  | .STAGING => "staging"
  | .TOMBSTONE => "tombstone"
  | .ANCHOR => "anchor"
  | .WORK => "work"

inductive FileBuildRelation
  | EXACT | STRICT_PREFIX | DIVERGED
  deriving DecidableEq

inductive IdentityRelation
  | SAME | DIFFERENT
  deriving DecidableEq

inductive OperatorAction
  | INSPECT_PRESERVED_EVIDENCE | REPAIR_DURABLE_METADATA
  deriving DecidableEq

/-- The identity of an observed entry, equal to another one exactly when both came from one token. -/
structure EntryIdentity where
  token : Nat
  deriving DecidableEq

inductive ObservedEntry
  | ObservedAbsent
  | ObservedFile (state : FileState) (identity : EntryIdentity)
  | ObservedSymlink (state : SymlinkState)
  | ObservedDirectory (state : DirectoryState) (identity : EntryIdentity) (has_unmodeled_child : Option Bool)
  | ObservedUnrecognized (st_mode : Int)
  | ObservedContended
  | ObservedInaccessible
  deriving DecidableEq

def OBSERVED_ABSENT : ObservedEntry := .ObservedAbsent

namespace ObservedEntry

/-- `type(entry) is ObservedAbsent` -/
def is_absent : ObservedEntry → Bool
  | .ObservedAbsent => true
  | _ => false

/-- `type(entry) is ObservedFile` -/
def is_file : ObservedEntry → Bool
  | .ObservedFile _ _ => true
  | _ => false

/-- `type(entry) is ObservedDirectory` -/
def is_directory : ObservedEntry → Bool
  | .ObservedDirectory _ _ _ => true
  | _ => false

/-- The state of an entry of one of the four path kinds. -/
def state? : ObservedEntry → Option PathState
  | .ObservedAbsent => some ABSENT
  | .ObservedFile state _ => some state
  | .ObservedSymlink state => some state
  | .ObservedDirectory state _ _ => some state
  | _ => none

/-- `_entry_identity`: files and directories are identified, symlinks are not. -/
def identity? : ObservedEntry → Option EntryIdentity
  | .ObservedFile _ identity => some identity
  | .ObservedDirectory _ identity _ => some identity
  | _ => none

@[simp] theorem is_absent_iff {entry : ObservedEntry} : entry.is_absent = true ↔ entry = .ObservedAbsent := by
  cases entry <;> simp [is_absent]

@[simp] theorem is_absent_eq_false_iff {entry : ObservedEntry} :
    entry.is_absent = false ↔ entry ≠ .ObservedAbsent := by
  cases entry <;> simp [is_absent]

@[simp] theorem state?_absent : ObservedAbsent.state? = some ABSENT := rfl

/-- Only an absent name has the absent state. -/
theorem state?_eq_absent_iff {entry : ObservedEntry} : entry.state? = some ABSENT ↔ entry = .ObservedAbsent := by
  cases entry <;> simp [state?, ABSENT]

end ObservedEntry

structure EffectJournalState where
  effect_id : String
  state : JournalState
  deriving DecidableEq

structure PersistentObservation where
  path : RelPath
  entry : ObservedEntry
  deriving DecidableEq

structure ScratchObservation where
  effect_id : String
  role : ScratchRole
  entry : ObservedEntry
  file_build_relation : Option FileBuildRelation
  deriving DecidableEq

/-- The dictionary key of a scratch observation. -/
def ScratchObservation.key (observation : ScratchObservation) : String × ScratchRole :=
  (observation.effect_id, observation.role)

/-- `PathState | ObservedUnrecognized | ObservedContended | ObservedInaccessible` -/
inductive DiagnosticState
  | state (state : PathState)
  | ObservedUnrecognized (st_mode : Int)
  | ObservedContended
  | ObservedInaccessible
  deriving DecidableEq

structure DiagnosticEntry where
  slot : String
  state : DiagnosticState
  has_unmodeled_child : Option Bool
  file_build_relation : Option FileBuildRelation
  deriving DecidableEq

/-- `stat.S_IFMT` -/
def S_IFMT (st_mode : Int) : Int := bit_and st_mode 0o170000

/-- The kernel kinds other than file, directory and symlink: FIFO, socket, block and character device. -/
def is_unrecognized_st_mode (value : Int) : Bool :=
  0 ≤ value && value ≤ 0o177777 && S_IFMT value ∈ [0o010000, 0o140000, 0o060000, 0o020000]

structure DiagnosticIdentityRelation where
  left_slot : String
  right_slot : String
  relation : IdentityRelation
  deriving DecidableEq

structure HaltDiagnostic where
  pre_halt_state : TransactionState
  commit_decision : CommitDecision
  journals : List EffectJournalState
  projected_transaction_state : TransactionState
  projected_journals : List EffectJournalState
  effect_id : Option String
  paths : List RelPath
  expected : List DiagnosticEntry
  observed : List DiagnosticEntry
  identity_relations : List DiagnosticIdentityRelation
  reason : HaltReason
  operator_action : OperatorAction
  deriving DecidableEq

end atoms.recovery

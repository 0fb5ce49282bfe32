import Atoms.Recovery.Topology

open atoms.errors atoms.fingerprint atoms.effects atoms.paths atoms.spec atoms.compiler checked keyed

namespace atoms.recovery

variable [UnicodeData]

/-- The data of a snapshot, before `build_recovery_snapshot` has looked at it. -/
structure SnapshotFields where
  compiled : CompiledSpec
  topology : RecoveryTopology
  transaction_state : TransactionState
  commit_decision : CommitDecision
  rollback_result : Option RollbackResult
  halt_diagnostic : Option HaltDiagnostic
  active : Bool
  journals : List EffectJournalState
  persistent_observations : List PersistentObservation
  scratch_observations : List ScratchObservation
  deriving DecidableEq

namespace snapshot

def validate_journal_coverage (compiled : CompiledSpec) (journals : List EffectJournalState) :
    Except AtomsError Unit :=
  require_protocol (journals.map EffectJournalState.effect_id = compiled.spec.effects.map Effect.effect_id)
    "journals do not provide exact compiled effect coverage"

def validate_persistent_coverage (compiled : CompiledSpec) (observations : List PersistentObservation) :
    Except AtomsError Unit :=
  let expected_paths := compiled.timelines.map (·.path)
  require_protocol (observations.length = expected_paths.length ∧
      set_eq (observations.map PersistentObservation.path) expected_paths)
    "persistent_observations do not provide exact compiled path coverage"

def validate_scratch_coverage (compiled : CompiledSpec) (observations : List ScratchObservation) :
    Except AtomsError Unit :=
  let expected := compiled.spec.effects.map scratch_key
  require_protocol (observations.length = expected.length ∧ set_eq (observations.map ScratchObservation.key) expected)
    "scratch_observations do not provide exact compiled scratch coverage"

def validate_observed_entry (label : String) : ObservedEntry → Except AtomsError Unit
  | .ObservedUnrecognized st_mode => require_protocol (is_unrecognized_st_mode st_mode)
      (label ++ " unrecognized st_mode is outside the closed kernel kinds")
  | _ => .ok ()

/-- Whether a staging file is still under construction, so that its observation
carries a build relation. The reducer has a second copy of this function. -/
def construction_relation_required (effect : Effect) (journal : JournalState)
    (persistent : List PersistentObservation) (scratch : ScratchObservation) : Bool :=
  if journal ≠ .STARTED ∨ ¬ scratch.entry.is_file then false
  else match effect with
    | .CreateFileNoClobber _ => true
    | .ReplaceFile e => match find_key PersistentObservation.path persistent e.path with
      | some live => live.entry.is_file && live.entry.state? == some (e.pre : PathState)
      | none => false
    | _ => false

def effect_of (compiled : CompiledSpec) (effect_id : String) : Option Effect :=
  find_key Effect.effect_id compiled.spec.effects effect_id

def journal_of (journals : List EffectJournalState) (effect_id : String) : Option JournalState :=
  (find_key EffectJournalState.effect_id journals effect_id).map EffectJournalState.state

/-- Whether an observation's effect requires a build relation; coverage has already
found an effect and a journal for it. -/
def relation_required (compiled : CompiledSpec) (journals : List EffectJournalState)
    (persistent : List PersistentObservation) (scratch : ScratchObservation) : Bool :=
  match effect_of compiled scratch.effect_id, journal_of journals scratch.effect_id with
  | some effect, some journal => construction_relation_required effect journal persistent scratch
  | _, _ => false

def validate_observations (fields : SnapshotFields) : Except AtomsError Unit := do
  fields.persistent_observations.forM fun observation =>
    validate_observed_entry "persistent_observations" observation.entry
  fields.scratch_observations.forM fun observation =>
    validate_observed_entry "scratch_observations" observation.entry
  fields.scratch_observations.forM fun observation =>
    require_protocol (relation_required fields.compiled fields.journals fields.persistent_observations observation =
        observation.file_build_relation.isSome)
      "file_build_relation is present in the wrong construction state"

/-- The lexicographic order of pairs of texts. -/
def pair_le (left right : String × String) : Prop :=
  left.1 < right.1 ∨ left.1 = right.1 ∧ left.2 ≤ right.2

instance (left right : String × String) : Decidable (pair_le left right) := inferInstanceAs (Decidable (_ ∨ _))

def validate_diagnostic_paths (paths : List RelPath) : Except AtomsError Unit := do
  require_protocol (sorted_by id paths = paths ∧ paths.Nodup) "halt_diagnostic.paths must be sorted and unique"
  paths.forM fun path => match require_rel_path "halt_diagnostic.paths" path with
    | .ok () => .ok ()
    | .error _ => throw (.ProtocolError "halt_diagnostic.paths must contain project-relative paths")

def validate_diagnostic_state (label : String) : DiagnosticState → Except AtomsError Unit
  | .ObservedUnrecognized st_mode => validate_observed_entry label (.ObservedUnrecognized st_mode)
  | _ => .ok ()

def validate_diagnostic_entries (items : List DiagnosticEntry) (label : String) : Except AtomsError Unit := do
  items.forM fun entry => validate_diagnostic_state label entry.state
  let slots := items.map DiagnosticEntry.slot
  require_protocol (slots = sorted_by id slots ∧ slots.Nodup) (label ++ " slots must be sorted and unique")

def DiagnosticIdentityRelation.pair (item : DiagnosticIdentityRelation) : String × String :=
  (item.left_slot, item.right_slot)

def validate_identity_relations (items : List DiagnosticIdentityRelation) : Except AtomsError Unit :=
  let pairs := items.map DiagnosticIdentityRelation.pair
  require_protocol (pairs = pairs.insertionSort pair_le ∧ pairs.Nodup)
    "halt_diagnostic.identity_relations must be sorted and unique"

def validate_halt_diagnostic : Option HaltDiagnostic → Except AtomsError Unit
  | none => .ok ()
  | some diagnostic => do
    require_protocol (diagnostic.pre_halt_state ≠ .HALTED) "halt_diagnostic may not name HALTED as its pre-halt state"
    require_protocol (diagnostic.projected_journals.map EffectJournalState.effect_id =
        diagnostic.journals.map EffectJournalState.effect_id)
      "halt_diagnostic projected journals have the wrong effect vector"
    validate_diagnostic_paths diagnostic.paths
    validate_diagnostic_entries diagnostic.expected "halt_diagnostic.expected"
    validate_diagnostic_entries diagnostic.observed "halt_diagnostic.observed"
    validate_identity_relations diagnostic.identity_relations

def validate_terminal_payloads (fields : SnapshotFields) : Except AtomsError Unit := do
  require_protocol (fields.rollback_result.isSome = true ↔ fields.transaction_state = .ROLLED_BACK)
    "rollback_result must be present exactly for ROLLED_BACK"
  require_protocol (fields.halt_diagnostic.isSome = true ↔ fields.transaction_state = .HALTED)
    "halt_diagnostic must be present exactly for HALTED"
  require_protocol (∀ diagnostic ∈ fields.halt_diagnostic,
      fields.commit_decision = diagnostic.commit_decision ∧ fields.journals = diagnostic.journals)
    "halt_diagnostic does not match current durable state"

/-- The checks of `build_recovery_snapshot`, in order. -/
def validate (fields : SnapshotFields) : Except AtomsError Unit := do
  validate_journal_coverage fields.compiled fields.journals
  validate_persistent_coverage fields.compiled fields.persistent_observations
  validate_scratch_coverage fields.compiled fields.scratch_observations
  topology.validate_topology fields.compiled fields.topology
  validate_observations fields
  validate_halt_diagnostic fields.halt_diagnostic
  validate_terminal_payloads fields

end snapshot

/-- A factory-issued snapshot: no value exists that `build_recovery_snapshot` has not accepted. -/
structure RecoverySnapshot extends SnapshotFields where
  issued : snapshot.validate toSnapshotFields = .ok ()

instance : DecidableEq RecoverySnapshot := fun left right =>
  decidable_of_iff (left.toSnapshotFields = right.toSnapshotFields) (by cases left; cases right; simp)

def build_recovery_snapshot (fields : SnapshotFields) : Except AtomsError RecoverySnapshot :=
  match h : snapshot.validate fields with
  | .ok () => .ok { toSnapshotFields := fields, issued := h }
  | .error error => .error error

theorem build_recovery_snapshot_eq_ok_iff {fields : SnapshotFields} {s : RecoverySnapshot} :
    build_recovery_snapshot fields = .ok s ↔ s.toSnapshotFields = fields := by
  unfold build_recovery_snapshot
  split
  · cases s
    simp [eq_comm]
  · rename_i error herror
    constructor
    · simp
    · rintro rfl
      rw [s.issued] at herror
      cases herror

end atoms.recovery

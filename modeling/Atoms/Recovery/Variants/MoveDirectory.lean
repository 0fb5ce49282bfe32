import Atoms.Recovery.Variants.Joint

open atoms.errors atoms.fingerprint atoms.effects atoms.compiler checked

namespace atoms.recovery.variants

/-- `_move_entry_class` -/
def move_entry_class (entry : ObservedEntry) (effect : MoveNoClobber) : Except AtomsError EntryClass :=
  classify_entry entry effect.source_pre effect.source_pre none

/-- `_move_restore_source` -/
def move_restore_source (effect : MoveNoClobber) (observed : JointObservation) : EffectDecision :=
  transform_decision .RESTORE_SOURCE (.MoveNoClobber effect) observed
    (transform (.MoveNoClobber effect) observed [observed.persistent_entry 1, OBSERVED_ABSENT] observed.scratch_entry
      .RESTORE_PRE [⟨"destination", "anchor", .SAME⟩])

/-- `_move_remove_destination` -/
def move_remove_destination (effect : MoveNoClobber) (observed : JointObservation) : EffectDecision :=
  transform_decision .REMOVE_DESTINATION (.MoveNoClobber effect) observed
    (transform (.MoveNoClobber effect) observed [observed.persistent_entry 0, OBSERVED_ABSENT] observed.scratch_entry
      .REPAIR_INTERMEDIATE [⟨"destination", "anchor", .SAME⟩, ⟨"source", "anchor", .SAME⟩])

/-- `_move_restore_from_anchor` -/
def move_restore_from_anchor (effect : MoveNoClobber) (observed : JointObservation) : EffectDecision :=
  transform_decision .RESTORE_FROM_ANCHOR (.MoveNoClobber effect) observed
    (transform (.MoveNoClobber effect) observed [observed.scratch_entry, OBSERVED_ABSENT] observed.scratch_entry
      .REPAIR_INTERMEDIATE [⟨"source", "anchor", .SAME⟩])

/-- The decision that nothing is left to undo, under the name its journal state gives it. -/
def nothing_landed (journal : JournalState) (observed : JointObservation) : EffectDecision :=
  decision (if journal = .UNDO_STARTED then .ALREADY_UNDONE else .UNDO_WITHOUT_MUTATION) observed []

/-- The `STARTED` and `UNDO_STARTED` table of `_classify_move`. -/
def move_undo_cell (journal : JournalState) (effect : MoveNoClobber) (observed : JointObservation)
    (source_class destination_class anchor_class : EntryClass) (source_anchor_same destination_anchor_same : Bool) :
    EffectDecision :=
  match source_class, destination_class, anchor_class with
  | .PRE, .ABSENT, .ABSENT => nothing_landed journal observed
  | .PRE, .ABSENT, .PRE =>
    if source_anchor_same then remove_decision .REMOVE_ANCHOR (.MoveNoClobber effect) observed
    else halt observed .EFFECT_TUPLE_UNATTRIBUTABLE
  | .ABSENT, .PRE, .PRE =>
    if destination_anchor_same then move_restore_source effect observed
    else halt observed .EFFECT_TUPLE_UNATTRIBUTABLE
  | .PRE, .PRE, .PRE =>
    if source_anchor_same ∧ destination_anchor_same then move_remove_destination effect observed
    else halt observed .EFFECT_TUPLE_UNATTRIBUTABLE
  | .ABSENT, .ABSENT, .PRE => move_restore_from_anchor effect observed
  | .PRE, .EXTERNAL, .PRE =>
    if source_anchor_same then
      refused_decision .REFUSED_PRESERVE_DESTINATION observed
        [.PreserveExternal (preserve [.PersistentNode effect.destination]),
          .RemoveScratch (remove_scratch (.MoveNoClobber effect) observed)]
    else halt observed .EFFECT_TUPLE_UNATTRIBUTABLE
  | _, _, _ => halt observed .EFFECT_TUPLE_UNATTRIBUTABLE

/-- The table of `_classify_move`, over the classes and identities of its three entries. -/
def move_cell (commit : CommitDecision) (journal : JournalState) (effect : MoveNoClobber)
    (observed : JointObservation) (source_class destination_class anchor_class : EntryClass)
    (source_anchor_same destination_anchor_same : Bool) : EffectDecision :=
  match commit, journal with
  | .COMMITTED, .DONE =>
    if source_class = .ABSENT ∧ destination_class = .PRE ∧ anchor_class = .PRE ∧ destination_anchor_same then
      remove_decision .REMOVE_ANCHOR (.MoveNoClobber effect) observed
    else if source_class = .ABSENT ∧ destination_class = .PRE ∧ anchor_class = .ABSENT then
      decision .NO_ACTION observed []
    else halt observed .EFFECT_TUPLE_UNATTRIBUTABLE
  | .UNCOMMITTED, .DONE =>
    if source_class = .ABSENT ∧ destination_class = .PRE ∧ anchor_class = .PRE ∧ destination_anchor_same then
      move_restore_source effect observed
    else halt observed .EFFECT_TUPLE_UNATTRIBUTABLE
  | .UNCOMMITTED, .STARTED | .UNCOMMITTED, .UNDO_STARTED =>
    move_undo_cell journal effect observed source_class destination_class anchor_class source_anchor_same
      destination_anchor_same
  | _, _ => halt observed .EFFECT_TUPLE_UNATTRIBUTABLE

/-- `_is_directory_scaffold` -/
def is_directory_scaffold : ObservedEntry → Bool
  | .ObservedDirectory state _ has_unmodeled_child =>
    bit_and state.mode (bit_not 0o700) = 0 && has_unmodeled_child ≠ some true
  | _ => false

/-- `_directory_is_empty` -/
def directory_is_empty (observed : JointObservation) (node : TopologyNode) : ObservedEntry → Bool
  | .ObservedDirectory _ _ has_unmodeled_child =>
    if has_unmodeled_child = some true then false
    else match observed.parent_occupancy.find? fun occupancy => occupancy.parent = node with
      | some occupancy => occupancy.present_children.isEmpty
      | none => true
  | _ => false

/-- The step of `_remove_live_directory`. -/
def remove_live_directory_step (effect : CreateDirectory) (observed : JointObservation)
    (identity_relations : List DiagnosticIdentityRelation) : TransformEffectTuple :=
  transform (.CreateDirectory effect) observed [OBSERVED_ABSENT] OBSERVED_ABSENT .REMOVE_ATTRIBUTABLE_CREATION
    identity_relations

/-- `_remove_live_directory` -/
def remove_live_directory (effect : CreateDirectory) (observed : JointObservation) : EffectDecision :=
  decision .REMOVE_LIVE_DIRECTORY observed [.TransformEffectTuple (remove_live_directory_step effect observed [])]

/-- The decision `cell` if the directories it removes are empty. -/
def if_empty (empty : Bool) (observed : JointObservation) (cell : EffectDecision) : EffectDecision :=
  if empty then cell else halt observed .DIRECTORY_NOT_EMPTY

/-- The `STARTED` and `UNDO_STARTED` table of `_classify_directory`. -/
def directory_undo_cell (journal : JournalState) (effect : CreateDirectory) (observed : JointObservation)
    (live_class work_class : EntryClass) (work_attributable same : Bool) : EffectDecision :=
  let live_empty := directory_is_empty observed (.PersistentNode effect.path) (observed.persistent_entry 0)
  let work_empty := directory_is_empty observed (scratch_node (.CreateDirectory effect)) observed.scratch_entry
  let remove := remove_scratch (.CreateDirectory effect) observed
  if live_class = .ABSENT ∧ work_class = .ABSENT then nothing_landed journal observed
  else if live_class = .ABSENT ∧ work_attributable then
    if_empty work_empty observed (decision .REMOVE_WORK observed [.RemoveScratch remove])
  else if live_class = .POST ∧ work_class = .ABSENT then
    if_empty live_empty observed (remove_live_directory effect observed)
  else if live_class = .POST ∧ work_attributable ∧ same then
    if_empty (live_empty && work_empty) observed
      (decision .REMOVE_DUAL_NAME_DIRECTORY observed
        [.RemoveScratch remove,
          .TransformEffectTuple (remove_live_directory_step effect remove.result_after [⟨"live", "work", .SAME⟩])])
  else if (live_class = .POST ∨ live_class = .EXTERNAL) ∧ work_attributable ∧ ¬ same then
    if_empty work_empty observed
      (refused_decision .REFUSED_PRESERVE_LIVE observed
        [.PreserveExternal (preserve [.PersistentNode effect.path]), .RemoveScratch remove])
  else halt observed .EFFECT_TUPLE_UNATTRIBUTABLE

/-- The table of `_classify_directory`, over the classes and identities of its two entries. -/
def directory_cell (commit : CommitDecision) (journal : JournalState) (effect : CreateDirectory)
    (observed : JointObservation) (live_class work_class : EntryClass) (work_attributable same : Bool) :
    EffectDecision :=
  match commit, journal with
  | .COMMITTED, .DONE =>
    if live_class = .POST ∧ work_class = .ABSENT then decision .NO_ACTION observed []
    else halt observed .EFFECT_TUPLE_UNATTRIBUTABLE
  | .UNCOMMITTED, .DONE =>
    if live_class = .POST ∧ work_class = .ABSENT then
      if_empty (directory_is_empty observed (.PersistentNode effect.path) (observed.persistent_entry 0)) observed
        (remove_live_directory effect observed)
    else halt observed .EFFECT_TUPLE_UNATTRIBUTABLE
  | .UNCOMMITTED, .STARTED | .UNCOMMITTED, .UNDO_STARTED =>
    directory_undo_cell journal effect observed live_class work_class work_attributable same
  | _, _ => halt observed .EFFECT_TUPLE_UNATTRIBUTABLE

variable [UnicodeData]

def classify_move (s : RecoverySnapshot) (effect : MoveNoClobber) : Except AtomsError EffectDecision := do
  let observed ← joint s (.MoveNoClobber effect)
  let source := observed.persistent_entry 0
  let destination := observed.persistent_entry 1
  let anchor := observed.scratch_entry
  let source_class ← move_entry_class source effect
  let destination_class ← move_entry_class destination effect
  let anchor_class ← move_entry_class anchor effect
  let journal ← journal s effect.effect_id
  pure (move_cell s.commit_decision journal effect observed source_class destination_class anchor_class
    (same_identity source anchor) (same_identity destination anchor))

def classify_directory (s : RecoverySnapshot) (effect : CreateDirectory) : Except AtomsError EffectDecision := do
  let observed ← joint s (.CreateDirectory effect)
  let live := observed.persistent_entry 0
  let work := observed.scratch_entry
  let live_class ← classify_entry live ABSENT effect.post none
  let work_class ← classify_entry work ABSENT effect.post none
  let journal ← journal s effect.effect_id
  pure (directory_cell s.commit_decision journal effect observed live_class work_class
    (work_class = .POST || is_directory_scaffold work) (same_identity live work))

end atoms.recovery.variants

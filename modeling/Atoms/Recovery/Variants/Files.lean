import Atoms.Recovery.Variants.Joint

open atoms.errors atoms.fingerprint atoms.effects atoms.compiler checked

namespace atoms.recovery.variants

/-- The table of `_classify_noop_replace`, over what it computes from the observation. -/
def noop_replace_cell (commit : CommitDecision) (journal : JournalState) (effect : ReplaceFile)
    (observed : JointObservation) : EffectDecision :=
  let live := observed.persistent_entry 0
  let staging := observed.scratch_entry
  if ¬ (live.is_file ∧ live.state? = some (effect.pre : PathState)) then halt observed .EFFECT_TUPLE_UNATTRIBUTABLE
  else
    let staging_absent := staging.is_absent
    let staging_same := staging.is_file ∧ staging.state? = some (effect.pre : PathState)
    let staging_prefix := observed.scratch_relation = some .STRICT_PREFIX
    let remove := remove_decision .REMOVE_SCRATCH (.ReplaceFile effect) observed
    match commit, journal with
    | .COMMITTED, .DONE =>
      if staging_same then remove
      else if staging_absent then decision .NO_ACTION observed []
      else halt observed .EFFECT_TUPLE_UNATTRIBUTABLE
    | .UNCOMMITTED, .STARTED =>
      if staging_absent then decision .UNDO_WITHOUT_MUTATION observed []
      else if staging_prefix ∨ staging_same then remove
      else halt observed .EFFECT_TUPLE_UNATTRIBUTABLE
    | .UNCOMMITTED, .DONE =>
      if staging_same then remove else halt observed .EFFECT_TUPLE_UNATTRIBUTABLE
    | .UNCOMMITTED, .UNDO_STARTED =>
      if staging_same then remove
      else if staging_absent then decision .ALREADY_UNDONE observed []
      else halt observed .EFFECT_TUPLE_UNATTRIBUTABLE
    | _, _ => halt observed .EFFECT_TUPLE_UNATTRIBUTABLE

/-- `_replace_exchange` -/
def replace_exchange (effect : ReplaceFile) (observed : JointObservation) (refused : Bool) : EffectDecision :=
  let live := observed.persistent_entry 0
  let staging := observed.scratch_entry
  let step := transform (.ReplaceFile effect) observed [staging] live .RESTORE_PRE []
  if refused then
    refused_decision .REFUSED_EXCHANGE_BACK observed
      [.TransformEffectTuple step, .PreserveExternal (preserve [.PersistentNode effect.path]),
        .RemoveScratch (remove_after_transform (.ReplaceFile effect) step)]
  else transform_decision .EXCHANGE_BACK (.ReplaceFile effect) observed step

/-- The table of `_classify_replace`, over the classes of the live and the staging entry. -/
def replace_cell (commit : CommitDecision) (journal : JournalState) (effect : ReplaceFile)
    (observed : JointObservation) (live_class staging_class : EntryClass) : EffectDecision :=
  let remove := remove_decision .REMOVE_SCRATCH (.ReplaceFile effect) observed
  match commit, journal, live_class, staging_class with
  | .COMMITTED, .DONE, .POST, .PRE => remove
  | .COMMITTED, .DONE, .POST, .ABSENT => decision .NO_ACTION observed []
  | .UNCOMMITTED, .STARTED, .PRE, .ABSENT => decision .UNDO_WITHOUT_MUTATION observed []
  | .UNCOMMITTED, .STARTED, .PRE, .PREFIX => remove
  | .UNCOMMITTED, .STARTED, .PRE, .POST => remove
  | .UNCOMMITTED, .STARTED, .POST, .PRE => replace_exchange effect observed false
  | .UNCOMMITTED, .STARTED, .POST, .EXTERNAL => replace_exchange effect observed true
  | .UNCOMMITTED, .DONE, .POST, .PRE => replace_exchange effect observed false
  | .UNCOMMITTED, .UNDO_STARTED, .POST, .PRE => replace_exchange effect observed false
  | .UNCOMMITTED, .UNDO_STARTED, .PRE, .POST => remove
  | .UNCOMMITTED, .UNDO_STARTED, .PRE, .ABSENT => decision .ALREADY_UNDONE observed []
  | _, _, _, _ => halt observed .EFFECT_TUPLE_UNATTRIBUTABLE

/-- `_remove_live_creation` -/
def remove_live_creation (effect : CreateFileNoClobber) (observed : JointObservation) : EffectDecision :=
  let live := observed.persistent_entry 0
  transform_decision .REMOVE_LIVE_CREATION (.CreateFileNoClobber effect) observed
    (transform (.CreateFileNoClobber effect) observed [OBSERVED_ABSENT] live .REMOVE_ATTRIBUTABLE_CREATION [])

/-- `_refuse_create_live` -/
def refuse_create_live (effect : CreateFileNoClobber) (observed : JointObservation) (remove_staging : Bool) :
    EffectDecision :=
  refused_decision .REFUSED_PRESERVE_LIVE observed <|
    .PreserveExternal (preserve [.PersistentNode effect.path]) ::
      if remove_staging then [.RemoveScratch (remove_scratch (.CreateFileNoClobber effect) observed)] else []

/-- The table of `_classify_create_file`, over the classes of the live and the staging entry. -/
def create_file_cell (commit : CommitDecision) (journal : JournalState) (effect : CreateFileNoClobber)
    (observed : JointObservation) (live_class staging_class : EntryClass) : EffectDecision :=
  let remove := remove_decision .REMOVE_SCRATCH (.CreateFileNoClobber effect) observed
  match commit, journal, live_class, staging_class with
  | .COMMITTED, .DONE, .POST, .ABSENT => decision .NO_ACTION observed []
  | .UNCOMMITTED, .STARTED, .ABSENT, .ABSENT => decision .UNDO_WITHOUT_MUTATION observed []
  | .UNCOMMITTED, .STARTED, .ABSENT, .PREFIX => remove
  | .UNCOMMITTED, .STARTED, .ABSENT, .POST => remove
  | .UNCOMMITTED, .STARTED, .POST, .ABSENT => remove_live_creation effect observed
  | .UNCOMMITTED, .STARTED, .POST, .PREFIX => refuse_create_live effect observed true
  | .UNCOMMITTED, .STARTED, .POST, .POST => refuse_create_live effect observed true
  | .UNCOMMITTED, .STARTED, .EXTERNAL, .ABSENT => refuse_create_live effect observed false
  | .UNCOMMITTED, .STARTED, .EXTERNAL, .PREFIX => refuse_create_live effect observed true
  | .UNCOMMITTED, .STARTED, .EXTERNAL, .POST => refuse_create_live effect observed true
  | .UNCOMMITTED, .DONE, .POST, .ABSENT => remove_live_creation effect observed
  | .UNCOMMITTED, .UNDO_STARTED, .POST, .ABSENT => remove_live_creation effect observed
  | .UNCOMMITTED, .UNDO_STARTED, .ABSENT, .POST => remove
  | .UNCOMMITTED, .UNDO_STARTED, .ABSENT, .ABSENT => decision .ALREADY_UNDONE observed []
  | _, _, _, _ => halt observed .EFFECT_TUPLE_UNATTRIBUTABLE

/-- `_restore_tombstone` -/
def restore_tombstone (effect : DeletePath) (observed : JointObservation) : EffectDecision :=
  decision .RESTORE_TOMBSTONE observed
    [.TransformEffectTuple
      (transform (.DeletePath effect) observed [observed.scratch_entry] OBSERVED_ABSENT .RESTORE_PRE [])]

/-- The table of `_classify_delete`, over the classes of the live entry and the tombstone. -/
def delete_cell (commit : CommitDecision) (journal : JournalState) (effect : DeletePath)
    (observed : JointObservation) (live_class tombstone_class : EntryClass) : EffectDecision :=
  match commit, journal, live_class, tombstone_class with
  | .COMMITTED, .DONE, .ABSENT, .PRE => remove_decision .REMOVE_SCRATCH (.DeletePath effect) observed
  | .COMMITTED, .DONE, .ABSENT, .ABSENT => decision .NO_ACTION observed []
  | .UNCOMMITTED, .STARTED, .PRE, .ABSENT => decision .UNDO_WITHOUT_MUTATION observed []
  | .UNCOMMITTED, .STARTED, .ABSENT, .PRE => restore_tombstone effect observed
  | .UNCOMMITTED, .DONE, .ABSENT, .PRE => restore_tombstone effect observed
  | .UNCOMMITTED, .UNDO_STARTED, .ABSENT, .PRE => restore_tombstone effect observed
  | .UNCOMMITTED, .UNDO_STARTED, .PRE, .ABSENT => decision .ALREADY_UNDONE observed []
  | _, _, _, _ => halt observed .EFFECT_TUPLE_UNATTRIBUTABLE

variable [UnicodeData]

def classify_replace (s : RecoverySnapshot) (effect : ReplaceFile) : Except AtomsError EffectDecision := do
  let observed ← joint s (.ReplaceFile effect)
  if effect.pre = effect.post then
    let journal ← journal s effect.effect_id
    pure (noop_replace_cell s.commit_decision journal effect observed)
  else
    let live_class ← classify_entry (observed.persistent_entry 0) effect.pre effect.post none
    let staging_class ← classify_entry observed.scratch_entry effect.pre effect.post observed.scratch_relation
    let journal ← journal s effect.effect_id
    pure (replace_cell s.commit_decision journal effect observed live_class staging_class)

def classify_create_file (s : RecoverySnapshot) (effect : CreateFileNoClobber) : Except AtomsError EffectDecision := do
  let observed ← joint s (.CreateFileNoClobber effect)
  let live_class ← classify_entry (observed.persistent_entry 0) ABSENT effect.post none
  let staging_class ← classify_entry observed.scratch_entry ABSENT effect.post observed.scratch_relation
  let journal ← journal s effect.effect_id
  pure (create_file_cell s.commit_decision journal effect observed live_class staging_class)

def classify_delete (s : RecoverySnapshot) (effect : DeletePath) : Except AtomsError EffectDecision := do
  let observed ← joint s (.DeletePath effect)
  let live_class ← classify_entry (observed.persistent_entry 0) effect.pre.state ABSENT none
  let tombstone_class ← classify_entry observed.scratch_entry effect.pre.state ABSENT none
  let journal ← journal s effect.effect_id
  pure (delete_cell s.commit_decision journal effect observed live_class tombstone_class)

end atoms.recovery.variants

import Atoms.Recovery.Journal

open atoms.errors atoms.fingerprint atoms.effects atoms.compiler atoms.recovery.topology checked keyed

namespace atoms.recovery

inductive EntryClass
  | ABSENT | PRE | POST | PREFIX | EXTERNAL
  deriving DecidableEq

inductive EffectDecisionKind
  | NO_ACTION | PRESERVE_EXTERNAL | UNDO_WITHOUT_MUTATION | REMOVE_SCRATCH | EXCHANGE_BACK | REFUSED_EXCHANGE_BACK
  | ALREADY_UNDONE | REMOVE_LIVE_CREATION | REFUSED_PRESERVE_LIVE | RESTORE_TOMBSTONE | REMOVE_ANCHOR | RESTORE_SOURCE
  | REMOVE_DESTINATION | RESTORE_FROM_ANCHOR | REFUSED_PRESERVE_DESTINATION | REMOVE_WORK | REMOVE_LIVE_DIRECTORY
  | REMOVE_DUAL_NAME_DIRECTORY | HALT
  deriving DecidableEq

structure EffectDecision where
  kind : EffectDecisionKind
  steps : List RecoveryStep
  refused : Bool
  halt_reason : Option HaltReason
  expected : JointObservation
  observed : JointObservation
  deriving DecidableEq

namespace variants

def effect_variant : Effect → EffectVariant
  | .ReplaceFile _ => .REPLACE_FILE
  | .CreateFileNoClobber _ => .CREATE_FILE_NO_CLOBBER
  | .DeletePath _ => .DELETE_PATH
  | .MoveNoClobber _ => .MOVE_NO_CLOBBER
  | .CreateDirectory _ => .CREATE_DIRECTORY

/-- `_decision(kind, observed, steps=steps)`: an action that is not refused. -/
def decision (kind : EffectDecisionKind) (observed : JointObservation) (steps : List RecoveryStep) : EffectDecision :=
  { kind, steps, refused := false, halt_reason := none, expected := observed, observed }

/-- `_decision(kind, observed, steps=steps, refused=True)` -/
def refused_decision (kind : EffectDecisionKind) (observed : JointObservation) (steps : List RecoveryStep) :
    EffectDecision :=
  { kind, steps, refused := true, halt_reason := none, expected := observed, observed }

/-- `_halt(observed, observed, reason=reason)` -/
def halt (observed : JointObservation) (reason : HaltReason) : EffectDecision :=
  { kind := .HALT, steps := [], refused := false, halt_reason := some reason, expected := observed, observed }

def entry_state (entry : ObservedEntry) : Except AtomsError PathState :=
  match entry.state? with
  | some state => pure state
  | none => throw (.ProtocolError "observation entry has the wrong exact runtime type")

def classify_entry (entry : ObservedEntry) (pre post : PathState) (build_relation : Option FileBuildRelation) :
    Except AtomsError EntryClass :=
  if entry.is_absent then pure .ABSENT
  else do
    let state ← entry_state entry
    if state = pre then pure .PRE
    else if state = post then pure .POST
    else if build_relation = some .STRICT_PREFIX then pure .PREFIX
    else pure .EXTERNAL

def effect_paths : Effect → List RelPath
  | .ReplaceFile e => [e.path]
  | .CreateFileNoClobber e => [e.path]
  | .DeletePath e => [e.path]
  | .MoveNoClobber e => [e.source, e.destination]
  | .CreateDirectory e => [e.path]

/-- Whether a topology child is present; a child that is not a slot of the plan always is. -/
def child_present (persistent : List PersistentObservation) (scratch : List ScratchObservation) :
    TopologyNode → Bool
  | .PersistentNode path =>
    (find_key PersistentObservation.path persistent path).any fun item => !item.entry.is_absent
  | .ScratchNode effect_id role =>
    (find_key ScratchObservation.key scratch (effect_id, role)).any fun item => !item.entry.is_absent
  | _ => true

/-- The children of `parent` that are present, in the order of the topology's edges. -/
def present_children (topology : RecoveryTopology) (persistent : List PersistentObservation)
    (scratch : List ScratchObservation) (parent : TopologyNode) : List TopologyNode :=
  (children_of topology.parents parent).filter (child_present persistent scratch)

end variants

end atoms.recovery

import Atoms.Recovery.Variants.Files
import Atoms.Recovery.Variants.MoveDirectory

open atoms.errors atoms.fingerprint atoms.effects atoms.compiler checked keyed

namespace atoms.recovery.variants

variable [UnicodeData]

/-- `_expected_retained_scratch_state`: a creation retains no scratch. -/
def expected_retained_scratch_state : Effect → Option PathState
  | .ReplaceFile e => some e.pre
  | .DeletePath e => some e.pre.state
  | .MoveNoClobber e => some e.source_pre
  | .CreateFileNoClobber _ => none
  | .CreateDirectory _ => none

/-- `_committed_scratch_joint` -/
def committed_scratch_joint (s : RecoverySnapshot) (effect : Effect) : Except AtomsError JointObservation :=
  match find_key ScratchObservation.key s.scratch_observations (scratch_key effect) with
  | some item => pure { persistent := [], scratch := [item], parent_occupancy := [] }
  | none => throw (.ProtocolError "snapshot is missing effect observation coverage")

/-- Classify one scratch slot after the caller proves the final surface. -/
def classify_committed_cleanup (s : RecoverySnapshot) (effect_index : Nat) : Except AtomsError EffectDecision :=
  match s.compiled.spec.effects[effect_index]? with
  | none => throw (.ProtocolError "effect_index is outside compiled effect coverage")
  | some effect => do
    require_protocol (s.transaction_state = .COMMITTED ∧ s.commit_decision = .COMMITTED ∧
        ∀ journal ∈ s.journals, journal.state = .DONE)
      "committed cleanup requires COMMITTED authority with all effects DONE"
    let observed ← committed_scratch_joint s effect
    if observed.scratch_entry.is_absent then pure (decision .NO_ACTION observed [])
    else match expected_retained_scratch_state effect with
      | none => pure (halt observed .EFFECT_TUPLE_UNATTRIBUTABLE)
      | some expected => do
        let state ← entry_state observed.scratch_entry
        if state ≠ expected then pure (halt observed .EFFECT_TUPLE_UNATTRIBUTABLE)
        else
          let kind := match effect with
            | .MoveNoClobber _ => EffectDecisionKind.REMOVE_ANCHOR
            | _ => .REMOVE_SCRATCH
          pure (remove_decision kind effect observed)

/-- The frontier of `path` in `_frontier_map`. -/
def frontier_of (frontiers : List PathFrontier) (path : RelPath) : Option PathFrontier :=
  find_key PathFrontier.path frontiers path

/-- `_at_frontier`: the paths whose state is not the one that the frontier expects. -/
def at_frontier (observed : JointObservation) (frontiers : List PathFrontier) :
    Except AtomsError (List RelPath) := do
  let drifted ← observed.persistent.mapM fun item =>
    match frontier_of frontiers item.path with
    | none => throw (.ProtocolError "frontiers are missing an owned path")
    | some frontier => do
      let state ← entry_state item.entry
      pure (item.path, decide (state ≠ frontier.expected_state))
  pure (drifted.filterMap fun (path, drift) => if drift then some path else none)

def classify_pending (s : RecoverySnapshot) (effect : Effect) (frontiers : List PathFrontier) :
    Except AtomsError EffectDecision := do
  let observed ← joint s effect
  if observed.scratch.any fun item => !item.entry.is_absent then
    pure (halt observed .EFFECT_TUPLE_UNATTRIBUTABLE)
  else do
    let drifted ← at_frontier observed frontiers
    if drifted = [] then pure (decision .NO_ACTION observed [])
    else pure (refused_decision .PRESERVE_EXTERNAL observed
      [.PreserveExternal (preserve (drifted.map .PersistentNode))])

def classify_undone (s : RecoverySnapshot) (effect : Effect) (frontiers : List PathFrontier) :
    Except AtomsError EffectDecision := do
  let observed ← joint s effect
  let scratch_absent := observed.scratch.all fun item => item.entry.is_absent
  let drifted ← at_frontier observed frontiers
  if scratch_absent ∧ drifted = [] then pure (decision .NO_ACTION observed [])
  else pure (halt observed .EFFECT_TUPLE_UNATTRIBUTABLE)

/-- `_CLASSIFIERS` -/
def classify_variant (s : RecoverySnapshot) : Effect → Except AtomsError EffectDecision
  | .ReplaceFile e => classify_replace s e
  | .CreateFileNoClobber e => classify_create_file s e
  | .DeletePath e => classify_delete s e
  | .MoveNoClobber e => classify_move s e
  | .CreateDirectory e => classify_directory s e

def classify_effect (s : RecoverySnapshot) (effect_index : Nat) (frontiers : List PathFrontier) :
    Except AtomsError EffectDecision :=
  match s.compiled.spec.effects[effect_index]? with
  | none => throw (.ProtocolError "effect_index is outside compiled effect coverage")
  | some effect => do
    require_protocol (frontiers.map PathFrontier.path).Nodup "frontiers contain duplicate path coverage"
    require_protocol (set_eq (frontiers.map PathFrontier.path)
        (s.persistent_observations.map PersistentObservation.path))
      "frontiers do not provide exact snapshot path coverage"
    let journal ← journal s effect.effect_id
    match journal with
    | .PENDING => classify_pending s effect frontiers
    | .UNDONE => classify_undone s effect frontiers
    | _ => classify_variant s effect

end atoms.recovery.variants

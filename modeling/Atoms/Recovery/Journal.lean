import Atoms.Recovery.Plan

open atoms.errors atoms.fingerprint atoms.effects atoms.timeline atoms.compiler checked keyed

namespace atoms.recovery

inductive AuthorityKind
  | CLASSIFY | DETACH | NO_RECOVERY | STABLE_HALT | HALT
  deriving DecidableEq

structure AuthorityDecision where
  kind : AuthorityKind
  halt_reason : Option HaltReason
  deriving DecidableEq

inductive FrontierDirection
  | FORWARD | REVERSE | INITIAL
  deriving DecidableEq

structure PathFrontier where
  path : RelPath
  direction : FrontierDirection
  effect_index : Option Nat
  effect_id : Option String
  journal_state : Option JournalState
  expected_state : PathState
  admissible_states : List PathState
  deriving DecidableEq

namespace journal

/-- The phase loop of `_forward_language`. -/
def forward_language_from : Nat → List JournalState → Bool
  | _, [] => true
  | phase, state :: rest =>
    if phase = 0 ∧ state = .DONE then forward_language_from phase rest
    else if phase = 0 ∧ state = .STARTED then forward_language_from 1 rest
    else if state = .PENDING then forward_language_from 2 rest
    else false

def forward_language (states : List JournalState) : Bool := forward_language_from 0 states

/-- The phase loop of `_reverse_language`. -/
def reverse_language_from : Nat → List JournalState → Bool
  | _, [] => true
  | phase, state :: rest =>
    if phase = 0 ∧ state = .DONE then reverse_language_from phase rest
    else if phase = 0 ∧ state = .UNDO_STARTED then reverse_language_from 1 rest
    else if state = .UNDONE ∧ phase ∈ [0, 1, 2] then reverse_language_from 2 rest
    else if state = .PENDING ∧ phase ∈ [0, 2, 3] then reverse_language_from 3 rest
    else false

def reverse_language (states : List JournalState) : Bool := reverse_language_from 0 states

/-- The loop of `_rolled_back_language`: `pending` once a `PENDING` state was seen. -/
def rolled_back_language_from : Bool → List JournalState → Bool
  | _, [] => true
  | pending, state :: rest =>
    if state = .PENDING then rolled_back_language_from true rest
    else if state = .UNDONE ∧ pending = false then rolled_back_language_from pending rest
    else false

def rolled_back_language (states : List JournalState) : Bool := rolled_back_language_from false states

def compatible_commit_decision (state : TransactionState) (decision : CommitDecision) : Bool :=
  match state with
  | .HALTED => true
  | .COMMITTED => decision == .COMMITTED
  | _ => decision == .UNCOMMITTED

/-- `_legal_journal_language`; the caller has already handled `HALTED`. -/
def legal_journal_language (state : TransactionState) (states : List JournalState) : Bool :=
  match state with
  | .PREPARED => states.all (· == .PENDING)
  | .APPLYING => forward_language states
  | .APPLIED => states.all (· == .DONE)
  | .ROLLING_BACK => forward_language states || reverse_language states
  | .COMMITTED => states.all (· == .DONE)
  | .ROLLED_BACK => rolled_back_language states
  | .HALTED => false

end journal

variable [UnicodeData]

/-- The journal vector of a snapshot, in effect order. -/
abbrev RecoverySnapshot.states (s : RecoverySnapshot) : List JournalState :=
  s.journals.map EffectJournalState.state

abbrev RecoverySnapshot.effects (s : RecoverySnapshot) : List Effect := s.compiled.spec.effects

namespace journal

def require_snapshot (s : RecoverySnapshot) : Except AtomsError Unit :=
  require_protocol (s.journals.map EffectJournalState.effect_id = s.compiled.spec.effects.map Effect.effect_id)
    "snapshot journal coverage does not match compiled effects"

def classify_transaction_authority (s : RecoverySnapshot) : Except AtomsError AuthorityDecision := do
  require_snapshot s
  let state := s.transaction_state
  if ¬ compatible_commit_decision state s.commit_decision then
    pure { kind := .HALT, halt_reason := some .COMMIT_DECISION_CONFLICT }
  else if state = .HALTED then
    match s.halt_diagnostic with
    | none => throw (.ProtocolError "HALTED snapshot is missing its exact halt diagnostic")
    | some diagnostic => pure { kind := .STABLE_HALT, halt_reason := some diagnostic.reason }
  else if ¬ legal_journal_language state s.states then
    pure { kind := .HALT, halt_reason := some .JOURNAL_TOPOLOGY_INVALID }
  else if ¬ s.active ∧ state ∈ [TransactionState.COMMITTED, .ROLLED_BACK] then
    pure { kind := .NO_RECOVERY, halt_reason := none }
  else if ¬ s.active then
    pure { kind := .HALT, halt_reason := some .ACTIVE_BINDING_MISSING }
  else if state = .ROLLED_BACK then
    pure { kind := .DETACH, halt_reason := none }
  else
    pure { kind := .CLASSIFY, halt_reason := none }

end journal

namespace journal

/-- `_unique_states`: the first of each group of equal states. -/
def unique_states : List PathState → List PathState
  | [] => []
  | state :: rest => state :: (unique_states rest).filter (· ≠ state)

def initial_frontier (path : RelPath) (occurrences : List (TimelineOccurrence × JournalState)) :
    Except AtomsError PathFrontier :=
  match occurrences with
  | [] => throw (.ProtocolError "compiled path timeline has no occurrences")
  | (first, _) :: _ =>
    pure { path, direction := .INITIAL, effect_index := none, effect_id := none, journal_state := none,
           expected_state := first.pre, admissible_states := [first.pre] }

/-- `_effect_index` -/
def effect_index (effects : List Effect) (effect_id : String) : Except AtomsError Nat :=
  match find_key (fun item : Effect × Nat => item.1.effect_id) effects.zipIdx effect_id with
  | some item => pure item.2
  | none => throw (.ProtocolError "timeline occurrence is missing from compiled effect order")

/-- A frontier at one occurrence. -/
def frontier_at (effects : List Effect) (path : RelPath) (direction : FrontierDirection)
    (selected : TimelineOccurrence) (state : JournalState) (expected : PathState) (admissible : List PathState) :
    Except AtomsError PathFrontier := do
  let index ← effect_index effects selected.effect_id
  pure { path, direction, effect_index := some index, effect_id := some selected.effect_id,
         journal_state := some state, expected_state := expected, admissible_states := admissible }

def forward_frontier (effects : List Effect) (path : RelPath)
    (occurrences : List (TimelineOccurrence × JournalState)) : Except AtomsError PathFrontier :=
  match occurrences.filter fun item => item.2 = .STARTED with
  | _ :: _ :: _ => throw (.ProtocolError "forward path frontier has multiple STARTED occurrences")
  | [(selected, _)] =>
    frontier_at effects path .FORWARD selected .STARTED selected.pre (unique_states [selected.pre, selected.post])
  | [] => match (occurrences.filter fun item => item.2 = .DONE).getLast? with
    | none => initial_frontier path occurrences
    | some (selected, _) => frontier_at effects path .FORWARD selected .DONE selected.post [selected.post]

/-- The occurrences that may have changed their path and whose change rollback has not settled. -/
def reverse_candidates (occurrences : List (TimelineOccurrence × JournalState)) :
    List (TimelineOccurrence × JournalState) :=
  occurrences.filter fun item => item.2 ∈ [JournalState.DONE, .STARTED, .UNDO_STARTED]

def reverse_frontier (effects : List Effect) (path : RelPath)
    (occurrences : List (TimelineOccurrence × JournalState)) : Except AtomsError PathFrontier :=
  match (reverse_candidates occurrences).getLast? with
  | none => initial_frontier path occurrences
  | some (selected, state) =>
    let admissible := match state with
      | .STARTED => unique_states [selected.pre, selected.post]
      | .UNDO_STARTED => unique_states [selected.post, selected.pre]
      | _ => [selected.post]
    frontier_at effects path .REVERSE selected state selected.post admissible

/-- A timeline's occurrences, each with its effect's journal state. -/
def occurrence_states (journals : List EffectJournalState) (occurrences : List TimelineOccurrence) :
    Except AtomsError (List (TimelineOccurrence × JournalState)) :=
  occurrences.mapM fun occurrence => match snapshot.journal_of journals occurrence.effect_id with
    | some state => pure (occurrence, state)
    | none => throw (.ProtocolError "timeline occurrence has no journal coverage")

def reconstruct_frontiers (s : RecoverySnapshot) : Except AtomsError (List PathFrontier) := do
  require_snapshot s
  s.compiled.timelines.mapM fun timeline => do
    let occurrences ← occurrence_states s.journals timeline.occurrences
    if s.transaction_state = .ROLLING_BACK then
      reverse_frontier s.compiled.spec.effects timeline.path occurrences
    else
      forward_frontier s.compiled.spec.effects timeline.path occurrences

end journal

end atoms.recovery

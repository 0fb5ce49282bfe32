import Atoms.Recovery.Journal.Exact

open atoms.errors atoms.fingerprint atoms.effects atoms.spec atoms.timeline atoms.compiler checked

namespace atoms.recovery.journal

section

variable [UnicodeData]

/-- The authority check does not halt on the snapshot. -/
def accepts (s : RecoverySnapshot) : Prop :=
  ∃ decision, classify_transaction_authority s = .ok decision ∧ decision.kind ≠ .HALT ∧ decision.kind ≠ .STABLE_HALT

/-- The durable record that a snapshot was taken of. -/
def durable_record (s : RecoverySnapshot) : DurableRecord := ⟨s.transaction_state, s.states, s.commit_decision⟩

/-- On an active record with a matching commit decision the check is the journal language and nothing else. -/
theorem accepts_iff {s : RecoverySnapshot} (hactive : s.active = true)
    (hdecision : compatible_commit_decision s.transaction_state s.commit_decision = true) :
    accepts s ↔ legal_journal_language s.transaction_state s.states = true := by
  have hsnapshot : require_snapshot s = .ok () := by simp [require_snapshot, s.journal_ids]
  unfold accepts classify_transaction_authority
  rw [hsnapshot]
  simp only [ok_bind, hdecision, hactive]
  by_cases hhalted : s.transaction_state = .HALTED
  · simp only [hhalted, legal_journal_language]
    cases s.halt_diagnostic <;> simp
  · by_cases hlegal : legal_journal_language s.transaction_state s.states = true
    · by_cases hrolled_back : s.transaction_state = .ROLLED_BACK <;> simp_all
    · simp [hhalted, hlegal]

/-- A snapshot's pair of transaction state and journal vector is accepted exactly when
a run reaches it, except where rollback stands between the two transitions of an
effect directly before effects that never started: that pair is reached and halts. -/
theorem authority_exact_iff (s : RecoverySnapshot) (hactive : s.active = true)
    (hdecision : compatible_commit_decision s.transaction_state s.commit_decision = true) :
    (accepts s ↔ Reachable s.effects.length (durable_record s)) ↔
      ¬ (s.transaction_state = .ROLLING_BACK ∧ ∃ a b, s.states = vector a [.UNDO_STARTED] 0 (b + 1)) := by
  rw [accepts_iff hactive hdecision]
  have hlength : s.effects.length = (durable_record s).states.length := s.states_length.symm
  constructor
  · rintro hexact ⟨hstate, a, b, hstates⟩
    have hreached : Reachable s.effects.length (durable_record s) := by
      rw [hlength, durable_record, hstates, hstate]
      have hdecision : s.commit_decision = .UNCOMMITTED := by
        simpa [hstate, compatible_commit_decision] using hdecision
      simpa [hdecision, vector_length, Nat.add_assoc] using Reachable.reversing a 0 (b + 1)
    have hlegal := hexact.mpr hreached
    rw [hstate, hstates, legal_journal_language, Bool.or_eq_true, forward_language_iff, reverse_language_iff] at hlegal
    rcases hlegal with ⟨a', b', h | h⟩ | ⟨a', c', b', h | ⟨h, hexact'⟩⟩
    all_goals have hcount := fun state => congrArg (List.count state) h
    all_goals simp only [vector, List.count_append, List.count_replicate, List.count_cons, List.count_nil] at hcount
    all_goals have hundo := hcount .UNDO_STARTED
    all_goals have hundone := hcount .UNDONE
    all_goals have hpending := hcount .PENDING
    all_goals simp at hundo hundone hpending
    omega
  · intro hregular
    constructor
    · intro hlegal
      rw [hlength]
      exact reachable_of_language hdecision hlegal
    · intro hreached
      exact hreached.shape.language.resolve_right hregular

end

/-! A rollback over two directory creations, of which only the first had started. -/

/-- The Unicode database on the ASCII texts of the fixed inputs below. -/
@[reducible] def ascii : UnicodeData where
  nfc := id
  nfd := id
  casefold := fun text => text.map Char.toLower
  is_printable := fun c => 32 ≤ c.toNat && c.toNat < 127

section

attribute [local instance] ascii

def two_directories_spec : TransactionSpec where
  schema_version := 2
  consumer_tag := "tag"
  intent_digest := "sha256:0000000000000000000000000000000000000000000000000000000000000000"
  initial_surface := [⟨"a", ABSENT⟩, ⟨"b", ABSENT⟩]
  final_surface := [⟨"a", .DirectoryState ⟨0o755⟩⟩, ⟨"b", .DirectoryState ⟨0o755⟩⟩]
  effects := [.CreateDirectory ⟨"e1", "a", ⟨0o755⟩⟩, .CreateDirectory ⟨"e2", "b", ⟨0o755⟩⟩]
  dependencies := []
  fulfills := none
  registered_paths := []

def two_directories : CompiledSpec where
  spec := two_directories_spec
  timelines := [⟨"a", [⟨"e1", 0, "target", ABSENT, .DirectoryState ⟨0o755⟩⟩]⟩,
    ⟨"b", [⟨"e2", 1, "target", ABSENT, .DirectoryState ⟨0o755⟩⟩]⟩]
  issued := ⟨two_directories_spec, by decide +kernel, by decide +kernel⟩

def two_directories_topology : RecoveryTopology where
  parents := [⟨.WorkRoot, .ProjectRoot⟩, ⟨.PersistentNode "a", .ProjectRoot⟩, ⟨.PersistentNode "b", .ProjectRoot⟩,
    ⟨.ScratchNode "e1" .WORK, .WorkRoot⟩, ⟨.ScratchNode "e2" .WORK, .WorkRoot⟩]

/-- A snapshot of the two creations that observes every name absent. -/
def two_directories_fields (state : TransactionState) (first second : JournalState) : SnapshotFields where
  compiled := two_directories
  topology := two_directories_topology
  transaction_state := state
  commit_decision := .UNCOMMITTED
  rollback_result := none
  halt_diagnostic := none
  active := true
  journals := [⟨"e1", first⟩, ⟨"e2", second⟩]
  persistent_observations := [⟨"a", .ObservedAbsent⟩, ⟨"b", .ObservedAbsent⟩]
  scratch_observations := [⟨"e1", .WORK, .ObservedAbsent, none⟩, ⟨"e2", .WORK, .ObservedAbsent, none⟩]

def reversing_before_pending : RecoverySnapshot where
  toSnapshotFields := two_directories_fields .ROLLING_BACK .UNDO_STARTED .PENDING
  issued := by decide +kernel

def reversed_before_pending : RecoverySnapshot where
  toSnapshotFields := two_directories_fields .ROLLING_BACK .UNDONE .PENDING
  issued := by decide +kernel

/-- The pair that a crash leaves after the first transition of that rollback is reached and not accepted. -/
theorem reversing_before_pending_halts :
    Reachable 2 (durable_record reversing_before_pending) ∧ ¬ accepts reversing_before_pending := by
  have hreached : Reachable 2 (durable_record reversing_before_pending) := Reachable.reversing 0 0 1
  refine ⟨hreached, fun haccepts => ?_⟩
  rw [accepts_iff rfl rfl] at haccepts
  revert haccepts
  decide

/-- One transition later the pair is reached and accepted. -/
theorem reversed_before_pending_exact :
    accepts reversed_before_pending ↔ Reachable 2 (durable_record reversed_before_pending) := by
  refine (authority_exact_iff reversed_before_pending rfl rfl).mpr ?_
  rintro ⟨_, a, b, hstates⟩
  have hcount := congrArg (List.count JournalState.UNDO_STARTED) hstates
  have hzero : List.count JournalState.UNDO_STARTED reversed_before_pending.states = 0 := by decide
  simp [vector, List.count_replicate, hzero] at hcount

end

end atoms.recovery.journal

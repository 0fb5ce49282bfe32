import Atoms.Recovery.Classifier
import Atoms.Recovery.Journal.Language

open atoms.errors checked

namespace atoms.recovery.journal

/-- The durable fields of a record that the journal language speaks about. -/
structure DurableRecord where
  transaction_state : TransactionState
  states : List JournalState
  commit_decision : CommitDecision
  deriving DecidableEq

/-- The vectors that the reversal of one effect commits, in order. -/
def reversal_vectors (states : List JournalState) (index : Nat) : List (List JournalState) :=
  match states[index]? with
  | some .STARTED | some .DONE => [states.set index .UNDO_STARTED, states.set index .UNDONE]
  | some .UNDO_STARTED => [states.set index .UNDONE]
  | _ => []

/-- The vector after the reversal of one effect. -/
def settled_vector (states : List JournalState) (index : Nat) : List JournalState :=
  match states[index]? with
  | some .STARTED | some .DONE | some .UNDO_STARTED => states.set index .UNDONE
  | _ => states

/-- The vectors that the reversal of the first `count` effects commits, last effect first. -/
def rollback_vectors : Nat → List JournalState → List (List JournalState)
  | 0, _ => []
  | index + 1, states => reversal_vectors states index ++ rollback_vectors index (settled_vector states index)

/-- The vector after the reversal of the first `count` effects. -/
def final_vector : Nat → List JournalState → List JournalState
  | 0, states => states
  | index + 1, states => final_vector index (settled_vector states index)

/-- The records that a rollback plan for `record` commits, in order. -/
def rollback_records (record : DurableRecord) : List DurableRecord :=
  (if record.transaction_state = .ROLLING_BACK then [] else [{ record with transaction_state := .ROLLING_BACK }]) ++
  (rollback_vectors record.states.length record.states).map (fun states =>
    { record with transaction_state := .ROLLING_BACK, states }) ++
  [{ record with transaction_state := .ROLLED_BACK, states := final_vector record.states.length record.states }]

/-- A record from which recovery rolls back. -/
def rolls_back (record : DurableRecord) : Prop :=
  record.transaction_state ∈ [TransactionState.PREPARED, .APPLYING, .APPLIED, .ROLLING_BACK] ∧
  legal_journal_language record.transaction_state record.states

/-- The durable records of runs over `n` effects: forward execution in effect
order, and recovery, which starts from the record that a crash leaves and can
itself be cut between any two of its transitions. -/
inductive Reachable (n : Nat) : DurableRecord → Prop
  | prepared : Reachable n ⟨.PREPARED, List.replicate n .PENDING, .UNCOMMITTED⟩
  | applying {states : List JournalState} : Reachable n ⟨.PREPARED, states, .UNCOMMITTED⟩ →
      Reachable n ⟨.APPLYING, states, .UNCOMMITTED⟩
  | started {i b : Nat} : Reachable n ⟨.APPLYING, vector i [] 0 (b + 1), .UNCOMMITTED⟩ →
      Reachable n ⟨.APPLYING, vector i [.STARTED] 0 b, .UNCOMMITTED⟩
  | done {i b : Nat} : Reachable n ⟨.APPLYING, vector i [.STARTED] 0 b, .UNCOMMITTED⟩ →
      Reachable n ⟨.APPLYING, vector (i + 1) [] 0 b, .UNCOMMITTED⟩
  | applied : Reachable n ⟨.APPLYING, List.replicate n .DONE, .UNCOMMITTED⟩ →
      Reachable n ⟨.APPLIED, List.replicate n .DONE, .UNCOMMITTED⟩
  | committed : Reachable n ⟨.APPLIED, List.replicate n .DONE, .UNCOMMITTED⟩ →
      Reachable n ⟨.COMMITTED, List.replicate n .DONE, .COMMITTED⟩
  | recovered {record next : DurableRecord} : Reachable n record → rolls_back record →
      next ∈ rollback_records record → Reachable n next

/-! The vectors of a rollback. -/

theorem vector_append_settled (done undone pending : Nat) (in_flight : List JournalState) :
    vector done in_flight undone pending = vector done in_flight 0 0 ++ vector 0 [] undone pending := by
  simp [vector]

/-- Effects that are reversed or never started add nothing to a rollback. -/
theorem rollback_vectors_append {settled : List JournalState} (hsettled : ∀ state ∈ settled, state = .UNDONE ∨ state = .PENDING)
    (states : List JournalState) :
    rollback_vectors (states ++ settled).length (states ++ settled) =
        rollback_vectors states.length (states ++ settled) ∧
      final_vector (states ++ settled).length (states ++ settled) =
        final_vector states.length (states ++ settled) := by
  induction settled generalizing states with
  | nil => simp
  | cons state rest ih =>
    have hrest := ih (fun other hmem => hsettled other (List.mem_cons_of_mem _ hmem)) (states ++ [state])
    simp only [List.append_assoc, List.singleton_append] at hrest
    rw [hrest.1, hrest.2, List.length_append, List.length_singleton, rollback_vectors, final_vector]
    rcases hsettled state List.mem_cons_self with rfl | rfl <;> simp [reversal_vectors, settled_vector]

theorem set_append_cons (done : List JournalState) (old new : JournalState) (rest : List JournalState) :
    (done ++ old :: rest).set done.length new = done ++ new :: rest := by simp

/-- The vectors of a rollback of `count` applied effects before `rest`. -/
theorem mem_rollback_vectors_done (count : Nat) (rest states : List JournalState) :
    states ∈ rollback_vectors count (List.replicate count .DONE ++ rest) ↔
      ∃ j c, j + c + 1 = count ∧ (states = List.replicate j .DONE ++ .UNDO_STARTED :: (List.replicate c .UNDONE ++ rest) ∨
        states = List.replicate j .DONE ++ .UNDONE :: (List.replicate c .UNDONE ++ rest)) := by
  induction count generalizing rest with
  | zero => simp [rollback_vectors]
  | succ count ih =>
    have hsplit : List.replicate (count + 1) JournalState.DONE ++ rest =
        List.replicate count .DONE ++ .DONE :: rest := by simp [List.replicate_succ', List.append_assoc]
    have hget : (List.replicate count JournalState.DONE ++ .DONE :: rest)[count]? = some .DONE := by simp
    have hset : ∀ new, (List.replicate count JournalState.DONE ++ .DONE :: rest).set count new =
        List.replicate count .DONE ++ new :: rest := by
      intro new
      rw [← set_append_cons (List.replicate count .DONE) .DONE new rest, List.length_replicate]
    rw [hsplit, rollback_vectors, List.mem_append]
    simp only [reversal_vectors, settled_vector, hget, hset, ih, List.mem_cons, List.not_mem_nil, or_false]
    constructor
    · rintro ((rfl | rfl) | ⟨j, c, hcount, h | h⟩)
      · exact ⟨count, 0, rfl, .inl rfl⟩
      · exact ⟨count, 0, rfl, .inr rfl⟩
      · exact ⟨j, c + 1, by omega, .inl (by simpa [List.replicate_succ'] using h)⟩
      · exact ⟨j, c + 1, by omega, .inr (by simpa [List.replicate_succ'] using h)⟩
    · rintro ⟨j, c, hcount, h⟩
      cases c with
      | zero =>
        obtain rfl : j = count := by omega
        exact .inl (by simpa using h)
      | succ c => exact .inr ⟨j, c, by omega, by simpa [List.replicate_succ'] using h⟩

theorem final_vector_done (count : Nat) (rest : List JournalState) :
    final_vector count (List.replicate count .DONE ++ rest) = List.replicate count .UNDONE ++ rest := by
  induction count generalizing rest with
  | zero => simp [final_vector]
  | succ count ih =>
    have hsplit : List.replicate (count + 1) JournalState.DONE ++ rest =
        List.replicate count .DONE ++ .DONE :: rest := by simp [List.replicate_succ', List.append_assoc]
    have hget : (List.replicate count JournalState.DONE ++ .DONE :: rest)[count]? = some .DONE := by simp
    have hset := set_append_cons (List.replicate count .DONE) .DONE .UNDONE rest
    rw [List.length_replicate] at hset
    rw [hsplit, final_vector]
    simp only [settled_vector, hget, hset, ih]
    simp [List.replicate_succ']

/-- The vectors that a rollback over `n` effects passes through while `pending` effects have not started. -/
def mid_rollback (n pending : Nat) (states : List JournalState) : Prop :=
  states.length = n ∧ ∃ a c, states = vector a [.UNDO_STARTED] c pending ∨ states = vector a [] c pending

theorem mid_rollback_of_mem {count c b : Nat} {states : List JournalState}
    (hmem : states ∈ rollback_vectors count (List.replicate count .DONE ++ vector 0 [] c b)) :
    mid_rollback (count + c + b) b states := by
  rw [mem_rollback_vectors_done] at hmem
  obtain ⟨j, k, hcount, rfl | rfl⟩ := hmem
  · refine ⟨by simp [vector]; omega, j, k + c, .inl ?_⟩
    simp [vector, ← List.replicate_append_replicate]
  · refine ⟨by simp [vector]; omega, j, k + 1 + c, .inr ?_⟩
    simp [vector, ← List.replicate_append_replicate, List.replicate_succ, Nat.add_comm k 1]

theorem final_vector_applied (count c b : Nat) :
    final_vector count (List.replicate count .DONE ++ vector 0 [] c b) = vector 0 [] (count + c) b := by
  rw [final_vector_done]
  simp [vector, ← List.replicate_append_replicate]

/-- The reversal of the effect in flight comes first, and leaves one more reversed effect. -/
theorem rollback_vectors_in_flight {state : JournalState} (hstate : state = .STARTED ∨ state = .UNDO_STARTED)
    (a c b : Nat) :
    (∀ states ∈ rollback_vectors (a + 1) (vector a [state] c b),
      states = vector a [.UNDO_STARTED] c b ∨ states = vector a [] (c + 1) b ∨
        states ∈ rollback_vectors a (List.replicate a .DONE ++ vector 0 [] (c + 1) b)) ∧
    final_vector (a + 1) (vector a [state] c b) =
      final_vector a (List.replicate a .DONE ++ vector 0 [] (c + 1) b) := by
  have hget : (vector a [state] c b)[a]? = some state := by simp [vector]
  have hset : ∀ new, (vector a [state] c b).set a new = vector a [new] c b := by
    intro new
    simp [vector]
  have hundone : vector a [.UNDONE] c b = List.replicate a .DONE ++ vector 0 [] (c + 1) b := by
    simp [vector, List.replicate_succ]
  have hmerged : vector a [.UNDONE] c b = vector a [] (c + 1) b := by simp [vector, List.replicate_succ]
  rw [rollback_vectors, final_vector]
  rcases hstate with rfl | rfl <;>
    · simp only [reversal_vectors, settled_vector, hget, hset, List.mem_append, List.mem_cons, List.not_mem_nil, or_false]
      rw [← hundone, hmerged]
      refine ⟨?_, rfl⟩
      grind

/-- Every vector of a rollback that starts from an accepted vector, and the vector it ends with. -/
theorem rollback_vectors_spec {a c b : Nat} {in_flight : List JournalState}
    (hin_flight : in_flight ∈ [[], [JournalState.STARTED], [.UNDO_STARTED]]) :
    (∀ states ∈ rollback_vectors (vector a in_flight c b).length (vector a in_flight c b),
      mid_rollback (vector a in_flight c b).length b states) ∧
    final_vector (vector a in_flight c b).length (vector a in_flight c b) =
      vector 0 [] (a + in_flight.length + c) b := by
  have hsettled : ∀ state ∈ vector 0 [] c b, state = .UNDONE ∨ state = .PENDING := by
    intro state hmem
    simp only [vector, List.replicate_zero, List.nil_append, List.mem_append, List.mem_replicate] at hmem
    rcases hmem with ⟨_, rfl⟩ | ⟨_, rfl⟩ <;> simp
  have hskip := rollback_vectors_append hsettled (vector a in_flight 0 0)
  rw [← vector_append_settled] at hskip
  rw [hskip.1, hskip.2]
  rcases List.mem_cons.mp hin_flight with rfl | hin_flight
  · have hsplit : vector a [] c b = List.replicate a .DONE ++ vector 0 [] c b := by simp [vector]
    have hlength : (vector a [] 0 0).length = a := by simp [vector]
    rw [hlength, hsplit, final_vector_applied]
    refine ⟨fun states hmem => ?_, by simp⟩
    simpa [vector, Nat.add_assoc] using mid_rollback_of_mem hmem
  · obtain ⟨state, rfl, hstate⟩ : ∃ state, in_flight = [state] ∧ (state = .STARTED ∨ state = .UNDO_STARTED) := by
      simp only [List.mem_cons, List.not_mem_nil, or_false] at hin_flight
      rcases hin_flight with rfl | rfl <;> simp
    obtain ⟨hvectors, hfinal⟩ := rollback_vectors_in_flight hstate a c b
    have hlength : (vector a [state] 0 0).length = a + 1 := by simp [vector]
    rw [hlength, hfinal, final_vector_applied]
    refine ⟨fun states hmem => ?_, by simp [Nat.add_assoc, Nat.add_comm 1 c]⟩
    have htotal : (vector a [state] c b).length = a + (c + 1) + b := by simp [vector]; omega
    rcases hvectors states hmem with rfl | rfl | hmem
    · exact ⟨by simp [vector], a, c, .inl rfl⟩
    · exact ⟨by simp [vector]; omega, a, c + 1, .inr rfl⟩
    · rw [htotal]
      exact mid_rollback_of_mem hmem

end atoms.recovery.journal

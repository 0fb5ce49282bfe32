import Atoms.Recovery.Journal.Runs
import Atoms.Recovery.Snapshot.Facts

open atoms.errors checked

namespace atoms.recovery.journal

/-- What holds of every durable record that a run reaches: its vector is one that
`_legal_journal_language` accepts, or a reversal stands directly before effects that never started. -/
structure RunShape (n : Nat) (record : DurableRecord) : Prop where
  length : record.states.length = n
  decision : compatible_commit_decision record.transaction_state record.commit_decision
  not_halted : record.transaction_state ≠ .HALTED
  language : legal_journal_language record.transaction_state record.states ∨
    record.transaction_state = .ROLLING_BACK ∧ ∃ a b, record.states = vector a [.UNDO_STARTED] 0 (b + 1)

theorem all_eq_replicate {states : List JournalState} {state : JournalState} :
    states.all (· == state) = true ↔ states = List.replicate states.length state := by
  simp [List.eq_replicate_iff]

/-- An accepted vector of a record that rolls back has one of the two shapes of the automata. -/
theorem rolls_back_shape {record : DurableRecord} (h : rolls_back record) :
    ∃ a c b in_flight, in_flight ∈ [[], [JournalState.STARTED], [.UNDO_STARTED]] ∧
      record.states = vector a in_flight c b := by
  obtain ⟨hstate, hlegal⟩ := h
  have hforward : forward_language record.states = true → ∃ a c b in_flight,
      in_flight ∈ [[], [JournalState.STARTED], [.UNDO_STARTED]] ∧ record.states = vector a in_flight c b := by
    intro hlanguage
    obtain ⟨a, b, h | h⟩ := forward_language_iff.mp hlanguage
    · exact ⟨a, 0, b, [], by simp, h⟩
    · exact ⟨a, 0, b, [.STARTED], by simp, h⟩
  simp only [List.mem_cons, List.not_mem_nil, or_false] at hstate
  rcases hstate with hstate | hstate | hstate | hstate <;> rw [hstate] at hlegal <;>
    simp only [legal_journal_language] at hlegal
  · exact ⟨0, 0, record.states.length, [], by simp, by simpa [vector] using all_eq_replicate.mp hlegal⟩
  · exact hforward hlegal
  · exact ⟨record.states.length, 0, 0, [], by simp, by simpa [vector] using all_eq_replicate.mp hlegal⟩
  · rw [Bool.or_eq_true] at hlegal
    rcases hlegal with hlegal | hlegal
    · exact hforward hlegal
    · obtain ⟨a, c, b, h | ⟨h, _⟩⟩ := reverse_language_iff.mp hlegal
      · exact ⟨a, c, b, [], by simp, h⟩
      · exact ⟨a, c, b, [.UNDO_STARTED], by simp, h⟩

/-- Opening the rollback keeps the vector accepted. -/
theorem opened_language {record : DurableRecord} (h : rolls_back record) :
    legal_journal_language .ROLLING_BACK record.states = true := by
  obtain ⟨hstate, hlegal⟩ := h
  simp only [List.mem_cons, List.not_mem_nil, or_false] at hstate
  rcases hstate with hstate | hstate | hstate | hstate <;> rw [hstate] at hlegal
  · rw [legal_journal_language, Bool.or_eq_true, forward_language_iff]
    exact .inl ⟨0, record.states.length, .inl (by simpa [vector] using all_eq_replicate.mp hlegal)⟩
  · rw [legal_journal_language, Bool.or_eq_true]
    exact .inl hlegal
  · rw [legal_journal_language, Bool.or_eq_true, forward_language_iff]
    exact .inl ⟨record.states.length, 0, .inl (by simpa [vector] using all_eq_replicate.mp hlegal)⟩
  · exact hlegal

/-- Between two reversals every vector is accepted but one kind. -/
theorem mid_rollback_language {n b : Nat} {states : List JournalState} (h : mid_rollback n b states) :
    legal_journal_language .ROLLING_BACK states = true ∨ ∃ a b, states = vector a [.UNDO_STARTED] 0 (b + 1) := by
  obtain ⟨_, a, c, rfl | rfl⟩ := h
  · by_cases hexact : c = 0 → b = 0
    · exact .inl (by
        rw [legal_journal_language, Bool.or_eq_true, reverse_language_iff]
        exact .inr ⟨a, c, b, .inr ⟨rfl, hexact⟩⟩)
    · obtain ⟨rfl, hb⟩ := Classical.not_imp.mp hexact
      obtain ⟨b, rfl⟩ := Nat.exists_eq_succ_of_ne_zero hb
      exact .inr ⟨a, b, rfl⟩
  · exact .inl (by
      rw [legal_journal_language, Bool.or_eq_true, reverse_language_iff]
      exact .inr ⟨a, c, b, .inl rfl⟩)

theorem rolled_back_language_iff {states : List JournalState} :
    rolled_back_language states = true ↔ ∃ c b, states = vector 0 [] c b := by
  have hpending : ∀ states, rolled_back_language_from true states = true ↔ ∃ b, states = vector 0 [] 0 b := by
    intro states
    induction states with
    | nil => exact ⟨fun _ => ⟨0, rfl⟩, fun _ => rfl⟩
    | cons state rest ih =>
      cases state with
      | PENDING =>
        simp only [rolled_back_language_from, if_true, ih]
        constructor
        · rintro ⟨b, rfl⟩
          exact ⟨b + 1, by simp [vector, List.replicate_succ]⟩
        · rintro ⟨b, hb⟩
          cases b <;> simp_all [vector, List.replicate_succ]
      | _ =>
        simp [rolled_back_language_from]
        intro b hb
        cases b <;> simp [vector, List.replicate_succ] at hb
  unfold rolled_back_language
  induction states with
  | nil => exact ⟨fun _ => ⟨0, 0, rfl⟩, fun _ => rfl⟩
  | cons state rest ih =>
    cases state with
    | PENDING =>
      simp only [rolled_back_language_from, if_true, hpending]
      constructor
      · rintro ⟨b, rfl⟩
        exact ⟨0, b + 1, by simp [vector, List.replicate_succ]⟩
      · rintro ⟨c, b, hcb⟩
        cases c with
        | zero => cases b <;> simp_all [vector, List.replicate_succ]
        | succ c => simp [vector, List.replicate_succ] at hcb
    | UNDONE =>
      simp only [rolled_back_language_from, reduceCtorEq, if_false, true_and, if_true, ih]
      constructor
      · rintro ⟨c, b, rfl⟩
        exact ⟨c + 1, b, by simp [vector, List.replicate_succ]⟩
      · rintro ⟨c, b, hcb⟩
        cases c with
        | zero => cases b <;> simp [vector, List.replicate_succ] at hcb
        | succ c => exact ⟨c, b, by simpa [vector, List.replicate_succ] using hcb⟩
    | _ =>
      simp [rolled_back_language_from]
      intro c b hcb
      cases c <;> cases b <;> simp [vector, List.replicate_succ] at hcb

/-- One recovery plan keeps the shape, wherever a crash cuts it. -/
theorem RunShape.recovered {n : Nat} {record next : DurableRecord} (hshape : RunShape n record)
    (hrolls_back : rolls_back record) (hnext : next ∈ rollback_records record) : RunShape n next := by
  obtain ⟨a, c, b, in_flight, hin_flight, hstates⟩ := rolls_back_shape hrolls_back
  obtain ⟨hvectors, hfinal⟩ := rollback_vectors_spec (a := a) (c := c) (b := b) hin_flight
  rw [← hstates] at hvectors hfinal
  have hdecision : record.commit_decision = .UNCOMMITTED := by
    have hcompatible := hshape.decision
    have hstate := hrolls_back.1
    simp only [List.mem_cons, List.not_mem_nil, or_false] at hstate
    rcases hstate with h | h | h | h <;> simpa [h, compatible_commit_decision] using hcompatible
  unfold rollback_records at hnext
  rw [List.mem_append, List.mem_append] at hnext
  rcases hnext with (hnext | hnext) | hnext
  · split at hnext
    · cases hnext
    · obtain rfl := List.mem_singleton.mp hnext
      have hlegal := opened_language hrolls_back
      exact ⟨hshape.length, by simp [compatible_commit_decision, hdecision], by simp, .inl hlegal⟩
  · obtain ⟨states, hmem, rfl⟩ := List.mem_map.mp hnext
    have hmid := hvectors states hmem
    refine ⟨hmid.1.trans hshape.length, by simp [compatible_commit_decision, hdecision], by simp, ?_⟩
    exact (mid_rollback_language hmid).imp_right fun h => ⟨rfl, h⟩
  · obtain rfl := List.mem_singleton.mp hnext
    refine ⟨?_, by simp [compatible_commit_decision, hdecision], by simp, .inl ?_⟩
    · rw [← hshape.length, hfinal, hstates, vector_length, vector_length]
      simp [Nat.add_assoc]
    · rw [legal_journal_language, rolled_back_language_iff, hfinal]
      exact ⟨_, _, rfl⟩

theorem Reachable.shape {n : Nat} {record : DurableRecord} (h : Reachable n record) : RunShape n record := by
  induction h with
  | prepared => exact ⟨by simp, rfl, by simp, .inl (by simp [legal_journal_language])⟩
  | applying _ ih =>
    refine ⟨ih.length, rfl, by simp, .inl ?_⟩
    rcases ih.language with hlegal | ⟨hstate, _⟩
    · simp only [legal_journal_language, forward_language_iff] at hlegal ⊢
      exact ⟨0, _, .inl (by simpa [vector] using all_eq_replicate.mp hlegal)⟩
    · cases hstate
  | started _ ih =>
    refine ⟨?_, rfl, by simp, .inl ?_⟩
    · have hlength := ih.length
      simp only [vector_length, List.length_nil, List.length_cons] at hlength ⊢
      omega
    · simp only [legal_journal_language, forward_language_iff]
      exact ⟨_, _, .inr rfl⟩
  | done _ ih =>
    refine ⟨?_, rfl, by simp, .inl ?_⟩
    · have hlength := ih.length
      simp only [vector_length, List.length_nil, List.length_cons] at hlength ⊢
      omega
    · simp only [legal_journal_language, forward_language_iff]
      exact ⟨_, _, .inl rfl⟩
  | applied _ ih => exact ⟨ih.length, rfl, by simp, .inl (by simp [legal_journal_language])⟩
  | committed _ ih => exact ⟨ih.length, rfl, by simp, .inl (by simp [legal_journal_language])⟩
  | recovered _ hrolls_back hnext ih => exact ih.recovered hrolls_back hnext

/-! Every accepted record is reached. -/

theorem Reachable.applied_before (a b : Nat) : Reachable (a + b) ⟨.APPLYING, vector a [] 0 b, .UNCOMMITTED⟩ := by
  induction a generalizing b with
  | zero =>
    have h := Reachable.applying (Reachable.prepared (n := 0 + b))
    simpa [vector] using h
  | succ a ih =>
    have h := ih (b + 1)
    rw [show a + (b + 1) = a + 1 + b by omega] at h
    exact .done (.started h)

theorem Reachable.in_flight (a b : Nat) : Reachable (a + 1 + b) ⟨.APPLYING, vector a [.STARTED] 0 b, .UNCOMMITTED⟩ := by
  have h := Reachable.applied_before a (b + 1)
  rw [show a + (b + 1) = a + 1 + b by omega] at h
  exact .started h

/-- Recovery of a run that was cut after `a` applied effects reaches every record of its plan. -/
theorem Reachable.recovered_from {a b : Nat} {next : DurableRecord}
    (hnext : next ∈ rollback_records ⟨.APPLYING, vector a [] 0 b, .UNCOMMITTED⟩) : Reachable (a + b) next := by
  refine .recovered (.applied_before a b) ⟨by simp, ?_⟩ hnext
  simp only [legal_journal_language, forward_language_iff]
  exact ⟨a, b, .inl rfl⟩

theorem mem_rollback_records {a b : Nat} {states : List JournalState}
    (h : states ∈ rollback_vectors a (vector a [] 0 b)) :
    ⟨.ROLLING_BACK, states, .UNCOMMITTED⟩ ∈ rollback_records ⟨.APPLYING, vector a [] 0 b, .UNCOMMITTED⟩ := by
  have hskip := (@rollback_vectors_append (List.replicate b .PENDING)
    (fun state hmem => .inr (List.eq_of_mem_replicate hmem)) (List.replicate a .DONE)).1
  have hsplit : vector a [] 0 b = List.replicate a .DONE ++ List.replicate b .PENDING := by simp [vector]
  rw [hsplit] at h ⊢
  rw [List.length_replicate] at hskip
  simp only [rollback_records, hskip, reduceCtorEq, if_false, List.mem_append, List.mem_map]
  exact .inl (.inr ⟨states, h, rfl⟩)

theorem Reachable.reversing (a c b : Nat) :
    Reachable (a + 1 + c + b) ⟨.ROLLING_BACK, vector a [.UNDO_STARTED] c b, .UNCOMMITTED⟩ := by
  refine .recovered_from (mem_rollback_records ?_)
  have h := mem_rollback_vectors_done (a + 1 + c) (List.replicate b .PENDING) (vector a [.UNDO_STARTED] c b)
  have hsplit : vector (a + 1 + c) [] 0 b = List.replicate (a + 1 + c) .DONE ++ List.replicate b .PENDING := by
    simp [vector]
  rw [hsplit, h]
  exact ⟨a, c, by omega, .inl (by simp [vector])⟩

theorem Reachable.reversed (a c b : Nat) :
    Reachable (a + c + b) ⟨.ROLLING_BACK, vector a [] c b, .UNCOMMITTED⟩ := by
  cases c with
  | zero => exact .recovered_from (by simp [rollback_records])
  | succ c =>
    refine .recovered_from (mem_rollback_records ?_)
    have h := mem_rollback_vectors_done (a + (c + 1)) (List.replicate b .PENDING) (vector a [] (c + 1) b)
    have hsplit : vector (a + (c + 1)) [] 0 b = List.replicate (a + (c + 1)) .DONE ++ List.replicate b .PENDING := by
      simp [vector]
    rw [hsplit, h]
    exact ⟨a, c, by omega, .inr (by simp [vector, List.replicate_succ])⟩

theorem reachable_of_language {record : DurableRecord}
    (hdecision : compatible_commit_decision record.transaction_state record.commit_decision)
    (hlegal : legal_journal_language record.transaction_state record.states) :
    Reachable record.states.length record := by
  obtain ⟨state, states, decision⟩ := record
  simp only at hdecision hlegal ⊢
  have hforward : ∀ n, n = states.length → forward_language states = true →
      Reachable n ⟨.APPLYING, states, .UNCOMMITTED⟩ := by
    rintro n rfl hlanguage
    obtain ⟨a, b, rfl | rfl⟩ := forward_language_iff.mp hlanguage
    · simpa [vector_length] using Reachable.applied_before a b
    · simpa [vector_length, Nat.add_assoc] using Reachable.in_flight a b
  have hall_done : states.all (· == .DONE) = true → Reachable states.length
      ⟨.APPLYING, List.replicate states.length .DONE, .UNCOMMITTED⟩ := by
    intro hdone
    simpa [vector] using Reachable.applied_before states.length 0
  cases state <;> simp only [compatible_commit_decision, legal_journal_language, beq_iff_eq] at hdecision hlegal
  · rw [hdecision]
    have hpending := all_eq_replicate.mp hlegal
    rw [hpending, List.length_replicate]
    exact .prepared
  · rw [hdecision]
    exact hforward _ rfl hlegal
  · rw [hdecision, all_eq_replicate.mp hlegal, List.length_replicate]
    exact .applied (hall_done hlegal)
  · rw [hdecision, all_eq_replicate.mp hlegal, List.length_replicate]
    exact .committed (.applied (hall_done hlegal))
  · rw [hdecision]
    rw [Bool.or_eq_true] at hlegal
    rcases hlegal with hlegal | hlegal
    · refine .recovered (hforward _ rfl hlegal) ⟨by simp, by simpa [legal_journal_language] using hlegal⟩ ?_
      simp [rollback_records]
    · obtain ⟨a, c, b, rfl | ⟨rfl, _⟩⟩ := reverse_language_iff.mp hlegal
      · simpa [vector_length, Nat.add_assoc] using Reachable.reversed a c b
      · simpa [vector_length, Nat.add_assoc] using Reachable.reversing a c b
  · rw [hdecision]
    obtain ⟨c, b, rfl⟩ := rolled_back_language_iff.mp hlegal
    have hfinal := (@rollback_vectors_spec c 0 b [] (by simp)).2
    have h : Reachable (c + b) ⟨.ROLLED_BACK, vector 0 [] c b, .UNCOMMITTED⟩ := by
      refine .recovered_from ?_
      simp [rollback_records, hfinal]
    simpa [vector_length] using h
  · exact absurd hlegal (by simp)

end atoms.recovery.journal

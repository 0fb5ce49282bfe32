import Atoms.Recovery.Classifier.Reversal
import Atoms.Recovery.Journal.Exact

open atoms.errors atoms.fingerprint atoms.effects atoms.timeline atoms.compiler checked keyed

namespace atoms.recovery

/-- Every effect below one that may have changed the tree is applied. -/
def Layered (states : List JournalState) : Prop :=
  ∀ i j, j < i → classifier.needs_reversal (state_at states i) = true → state_at states j = .DONE

theorem state_at_set_self {states : List JournalState} {i : Nat} (hlt : i < states.length) (state : JournalState) :
    state_at (states.set i state) i = state := by
  simp [state_at, hlt]

theorem state_at_set_ne {states : List JournalState} {i j : Nat} (hne : i ≠ j) (state : JournalState) :
    state_at (states.set i state) j = state_at states j := by
  simp [state_at, List.getElem?_set_ne hne]

theorem state_at_eq {states : List JournalState} {i : Nat} {state : JournalState} (h : states[i]? = some state) :
    state_at states i = state := by
  simp [state_at, h]

namespace journal

/-- The first stretch of a vector is applied. -/
theorem state_at_vector_done {a c b i : Nat} {in_flight : List JournalState} (h : i < a) :
    state_at (vector a in_flight c b) i = .DONE := by
  simp [state_at, vector, List.getElem?_append, h]

/-- Nothing after the effect in flight needs reversal. -/
theorem state_at_vector_rest {a c b i : Nat} {in_flight : List JournalState} (h : a + in_flight.length ≤ i) :
    state_at (vector a in_flight c b) i = if i < a + in_flight.length + c then .UNDONE else .PENDING := by
  obtain ⟨k, rfl⟩ := Nat.exists_eq_add_of_le h
  have hk : a + in_flight.length + k - a - in_flight.length = k := by omega
  unfold state_at vector
  rw [List.getElem?_append_right (by simp; omega), List.getElem?_append_right (by simp; omega), List.length_replicate, hk]
  by_cases hc : k < c
  · rw [List.getElem?_append_left (by simpa using hc)]
    simp [hc]
  · rw [List.getElem?_append_right (by simpa using hc), if_neg (by omega), List.getElem?_replicate]
    split <;> rfl

theorem layered_of_vector {a c b : Nat} {in_flight : List JournalState} (hlength : in_flight.length ≤ 1) :
    Layered (vector a in_flight c b) := by
  intro i j hlt hneeds
  by_cases hdone : j < a
  · exact state_at_vector_done hdone
  · rw [state_at_vector_rest (by omega)] at hneeds
    split at hneeds <;> simp [classifier.needs_reversal] at hneeds

theorem layered_of_rolls_back {record : DurableRecord} (h : rolls_back record) : Layered record.states := by
  obtain ⟨a, c, b, in_flight, hmem, hstates⟩ := rolls_back_shape h
  rw [hstates]
  refine layered_of_vector ?_
  simp only [List.mem_cons, List.not_mem_nil, or_false] at hmem
  rcases hmem with rfl | rfl | rfl <;> simp

end journal

variable [UnicodeData]

namespace classifier

/-- What every pass through the reverse loop keeps: the record rolls back, and the
steps so far lead from the source to the cursor. -/
structure Rolling (source : RecoverySnapshot) (progress : RollbackProgress) : Prop where
  rolling : progress.cursor.transaction_state = .ROLLING_BACK
  commit : progress.cursor.commit_decision = .UNCOMMITTED
  frame : Frame source progress.cursor
  applies : reducer.apply_steps source progress.steps = .ok progress.cursor

theorem Settled.rolling {source : RecoverySnapshot} {progress next : RollbackProgress} {index : Nat} {effect : Effect}
    {state : JournalState} {d : EffectDecision} (h : Settled progress index effect state d next)
    (hrolling : Rolling source progress) : Rolling source next := by
  obtain ⟨bound, opened, reversed, hsteps, hreversal⟩ := h.steps
  have htouches := hreversal.touches
  refine ⟨htouches.record.transaction_state.trans hrolling.rolling,
    htouches.frame.commit_decision.trans hrolling.commit, hrolling.frame.trans htouches.frame, ?_⟩
  rw [hsteps, reducer.apply_steps_append_eq_ok_iff]
  refine ⟨_, hrolling.applies, ?_⟩
  rw [List.append_assoc, reducer.apply_steps_append_eq_ok_iff]
  refine ⟨opened, hreversal.opens, ?_⟩
  rw [reducer.apply_steps_append_eq_ok_iff]
  exact ⟨reversed, hreversal.reverses, hreversal.closes⟩

/-- A property that every settled effect hands on from one index to the next lower one, where the
loop goes on to its end, holds at that end. -/
theorem roll_back_effects_invariant {source : RecoverySnapshot} {final : RollbackProgress}
    {P : Nat → RollbackProgress → Prop} (hstep : ∀ index progress next effect state d, Rolling source progress →
      P (index + 1) progress → d.halt_reason = none → Settled progress index effect state d next →
      roll_back_effects source index next = .ok (.inr final) → P index next)
    {count : Nat} {progress : RollbackProgress} (hrolling : Rolling source progress)
    (hcount : count ≤ source.effects.length) (hP : P count progress)
    (h : roll_back_effects source count progress = .ok (.inr final)) : Rolling source final ∧ P 0 final := by
  induction count generalizing progress with
  | zero =>
    simp only [roll_back_effects, pure_eq_ok_iff, Sum.inr.injEq] at h
    subst h
    exact ⟨hrolling, hP⟩
  | succ index ih =>
    simp only [roll_back_effects, bind_eq_ok_iff] at h
    obtain ⟨⟨d, next⟩, hbody, h⟩ := h
    cases hhalt : d.halt_reason with
    | some reason =>
      simp only [hhalt, bind_eq_ok_iff, pure_eq_ok_iff] at h
      obtain ⟨_, _, h⟩ := h
      cases h
    | none =>
      simp only [hhalt] at h
      obtain ⟨effect, state, hsettled⟩ := roll_back_effect_eq_ok hrolling.rolling hrolling.commit
        (by rw [hrolling.frame.effects]; omega) hbody hhalt
      exact ih (hsettled.rolling hrolling) (by omega)
        (hstep index progress next effect state d hrolling hP hhalt hsettled h) h

theorem opening_transition_eq_ok {source cursor : RecoverySnapshot}
    (h : reducer.apply_steps source (opening_transition source) = .ok cursor) :
    cursor.transaction_state = .ROLLING_BACK ∧ reducer.SameObservations source cursor := by
  unfold opening_transition at h
  split at h
  · rename_i hrolling
    rw [reducer.apply_steps_nil, Except.ok.injEq] at h
    subst h
    exact ⟨hrolling, Frame.refl _, rfl, rfl, rfl⟩
  · rw [reducer.apply_steps_singleton] at h
    obtain ⟨_, _, hsame, hstate, _⟩ := reducer.transition_transaction_eq_ok h
    exact ⟨hstate, hsame⟩

theorem terminal_steps_eq_ok {cursor settled : RecoverySnapshot} {result : RollbackResult}
    (h : reducer.apply_steps cursor (terminal_steps result) = .ok settled) :
    settled.transaction_state = .ROLLED_BACK ∧ settled.active = false ∧ settled.rollback_result = some result ∧
      reducer.SameObservations cursor settled := by
  unfold terminal_steps at h
  rw [reducer.apply_steps, foldlM_cons_eq_ok_iff] at h
  obtain ⟨rolled, hrolled, h⟩ := h
  have h : reducer.apply_step rolled .DetachActive = .ok settled := reducer.apply_steps_singleton.mp h
  obtain ⟨_, _, hsame, hstate, hresult, _⟩ := reducer.transition_transaction_eq_ok hrolled
  obtain ⟨_, hsame', hstate', hresult', _, hactive⟩ := reducer.detach_active_eq_ok h
  exact ⟨hstate'.trans hstate, hactive, hresult'.trans hresult, hsame.frame.trans hsame'.frame,
    hsame'.journals.trans hsame.journals, hsame'.persistent.trans hsame.persistent, hsame'.scratch.trans hsame.scratch⟩

theorem halt_plan_is_halt {source : RecoverySnapshot} {reason : HaltReason} {effect_id : Option String}
    {expected observed : Option JointObservation} {projected : Option RecoverySnapshot} {plan : RecoveryPlan}
    (h : halt_plan source reason effect_id expected observed projected = .ok plan) : plan.is_halt = true := by
  have hnew : ∀ diagnostic steps, new_halt_plan source diagnostic steps = .ok plan → plan.is_halt = true := by
    intro diagnostic steps hplan
    simp only [new_halt_plan, bind_eq_ok_iff, pure_eq_ok_iff] at hplan
    obtain ⟨_, _, rfl⟩ := hplan
    rfl
  unfold halt_plan at h
  split at h
  · unfold stable_halt_plan at h
    split at h
    · simp at h
    · exact hnew _ _ h
  · rw [bind_eq_ok_iff] at h
    obtain ⟨diagnostic, _, h⟩ := h
    exact hnew _ _ h

/-- An early end of the reverse loop is a halt plan. -/
theorem roll_back_effects_inl {source : RecoverySnapshot} {count : Nat} {progress : RollbackProgress}
    {plan : RecoveryPlan} (h : roll_back_effects source count progress = .ok (.inl plan)) : plan.is_halt = true := by
  induction count generalizing progress with
  | zero => simp [roll_back_effects] at h
  | succ index ih =>
    simp only [roll_back_effects, bind_eq_ok_iff] at h
    obtain ⟨⟨d, next⟩, _, h⟩ := h
    cases hhalt : d.halt_reason with
    | some reason =>
      simp only [hhalt, bind_eq_ok_iff, pure_eq_ok_iff, Sum.inl.injEq] at h
      obtain ⟨_, hplan, rfl⟩ := h
      exact halt_plan_is_halt hplan
    | none =>
      simp only [hhalt] at h
      exact ih h

/-- The rollback result that the loop's flag stands for. -/
def result_of (refused : Bool) : RollbackResult := if refused then .EXTERNAL_DRIFT_PRESERVED else .RESTORED

/-- A rollback plan that does not halt: its opening, the whole reverse loop and its end. -/
structure RollsBack (source : RecoverySnapshot) (plan : ActionPlan) (opened : RecoverySnapshot)
    (final : RollbackProgress) (settled : RecoverySnapshot) : Prop where
  bound : plan.bound_snapshot = source
  opens : reducer.apply_steps source (opening_transition source) = .ok opened
  loop : roll_back_effects source source.effects.length ⟨opened, opening_transition source, false⟩ = .ok (.inr final)
  ends : reducer.apply_steps final.cursor (terminal_steps (result_of final.refused)) = .ok settled
  steps : plan.steps = final.steps ++ terminal_steps (result_of final.refused)

theorem rollback_plan_eq_ok {source : RecoverySnapshot} {plan : ActionPlan}
    (h : rollback_plan source = .ok (.ActionPlan plan)) : ∃ opened final settled,
      RollsBack source plan opened final settled := by
  unfold rollback_plan at h
  simp only [bind_eq_ok_iff] at h
  obtain ⟨opened, hopens, outcome, hloop, h⟩ := h
  cases outcome with
  | inl halted =>
    obtain rfl := pure_eq_ok_iff.mp h
    exact absurd (roll_back_effects_inl hloop) (by simp [RecoveryPlan.is_halt])
  | inr final =>
    simp only [bind_eq_ok_iff, new_action_plan] at h
    obtain ⟨settled, hends, _, _, _, _, h⟩ := h
    refine ⟨opened, final, settled, ?_⟩
    split at h
    · simp at h
    · simp only [pure_eq_ok_iff, RecoveryPlan.ActionPlan.injEq] at h
      subst h
      exact ⟨rfl, hopens, hloop, hends, rfl⟩

/-- A record from which recovery rolls back: active, not committed, and with an accepted journal. -/
structure RollbackSource (source : RecoverySnapshot) : Prop where
  state : source.transaction_state ∈ [TransactionState.PREPARED, .APPLYING, .APPLIED, .ROLLING_BACK]
  commit : source.commit_decision = .UNCOMMITTED
  active : source.active = true
  language : journal.legal_journal_language source.transaction_state source.states = true
  authorizable : first_non_authorizable source source.effects = .ok none

theorem RollbackSource.layered {source : RecoverySnapshot} (h : RollbackSource source) : Layered source.states :=
  have hrolls : journal.rolls_back ⟨source.transaction_state, source.states, source.commit_decision⟩ := ⟨h.state, h.language⟩
  journal.layered_of_rolls_back hrolls

/-- An action plan for a record that is not yet settled is a rollback. -/
theorem classify_recovery_rolls_back {source : RecoverySnapshot} {plan : ActionPlan}
    (hstate : source.transaction_state ∈ [TransactionState.PREPARED, .APPLYING, .APPLIED, .ROLLING_BACK])
    (h : classify_recovery source = .ok (.ActionPlan plan)) :
    RollbackSource source ∧ rollback_plan source = .ok (.ActionPlan plan) := by
  have hsnapshot : journal.require_snapshot source = .ok () := by simp [journal.require_snapshot, source.journal_ids]
  have hnot : source.transaction_state ≠ .HALTED ∧ source.transaction_state ≠ .COMMITTED ∧
      source.transaction_state ≠ .ROLLED_BACK := by
    simp only [List.mem_cons, List.not_mem_nil, or_false] at hstate
    rcases hstate with hstate | hstate | hstate | hstate <;> simp [hstate]
  have hhalt : ∀ {reason effect_id expected observed projected},
      halt_plan source reason effect_id expected observed projected ≠ .ok (.ActionPlan plan) := by
    intro reason effect_id expected observed projected hplan
    exact absurd (halt_plan_is_halt hplan) (by simp [RecoveryPlan.is_halt])
  unfold classify_recovery journal.classify_transaction_authority at h
  rw [hsnapshot] at h
  simp only [ok_bind, hnot.1, hnot.2.1, hnot.2.2, if_false, List.mem_cons, List.not_mem_nil, or_false, and_false] at h
  by_cases hdecision : journal.compatible_commit_decision source.transaction_state source.commit_decision = true
  · by_cases hlegal : journal.legal_journal_language source.transaction_state source.states = true
    · by_cases hactive : source.active = true
      · simp only [hdecision, hlegal, hactive, not_true_eq_false, if_false, bind_eq_ok_iff, pure_eq_ok_iff] at h
        obtain ⟨_, rfl, h⟩ := h
        simp only [bind_eq_ok_iff] at h
        obtain ⟨refused, hrefused, h⟩ := h
        cases refused with
        | some item => exact absurd h hhalt
        | none =>
          have hcommit : source.commit_decision = .UNCOMMITTED := by
            simp only [List.mem_cons, List.not_mem_nil, or_false] at hstate
            rcases hstate with hstate | hstate | hstate | hstate <;>
              simpa [hstate, journal.compatible_commit_decision] using hdecision
          exact ⟨⟨hstate, hcommit, hactive, hlegal, hrefused⟩, h⟩
      · simp [hdecision, hlegal, hactive, hhalt] at h
    · simp [hdecision, hlegal, hhalt] at h
  · simp [hdecision, hhalt] at h

/-- The loop starts from the opened record. -/
theorem RollsBack.start {source opened settled : RecoverySnapshot} {plan : ActionPlan} {final : RollbackProgress}
    (h : RollsBack source plan opened final settled) (hsource : RollbackSource source) :
    Rolling source ⟨opened, opening_transition source, false⟩ := by
  obtain ⟨hrolling, hsame⟩ := opening_transition_eq_ok h.opens
  exact ⟨hrolling, hsame.frame.commit_decision.trans hsource.commit, hsame.frame, h.opens⟩

end classifier

end atoms.recovery

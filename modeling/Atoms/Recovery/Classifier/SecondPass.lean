import Atoms.Recovery.Classifier.Committed
import Atoms.Recovery.Classifier.Conservation
import Atoms.Recovery.Classifier.Halted
import Atoms.Store.Codec

open atoms.errors atoms.fingerprint atoms.effects atoms.compiler atoms.store checked keyed

namespace atoms.recovery

namespace journal

open classifier

end journal

namespace classifier

section

variable [UnicodeData]

/-- The loop settles every effect that it passes and no other. -/
theorem RollsBack.states {source opened settled : RecoverySnapshot} {plan : ActionPlan} {final : RollbackProgress}
    (h : RollsBack source plan opened final settled) (hsource : RollbackSource source) :
    final.cursor.states = source.states.map settled_state := by
  obtain ⟨_, hsame⟩ := opening_transition_eq_ok h.opens
  have hlength : source.states.length = source.effects.length := source.states_length
  have hstart : ∀ i : Nat, opened.states[i]? =
      if source.effects.length ≤ i then source.states[i]?.map settled_state else source.states[i]? := by
    intro i
    rw [RecoverySnapshot.states, hsame.journals]
    split
    · rename_i hle
      rw [List.getElem?_eq_none (hlength ▸ ‹_›)]
      rfl
    · rfl
  obtain ⟨_, hend⟩ := roll_back_effects_invariant
    (P := fun count progress => ∀ i : Nat, progress.cursor.states[i]? =
      if count ≤ i then source.states[i]?.map settled_state else source.states[i]?)
    (fun index progress next effect state d _ hP _ hsettled _ i => by
      have hself := hP index
      rw [hsettled.state_at, if_neg (by omega)] at hself
      rw [hsettled.states, List.getElem?_set]
      by_cases hi : index = i
      · subst hi
        have hlt := (List.getElem?_eq_some_iff.mp hsettled.state_at).1
        rw [if_pos rfl, if_pos hlt, if_pos (Nat.le_refl _), ← hself, Option.map_some]
      · rw [if_neg hi, hP i]
        by_cases hle : index ≤ i
        · rw [if_pos hle, if_pos (by omega)]
        · rw [if_neg hle, if_neg (by omega)])
    (h.start hsource) (Nat.le_refl _) hstart h.loop
  apply List.ext_getElem?
  intro i
  rw [hend i, if_pos (Nat.zero_le i)]
  exact List.getElem?_map.symm

/-- What the authority has checked of a record for which a plan acts. -/
theorem classify_recovery_checked {s : RecoverySnapshot} {plan : ActionPlan}
    (h : classify_recovery s = .ok (.ActionPlan plan)) :
    journal.compatible_commit_decision s.transaction_state s.commit_decision = true ∧
      journal.legal_journal_language s.transaction_state s.states = true := by
  have hhalt : ∀ {reason effect_id expected observed projected},
      halt_plan s reason effect_id expected observed projected ≠ .ok (.ActionPlan plan) := by
    intro reason effect_id expected observed projected hplan
    exact absurd (halt_plan_is_halt hplan) (by simp [RecoveryPlan.is_halt])
  have hlive : s.transaction_state ≠ .HALTED := by
    rcases classify_recovery_action h with ⟨hsource, _⟩ | ⟨hstate, _⟩ | ⟨hstate, _⟩
    · have hstate := hsource.state
      intro heq
      simp [heq] at hstate
    · simp [hstate]
    · simp [hstate]
  have hsnapshot : journal.require_snapshot s = .ok () := by simp [journal.require_snapshot, s.journal_ids]
  unfold classify_recovery journal.classify_transaction_authority at h
  rw [hsnapshot] at h
  by_cases hdecision : journal.compatible_commit_decision s.transaction_state s.commit_decision = true
  · refine ⟨hdecision, ?_⟩
    by_contra hlegal
    simp [hdecision, hlive, hlegal, pure, Except.pure, hhalt] at h
  · simp [hdecision, pure, Except.pure, hhalt] at h

/-- The diagnostic that a snapshot holds can be written and read back. -/
theorem valid_diagnostic_of_validated {d : HaltDiagnostic} (h : snapshot.validate_halt_diagnostic (some d) = .ok ()) :
    ValidDiagnostic d := by
  simp only [snapshot.validate_halt_diagnostic, snapshot.validate_diagnostic_entries, bind_eq_ok_iff, forM_eq_ok_iff] at h
  obtain ⟨_, _, _, _, _, _, _, ⟨_, hexpected, _⟩, _, ⟨_, hobserved, _⟩, _⟩ := h
  have hvalid : ∀ {label : String} {entry : DiagnosticEntry},
      snapshot.validate_diagnostic_state label entry.state = .ok () → ValidState entry.state := by
    intro label entry h
    cases hstate : entry.state with
    | ObservedUnrecognized st_mode =>
      rw [hstate, snapshot.validate_diagnostic_state] at h
      exact validate_observed_entry_eq_ok_iff.mp h
    | _ => trivial
  exact ⟨fun entry hentry => hvalid (hexpected entry hentry), fun entry hentry => hvalid (hobserved entry hentry)⟩

/-- A halt leads to a snapshot that holds its diagnostic. -/
theorem halt_plan_applies {s : RecoverySnapshot} {plan : HaltPlan} (h : Halts s plan) :
    ∃ final, reducer.apply_recovery_plan s (.HaltPlan plan) = .ok final ∧ final.transaction_state = .HALTED ∧
      final.halt_diagnostic = some plan.diagnostic := by
  by_cases hhalted : s.transaction_state = .HALTED
  · obtain ⟨hsteps, hdiagnostic⟩ := h.halted hhalted
    refine ⟨s, ?_, hhalted, hdiagnostic⟩
    unfold reducer.apply_recovery_plan
    rw [reduce_prefix_eq_ok_iff, List.take_length, RecoveryPlan.steps, hsteps]
    exact ⟨h.bound.symm, Nat.le_refl _, rfl⟩
  · obtain ⟨hdiagnoses, hsteps⟩ := h.live hhalted
    obtain ⟨final, hfinal⟩ := hdiagnoses.applies hhalted
    obtain ⟨_, _, _, hstate, _, hdiagnostic, _⟩ := reducer.transition_transaction_eq_ok hfinal
    refine ⟨final, ?_, hstate, hdiagnostic⟩
    unfold reducer.apply_recovery_plan
    rw [reduce_prefix_eq_ok_iff, List.take_length, RecoveryPlan.steps, hsteps]
    exact ⟨h.bound.symm, Nat.le_refl _, reducer.apply_steps_singleton.mpr hfinal⟩

end

/-! The committed deletion whose path holds a file again: the first pass halts. -/

section

attribute [local instance] journal.ascii

end

end classifier

end atoms.recovery

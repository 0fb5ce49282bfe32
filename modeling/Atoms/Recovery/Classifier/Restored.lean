import Atoms.Recovery.Classifier.Rollback
import Atoms.Recovery.Journal.Authority

open atoms.errors atoms.fingerprint atoms.effects atoms.spec atoms.timeline atoms.compiler checked keyed

namespace atoms.recovery.classifier

section

variable [UnicodeData]

/-- The paths of an effect at their pre states, occurrence by occurrence. -/
theorem at_pre_view_iff {s : RecoverySnapshot} {effect : Effect} : AtPre effect (s.view effect) ↔
    ∀ occurrence ∈ occurrences effect, (s.entry_at occurrence.path).state? = some occurrence.pre := by
  unfold AtPre RecoverySnapshot.view
  rw [variants.effect_paths_eq, List.map_map, List.map_map, List.map_inj_left]
  rfl

omit [UnicodeData] in
/-- An occurrence at a path belongs to the effect of its index. -/
theorem exists_effect_of_grouped {effects : List Effect} {path : RelPath} {item : TimelineOccurrence}
    (h : item ∈ grouped effects path) : ∃ effect, effects[item.effect_index]? = some effect ∧
      path ∈ variants.effect_paths effect := by
  rw [grouped_eq] at h
  obtain ⟨i, effect, heffect, hmem⟩ := mem_grouped_from_iff.mp h
  obtain ⟨occurrence, hocc, rfl, rfl⟩ := mem_entries_at_iff.mp hmem
  refine ⟨effect, by simpa using heffect, ?_⟩
  rw [variants.effect_paths_eq]
  exact List.mem_map_of_mem hocc

/-- The state of the loop once the effects from `count` on are settled. -/
structure Unwound (count : Nat) (progress : RollbackProgress) : Prop where
  layered : Layered progress.cursor.states
  settled : ∀ i, count ≤ i → needs_reversal (state_at progress.cursor.states i) = false
  scratch : ∀ i effect, count ≤ i → progress.cursor.effects[i]? = some effect →
    (progress.cursor.scratch_at effect).entry = .ObservedAbsent
  restored : progress.refused = false → ∀ path, (∃ item ∈ grouped progress.cursor.effects path, count ≤ item.effect_index) →
    (progress.cursor.entry_at path).state? = journal.expected_at progress.cursor.effects progress.cursor.states path

section

variable {progress next : RollbackProgress} {index : Nat} {effect : Effect} {state : JournalState} {d : EffectDecision}

theorem Settled.states (h : Settled progress index effect state d next) :
    next.cursor.states = progress.cursor.states.set index (settled_state state) := by
  obtain ⟨_, _, _, _, hreversal⟩ := h.steps
  exact hreversal.touches.states

theorem Settled.touches (h : Settled progress index effect state d next) : Touches index effect progress.cursor
    next.cursor (settled_state state) (steps_view d.steps (progress.cursor.view effect)) := by
  obtain ⟨_, _, _, _, hreversal⟩ := h.steps
  exact hreversal.touches

omit [UnicodeData] in
theorem settled_state_not_needs (state : JournalState) : needs_reversal (settled_state state) = false := by
  cases state <;> rfl

/-- A settlement leaves its effect's scratch absent. -/
theorem Settled.scratch_absent (h : Settled progress index effect state d next) (hhalt : d.halt_reason = none)
    (hcommit : progress.cursor.commit_decision = .UNCOMMITTED) :
    (next.cursor.scratch_at effect).entry = .ObservedAbsent := by
  have hview := congrArg EffectView.scratch h.touches.view
  rw [RecoverySnapshot.view_scratch] at hview
  rw [hview]
  cases hneeds : needs_reversal state with
  | false =>
    have hrests := h.decides.rests hneeds
    rcases hrests.steps with hsteps | ⟨nodes, hsteps⟩ <;> simpa [hsteps, step_view] using hrests.scratch
  | true =>
    have hd := h.decides.in_flight hneeds
    rw [hcommit] at hd
    have hcovers := progress.cursor.joint_view_covers (List.mem_of_getElem? h.effect_at)
    have hsettles := ((variants.effect_cell_settlement hcovers hd.symm hhalt).settles hcovers).1
    rwa [progress.cursor.joint_view_view] at hsettles

/-- An effect at rest is left as it was found. -/
theorem Settled.view_at_rest (h : Settled progress index effect state d next) (hneeds : needs_reversal state = false) :
    next.cursor.view effect = progress.cursor.view effect := by
  have hview := h.touches.view
  rcases (h.decides.rests hneeds).steps with hsteps | ⟨nodes, hsteps⟩ <;> simpa [hsteps, step_view] using hview

theorem Settled.states_at_rest (h : Settled progress index effect state d next) (hneeds : needs_reversal state = false) :
    next.cursor.states = progress.cursor.states := by
  rw [h.states, show settled_state state = state by simp [settled_state, hneeds]]
  exact (states_set_self h.state_at).symm

theorem entry_at_of_view {s s' : RecoverySnapshot} (h : s'.view effect = s.view effect) {path : RelPath}
    (hpath : path ∈ variants.effect_paths effect) : s'.entry_at path = s.entry_at path :=
  List.map_inj_left.mp (congrArg EffectView.persistent h) path hpath

theorem state_of_settled (h : Settled progress index effect state d next) :
    state_at next.cursor.states index = settled_state state := by
  rw [h.states, state_at_set_self (List.getElem?_eq_some_iff.mp h.state_at).1]

theorem state_beside_settled (h : Settled progress index effect state d next) {i : Nat} (hne : index ≠ i) :
    state_at next.cursor.states i = state_at progress.cursor.states i := by
  rw [h.states, state_at_set_ne hne]

theorem settled_above (h : Settled progress index effect state d next)
    (hsettled : ∀ i, index + 1 ≤ i → needs_reversal (state_at progress.cursor.states i) = false) {i : Nat}
    (hi : index ≤ i) : needs_reversal (state_at next.cursor.states i) = false := by
  by_cases hself : index = i
  · subst hself
    rw [state_of_settled h, settled_state_not_needs]
  · rw [state_beside_settled h hself]
    exact hsettled i (by omega)

/-- Where an effect's journal row moves between states that agree on reversal, the frontiers of the
paths that it does not own stay. -/
theorem expected_at_of_disjoint {s : RecoverySnapshot} {states : List JournalState} {path : RelPath}
    (heffect : s.effects[index]? = some effect) (hpath : path ∉ variants.effect_paths effect)
    (hother : ∀ i, index ≠ i → state_at states i = state_at s.states i) :
    journal.expected_at s.effects states path = journal.expected_at s.effects s.states path := by
  apply journal.expected_at_congr
  intro item hitem
  rw [hother]
  rintro rfl
  obtain ⟨owner, howner, hmem⟩ := exists_effect_of_grouped hitem
  rw [heffect, Option.some.injEq] at howner
  exact hpath (howner ▸ hmem)

/-- A settlement that refuses nothing leaves a path at its frontier if the path was there or is its own. -/
theorem settled_keeps_frontier (h : Settled progress index effect state d next) (hhalt : d.halt_reason = none)
    (hcommit : progress.cursor.commit_decision = .UNCOMMITTED) (hlayered : Layered progress.cursor.states)
    (hsettled : ∀ i, index + 1 ≤ i → needs_reversal (state_at progress.cursor.states i) = false)
    (hrefused : d.refused = false) {path : RelPath} (hpath : path ∉ variants.effect_paths effect →
      (progress.cursor.entry_at path).state? =
        journal.expected_at progress.cursor.effects progress.cursor.states path) :
    (next.cursor.entry_at path).state? = journal.expected_at next.cursor.effects next.cursor.states path := by
  have htouches := h.touches
  rw [htouches.frame.effects]
  by_cases hmem : path ∈ variants.effect_paths effect
  · cases hneeds : needs_reversal state with
    | false =>
      -- the decision found the path at its frontier and touched nothing
      have hat := (h.decides.rests hneeds).refused.mp hrefused path hmem
      rw [entry_at_of_view (h.view_at_rest hneeds) hmem, h.states_at_rest hneeds]
      exact hat
    | true =>
      -- the settlement put the path back, and all effects below are applied
      obtain ⟨occurrence, hocc, rfl⟩ := List.mem_map.mp (variants.effect_paths_eq effect ▸ hmem)
      have hd := h.decides.in_flight hneeds
      rw [hcommit] at hd
      have heffect := List.mem_of_getElem? h.effect_at
      have hcovers := progress.cursor.joint_view_covers heffect
      have hpre := ((variants.effect_cell_settlement hcovers hd.symm hhalt).settles hcovers).2 hrefused
      rw [progress.cursor.joint_view_view, ← htouches.view, at_pre_view_iff] at hpre
      rw [hpre occurrence hocc]
      refine (journal.expected_at_settled h.effect_at hocc (progress.cursor.compiled.occurrence_paths_nodup heffect)
        (progress.cursor.compiled.timeline_continuous _) ?_ ?_).symm
      · intro earlier _ hearlier
        rw [state_beside_settled h (by omega),
          hlayered index earlier.effect_index hearlier (by rwa [state_at_eq h.state_at])]
        rfl
      · intro later _ hlater
        exact settled_above h hsettled hlater
  · rw [htouches.entries path hmem, expected_at_of_disjoint h.effect_at hmem fun i hne => state_beside_settled h hne]
    exact hpath hmem

/-- Settling the next effect down keeps the loop's state. -/
theorem Unwound.step {source : RecoverySnapshot} (hunwound : Unwound (index + 1) progress)
    (hrolling : Rolling source progress) (h : Settled progress index effect state d next) (hhalt : d.halt_reason = none) :
    Unwound index next := by
  have htouches := h.touches
  refine ⟨?_, fun i hi => settled_above h hunwound.settled hi, ?_, ?_⟩
  · intro i j hj hneeds
    have hi : i < index := by
      by_contra hi
      rw [settled_above h hunwound.settled (by omega)] at hneeds
      cases hneeds
    rw [state_beside_settled h (by omega)] at hneeds ⊢
    exact hunwound.layered i j hj hneeds
  · intro i other hi hi_effect
    rw [htouches.frame.effects] at hi_effect
    rcases Nat.eq_or_lt_of_le hi with rfl | hi
    · rw [h.effect_at, Option.some.injEq] at hi_effect
      subst hi_effect
      exact h.scratch_absent hhalt hrolling.commit
    · have hne := progress.cursor.effect_id_ne hi_effect h.effect_at (by omega)
      rw [htouches.scratch other (List.mem_of_getElem? hi_effect) hne]
      exact hunwound.scratch i other hi hi_effect
  · intro hrefused path hpath
    obtain ⟨item, hitem, hindex⟩ := hpath
    rw [htouches.frame.effects] at hitem
    rw [h.refused, Bool.or_eq_false_iff] at hrefused
    refine settled_keeps_frontier h hhalt hrolling.commit hunwound.layered hunwound.settled hrefused.2 fun hmem => ?_
    have hne : item.effect_index ≠ index := by
      intro heq
      obtain ⟨owner, howner, hpath⟩ := exists_effect_of_grouped hitem
      rw [heq, h.effect_at, Option.some.injEq] at howner
      exact hmem (howner ▸ hpath)
    exact hunwound.restored hrefused.1 path ⟨item, hitem, by omega⟩

end

/-- Before the reverse loop nothing is above the effects that it has to settle. -/
theorem RollsBack.unwound_start {source opened settled : RecoverySnapshot} {plan : ActionPlan} {final : RollbackProgress}
    (h : RollsBack source plan opened final settled) (hsource : RollbackSource source) :
    Unwound source.effects.length ⟨opened, opening_transition source, false⟩ := by
  obtain ⟨_, hsame⟩ := opening_transition_eq_ok h.opens
  have hstates : opened.states = source.states := by rw [RecoverySnapshot.states, hsame.journals]
  have hlength : source.effects.length = opened.states.length := by rw [hstates, source.states_length]
  refine ⟨by rw [hstates]; exact hsource.layered, ?_, ?_, ?_⟩
  · intro i hi
    have hnone : opened.states[i]? = none := List.getElem?_eq_none (by omega)
    simp [state_at, hnone, needs_reversal]
  · intro i effect hi heffect
    rw [hsame.frame.effects] at heffect
    have hlt := (List.getElem?_eq_some_iff.mp heffect).1
    omega
  · rintro _ path ⟨item, hitem, hi⟩
    obtain ⟨effect, heffect, _⟩ := exists_effect_of_grouped hitem
    rw [hsame.frame.effects] at heffect
    have hlt := (List.getElem?_eq_some_iff.mp heffect).1
    omega

/-- A completed reverse loop: nothing is left to reverse, no scratch remains, and unless the
loop refused, every planned path is at its frontier. -/
theorem RollsBack.unwound {source opened settled : RecoverySnapshot} {plan : ActionPlan} {final : RollbackProgress}
    (h : RollsBack source plan opened final settled) (hsource : RollbackSource source) :
    Rolling source final ∧ Unwound 0 final := by
  refine roll_back_effects_invariant (P := Unwound) ?_ (h.start hsource) (Nat.le_refl _) (h.unwound_start hsource) h.loop
  intro index progress next effect state d hrolling hunwound hhalt hsettled _
  exact hunwound.step hrolling hsettled hhalt

/-- Where a planned path's frontier has no effect left to reverse, it expects the initial surface. -/
theorem expected_at_initial_surface {s : RecoverySnapshot}
    (hsettled : ∀ i, needs_reversal (state_at s.states i) = false) {path : RelPath} (hpath : path ∈ s.compiled.paths) :
    journal.expected_at s.effects s.states path = surface_map s.compiled.spec.initial_surface path := by
  obtain ⟨first, _, hfirst, _, hinitial, _⟩ := s.compiled.surface_endpoints hpath
  rw [journal.expected_at_initial fun item _ => hsettled _, hinitial,
    show (grouped s.effects path).head? = some first from hfirst]
  rfl

/-- A plan for a record that is not yet settled leaves it inactive, rolled back and without
scratch, and reports a restoration only where every planned path is as the initial surface declares it. -/
theorem restored_sound {source : RecoverySnapshot} {plan : ActionPlan}
    (hstate : source.transaction_state ∈ [TransactionState.PREPARED, .APPLYING, .APPLIED, .ROLLING_BACK])
    (h : classify_recovery source = .ok (.ActionPlan plan)) :
    ∃ settled, reducer.apply_recovery_plan source (.ActionPlan plan) = .ok settled ∧
      settled.active = false ∧ settled.transaction_state = .ROLLED_BACK ∧
      (∀ observation ∈ settled.scratch_observations, observation.entry = .ObservedAbsent) ∧
      (settled.rollback_result = some .RESTORED →
        (∀ path ∈ source.compiled.paths, path ∈ settled.persistent_observations.map PersistentObservation.path) ∧
        ∀ observation ∈ settled.persistent_observations,
          observation.entry.state? = surface_map source.compiled.spec.initial_surface observation.path) := by
  obtain ⟨hsource, hplan⟩ := classify_recovery_rolls_back hstate h
  obtain ⟨opened, final, settled, hrolls⟩ := rollback_plan_eq_ok hplan
  obtain ⟨hrolling, hunwound⟩ := hrolls.unwound hsource
  obtain ⟨hterminal, hactive, hresult, hsame⟩ := terminal_steps_eq_ok hrolls.ends
  have hcompiled : settled.compiled = source.compiled := hsame.frame.compiled.trans hrolling.frame.compiled
  refine ⟨settled, ?_, hactive, hterminal, ?_, ?_⟩
  · have happly : reducer.apply_steps source plan.steps = .ok settled := by
      rw [hrolls.steps, reducer.apply_steps_append_eq_ok_iff]
      exact ⟨_, hrolling.applies, hrolls.ends⟩
    simp [reducer.apply_recovery_plan, reducer.reduce_recovery_plan_prefix, RecoveryPlan.bound_snapshot,
      RecoveryPlan.steps, hrolls.bound, require_of, happly]
  · intro observation hobservation
    rw [hsame.scratch] at hobservation
    obtain ⟨effect, heffect, rfl⟩ := final.cursor.exists_effect_of_scratch hobservation
    obtain ⟨i, hi⟩ := List.getElem?_of_mem heffect
    exact hunwound.scratch i effect (Nat.zero_le _) hi
  · intro hrestored
    have hrefused : final.refused = false := by
      rw [hresult, Option.some.injEq] at hrestored
      cases hflag : final.refused <;> simp_all [result_of]
    refine ⟨?_, ?_⟩
    · intro path hpath
      exact settled.persistent_coverage.1.2 path (hcompiled ▸ hpath)
    · intro observation hobservation
      rw [hsame.persistent] at hobservation
      have hpath : observation.path ∈ final.cursor.compiled.paths :=
        final.cursor.persistent_coverage.1.1 _ (List.mem_map_of_mem hobservation)
      obtain ⟨first, _, hfirst, _⟩ := final.cursor.compiled.surface_endpoints hpath
      rw [← final.cursor.entry_at_of_mem hobservation,
        hunwound.restored hrefused _ ⟨first, List.mem_of_head? hfirst, Nat.zero_le _⟩,
        expected_at_initial_surface (fun i => hunwound.settled i (Nat.zero_le _)) hpath, hrolling.frame.compiled]

end

section

attribute [local instance] journal.ascii

/-- A crash after the first of two directories was created. -/
def first_directory_created : RecoverySnapshot where
  toSnapshotFields := { journal.two_directories_fields .APPLYING .DONE .PENDING with
    persistent_observations := [⟨"a", .ObservedDirectory ⟨0o755⟩ ⟨1⟩ (some false)⟩, ⟨"b", .ObservedAbsent⟩] }
  issued := by decide +kernel

theorem first_directory_created_plan :
    ∃ plan, classify_recovery first_directory_created = .ok (.ActionPlan plan) := by
  have h : (match classify_recovery first_directory_created with
    | .ok (.ActionPlan _) => true
    | _ => false) = true := by decide +kernel
  split at h
  · exact ⟨_, by assumption⟩
  · cases h

theorem first_directory_created_restored : ∃ plan settled,
    classify_recovery first_directory_created = .ok (.ActionPlan plan) ∧
      reducer.apply_recovery_plan first_directory_created (.ActionPlan plan) = .ok settled ∧ settled.active = false := by
  obtain ⟨plan, hplan⟩ := first_directory_created_plan
  obtain ⟨settled, happly, hactive, _⟩ := restored_sound (by decide) hplan
  exact ⟨plan, settled, hplan, happly, hactive⟩

end

end atoms.recovery.classifier

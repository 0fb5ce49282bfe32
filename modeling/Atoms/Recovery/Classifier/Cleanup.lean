import Atoms.Recovery.Classifier.Rollback

open atoms.errors atoms.fingerprint atoms.effects atoms.timeline atoms.compiler checked keyed

namespace atoms.recovery.classifier

variable [UnicodeData]

/-- From `s` to `s'` one effect's scratch name was cleared, and nothing else changed. -/
structure Cleared (effect : Effect) (s s' : RecoverySnapshot) : Prop where
  frame : Frame s s'
  record : SameRecord s s'
  journals : s'.journals = s.journals
  entries : ∀ path, s'.entry_at path = s.entry_at path
  scratch : ∀ other ∈ s.effects, other.effect_id ≠ effect.effect_id →
    (s'.scratch_at other).entry = (s.scratch_at other).entry
  own : (s'.scratch_at effect).entry = .ObservedAbsent

/-- What cleanup decides on one effect of a committed record. -/
structure CleansUp (s : RecoverySnapshot) (effect : Effect) (d : EffectDecision) : Prop where
  absent : (s.scratch_at effect).entry = .ObservedAbsent → d.steps = []
  retained : (s.scratch_at effect).entry ≠ .ObservedAbsent → ∃ state kind,
    variants.expected_retained_scratch_state effect = some state ∧ (s.scratch_at effect).entry.state? = some state ∧
      d = variants.remove_decision kind effect ⟨[], [s.scratch_at effect], []⟩

theorem classify_committed_cleanup_eq_ok {s : RecoverySnapshot} {index : Nat} {effect : Effect}
    (heffect : s.effects[index]? = some effect) {d : EffectDecision}
    (h : variants.classify_committed_cleanup s index = .ok d) (hhalt : d.halt_reason = none) : CleansUp s effect d := by
  have hfind := s.find_scratch (List.mem_of_getElem? heffect)
  unfold variants.classify_committed_cleanup at h
  rw [show s.compiled.spec.effects[index]? = some effect from heffect] at h
  simp only [variants.committed_scratch_joint, hfind, bind_eq_ok_iff, pure_eq_ok_iff] at h
  obtain ⟨_, _, _, rfl, h⟩ := h
  have hentry : (⟨[], [s.scratch_at effect], []⟩ : JointObservation).scratch_entry = (s.scratch_at effect).entry := rfl
  rw [hentry] at h
  split at h
  · rename_i habsent
    obtain rfl := pure_eq_ok_iff.mp h
    rw [ObservedEntry.is_absent_iff] at habsent
    exact ⟨fun _ => rfl, fun hne => absurd habsent hne⟩
  · rename_i hpresent
    rw [Bool.not_eq_true, ObservedEntry.is_absent_eq_false_iff] at hpresent
    refine ⟨fun habsent => absurd habsent hpresent, fun _ => ?_⟩
    split at h
    · obtain rfl := pure_eq_ok_iff.mp h
      simp [variants.halt] at hhalt
    · rename_i expected hexpected
      rw [bind_eq_ok_iff] at h
      obtain ⟨state, hstate, h⟩ := h
      rw [variants.entry_state_eq_ok_iff] at hstate
      split at h
      · obtain rfl := pure_eq_ok_iff.mp h
        simp [variants.halt] at hhalt
      · rename_i hsame
        rw [Decidable.not_not] at hsame
        subst hsame
        obtain rfl := pure_eq_ok_iff.mp h
        exact ⟨state, _, hexpected, hstate, rfl⟩

/-- A scratch-only removal clears its scratch. -/
theorem bind_scratch_removal {s final : RecoverySnapshot} {effect : Effect} (heffect : effect ∈ s.effects)
    {bound : List RecoveryStep} (h : bind_effect_steps s
      [.RemoveScratch (variants.remove_scratch effect ⟨[], [s.scratch_at effect], []⟩)] = .ok (bound, final)) :
    ∃ step, bound = [.RemoveScratch step] ∧ step.effect_id = effect.effect_id ∧
      reducer.apply_step s (.RemoveScratch step) = .ok final ∧ Cleared effect s final := by
  simp only [bind_effect_steps, bind_step, bind_eq_ok_iff, pure_eq_ok_iff, Prod.mk.injEq] at h
  obtain ⟨_, ⟨before, _, result, hresult, rfl⟩, current, hcurrent, ⟨_, _⟩, ⟨rfl, rfl⟩, rfl, rfl⟩ := h
  rw [reducer.apply_steps_singleton] at hcurrent
  refine ⟨_, rfl, rfl, hcurrent, ?_⟩
  have happlied := reducer.remove_scratch_eq_ok hcurrent
  obtain ⟨hpersistent, _, hscratch⟩ := reducer.normalize_joint_observation_eq_ok hresult
  have hkey := s.scratch_at_key heffect
  have hfind : ∀ other ∈ s.effects, (find_key ScratchObservation.key result.scratch (scratch_key other)).map
      ScratchObservation.entry = if other.effect_id = effect.effect_id then some .ObservedAbsent else none := by
    intro other hother
    rw [hscratch]
    simp only [variants.remove_scratch, variants.replace_scratch, List.map_cons, List.map_nil, find_key,
      reducer.normalize_scratch_key, Option.none_or]
    have hiff : (⟨(s.scratch_at effect).effect_id, (s.scratch_at effect).role, OBSERVED_ABSENT, none⟩ :
        ScratchObservation).key = scratch_key other ↔ other.effect_id = effect.effect_id := by
      rw [show (⟨(s.scratch_at effect).effect_id, (s.scratch_at effect).role, OBSERVED_ABSENT, none⟩ :
        ScratchObservation).key = (s.scratch_at effect).key from rfl, hkey]
      constructor
      · intro heq
        exact (congrArg Prod.fst heq).symm
      · intro hid
        have hsame : other = effect := by
          have hleft := s.effect_of_eq hother
          rw [hid, s.effect_of_eq heffect] at hleft
          exact (Option.some.inj hleft).symm
        rw [hsame]
    by_cases hid : other.effect_id = effect.effect_id
    · rw [if_pos (hiff.mpr hid), if_pos hid, Option.map_some, reducer.normalize_scratch_entry]
      rfl
    · have hne := mt hiff.mp hid
      simp [hne, hid]
  refine ⟨happlied.frame, happlied.record, happlied.journals, ?_, ?_, ?_⟩
  · intro path
    by_cases hplanned : path ∈ s.compiled.paths
    · rw [happlied.entries path hplanned, reducer.entry_after, hpersistent]
      rfl
    · rw [RecoverySnapshot.entry_at_of_not_mem hplanned,
        RecoverySnapshot.entry_at_of_not_mem (happlied.frame.compiled_paths ▸ hplanned)]
  · intro other hother hne
    rw [happlied.scratch other hother, reducer.scratch_after, hfind other hother, if_neg hne]
    rfl
  · rw [happlied.scratch effect heffect, reducer.scratch_after, hfind effect heffect, if_pos rfl]
    rfl

/-- One pass through the body of the cleanup loop. -/
structure CleanUpStep (cursor : RecoverySnapshot) (index : Nat) (effect : Effect) (bound : List RecoveryStep)
    (next : RecoverySnapshot) : Prop where
  effect_at : cursor.effects[index]? = some effect
  applies : reducer.apply_steps cursor bound = .ok next
  outcome : (cursor.scratch_at effect).entry = .ObservedAbsent ∧ bound = [] ∧ next = cursor ∨
    ∃ state step, variants.expected_retained_scratch_state effect = some state ∧
      (cursor.scratch_at effect).entry.state? = some state ∧ bound = [.RemoveScratch step] ∧
      step.effect_id = effect.effect_id ∧ Cleared effect cursor next

/-- The cleanup loop, effect by effect. -/
inductive CleansUpAll : List Nat → RecoverySnapshot → List RecoveryStep → RecoverySnapshot → Prop
  | nil (cursor : RecoverySnapshot) : CleansUpAll [] cursor [] cursor
  | cons {index : Nat} {rest : List Nat} {cursor next final : RecoverySnapshot} {effect : Effect}
      {bound steps : List RecoveryStep} (hstep : CleanUpStep cursor index effect bound next)
      (hrest : CleansUpAll rest next steps final) : CleansUpAll (index :: rest) cursor (bound ++ steps) final

theorem clean_up_effects_eq_ok {source cursor final : RecoverySnapshot} {indices : List Nat}
    {steps all : List RecoveryStep} (hindices : ∀ index ∈ indices, index < cursor.effects.length)
    (h : clean_up_effects source indices cursor steps = .ok (.inr (final, all))) :
    ∃ added, all = steps ++ added ∧ CleansUpAll indices cursor added final := by
  induction indices generalizing cursor steps with
  | nil =>
    simp only [clean_up_effects, pure_eq_ok_iff, Sum.inr.injEq, Prod.mk.injEq] at h
    obtain ⟨rfl, rfl⟩ := h
    exact ⟨[], by simp, .nil _⟩
  | cons index rest ih =>
    have hlt := hindices index List.mem_cons_self
    have heffect := List.getElem?_eq_getElem hlt
    generalize cursor.effects[index] = effect at heffect
    have hmem := List.mem_of_getElem? heffect
    simp only [clean_up_effects, bind_eq_ok_iff] at h
    obtain ⟨d, hd, _, _, h⟩ := h
    cases hhalt : d.halt_reason with
    | some reason =>
      simp only [hhalt, bind_eq_ok_iff, pure_eq_ok_iff] at h
      obtain ⟨_, _, h⟩ := h
      cases h
    | none =>
      simp only [hhalt, bind_eq_ok_iff] at h
      obtain ⟨_, _, _, _, ⟨bound, next⟩, hbound, h⟩ := h
      have hcleans := classify_committed_cleanup_eq_ok heffect hd hhalt
      have hstep : CleanUpStep cursor index effect bound next := by
        by_cases habsent : (cursor.scratch_at effect).entry = .ObservedAbsent
        · rw [hcleans.absent habsent] at hbound
          simp only [bind_effect_steps, pure_eq_ok_iff, Prod.mk.injEq] at hbound
          obtain ⟨rfl, rfl⟩ := hbound
          exact ⟨heffect, rfl, .inl ⟨habsent, rfl, rfl⟩⟩
        · obtain ⟨state, kind, hexpected, hstate, rfl⟩ := hcleans.retained habsent
          obtain ⟨step, rfl, hid, happly, hcleared⟩ := bind_scratch_removal hmem hbound
          exact ⟨heffect, reducer.apply_steps_singleton.mpr happly,
            .inr ⟨state, step, hexpected, hstate, rfl, hid, hcleared⟩⟩
      have hframe : next.effects = cursor.effects := (reducer.apply_steps_frame hstep.applies).effects
      obtain ⟨added, rfl, hall⟩ := ih
        (fun other hother => by rw [hframe]; exact hindices other (List.mem_cons_of_mem _ hother)) h
      exact ⟨bound ++ added, by simp, .cons hstep hall⟩

/-- A cleanup plan: the loop and the detachment. -/
structure CommitsCleanly (source : RecoverySnapshot) (plan : ActionPlan) (steps : List RecoveryStep)
    (final : RecoverySnapshot) : Prop where
  bound : plan.bound_snapshot = source
  surface : committed_surface_matches source = .ok true
  loop : CleansUpAll (List.range source.effects.length) source steps final
  ends : ∃ settled, reducer.apply_steps final [.DetachActive] = .ok settled
  steps_eq : plan.steps = steps ++ [.DetachActive]

theorem committed_plan_eq_ok {source : RecoverySnapshot} {plan : ActionPlan}
    (h : committed_plan source = .ok (.ActionPlan plan)) : ∃ steps final, CommitsCleanly source plan steps final := by
  have hhalt : ∀ {reason effect_id expected observed projected},
      halt_plan source reason effect_id expected observed projected ≠ .ok (.ActionPlan plan) := by
    intro reason effect_id expected observed projected hplan
    exact absurd (halt_plan_is_halt hplan) (by simp [RecoveryPlan.is_halt])
  unfold committed_plan at h
  rw [bind_eq_ok_iff] at h
  obtain ⟨matching, hmatching, h⟩ := h
  split at h
  · exact absurd h hhalt
  · rename_i hmatch
    rw [Decidable.not_not] at hmatch
    subst hmatch
    rw [bind_eq_ok_iff] at h
    obtain ⟨outcome, hloop, h⟩ := h
    cases outcome with
    | inl halted =>
      obtain rfl := pure_eq_ok_iff.mp h
      have hnot : ∀ indices cursor steps, clean_up_effects source indices cursor steps ≠ .ok (.inl (.ActionPlan plan)) := by
        intro indices
        induction indices with
        | nil => simp [clean_up_effects]
        | cons index rest ih =>
          intro cursor steps hloop
          simp only [clean_up_effects, bind_eq_ok_iff] at hloop
          obtain ⟨d, _, _, _, hloop⟩ := hloop
          cases hreason : d.halt_reason with
          | some reason =>
            simp only [hreason, bind_eq_ok_iff, pure_eq_ok_iff, Sum.inl.injEq] at hloop
            obtain ⟨_, hplan, rfl⟩ := hloop
            exact hhalt hplan
          | none =>
            simp only [hreason, bind_eq_ok_iff] at hloop
            obtain ⟨_, _, _, _, _, _, hloop⟩ := hloop
            exact ih _ _ hloop
      exact absurd hloop (hnot _ _ _)
    | inr outcome =>
      obtain ⟨final, all⟩ := outcome
      simp only [bind_eq_ok_iff, new_action_plan] at h
      obtain ⟨settled, hends, _, _, _, _, h⟩ := h
      obtain ⟨added, hadded, hall⟩ := clean_up_effects_eq_ok (fun index hindex => List.mem_range.mp hindex) hloop
      rw [List.nil_append] at hadded
      subst hadded
      refine ⟨all, final, ?_⟩
      split at h
      · simp at h
      · simp only [pure_eq_ok_iff, RecoveryPlan.ActionPlan.injEq] at h
        subst h
        exact ⟨rfl, hmatching, hall, ⟨settled, hends⟩, rfl⟩

/-- Every action plan is a rollback, a cleanup or a detachment. -/
theorem classify_recovery_action {source : RecoverySnapshot} {plan : ActionPlan}
    (h : classify_recovery source = .ok (.ActionPlan plan)) :
    (RollbackSource source ∧ rollback_plan source = .ok (.ActionPlan plan)) ∨
    (source.transaction_state = .COMMITTED ∧ committed_plan source = .ok (.ActionPlan plan)) ∨
    (source.transaction_state = .ROLLED_BACK ∧ source.active = true ∧ plan.bound_snapshot = source ∧
      plan.steps = [.DetachActive]) := by
  by_cases hrollback : source.transaction_state ∈ [TransactionState.PREPARED, .APPLYING, .APPLIED, .ROLLING_BACK]
  · exact .inl (classify_recovery_rolls_back hrollback h)
  have hhalt : ∀ {reason effect_id expected observed projected},
      halt_plan source reason effect_id expected observed projected ≠ .ok (.ActionPlan plan) := by
    intro reason effect_id expected observed projected hplan
    exact absurd (halt_plan_is_halt hplan) (by simp [RecoveryPlan.is_halt])
  have hstable : stable_halt_plan source ≠ .ok (.ActionPlan plan) := by
    intro hplan
    unfold stable_halt_plan at hplan
    split at hplan
    · simp at hplan
    · simp [new_halt_plan] at hplan
  unfold classify_recovery at h
  rw [bind_eq_ok_iff] at h
  obtain ⟨authority, hauthority, h⟩ := h
  split at h
  · simp [new_no_recovery_plan] at h
  · exact absurd h hstable
  · exact absurd h hhalt
  · simp at h
  · -- only a rolled back record is detached
    rename_i hkind
    have hstate : source.transaction_state = .ROLLED_BACK ∧ source.active = true := by
      unfold journal.classify_transaction_authority at hauthority
      rw [bind_eq_ok_iff] at hauthority
      obtain ⟨_, _, hauthority⟩ := hauthority
      dsimp only at hauthority
      repeat' split at hauthority
      all_goals first
        | exact ⟨by assumption, Decidable.not_not.mp (by assumption)⟩
        | (simp only [pure_eq_ok_iff] at hauthority; subst hauthority; cases hkind)
        | simp at hauthority
    simp only [terminal_detach_plan, new_action_plan, bind_eq_ok_iff] at h
    obtain ⟨_, _, h⟩ := h
    split at h
    · simp at h
    · simp only [pure_eq_ok_iff, RecoveryPlan.ActionPlan.injEq] at h
      subst h
      exact .inr (.inr ⟨hstate.1, hstate.2, rfl, rfl⟩)
  · rename_i hkind
    rw [bind_eq_ok_iff] at h
    obtain ⟨refused, _, h⟩ := h
    cases refused with
    | some item => exact absurd h hhalt
    | none =>
      simp only at h
      split at h
      · rename_i hstate
        exact .inr (.inl ⟨hstate, h⟩)
      · rename_i hnot
        exfalso
        have hstate : source.transaction_state = .ROLLED_BACK ∨ source.transaction_state = .HALTED := by
          cases hcase : source.transaction_state <;> simp_all
        unfold journal.classify_transaction_authority at hauthority
        rw [bind_eq_ok_iff] at hauthority
        obtain ⟨_, _, hauthority⟩ := hauthority
        rcases hstate with hstate | hstate <;> simp only [hstate, if_true, reduceCtorEq, if_false] at hauthority
        all_goals
          repeat' split at hauthority
          all_goals first
            | (simp only [pure_eq_ok_iff] at hauthority; subst hauthority; cases hkind)
            | simp at hauthority

end atoms.recovery.classifier

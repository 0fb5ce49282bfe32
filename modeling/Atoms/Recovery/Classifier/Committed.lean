import Atoms.Recovery.Classifier.Authorizable
import Atoms.Recovery.Classifier.Conservation
import Atoms.Recovery.Classifier.Halting
import Atoms.Recovery.Reducer.Totality

open atoms.errors atoms.fingerprint atoms.effects atoms.timeline atoms.compiler checked keyed

namespace atoms.recovery.classifier

section

variable [UnicodeData]

/-- A committed record whose effects are all done and whose entries recovery may touch. -/
structure CleansUpFrom (s : RecoverySnapshot) : Prop where
  state : s.transaction_state = .COMMITTED
  commit : s.commit_decision = .COMMITTED
  done : ∀ row ∈ s.journals, row.state = .DONE
  authorizable : Authorizable s

namespace CleansUpFrom

variable {s s' : RecoverySnapshot}

theorem not_started (h : CleansUpFrom s) : JournalState.STARTED ∉ s.states := by
  intro hmem
  obtain ⟨row, hrow, hstate⟩ := List.mem_map.mp hmem
  rw [h.done row hrow] at hstate
  cases hstate

theorem of_cleared (h : CleansUpFrom s) {effect : Effect} {steps : List RecoveryStep} (hcleared : Cleared effect s s')
    (hsteps : reducer.apply_steps s steps = .ok s') : CleansUpFrom s' := by
  refine ⟨?_, ?_, ?_, h.authorizable.of_steps hsteps⟩
  · rw [hcleared.record.transaction_state, h.state]
  · rw [hcleared.frame.commit_decision, h.commit]
  · rw [hcleared.journals]
    exact h.done

end CleansUpFrom

/-- What cleanup looks at for one effect: its scratch name alone. -/
def scratch_view (s : RecoverySnapshot) (effect : Effect) : JointObservation := ⟨[], [s.scratch_at effect], []⟩

/-- The three decisions that cleanup takes on an effect. -/
inductive CleanupDecides (s : RecoverySnapshot) (effect : Effect) : EffectDecision → Prop
  | idle (habsent : (s.scratch_at effect).entry = .ObservedAbsent) :
    CleanupDecides s effect (variants.decision .NO_ACTION (scratch_view s effect) [])
  | refuse : CleanupDecides s effect (variants.halt (scratch_view s effect) .EFFECT_TUPLE_UNATTRIBUTABLE)
  | remove {state : PathState} {kind : EffectDecisionKind} (hpresent : (s.scratch_at effect).entry ≠ .ObservedAbsent)
      (hexpected : variants.expected_retained_scratch_state effect = some state)
      (hstate : (s.scratch_at effect).entry.state? = some state) (hkind : kind = .REMOVE_ANCHOR ∨ kind = .REMOVE_SCRATCH) :
    CleanupDecides s effect (variants.remove_decision kind effect (scratch_view s effect))

theorem classify_committed_cleanup_total {s : RecoverySnapshot} (h : CleansUpFrom s) {index : Nat} {effect : Effect}
    (heffect : s.effects[index]? = some effect) :
    ∃ d, variants.classify_committed_cleanup s index = .ok d ∧ CleanupDecides s effect d := by
  have hmem := List.mem_of_getElem? heffect
  have hjoint : variants.committed_scratch_joint s effect = .ok (scratch_view s effect) := by
    unfold variants.committed_scratch_joint
    rw [s.find_scratch hmem]
    rfl
  have hentry : (scratch_view s effect).scratch_entry = (s.scratch_at effect).entry := rfl
  unfold variants.classify_committed_cleanup
  rw [show s.compiled.spec.effects[index]? = some effect from heffect]
  simp only [require_protocol]
  rw [require_of ⟨h.state, h.commit, h.done⟩, ok_bind, hjoint, ok_bind, hentry]
  split
  · rename_i habsent
    exact ⟨_, rfl, .idle (ObservedEntry.is_absent_iff.mp habsent)⟩
  · rename_i hpresent
    have hpresent : (s.scratch_at effect).entry ≠ .ObservedAbsent := fun heq => hpresent (ObservedEntry.is_absent_iff.mpr heq)
    cases hexpected : variants.expected_retained_scratch_state effect with
    | none => exact ⟨_, rfl, .refuse⟩
    | some expected =>
      obtain ⟨state, hstate⟩ := Option.isSome_iff_exists.mp (h.authorizable.stated (.inr ⟨effect, hmem, rfl⟩))
      simp only [variants.entry_state_eq_ok_iff.mpr hstate, ok_bind]
      split
      · exact ⟨_, rfl, .refuse⟩
      · rename_i hsame
        rw [Decidable.not_not] at hsame
        subst hsame
        refine ⟨_, rfl, .remove hpresent hexpected hstate ?_⟩
        cases effect <;> simp

section

variable {s : RecoverySnapshot} {effect : Effect}

theorem scratch_view_listed (heffect : effect ∈ s.effects) : reducer.Listed s (scratch_view s effect) := by
  refine ⟨⟨by simp [scratch_view], ?_, by simp [scratch_view], by simp [scratch_view], by simp [scratch_view],
    by simp [scratch_view]⟩, by simp [scratch_view], ?_⟩
  · intro item hitem
    rw [scratch_view, List.mem_singleton] at hitem
    exact hitem ▸ s.scratch_valid heffect
  · intro key hkey
    rw [scratch_view, List.map_singleton, List.mem_singleton, s.scratch_at_key heffect] at hkey
    exact hkey ▸ List.mem_map_of_mem heffect

/-- The observation after the removal of the scratch. -/
def cleared_view (s : RecoverySnapshot) (effect : Effect) : JointObservation :=
  ⟨[], variants.replace_scratch (scratch_view s effect) OBSERVED_ABSENT, []⟩

theorem cleared_view_listed (heffect : effect ∈ s.effects) : reducer.Listed s (cleared_view s effect) := by
  have hkey := s.scratch_at_key heffect
  refine ⟨⟨by simp [cleared_view], ?_, by simp [cleared_view], by simp [cleared_view],
    by simp [cleared_view, variants.replace_scratch, scratch_view], by simp [cleared_view]⟩, by simp [cleared_view], ?_⟩
  · intro item hitem
    simp only [cleared_view, variants.replace_scratch, scratch_view, List.map_cons, List.map_nil, List.mem_singleton]
      at hitem
    subst hitem
    trivial
  · intro key hkey'
    simp only [cleared_view, variants.replace_scratch, scratch_view, List.map_cons, List.map_nil, List.mem_singleton]
      at hkey'
    rw [hkey', show (⟨(s.scratch_at effect).effect_id, (s.scratch_at effect).role, OBSERVED_ABSENT, none⟩ :
      ScratchObservation).key = (s.scratch_at effect).key from rfl, hkey]
    exact List.mem_map_of_mem heffect

theorem scratch_view_reportable : Reportable (scratch_view s effect) := ⟨by simp [scratch_view], by simp [scratch_view]⟩

/-- Cleanup's decisions pass the check on decisions. -/
theorem CleanupDecides.validated {d : EffectDecision} (h : CleanupDecides s effect d) (heffect : effect ∈ s.effects) :
    validate_effect_decision d = .ok () ∧ d.refused = false ∧ Reportable d.expected ∧ Reportable d.observed ∧
      ∀ step ∈ d.steps, semantic_step step = some .RemoveScratch := by
  have hview := (scratch_view_listed heffect).well_keyed
  have hcleared := (cleared_view_listed heffect).well_keyed
  have hself : reducer.validate_joint_coverage (scratch_view s effect) (scratch_view s effect) = .ok () :=
    reducer.validate_joint_coverage_eq_ok_iff.mpr ⟨hview, hview, by simp [set_eq]⟩
  have hremoval : reducer.validate_joint_coverage (scratch_view s effect) (cleared_view s effect) = .ok () :=
    reducer.validate_joint_coverage_eq_ok_iff.mpr ⟨hview, hcleared, by
      simp [set_eq, scratch_view, cleared_view, variants.replace_scratch, ScratchObservation.key]⟩
  cases h with
  | idle _ =>
    refine ⟨?_, rfl, scratch_view_reportable, scratch_view_reportable, by simp [variants.decision]⟩
    simp [validate_effect_decision, variants.decision, validate_steps, hself, decision_step_shapes, refused_decision_kind]
  | refuse =>
    refine ⟨?_, rfl, scratch_view_reportable, scratch_view_reportable, by simp [variants.halt]⟩
    simp [validate_effect_decision, variants.halt, validate_steps, hself]
  | remove _ _ _ hkind =>
    refine ⟨?_, rfl, scratch_view_reportable, scratch_view_reportable, by
      simp [variants.remove_decision, variants.decision, semantic_step]⟩
    have hstep : validate_decision_step (.RemoveScratch (variants.remove_scratch effect (scratch_view s effect))) = .ok () :=
      hremoval
    rcases hkind with rfl | rfl
    all_goals
      simp [validate_effect_decision, variants.remove_decision, variants.decision, validate_steps, semantic_step, hstep,
        hself, decision_step_shapes, refused_decision_kind]

/-- The scratch name is observed as it is when its removal is bound. -/
theorem joint_from_cursor_scratch (heffect : effect ∈ s.effects) :
    reducer.current_joint_observation s (scratch_view s effect) = .ok (scratch_view s effect) ∧
      joint_from_cursor s (scratch_view s effect) = .ok (scratch_view s effect) := by
  have hlisted := scratch_view_listed heffect
  have hcurrent : reducer.current_joint_observation s (scratch_view s effect) = .ok (scratch_view s effect) := by
    unfold reducer.current_joint_observation
    rw [reducer.joint_keys_eq_ok_iff.mpr ⟨hlisted.well_keyed, rfl⟩, ok_bind]
    simp only [scratch_view, List.mapM_cons, List.mapM_nil, s.scratch_at_key heffect, s.find_scratch heffect]
    rfl
  refine ⟨hcurrent, ?_⟩
  unfold joint_from_cursor
  rw [hcurrent, ok_bind, reducer.normalize_joint_observation_total hlisted rfl]
  simp only [scratch_view, merge_nil, List.map_cons, List.map_nil,
    reducer.normalize_scratch_of_mem (s.scratch_at_mem heffect)]

/-- The removal of a retained scratch is bound and applied. -/
theorem bind_scratch_removal_total (h : CleansUpFrom s) (heffect : effect ∈ s.effects)
    (hpresent : (s.scratch_at effect).entry ≠ .ObservedAbsent)
    (hretained : (variants.expected_retained_scratch_state effect).isSome) :
    ∃ bound final, bind_effect_steps s [.RemoveScratch (variants.remove_scratch effect (scratch_view s effect))] =
      .ok (bound, final) := by
  obtain ⟨hcurrent, hjoint⟩ := joint_from_cursor_scratch heffect
  have hkey := s.scratch_at_key heffect
  have hcleared_key : (⟨(s.scratch_at effect).effect_id, (s.scratch_at effect).role, OBSERVED_ABSENT, none⟩ :
      ScratchObservation).key = scratch_key effect := hkey
  have hlisted := cleared_view_listed heffect
  have hafter : reducer.normalize_joint_observation s (cleared_view s effect) = .ok (cleared_view s effect) := by
    rw [reducer.normalize_joint_observation_total hlisted rfl]
    simp only [cleared_view, scratch_view, variants.replace_scratch, List.map_cons, List.map_nil,
      reducer.normalize_scratch_of_none]
  have hbind : bind_step s (.RemoveScratch (variants.remove_scratch effect (scratch_view s effect))) =
      .ok (.RemoveScratch (variants.remove_scratch effect (scratch_view s effect))) := by
    unfold bind_step
    simp only [variants.remove_scratch, hjoint, ok_bind]
    rw [show (⟨(scratch_view s effect).persistent, variants.replace_scratch (scratch_view s effect) OBSERVED_ABSENT,
      (scratch_view s effect).parent_occupancy⟩ : JointObservation) = cleared_view s effect from rfl, hafter]
    rfl
  have hrow : ∃ row ∈ s.journals, row.effect_id = effect.effect_id := by
    have hmem : effect.effect_id ∈ s.journals.map EffectJournalState.effect_id := by
      rw [s.journal_ids]
      exact List.mem_map_of_mem heffect
    simpa using hmem
  obtain ⟨row, hrow, hid⟩ := hrow
  have hcoverage : reducer.validate_remove_scratch_joint_coverage s effect
      (variants.remove_scratch effect (scratch_view s effect)) = .ok () := by
    unfold reducer.validate_remove_scratch_joint_coverage
    rw [← hid, filter_key_of_mem s.journal_ids_nodup hrow]
    simp [variants.remove_scratch, scratch_view, h.state, h.commit, hretained, h.done row hrow, hkey, set_eq]
  have hmutation : ∀ message, reducer.require_mutation s effect (scratch_view s effect) (cleared_view s effect) message =
      .ok () := by
    intro message
    unfold reducer.require_mutation
    rw [hcurrent, ok_bind]
    cases effect <;>
      simp_all [reducer.require_exact_entry_transfers, reducer.require_parent_unmodeled_conservation,
        reducer.require_removed_directories_empty, variants.expected_retained_scratch_state, cleared_view, scratch_view,
        variants.replace_scratch, JointObservation.entries, OBSERVED_ABSENT]
  have hremoval : reducer.require_removal (variants.remove_scratch effect (scratch_view s effect)) = .ok () := by
    have hexpected : find_key ScratchObservation.key (scratch_view s effect).scratch
        (effect.effect_id, required_scratch_role effect) = some (s.scratch_at effect) := by
      simp [scratch_view, find_key, hkey, scratch_key]
    have hremoved : find_key ScratchObservation.key (variants.replace_scratch (scratch_view s effect) OBSERVED_ABSENT)
        (effect.effect_id, required_scratch_role effect) =
          some ⟨(s.scratch_at effect).effect_id, (s.scratch_at effect).role, OBSERVED_ABSENT, none⟩ := by
      simp only [variants.replace_scratch, scratch_view, List.map_cons, List.map_nil, find_key, hcleared_key, Option.none_or]
      exact if_pos rfl
    have hthere : (s.scratch_at effect).entry.is_absent = false := ObservedEntry.is_absent_eq_false_iff.mpr hpresent
    unfold reducer.require_removal
    simp only [variants.remove_scratch, hexpected, hremoved]
    simp [hthere, OBSERVED_ABSENT, scratch_view, hkey, scratch_key]
  obtain ⟨final, hfinal⟩ := reducer.apply_result_total hlisted h.not_started
    "remove scratch result_after has stale parent occupancy" rfl
  have happly : reducer.apply_steps s [.RemoveScratch (variants.remove_scratch effect (scratch_view s effect))] =
      .ok final := by
    rw [reducer.apply_steps_singleton]
    change reducer.remove_scratch s (variants.remove_scratch effect (scratch_view s effect)) = .ok final
    unfold reducer.remove_scratch
    rw [show (variants.remove_scratch effect (scratch_view s effect)).effect_id = effect.effect_id from rfl,
      reducer.mutating_step_effect_eq heffect, ok_bind]
    have hvalid : reducer.validate_joint_coverage (scratch_view s effect) (cleared_view s effect) = .ok () :=
      reducer.validate_joint_coverage_eq_ok_iff.mpr ⟨(scratch_view_listed heffect).well_keyed, hlisted.well_keyed, by
        simp [set_eq, scratch_view, cleared_view, variants.replace_scratch, ScratchObservation.key]⟩
    change (reducer.validate_joint_coverage (scratch_view s effect) (cleared_view s effect) >>= fun _ => _) = _
    rw [hvalid, ok_bind, hcoverage, ok_bind]
    change (reducer.require_mutation s effect (scratch_view s effect) (cleared_view s effect) _ >>= fun _ => _) = _
    rw [hmutation, ok_bind, hremoval, ok_bind]
    exact hfinal
  refine ⟨[.RemoveScratch (variants.remove_scratch effect (scratch_view s effect))], final, ?_⟩
  simp only [bind_effect_steps, hbind, ok_bind, happly]
  rfl

end

/-- The cleanup loop never raises: it ends, or halts at an effect whose scratch is not its own. -/
theorem clean_up_effects_total {source cursor : RecoverySnapshot} (hsource : source.transaction_state ≠ .HALTED)
    (h : CleansUpFrom cursor) (indices : List Nat) (hindices : ∀ index ∈ indices, index < cursor.effects.length)
    (steps : List RecoveryStep) : ∃ outcome, clean_up_effects source indices cursor steps = .ok outcome ∧
      ∀ plan, outcome = .inl plan → plan.is_halt = true := by
  induction indices generalizing cursor steps with
  | nil => exact ⟨_, rfl, by simp⟩
  | cons index rest ih =>
    have hlt := hindices index List.mem_cons_self
    have heffect := List.getElem?_eq_getElem hlt
    generalize cursor.effects[index] = effect at heffect
    have hmem := List.mem_of_getElem? heffect
    obtain ⟨d, hd, hdecides⟩ := classify_committed_cleanup_total h heffect
    obtain ⟨hvalid, hrefused, hexpected, hobserved, hkinds⟩ := hdecides.validated hmem
    have hrest : ∀ {next : RecoverySnapshot}, next.effects = cursor.effects → ∀ other ∈ rest, other < next.effects.length := by
      intro next heq other hother
      rw [heq]
      exact hindices other (List.mem_cons_of_mem _ hother)
    unfold clean_up_effects
    rw [hd, ok_bind, hvalid, ok_bind]
    cases hdecides with
    | idle habsent =>
      obtain ⟨outcome, houtcome, hhalts⟩ := ih h (hrest rfl) (steps ++ [])
      refine ⟨outcome, ?_, hhalts⟩
      simpa [variants.decision, bind_effect_steps] using houtcome
    | refuse =>
      have hreportable : ∀ item ∈ some (scratch_view cursor effect), Reportable item := by
        simpa [variants.halt] using hexpected
      obtain ⟨plan, hplan⟩ := halt_plan_total hsource .EFFECT_TUPLE_UNATTRIBUTABLE
        (source.compiled.spec.effects[index]?.map Effect.effect_id) (some cursor) hreportable hreportable
      refine ⟨.inl plan, ?_, ?_⟩
      · simp only [variants.halt, hplan, ok_bind]
        rfl
      · rintro _ ⟨⟩
        exact halt_plan_is_halt hplan
    | remove hpresent hretained hstate hkind =>
      obtain ⟨bound, next, hbound⟩ := bind_scratch_removal_total h hmem hpresent (by simp [hretained])
      obtain ⟨step, rfl, _, happly, hcleared⟩ := bind_scratch_removal hmem hbound
      have hnext := h.of_cleared hcleared (reducer.apply_steps_singleton.mpr happly)
      obtain ⟨outcome, houtcome, hhalts⟩ := ih hnext (hrest hcleared.frame.effects) (steps ++ [.RemoveScratch step])
      refine ⟨outcome, ?_, hhalts⟩
      simp only [require_protocol] at hkinds ⊢
      rw [require_of (by simp [hrefused]), ok_bind, require_of hkinds, ok_bind]
      simp only [variants.remove_decision, variants.decision, hbound, ok_bind]
      exact houtcome

/-- Every persistent entry has a state to compare with the committed surface. -/
theorem committed_surface_matches_total {s : RecoverySnapshot} (h : Authorizable s) :
    ∃ matching, committed_surface_matches s = .ok matching := by
  unfold committed_surface_matches
  have hmap : ∃ matching, (s.persistent_observations.mapM fun observation => do
      let state ← variants.entry_state observation.entry
      pure (some state == surface_map s.compiled.spec.final_surface observation.path)) =
        Except.ok (ε := AtomsError) matching := by
    refine ⟨_, mapM_eq_ok_of_forall (g := fun observation =>
      observation.entry.state? == surface_map s.compiled.spec.final_surface observation.path) ?_⟩
    intro observation hobservation
    have hstated := h.stated (.inl ⟨_, s.entry_at_of_mem hobservation⟩)
    obtain ⟨state, hstate⟩ := Option.isSome_iff_exists.mp hstated
    rw [variants.entry_state_eq_ok_iff.mpr hstate, ok_bind, hstate]
    rfl
  obtain ⟨matching, hmatching⟩ := hmap
  rw [hmatching]
  exact ⟨_, rfl⟩

/-- What a run of the cleanup loop does from its start to its end. -/
structure ClearsAll (indices : List Nat) (s s' : RecoverySnapshot) (steps : List RecoveryStep) : Prop where
  frame : Frame s s'
  record : SameRecord s s'
  journals : s'.journals = s.journals
  entries : ∀ path, s'.entry_at path = s.entry_at path
  kept : ∀ effect ∈ s.effects, (∀ index ∈ indices, s.effects[index]? ≠ some effect) →
    (s'.scratch_at effect).entry = (s.scratch_at effect).entry
  cleared : ∀ index ∈ indices, ∀ effect, s.effects[index]? = some effect →
    (s'.scratch_at effect).entry = .ObservedAbsent ∧ ((s.scratch_at effect).entry ≠ .ObservedAbsent →
      ∃ state, variants.expected_retained_scratch_state effect = some state ∧
        (s.scratch_at effect).entry.state? = some state)
  removals : ∀ effect ∈ s.effects, (∃ step, .RemoveScratch step ∈ steps ∧ step.effect_id = effect.effect_id) ↔
    (s.scratch_at effect).entry ≠ .ObservedAbsent ∧ (s'.scratch_at effect).entry = .ObservedAbsent
  steps_eq : ∀ step ∈ steps, ∃ removal, step = .RemoveScratch removal

namespace ClearsAll

variable {s next s' : RecoverySnapshot} {index : Nat} {rest : List Nat} {effect : Effect} {steps : List RecoveryStep}

theorem nil (s : RecoverySnapshot) : ClearsAll [] s s [] :=
  ⟨Frame.refl s, SameRecord.refl s, rfl, fun _ => rfl, fun _ _ _ => rfl, by simp, by simp, by simp⟩

/-- A scratch name that is absent stays absent. -/
theorem stays_absent (h : ClearsAll rest s s' steps) {effect : Effect} (heffect : effect ∈ s.effects)
    (habsent : (s.scratch_at effect).entry = .ObservedAbsent) : (s'.scratch_at effect).entry = .ObservedAbsent := by
  by_cases hlisted : ∃ index ∈ rest, s.effects[index]? = some effect
  · obtain ⟨index, hindex, hat⟩ := hlisted
    exact (h.cleared index hindex effect hat).1
  · rw [h.kept effect heffect fun index hindex hat => hlisted ⟨index, hindex, hat⟩, habsent]

/-- An effect whose scratch is absent is passed by. -/
theorem skip (h : ClearsAll rest s s' steps) (heffect : s.effects[index]? = some effect)
    (habsent : (s.scratch_at effect).entry = .ObservedAbsent) : ClearsAll (index :: rest) s s' steps := by
  refine ⟨h.frame, h.record, h.journals, h.entries, ?_, ?_, h.removals, h.steps_eq⟩
  · intro other hother hnone
    exact h.kept other hother fun i hi => hnone i (List.mem_cons_of_mem _ hi)
  · intro i hi other hat
    rcases List.mem_cons.mp hi with rfl | hi
    · obtain rfl : other = effect := Option.some.inj (hat.symm.trans heffect)
      exact ⟨h.stays_absent (List.mem_of_getElem? hat) habsent, fun hpresent => absurd habsent hpresent⟩
    · exact h.cleared i hi other hat

/-- A retained scratch is removed, and the rest of the loop leaves it so. -/
theorem remove (h : ClearsAll rest next s' steps) (heffect : s.effects[index]? = some effect) (hcleared : Cleared effect s next)
    {state : PathState} (hexpected : variants.expected_retained_scratch_state effect = some state)
    (hstate : (s.scratch_at effect).entry.state? = some state) (hpresent : (s.scratch_at effect).entry ≠ .ObservedAbsent)
    {step : RemoveScratch} (hid : step.effect_id = effect.effect_id) :
    ClearsAll (index :: rest) s s' (.RemoveScratch step :: steps) := by
  have hmem := List.mem_of_getElem? heffect
  have heffects := hcleared.frame.effects
  have hgone : (s'.scratch_at effect).entry = .ObservedAbsent := h.stays_absent (heffects ▸ hmem) hcleared.own
  have hbeside : ∀ other ∈ s.effects, other ≠ effect → (next.scratch_at other).entry = (s.scratch_at other).entry := by
    intro other hother hne
    refine hcleared.scratch other hother fun hsame => hne ?_
    have hleft := s.effect_of_eq hother
    rw [hsame, s.effect_of_eq hmem] at hleft
    exact (Option.some.inj hleft).symm
  refine ⟨hcleared.frame.trans h.frame, hcleared.record.trans h.record, h.journals.trans hcleared.journals, ?_, ?_, ?_, ?_, ?_⟩
  · intro path
    rw [h.entries path, hcleared.entries path]
  · intro other hother hnone
    have hne : other ≠ effect := fun heq => hnone index List.mem_cons_self (heq ▸ heffect)
    rw [h.kept other (heffects ▸ hother) fun i hi => heffects ▸ hnone i (List.mem_cons_of_mem _ hi), hbeside other hother hne]
  · intro i hi other hat
    by_cases hsame : other = effect
    · subst hsame
      exact ⟨hgone, fun _ => ⟨state, hexpected, hstate⟩⟩
    · rcases List.mem_cons.mp hi with rfl | hi
      · exact absurd (Option.some.inj (hat.symm.trans heffect)) hsame
      · rw [← hbeside other (List.mem_of_getElem? hat) hsame]
        exact h.cleared i hi other (heffects ▸ hat)
  · intro other hother
    by_cases hsame : other = effect
    · subst hsame
      exact ⟨fun _ => ⟨hpresent, hgone⟩, fun _ => ⟨step, List.mem_cons_self, hid⟩⟩
    · have hne : step.effect_id ≠ other.effect_id := by
        intro heq
        have hleft := s.effect_of_eq hother
        rw [← heq, hid, s.effect_of_eq hmem] at hleft
        exact hsame (Option.some.inj hleft).symm
      rw [← hbeside other hother hsame, ← h.removals other (heffects ▸ hother)]
      constructor
      · rintro ⟨removal, hremoval, howner⟩
        rcases List.mem_cons.mp hremoval with heq | hremoval
        · cases heq
          exact absurd howner hne
        · exact ⟨removal, hremoval, howner⟩
      · rintro ⟨removal, hremoval, howner⟩
        exact ⟨removal, List.mem_cons_of_mem _ hremoval, howner⟩
  · intro other hother
    rcases List.mem_cons.mp hother with rfl | hother
    · exact ⟨step, rfl⟩
    · exact h.steps_eq other hother

end ClearsAll

omit [UnicodeData] in
/-- What an effect retains is the declared preimage of one of its paths. -/
theorem retained_is_preimage {effect : Effect} {state : PathState}
    (h : variants.expected_retained_scratch_state effect = some state) :
    state ≠ ABSENT ∧ ∃ occurrence ∈ occurrences effect, occurrence.pre = state := by
  cases effect with
  | ReplaceFile e =>
    obtain rfl := Option.some.inj h
    exact ⟨by simp [ABSENT], _, List.mem_cons_self, rfl⟩
  | DeletePath e =>
    obtain rfl := Option.some.inj h
    refine ⟨?_, _, List.mem_cons_self, rfl⟩
    cases e.pre <;> simp [DeletableState.state, ABSENT]
  | MoveNoClobber e =>
    obtain rfl := Option.some.inj h
    exact ⟨by simp [ABSENT], _, List.mem_cons_self, rfl⟩
  | _ => cases h

omit [UnicodeData] in
/-- A name that holds a retained state is not absent. -/
theorem retained_is_present {effect : Effect} {state : PathState} {entry : ObservedEntry}
    (h : variants.expected_retained_scratch_state effect = some state) (hstate : entry.state? = some state) :
    entry ≠ .ObservedAbsent := by
  rintro rfl
  rw [ObservedEntry.state?_absent, Option.some.injEq] at hstate
  exact (retained_is_preimage h).1 hstate.symm

theorem CleansUpAll.clears {indices : List Nat} {s s' : RecoverySnapshot} {steps : List RecoveryStep}
    (h : CleansUpAll indices s steps s') : ClearsAll indices s s' steps := by
  induction h with
  | nil cursor => exact ClearsAll.nil cursor
  | @cons index rest cursor next final effect bound steps hstep _ ih =>
    rcases hstep.outcome with ⟨habsent, rfl, rfl⟩ | ⟨state, step, hexpected, hstate, rfl, hid, hcleared⟩
    · exact ih.skip hstep.effect_at habsent
    · exact ih.remove hstep.effect_at hcleared hexpected hstate (retained_is_present hexpected hstate) hid

/-- What the plan of a committed record does to it. -/
structure CleanupFrame (s : RecoverySnapshot) (plan : ActionPlan) (final : RecoverySnapshot) : Prop where
  persistent : final.persistent_observations = s.persistent_observations
  cleared : ∀ observation ∈ final.scratch_observations, observation.entry = .ObservedAbsent
  preimages : ∀ effect ∈ s.effects, (s.scratch_at effect).entry ≠ .ObservedAbsent →
    ∃ occurrence ∈ occurrences effect, (s.scratch_at effect).entry.state? = some occurrence.pre
  removals : ∀ effect ∈ s.effects, (∃ step, .RemoveScratch step ∈ plan.steps ∧ step.effect_id = effect.effect_id) ↔
    (s.scratch_at effect).entry ≠ .ObservedAbsent
  journals : final.journals = s.journals
  steps : ∀ step ∈ plan.steps, (∃ removal, step = .RemoveScratch removal) ∨ step = .DetachActive
  result : plan.rollback_result = none ∧ final.rollback_result = none

/-- What classification may return on a committed record: a halt; nothing to recover, once
the record is detached; or a cleanup, while it is active. -/
def CommittedOutcome (s : RecoverySnapshot) : RecoveryPlan → Prop
  | .HaltPlan _ => True
  | .NoRecoveryPlan plan =>
    s.active = false ∧ reducer.apply_recovery_plan s (.NoRecoveryPlan plan) = .ok s
  | .ActionPlan plan => s.active = true ∧
    ∃ final, reducer.apply_recovery_plan s (.ActionPlan plan) = .ok final ∧ CleanupFrame s plan final

/-- Only a rolled back record has a rollback result. -/
theorem rollback_result_none {s : RecoverySnapshot} (h : s.transaction_state = .COMMITTED) : s.rollback_result = none := by
  have hpayloads := s.accepted.2.2.2.2.2.2
  simp only [snapshot.validate_terminal_payloads, bind_eq_ok_iff, require_eq_ok_iff] at hpayloads
  obtain ⟨_, hresult, _⟩ := hpayloads
  simpa [h] using hresult

theorem cleanup_frame_of_commits {s : RecoverySnapshot} {plan : ActionPlan} {steps : List RecoveryStep}
    {final : RecoverySnapshot} (hstate : s.transaction_state = .COMMITTED) (h : CommitsCleanly s plan steps final)
    (hdisposition : plan.disposition = .COMMITTED_CLEANUP) :
    ∃ settled, reducer.apply_recovery_plan s (.ActionPlan plan) = .ok settled ∧ CleanupFrame s plan settled := by
  have hclears := h.loop.clears
  obtain ⟨settled, hends⟩ := h.ends
  obtain ⟨_, hsame, _, hresult, _⟩ := reducer.detach_active_eq_ok (reducer.apply_steps_singleton.mp hends)
  have hat : ∀ effect ∈ s.effects, ∃ index ∈ List.range s.effects.length, s.effects[index]? = some effect := by
    intro effect heffect
    obtain ⟨index, hindex⟩ := List.getElem?_of_mem heffect
    exact ⟨index, List.mem_range.mpr (List.getElem?_eq_some_iff.mp hindex).1, hindex⟩
  have hcleared : ∀ effect ∈ s.effects, (final.scratch_at effect).entry = .ObservedAbsent := by
    intro effect heffect
    obtain ⟨index, hindex, hget⟩ := hat effect heffect
    exact (hclears.cleared index hindex effect hget).1
  refine ⟨settled, ?_, ?_, ?_, ?_, ?_, hsame.journals.trans hclears.journals, ?_, ?_⟩
  · unfold reducer.apply_recovery_plan
    rw [reduce_prefix_eq_ok_iff]
    refine ⟨h.bound.symm, Nat.le_refl _, ?_⟩
    rw [List.take_length, RecoveryPlan.steps, h.steps_eq]
    exact reducer.apply_steps_append_eq_ok_iff.mpr ⟨_, h.loop.applies, hends⟩
  · rw [hsame.persistent, final.persistent_eq_map, s.persistent_eq_map, hclears.frame.paths]
    simp [hclears.entries]
  · intro observation hobservation
    rw [hsame.scratch] at hobservation
    obtain ⟨effect, heffect, rfl⟩ := final.exists_effect_of_scratch hobservation
    exact hcleared effect (hclears.frame.effects ▸ heffect)
  · intro effect heffect hpresent
    obtain ⟨index, hindex, hget⟩ := hat effect heffect
    obtain ⟨state, hexpected, hstate⟩ := (hclears.cleared index hindex effect hget).2 hpresent
    obtain ⟨_, occurrence, hocc, rfl⟩ := retained_is_preimage hexpected
    exact ⟨occurrence, hocc, hstate⟩
  · intro effect heffect
    have hremovals := hclears.removals effect heffect
    rw [and_iff_left (hcleared effect heffect)] at hremovals
    rw [← hremovals, h.steps_eq]
    simp
  · intro step hstep
    rw [h.steps_eq, List.mem_append, List.mem_singleton] at hstep
    exact hstep.imp_left (hclears.steps_eq step)
  · refine ⟨?_, (hresult.trans hclears.record.rollback_result).trans (rollback_result_none hstate)⟩
    have hissued := plan.issued
    rw [hdisposition] at hissued
    exact (Option.some.inj hissued).symm

/-- The plan of an active committed record: a halt, or a cleanup that is its frame on user data. -/
theorem committed_plan_total {s : RecoverySnapshot} (h : CleansUpFrom s) (hactive : s.active = true) :
    ∃ plan, committed_plan s = .ok plan ∧ CommittedOutcome s plan := by
  have hlive : s.transaction_state ≠ .HALTED := by simp [h.state]
  have hhalts : ∀ {plan : RecoveryPlan}, plan.is_halt = true → CommittedOutcome s plan := by
    intro plan hhalt
    cases plan with
    | HaltPlan plan => trivial
    | _ => cases hhalt
  obtain ⟨matching, hmatching⟩ := committed_surface_matches_total h.authorizable
  cases hcase : matching with
  | false =>
    obtain ⟨plan, hplan⟩ := halt_plan_total hlive .COMMITTED_SURFACE_MISMATCH none none
      (show ∀ item ∈ (none : Option JointObservation), Reportable item by simp)
      (show ∀ item ∈ (none : Option JointObservation), Reportable item by simp)
    refine ⟨plan, ?_, hhalts (halt_plan_is_halt hplan)⟩
    unfold committed_plan
    simp only [hmatching, hcase, ok_bind]
    simpa using hplan
  | true =>
    obtain ⟨outcome, houtcome, hhalted⟩ := clean_up_effects_total hlive h (List.range s.compiled.spec.effects.length)
      (fun index hindex => List.mem_range.mp hindex) []
    cases outcome with
    | inl plan =>
      refine ⟨plan, ?_, hhalts (hhalted plan rfl)⟩
      unfold committed_plan
      simp [hmatching, hcase, houtcome, pure, Except.pure]
    | inr outcome =>
      obtain ⟨final, steps⟩ := outcome
      obtain ⟨added, hadded, hall⟩ := clean_up_effects_eq_ok (fun index hindex => List.mem_range.mp hindex) houtcome
      rw [List.nil_append] at hadded
      subst hadded
      have hclears := hall.clears
      have hstate : final.transaction_state = .COMMITTED := hclears.record.transaction_state.trans h.state
      obtain ⟨settled, hsettled⟩ := reducer.detach_active_of_terminal (s := final)
        (hclears.record.active.trans hactive) (.inl hstate)
      have hends : reducer.apply_steps final [.DetachActive] = .ok settled := reducer.apply_steps_singleton.mpr hsettled
      obtain ⟨_, _, hsettled_state, _, _, hdetached⟩ := reducer.detach_active_eq_ok hsettled
      have hvalid : validate_steps (steps ++ [.DetachActive]) = .ok () := by
        unfold validate_steps
        rw [forM_eq_ok_iff]
        intro step hstep
        rcases List.mem_append.mp hstep with hmem | hmem
        · obtain ⟨removal, rfl⟩ := hclears.steps_eq step hmem
          rfl
        · rw [List.mem_singleton.mp hmem]
      have hplan : committed_plan s = .ok (.ActionPlan ⟨s, .COMMITTED_CLEANUP, steps ++ [.DetachActive], none, rfl⟩) := by
        unfold committed_plan new_action_plan
        simp only [hmatching, hcase, ok_bind, not_true_eq_false, if_false, houtcome, hends, require_protocol]
        rw [require_of ⟨hsettled_state.trans hstate, by simp [hdetached]⟩, ok_bind, hvalid]
        rfl
      refine ⟨_, hplan, hactive, ?_⟩
      obtain ⟨_, _, hcommits⟩ := committed_plan_eq_ok hplan
      exact cleanup_frame_of_commits h.state hcommits rfl

/-- Classification of a committed record never raises. While the record is active it halts or cleans up, as a
frame on user data; once the record is detached there is nothing left to recover. -/
theorem committed_classification {s : RecoverySnapshot} (h : s.transaction_state = .COMMITTED) :
    ∃ plan, classify_recovery s = .ok plan ∧ CommittedOutcome s plan := by
  have hsnapshot : journal.require_snapshot s = .ok () := by simp [journal.require_snapshot, s.journal_ids]
  have hlive : s.transaction_state ≠ .HALTED := by simp [h]
  have hhalt : ∀ (reason : HaltReason) (effect_id : Option String) (observed : Option JointObservation),
      (∀ item ∈ observed, Reportable item) →
        ∃ plan, halt_plan s reason effect_id none observed none = .ok plan ∧ CommittedOutcome s plan := by
    intro reason effect_id observed hobserved
    obtain ⟨plan, hplan⟩ := halt_plan_total hlive reason effect_id none
      (show ∀ item ∈ (none : Option JointObservation), Reportable item by simp) hobserved
    refine ⟨plan, hplan, ?_⟩
    have hhalts := halt_plan_is_halt hplan
    cases plan with
    | HaltPlan plan => trivial
    | _ => cases hhalts
  unfold classify_recovery journal.classify_transaction_authority
  rw [hsnapshot]
  simp only [ok_bind, h]
  by_cases hdecision : journal.compatible_commit_decision .COMMITTED s.commit_decision = true
  · by_cases hlegal : journal.legal_journal_language .COMMITTED s.states = true
    · by_cases hactive : s.active = true
      · simp only [hdecision, hlegal, hactive, not_true_eq_false, if_false, false_and, reduceCtorEq, pure, Except.pure,
          ok_bind, if_true]
        cases hrefused : first_non_authorizable s s.compiled.spec.effects with
        | error error =>
          obtain ⟨refused, htotal⟩ := first_non_authorizable_total fun effect (h : effect ∈ s.effects) => h
          rw [show first_non_authorizable s s.compiled.spec.effects = .ok refused from htotal] at hrefused
          cases hrefused
        | ok refused =>
          cases refused with
          | some item =>
            obtain ⟨hmem, hview⟩ := first_non_authorizable_eq_some (fun _ h => h) hrefused
            exact hhalt _ _ _ (by rintro _ ⟨⟩; exact hview ▸ reportable_joint_view hmem)
          | none =>
            refine committed_plan_total ⟨h, ?_, ?_, authorizable_iff.mp hrefused⟩ hactive
            · simpa [journal.compatible_commit_decision] using hdecision
            · simpa [journal.legal_journal_language] using hlegal
      · rw [Bool.not_eq_true] at hactive
        refine ⟨.NoRecoveryPlan ⟨s⟩, ?_, hactive, ?_⟩
        · simp [hdecision, hlegal, hactive, pure, Except.pure, new_no_recovery_plan]
        · unfold reducer.apply_recovery_plan
          rw [reduce_prefix_eq_ok_iff]
          exact ⟨rfl, Nat.le_refl _, rfl⟩
    · obtain ⟨plan, hplan, houtcome⟩ := hhalt .JOURNAL_TOPOLOGY_INVALID none none (by simp)
      refine ⟨plan, ?_, houtcome⟩
      simpa [hdecision, hlegal, pure, Except.pure] using hplan
  · obtain ⟨plan, hplan, houtcome⟩ := hhalt .COMMIT_DECISION_CONFLICT none none (by simp)
    refine ⟨plan, ?_, houtcome⟩
    simpa [hdecision, pure, Except.pure] using hplan

end

/-! A committed deletion whose tombstone is still there. -/

section

attribute [local instance] journal.ascii

def deleted_file : FileState where
  content_hash := "sha256:0000000000000000000000000000000000000000000000000000000000000000"
  mode := 0o644
  byte_len := 1

def one_deletion_spec : spec.TransactionSpec where
  schema_version := 2
  consumer_tag := "tag"
  intent_digest := "sha256:0000000000000000000000000000000000000000000000000000000000000000"
  initial_surface := [⟨"a", .FileState deleted_file⟩]
  final_surface := [⟨"a", ABSENT⟩]
  effects := [.DeletePath ⟨"e1", "a", .FileState deleted_file⟩]
  dependencies := []
  fulfills := none
  registered_paths := []

def one_deletion : CompiledSpec where
  spec := one_deletion_spec
  timelines := [⟨"a", [⟨"e1", 0, "target", .FileState deleted_file, ABSENT⟩]⟩]
  issued := ⟨one_deletion_spec, by decide +kernel, by decide +kernel⟩

/-- The committed deletion, its tombstone retained. -/
def tombstone_retained_fields (active : Bool) : SnapshotFields where
  compiled := one_deletion
  topology := ⟨[⟨.PersistentNode "a", .ProjectRoot⟩, ⟨.ScratchNode "e1" .TOMBSTONE, .ProjectRoot⟩]⟩
  transaction_state := .COMMITTED
  commit_decision := .COMMITTED
  rollback_result := none
  halt_diagnostic := none
  active := active
  journals := [⟨"e1", .DONE⟩]
  persistent_observations := [⟨"a", .ObservedAbsent⟩]
  scratch_observations := [⟨"e1", .TOMBSTONE, .ObservedFile deleted_file ⟨1⟩, none⟩]

def tombstone_retained : RecoverySnapshot where
  toSnapshotFields := tombstone_retained_fields true
  issued := by decide +kernel

def tombstone_detached : RecoverySnapshot where
  toSnapshotFields := tombstone_retained_fields false
  issued := by decide +kernel

theorem tombstone_retained_cleans_up : tombstone_retained.transaction_state = .COMMITTED ∧
    ∃ plan, classify_recovery tombstone_retained = .ok plan ∧ CommittedOutcome tombstone_retained plan :=
  ⟨rfl, committed_classification rfl⟩

/-- A detached record keeps what its scratch names hold: it is not recovered any more. -/
theorem tombstone_detached_stays : tombstone_detached.transaction_state = .COMMITTED ∧
    ∃ plan final, classify_recovery tombstone_detached = .ok plan ∧ plan.is_halt = false ∧
      reducer.apply_recovery_plan tombstone_detached plan = .ok final ∧
      ∃ observation ∈ final.scratch_observations, observation.entry ≠ .ObservedAbsent := by
  refine ⟨rfl, new_no_recovery_plan tombstone_detached, tombstone_detached, ?_, rfl, ?_,
    ⟨"e1", .TOMBSTONE, .ObservedFile deleted_file ⟨1⟩, none⟩, List.mem_cons_self, by simp⟩
  · rfl
  · unfold reducer.apply_recovery_plan
    rw [reduce_prefix_eq_ok_iff]
    exact ⟨rfl, Nat.le_refl _, rfl⟩

end

end atoms.recovery.classifier

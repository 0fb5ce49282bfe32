import Atoms.Recovery.Authorization.Halts
import Atoms.Recovery.Authorization.Projection
import Atoms.Recovery.Classifier.Conservation
import Atoms.Recovery.Classifier.SecondPass

open atoms.errors atoms.fingerprint atoms.effects atoms.compiler checked keyed

namespace atoms.recovery

section

variable [UnicodeData]

/-- What a mutating step expects: slots that the snapshot has, at most one of them a scratch name. -/
structure Expects (s : RecoverySnapshot) (expected : JointObservation) : Prop where
  listed : reducer.Listed s expected
  occupancy : reducer.validate_occupancy_topology s expected.parent_occupancy = .ok ()
  scratch : expected.scratch.length ≤ 1

omit [UnicodeData] in
/-- An observation that lists the slots of another one: each of them once, with entries of kernel kinds, the
parents in the same order and below them only children of the topology. -/
structure Covering (parents : List TopologyParent) (expected observed : JointObservation) : Prop where
  well_keyed : reducer.WellKeyed observed
  paths : set_eq (expected.persistent.map PersistentObservation.path) (observed.persistent.map PersistentObservation.path)
  keys : set_eq (expected.scratch.map ScratchObservation.key) (observed.scratch.map ScratchObservation.key)
  occupancy : observed.parent_occupancy.map ParentOccupancy.parent = expected.parent_occupancy.map ParentOccupancy.parent
  children : ∀ item ∈ observed.parent_occupancy, ∀ child ∈ item.present_children,
    child ∈ topology.children_of parents item.parent

namespace reducer

variable {s s' : RecoverySnapshot}

/-- What the snapshot observes at some slots is listed at slots that it has. -/
theorem current_joint_observation_eq_ok {template current : JointObservation}
    (h : current_joint_observation s template = .ok current) :
    Listed s template ∧ validate_occupancy_topology s template.parent_occupancy = .ok () := by
  unfold current_joint_observation recompute_occupancy at h
  simp only [bind_eq_ok_iff] at h
  obtain ⟨keys, hkeys, persistent, hpersistent, scratch, hscratch, _, ⟨_, htopology, _⟩, _⟩ := h
  refine ⟨⟨(joint_keys_eq_ok_iff.mp hkeys).1, ?_, ?_⟩, htopology⟩
  · intro path hpath
    obtain ⟨item, hitem, rfl⟩ := List.mem_map.mp hpath
    obtain ⟨_, hfind⟩ := exists_mapM_iff.mp ⟨persistent, hpersistent⟩ item hitem
    split at hfind
    · rename_i found hfound
      obtain ⟨hmem, hkey⟩ := find_key_some hfound
      exact s.persistent_coverage.1.1 _ (hkey ▸ List.mem_map_of_mem hmem)
    · cases hfind
  · intro key hkey
    obtain ⟨item, hitem, rfl⟩ := List.mem_map.mp hkey
    obtain ⟨_, hfind⟩ := exists_mapM_iff.mp ⟨scratch, hscratch⟩ item hitem
    split at hfind
    · rename_i found hfound
      obtain ⟨hmem, hkey⟩ := find_key_some hfound
      exact s.scratch_coverage.1.1 _ (hkey ▸ List.mem_map_of_mem hmem)
    · cases hfind

omit [UnicodeData] in
/-- Distinct keys that are all one key are at most one. -/
theorem scratch_of_keys {observation : JointObservation} {key : String × ScratchRole}
    (hkeyed : (observation.scratch.map ScratchObservation.key).Nodup)
    (h : set_eq (observation.scratch.map ScratchObservation.key) [key]) : observation.scratch.length ≤ 1 := by
  have hlength := (List.subperm_of_subset hkeyed h.1).length_le
  rwa [List.length_map] at hlength

theorem require_mutation_expects {effect : Effect} {expected result : JointObservation} {message : String} {u : Unit}
    {key : String × ScratchRole} (h : require_mutation s effect expected result message = .ok u)
    (hkey : set_eq (expected.scratch.map ScratchObservation.key) [key]) : Expects s expected := by
  unfold require_mutation at h
  obtain ⟨_, hcurrent, _⟩ := bind_eq_ok_iff.mp h
  obtain ⟨hlisted, htopology⟩ := current_joint_observation_eq_ok hcurrent
  exact ⟨hlisted, htopology, scratch_of_keys hlisted.well_keyed.keys hkey⟩

theorem validate_effect_joint_coverage_scratch {effect : Effect} {observation : JointObservation} {u : Unit}
    (h : validate_effect_joint_coverage s effect observation = .ok u) :
    set_eq (observation.scratch.map ScratchObservation.key) [scratch_key effect] := by
  simp only [validate_effect_joint_coverage, bind_eq_ok_iff, require_eq_ok_iff] at h
  exact h.choose_spec.2.choose_spec.1

theorem validate_remove_scratch_joint_coverage_scratch {effect : Effect} {step : RemoveScratch} {u : Unit}
    (h : validate_remove_scratch_joint_coverage s effect step = .ok u) :
    set_eq (step.expected_before.scratch.map ScratchObservation.key) [scratch_key effect] := by
  unfold validate_remove_scratch_joint_coverage at h
  split at h
  · exact validate_effect_joint_coverage_scratch h
  · simp only [bind_eq_ok_iff, require_eq_ok_iff] at h
    obtain ⟨_, _, _, _, _, _, _, hkeys, _⟩ := h
    exact hkeys

/-- A mutating step that applies expects what the snapshot lists. -/
theorem apply_mutating_step_expects {step : MutatingStep} (h : apply_step s step.step = .ok s') :
    Expects s step.expected_before := by
  cases step with
  | TransformEffectTuple step =>
    have h : transform_effect_tuple s step = .ok s' := h
    simp only [transform_effect_tuple, bind_eq_ok_iff] at h
    obtain ⟨_, _, _, _, _, _, _, _, _, hcoverage, _, hmutation, _⟩ := h
    exact require_mutation_expects hmutation (validate_effect_joint_coverage_scratch hcoverage)
  | RemoveScratch step =>
    have h : remove_scratch s step = .ok s' := h
    simp only [remove_scratch, bind_eq_ok_iff] at h
    obtain ⟨_, _, _, _, _, hcoverage, _, hmutation, _⟩ := h
    exact require_mutation_expects hmutation (validate_remove_scratch_joint_coverage_scratch hcoverage)

/-- Where no effect is under construction, no observation of a snapshot carries a build relation. -/
theorem build_relation_of_not_started (hstarted : JournalState.STARTED ∉ s.states) {item : ScratchObservation}
    (hitem : item ∈ s.scratch_observations) : item.file_build_relation = none := by
  have hself := normalize_scratch_of_mem hitem
  have hnot := relation_not_required hstarted s.persistent_observations item
  unfold normalize_scratch at hself
  rw [hnot] at hself
  exact (congrArg ScratchObservation.file_build_relation hself).symm

/-- Observations without build relations can be put into a snapshot with no effect under construction. -/
theorem build_merged_total {result : JointObservation} (h : Listed s result) (hstarted : JournalState.STARTED ∉ s.states)
    (hrelations : ∀ item ∈ result.scratch, item.file_build_relation = none) : ∃ s', build_recovery_snapshot
      { s.toSnapshotFields with
        persistent_observations := merge PersistentObservation.path result.persistent s.persistent_observations
        scratch_observations := merge ScratchObservation.key result.scratch s.scratch_observations } = .ok s' := by
  obtain ⟨s', hs'⟩ := rebuild_total (merged_rebuildable h hstarted)
  refine ⟨s', ?_⟩
  unfold rebuild at hs'
  rw [normalize_file_build_relations_total _ rfl fun item => merged_keys_known, ok_bind] at hs'
  have hself : (merge ScratchObservation.key result.scratch s.scratch_observations).map (normalize_scratch s.compiled
      s.journals (merge PersistentObservation.path result.persistent s.persistent_observations)) =
      merge ScratchObservation.key result.scratch s.scratch_observations := by
    conv_rhs => rw [← List.map_id (merge ScratchObservation.key result.scratch s.scratch_observations)]
    apply List.map_congr_left
    intro item hitem
    apply normalize_scratch_of_none
    rcases mem_merge hitem with hnew | hold
    · exact hrelations item hnew
    · exact build_relation_of_not_started hstarted hold
  rwa [hself] at hs'

end reducer

variable {s : RecoverySnapshot} {expected observed : JointObservation}

theorem Expects.reportable (h : Expects s expected) : Reportable expected := ⟨h.listed.well_keyed.paths, h.scratch⟩

theorem Covering.reportable (h : Covering s.topology.parents expected observed) (hexpects : Expects s expected) :
    Reportable observed := by
  refine ⟨h.well_keyed.paths, ?_⟩
  have hlength := (List.subperm_of_subset h.well_keyed.keys h.keys.2).length_le
  rw [List.length_map, List.length_map] at hlength
  exact hlength.trans hexpects.scratch

theorem Covering.listed (h : Covering s.topology.parents expected observed) (hexpects : Expects s expected) :
    reducer.Listed s observed :=
  ⟨h.well_keyed, fun path hpath => hexpects.listed.paths path (h.paths.2 path hpath),
    fun key hkey => hexpects.listed.keys key (h.keys.2 key hkey)⟩

theorem Covering.coverage (h : Covering s.topology.parents expected observed) (hexpects : Expects s expected) :
    reducer.validate_joint_coverage expected observed = .ok () := by
  refine reducer.validate_joint_coverage_eq_ok_iff.mpr ⟨hexpects.listed.well_keyed, h.well_keyed, h.paths, h.keys, ?_⟩
  rw [h.occupancy]
  exact ⟨fun _ hmem => hmem, fun _ hmem => hmem⟩

/-- Parents that a step covers have children, and the observation names no others below them. -/
theorem Covering.validates (h : Covering s.topology.parents expected observed) (hexpects : Expects s expected) :
    reducer.validate_occupancy_topology s observed.parent_occupancy = .ok () := by
  have hexpected := hexpects.occupancy
  simp only [reducer.validate_occupancy_topology, forM_eq_ok_iff, bind_eq_ok_iff, require_eq_ok_iff] at hexpected ⊢
  intro item hitem
  have hparent : item.parent ∈ expected.parent_occupancy.map ParentOccupancy.parent :=
    h.occupancy ▸ List.mem_map_of_mem hitem
  obtain ⟨template, htemplate, hsame⟩ := List.mem_map.mp hparent
  refine ⟨(), ?_, h.children item hitem⟩
  rw [← hsame]
  exact (hexpected template htemplate).choose_spec.1

namespace authorization

/-- What a step expects, with other identities, lists the slots of the step. -/
theorem covering_rename (h : Expects s expected) (rename : EntryIdentity → EntryIdentity) :
    Covering s.topology.parents expected (expected.rename rename) := by
  have hvalid : ∀ entry : ObservedEntry, ValidEntry entry → ValidEntry (entry.rename rename) := by
    intro entry hentry
    cases entry <;> exact hentry
  have hkeyed := h.listed.well_keyed
  have hpaths : (expected.rename rename).persistent.map PersistentObservation.path =
      expected.persistent.map PersistentObservation.path := by
    rw [JointObservation.rename, List.map_map]
    rfl
  have hkeys : (expected.rename rename).scratch.map ScratchObservation.key = expected.scratch.map ScratchObservation.key := by
    rw [JointObservation.rename, List.map_map]
    rfl
  refine ⟨⟨?_, ?_, hkeyed.children, hpaths ▸ hkeyed.paths, hkeys ▸ hkeyed.keys, hkeyed.parents⟩, ?_, ?_, rfl, ?_⟩
  · intro item hitem
    obtain ⟨source, hsource, rfl⟩ := List.mem_map.mp hitem
    exact hvalid _ (hkeyed.persistent source hsource)
  · intro item hitem
    obtain ⟨source, hsource, rfl⟩ := List.mem_map.mp hitem
    exact hvalid _ (hkeyed.scratch source hsource)
  · rw [hpaths]
    exact ⟨fun _ hmem => hmem, fun _ hmem => hmem⟩
  · rw [hkeys]
    exact ⟨fun _ hmem => hmem, fun _ hmem => hmem⟩
  · have hoccupancy := h.occupancy
    simp only [reducer.validate_occupancy_topology, forM_eq_ok_iff, bind_eq_ok_iff, require_eq_ok_iff] at hoccupancy
    intro item hitem
    exact (hoccupancy item hitem).choose_spec.2

/-- The snapshot that conflicts with a plan: the prefix with the observed entries in place. -/
structure ShowsConflict (before conflicting : RecoverySnapshot) (observed : JointObservation) : Prop where
  persistent : conflicting.persistent_observations =
    merge PersistentObservation.path observed.persistent before.persistent_observations
  scratch : conflicting.scratch_observations = merge ScratchObservation.key
    (observed.scratch.map fun item => { item with file_build_relation := none }) before.scratch_observations

/-- A record with no effect under construction can be halted on any observation of slots that it has. -/
theorem halt_for_observation_total (h : Covering s.topology.parents expected observed) (hexpects : Expects s expected)
    (hstarted : JournalState.STARTED ∉ s.states) (hlive : s.transaction_state ≠ .HALTED) (reason : HaltReason) :
    ∃ plan, halt_for_observation s expected observed reason = .ok plan ∧ ShowsConflict s plan.bound_snapshot observed := by
  have hlisted := h.listed hexpects
  have hnormalize : ∀ persistent, reducer.normalize_scratch s.compiled s.journals persistent =
      fun item => { item with file_build_relation := none } := by
    intro persistent
    funext item
    unfold reducer.normalize_scratch
    rw [reducer.relation_not_required hstarted]
    rfl
  have hnormalized := reducer.normalize_joint_observation_total hlisted (h.validates hexpects)
  rw [hnormalize] at hnormalized
  set normalized : JointObservation :=
    { observed with scratch := observed.scratch.map fun item => { item with file_build_relation := none } } with hdef
  have hlisted' : reducer.Listed s normalized := by
    have hkeys : normalized.scratch.map ScratchObservation.key = observed.scratch.map ScratchObservation.key := by
      rw [hdef, List.map_map]
      rfl
    refine ⟨⟨h.well_keyed.persistent, ?_, h.well_keyed.children, h.well_keyed.paths, ?_, h.well_keyed.parents⟩,
      hlisted.paths, ?_⟩
    · intro item hitem
      obtain ⟨source, hsource, rfl⟩ := List.mem_map.mp hitem
      exact h.well_keyed.scratch source hsource
    · rw [hkeys]
      exact h.well_keyed.keys
    · rw [hkeys]
      exact hlisted.keys
  have hmerged := reducer.merge_joint_observation_total hlisted'
  obtain ⟨conflicting, hconflicting⟩ := reducer.build_merged_total hlisted' hstarted fun item hitem => by
    obtain ⟨_, _, rfl⟩ := List.mem_map.mp hitem
    rfl
  have hexpected : ∀ item ∈ some expected, Reportable item := by
    rintro _ ⟨⟩
    exact hexpects.reportable
  have hobserved : ∀ item ∈ some observed, Reportable item := by
    rintro _ ⟨⟩
    exact h.reportable hexpects
  obtain ⟨d, hd, _⟩ := diagnostics.diagnostic_total conflicting reason none none hexpected hobserved
  have hfields := build_recovery_snapshot_eq_ok_iff.mp hconflicting
  have hlive' : conflicting.transaction_state ≠ .HALTED := by
    rw [hfields]
    exact hlive
  refine ⟨.HaltPlan ⟨conflicting, d, [⟨conflicting.transaction_state, .HALTED, none, some d⟩]⟩, ?_, ?_⟩
  · unfold halt_for_observation
    rw [hnormalized, ok_bind, hmerged, ok_bind]
    simp only
    rw [hconflicting, ok_bind, hd, ok_bind]
    unfold new_halt_plan
    rw [require_protocol, require_of (by rw [if_neg hlive']), ok_bind]
    rfl
  · constructor <;> rw [RecoveryPlan.bound_snapshot, hfields]

end authorization

namespace classifier

/-- A mutating step runs where no effect is under construction, on a record that has not halted. -/
def RunsSettled (s : RecoverySnapshot) (step : RecoveryStep) (_ : RecoverySnapshot) : Prop :=
  (mutating_step step).isSome = true → JournalState.STARTED ∉ s.states ∧ s.transaction_state ≠ .HALTED

theorem every_transition_settled {s : RecoverySnapshot} {steps : List RecoveryStep}
    (hsteps : ∀ step ∈ steps, mutating_step step = none) : EveryStep reducer.apply_step RunsSettled s steps := by
  intro k step c d hk _ _ hmutating
  rw [hsteps step (List.mem_of_getElem? hk)] at hmutating
  cases hmutating

omit [UnicodeData] in
/-- While an effect is being reversed, none is under construction. -/
theorem not_started_of_unwound {states : List JournalState} {index : Nat} {state : JournalState} (hlayered : Layered states)
    (hsettled : ∀ i, index + 1 ≤ i → needs_reversal (state_at states i) = false) (hstate : states[index]? = some state)
    (hneeds : needs_reversal state = true) : JournalState.STARTED ∉ states.set index .UNDO_STARTED := by
  intro hmem
  obtain ⟨i, hi⟩ := List.getElem?_of_mem hmem
  have hstarted := state_at_eq hi
  rcases Nat.lt_trichotomy i index with hlt | rfl | hgt
  · have hdone := hlayered index i hlt (by rwa [state_at_eq hstate])
    rw [state_at_set_ne (by omega), hdone] at hstarted
    cases hstarted
  · rw [state_at_set_self (List.getElem?_eq_some_iff.mp hstate).1] at hstarted
    cases hstarted
  · have hrest := hsettled i hgt
    rw [state_at_set_ne (by omega)] at hstarted
    rw [hstarted] at hrest
    cases hrest

theorem Reversal.settled {cursor opened reversed closed : RecoverySnapshot} {index : Nat} {effect : Effect}
    {state : JournalState} {d : EffectDecision} {bound : List RecoveryStep}
    (h : Reversal cursor index effect state d bound opened reversed closed) (hdecides : variants.Decides cursor effect state d)
    (hstate : cursor.states[index]? = some state) (hrolling : cursor.transaction_state = .ROLLING_BACK)
    (hlayered : Layered cursor.states)
    (hsettled : ∀ i, index + 1 ≤ i → needs_reversal (state_at cursor.states i) = false) :
    EveryStep reducer.apply_step RunsSettled opened bound := by
  intro k step X _ hk hcut _ hmutating
  have hX := h.cuts k X hcut
  have hneeds : needs_reversal state = true := by
    by_contra hnot
    have hkind : semantic_step step ∈ d.steps.map semantic_step :=
      h.kinds ▸ List.mem_map_of_mem (List.mem_of_getElem? hk)
    rcases (hdecides.rests (by simpa using hnot)).steps with hsteps | ⟨nodes, hsteps⟩
    · simp [hsteps] at hkind
    · rw [hsteps, List.map_singleton, List.mem_singleton] at hkind
      cases step with
      | TransformEffectTuple _ => cases hkind
      | RemoveScratch _ => cases hkind
      | _ => cases hmutating
  have hopened : opened_state state = .UNDO_STARTED := by rw [opened_state, if_pos hneeds]
  rw [hX.states, hopened, hX.record.transaction_state, hrolling]
  exact ⟨not_started_of_unwound hlayered hsettled hstate hneeds, by simp⟩

theorem Settled.settled {source : RecoverySnapshot} {progress next : RollbackProgress} {index : Nat} {effect : Effect}
    {state : JournalState} {d : EffectDecision} (hsettled : Settled progress index effect state d next)
    (h : EveryStep reducer.apply_step RunsSettled source progress.steps) (hrolling : Rolling source progress)
    (hunwound : Unwound (index + 1) progress) : EveryStep reducer.apply_step RunsSettled source next.steps := by
  obtain ⟨bound, opened, reversed, hsteps, hreversal⟩ := hsettled.steps
  rw [hsteps]
  refine every_step_append h fun c hc => ?_
  obtain rfl : c = progress.cursor := Except.ok.inj (hc.symm.trans hrolling.applies)
  rw [List.append_assoc]
  refine every_step_append (every_transition_settled ?_) fun c hc => ?_
  · unfold opening_steps
    split <;> simp [mutating_step]
  obtain rfl : c = opened := Except.ok.inj (hc.symm.trans hreversal.opens)
  refine every_step_append ?_ fun c hc => every_transition_settled ?_
  · exact hreversal.settled hsettled.decides hsettled.state_at hrolling.rolling hunwound.layered hunwound.settled
  · unfold closing_steps
    split <;> simp [mutating_step]

theorem RollsBack.settled {source opened settled : RecoverySnapshot} {plan : ActionPlan} {final : RollbackProgress}
    (h : RollsBack source plan opened final settled) (hsource : RollbackSource source) :
    EveryStep reducer.apply_step RunsSettled source plan.steps := by
  have hopening : EveryStep reducer.apply_step RunsSettled source (opening_transition source) := by
    refine every_transition_settled ?_
    unfold opening_transition
    split <;> simp [mutating_step]
  obtain ⟨_, _, hsteps⟩ := roll_back_effects_invariant
    (P := fun index progress => Unwound index progress ∧ EveryStep reducer.apply_step RunsSettled source progress.steps)
    (fun index progress next effect state d hrolling hP hhalt hsettled _ =>
      ⟨hP.1.step hrolling hsettled hhalt, hsettled.settled hP.2 hrolling hP.1⟩)
    (h.start hsource) (Nat.le_refl _) ⟨h.unwound_start hsource, hopening⟩ h.loop
  rw [h.steps]
  refine every_step_append hsteps fun c _ => every_transition_settled ?_
  simp [terminal_steps, mutating_step]

theorem CleansUpAll.settled {indices : List Nat} {cursor final : RecoverySnapshot} {steps : List RecoveryStep}
    (h : CleansUpAll indices cursor steps final) (hstarted : JournalState.STARTED ∉ cursor.states)
    (hstate : cursor.transaction_state = .COMMITTED) : EveryStep reducer.apply_step RunsSettled cursor steps := by
  induction h with
  | nil => exact every_step_nil _
  | cons hstep _ ih =>
    rcases hstep.outcome with ⟨_, rfl, rfl⟩ | ⟨_, _, _, _, rfl, _, hcleared⟩
    · exact ih hstarted hstate
    · refine every_step_append (every_step_singleton fun _ _ _ => ⟨hstarted, by simp [hstate]⟩) fun c hc => ?_
      obtain rfl := Except.ok.inj (hc.symm.trans hstep.applies)
      refine ih ?_ (hcleared.record.transaction_state.trans hstate)
      rw [RecoverySnapshot.states, hcleared.journals]
      exact hstarted

/-- Every mutating step of an action plan runs where no effect is under construction. -/
theorem action_plan_settled {source : RecoverySnapshot} {plan : ActionPlan}
    (h : classify_recovery source = .ok (.ActionPlan plan)) :
    EveryStep reducer.apply_step RunsSettled source plan.steps := by
  rcases classify_recovery_action h with ⟨hsource, hplan⟩ | ⟨hstate, hplan⟩ | ⟨_, _, _, hsteps⟩
  · obtain ⟨opened, final, settled, hrolls⟩ := rollback_plan_eq_ok hplan
    exact hrolls.settled hsource
  · obtain ⟨steps, final, hcommits⟩ := committed_plan_eq_ok hplan
    have hdone : ∀ state ∈ source.states, state = .DONE := by
      have hlegal := (classify_recovery_checked h).2
      rw [hstate] at hlegal
      simpa [journal.legal_journal_language] using hlegal
    rw [hcommits.steps_eq]
    refine every_step_append (hcommits.loop.settled (fun hmem => by cases hdone _ hmem) hstate) fun c _ => ?_
    exact every_transition_settled (by simp [mutating_step])
  · rw [hsteps]
    exact every_transition_settled (by simp [mutating_step])

end classifier

omit [UnicodeData] in
theorem mutating_step_eq_some_iff {raw_step : RecoveryStep} {step : MutatingStep} :
    mutating_step raw_step = some step ↔ raw_step = step.step := by
  cases raw_step <;> cases step <;> simp [mutating_step, MutatingStep.step]

/-- A mutating step of a plan is reached, and applies to the prefix of the plan before it. -/
theorem mutating_step_runs {source : RecoverySnapshot} {plan : RecoveryPlan} (hplan : classifier.classify_recovery source = .ok plan)
    {k : Nat} {step : MutatingStep} (hstep : plan.mutating_step_at k = some step) :
    ∃ before, reducer.reduce_recovery_plan_prefix source plan k = .ok before ∧ plan.bound_snapshot = source ∧
      Frame source before ∧ Expects before step.expected_before ∧ JournalState.STARTED ∉ before.states ∧
      before.transaction_state ≠ .HALTED := by
  obtain ⟨raw_step, hk, hraw⟩ := Option.bind_eq_some_iff.mp hstep
  cases plan with
  | NoRecoveryPlan plan => simp [RecoveryPlan.steps] at hk
  | HaltPlan plan =>
    rw [RecoveryPlan.steps, List.getElem?_map] at hk
    obtain ⟨_, _, rfl⟩ := Option.map_eq_some_iff.mp hk
    cases hraw
  | ActionPlan plan =>
    have hk : plan.steps[k]? = some raw_step := hk
    obtain ⟨hbound, final, hfinal⟩ := classifier.action_plan_reduces hplan
    obtain ⟨before, hbefore, _⟩ := foldlM_take k hfinal
    obtain ⟨after, hafter⟩ : ∃ after, reducer.apply_step before raw_step = .ok after := by
      obtain ⟨next, hnext, _⟩ := foldlM_take (k + 1) hfinal
      rw [List.take_add_one, hk, Option.toList_some, foldlM_append_eq_ok_iff] at hnext
      obtain ⟨middle, hmiddle, hnext⟩ := hnext
      obtain rfl := Except.ok.inj (hbefore.symm.trans hmiddle)
      exact ⟨next, reducer.apply_steps_singleton.mp hnext⟩
    have hsettled := classifier.action_plan_settled hplan k raw_step before after hk hbefore hafter (by rw [hraw]; rfl)
    rw [mutating_step_eq_some_iff.mp hraw] at hafter
    refine ⟨before, ?_, hbound, reducer.apply_steps_frame hbefore, reducer.apply_mutating_step_expects hafter, hsettled⟩
    exact classifier.reduce_prefix_eq_ok_iff.mpr ⟨hbound.symm, (List.getElem?_eq_some_iff.mp hk).1.le, hbefore⟩

namespace authorization

/-- An entry of a path that a step may find: present in a state that it can name, or absent. -/
structure Recognized (entry : ObservedEntry) : Prop where
  not_contended : entry ≠ .ObservedContended
  accessible : entry ≠ .ObservedInaccessible
  of_known_kind : ∀ st_mode, entry ≠ .ObservedUnrecognized st_mode
  of_known_occupancy : ∀ state identity, entry ≠ .ObservedDirectory state identity none

omit [UnicodeData] in
theorem non_authorizable_eq_false_iff {observed : JointObservation} :
    classifier.non_authorizable observed = false ↔ ∀ entry ∈ observed.entries, Recognized entry := by
  rw [classifier.non_authorizable, List.any_eq_false]
  refine forall₂_congr fun entry _ => ?_
  constructor
  · intro h
    refine ⟨?_, ?_, ?_, ?_⟩
    · rintro rfl
      exact h rfl
    · rintro rfl
      exact h rfl
    · rintro _ rfl
      exact h rfl
    · rintro _ _ rfl
      exact h rfl
  · intro h
    cases hentry : entry with
    | ObservedDirectory state identity fact =>
      cases fact with
      | none => exact absurd hentry (h.of_known_occupancy state identity)
      | some _ => simp [classifier.non_authorizable_entry]
    | ObservedUnrecognized st_mode => exact absurd hentry (h.of_known_kind st_mode)
    | ObservedContended => exact absurd hentry h.not_contended
    | ObservedInaccessible => exact absurd hentry h.accessible
    | _ => simp [classifier.non_authorizable_entry]

/-- The observation authorizes a step: every entry is recognized, and it is what the step expects up to a
renaming of identities. -/
def Authorizes (expected observed : JointObservation) : Prop :=
  (∀ entry ∈ observed.entries, Recognized entry) ∧ expected.Renames observed

/-- A halt in place of a step: it halts the prefix with what was observed, by a diagnostic that can be held. -/
structure HaltsOn (before : RecoverySnapshot) (observed : JointObservation) (halt : HaltPlan) : Prop where
  replaces : Replaces before halt
  conflict : ShowsConflict before halt.bound_snapshot observed
  steps : (RecoveryPlan.HaltPlan halt).steps = [.TransitionTransactionState
    ⟨before.transaction_state, .HALTED, none, some halt.diagnostic⟩]
  valid : snapshot.validate_halt_diagnostic (some halt.diagnostic) = .ok ()
  applies : ∃ halted, reducer.apply_recovery_plan halt.bound_snapshot (.HaltPlan halt) = .ok halted ∧
    halted.transaction_state = .HALTED ∧ halted.halt_diagnostic = some halt.diagnostic

theorem halt_for_observation_halts {before : RecoverySnapshot} {expected observed : JointObservation}
    (h : Covering before.topology.parents expected observed) (hexpects : Expects before expected)
    (hstarted : JournalState.STARTED ∉ before.states) (hlive : before.transaction_state ≠ .HALTED) (reason : HaltReason) :
    ∃ halt, halt_for_observation before expected observed reason = .ok (.HaltPlan halt) ∧ HaltsOn before observed halt := by
  obtain ⟨plan, hplan, hconflict⟩ := halt_for_observation_total h hexpects hstarted hlive reason
  obtain ⟨halt, rfl, hreplaces⟩ := halt_for_observation_replaces hplan (h.coverage hexpects) hlive
  have hlive' : halt.bound_snapshot.transaction_state ≠ .HALTED := by
    rw [hreplaces.record.transaction_state]
    exact hlive
  obtain ⟨hdiagnoses, hsteps⟩ := hreplaces.halts.live hlive'
  refine ⟨halt, hplan, hreplaces, hconflict, ?_, (hdiagnoses.valid hlive').2, classifier.halt_plan_applies hreplaces.halts⟩
  rw [RecoveryPlan.steps, hsteps, hreplaces.record.transaction_state]
  rfl

/-- A mutating step of a plan is authorized exactly by what it expects, up to a renaming of identities. Every other
observation of its slots gives a plan that only halts the record, with a diagnostic that the record can hold. -/
theorem authorization_exact {source : RecoverySnapshot} {plan : RecoveryPlan}
    (hplan : classifier.classify_recovery source = .ok plan) {k : Nat} {step : MutatingStep}
    (hstep : plan.mutating_step_at k = some step) {observed : JointObservation}
    (hobserved : Covering source.topology.parents step.expected_before observed) :
    (authorize_recovery_step plan k observed = .ok (.AuthorizedStep ⟨plan, k, step⟩) ↔
      Authorizes step.expected_before observed) ∧
    (¬ Authorizes step.expected_before observed → ∃ before halt,
      reducer.reduce_recovery_plan_prefix source plan k = .ok before ∧
      authorize_recovery_step plan k observed = .ok (.HaltPlan (.HaltPlan halt)) ∧ HaltsOn before observed halt) := by
  obtain ⟨before, hbefore, hbound, hframe, hexpects, hstarted, hlive⟩ := mutating_step_runs hplan hstep
  obtain ⟨raw_step, hk, hraw⟩ := Option.bind_eq_some_iff.mp hstep
  rw [← hframe.topology] at hobserved
  obtain ⟨halt, hhalt, hhalts⟩ := halt_for_observation_halts hobserved hexpects hstarted hlive .PLAN_PRECONDITION_CHANGED
  have hprojections := projections_eq_iff hexpects.reportable (hobserved.reportable hexpects) hobserved.keys
  have hprojected := authorization_projection_eq hexpects.reportable
  have hprojected' := authorization_projection_eq (hobserved.reportable hexpects)
  rw [hprojected, hprojected', Except.ok.injEq] at hprojections
  have hauthorized : Authorizes step.expected_before observed →
      authorize_recovery_step plan k observed = .ok (.AuthorizedStep ⟨plan, k, step⟩) := by
    rintro ⟨hrecognized, hrenames⟩
    unfold authorize_recovery_step
    simp only [hk, hraw, hbound, hbefore, hobserved.coverage hexpects, ok_bind,
      non_authorizable_eq_false_iff.mpr hrecognized, hprojected, hprojected']
    rw [if_neg (by simp), if_pos (hprojections.mpr hrenames)]
    rfl
  have hdenied : ¬ Authorizes step.expected_before observed →
      authorize_recovery_step plan k observed = .ok (.HaltPlan (.HaltPlan halt)) := by
    intro hnot
    unfold authorize_recovery_step
    simp only [hk, hraw, hbound, hbefore, hobserved.coverage hexpects, ok_bind, hprojected, hprojected', hhalt]
    split
    · rfl
    · rename_i hrecognized
      rw [Bool.not_eq_true, non_authorizable_eq_false_iff] at hrecognized
      rw [if_neg fun heq => hnot ⟨hrecognized, hprojections.mp heq⟩]
      rfl
  refine ⟨⟨fun h => ?_, hauthorized⟩, fun hnot => ⟨before, halt, hbefore, hdenied hnot, hhalts⟩⟩
  by_contra hnot
  rw [hdenied hnot] at h
  cases h

end authorization

end

section

attribute [local instance] journal.ascii

open classifier in
/-- The directory that a rollback removes is the same one when its inode has another token. -/
theorem authorization.first_directory_removal_authorized : ∃ plan step, classify_recovery first_directory_created = .ok plan ∧
    plan.mutating_step_at 2 = some step ∧
    authorize_recovery_step plan 2 (step.expected_before.rename fun identity => ⟨identity.token + 1⟩) =
      .ok (.AuthorizedStep ⟨plan, 2, step⟩) := by
  have hsome : (((classify_recovery first_directory_created).toOption.bind fun plan => plan.mutating_step_at 2).any
      fun step => !non_authorizable (step.expected_before.rename fun identity => ⟨identity.token + 1⟩)) = true := by
    decide +kernel
  obtain ⟨step, hstep, hrecognized⟩ := (Option.any_eq_true _ _).mp hsome
  obtain ⟨plan, hplan, hstep⟩ := Option.bind_eq_some_iff.mp hstep
  have hplan := toOption_eq_some_iff.mp hplan
  obtain ⟨before, _, _, hframe, hexpects, _⟩ := mutating_step_runs hplan hstep
  have hcovering := covering_rename hexpects fun identity => ⟨identity.token + 1⟩
  rw [hframe.topology] at hcovering
  refine ⟨plan, step, hplan, hstep, (authorization_exact hplan hstep hcovering).1.mpr ⟨?_, ?_⟩⟩
  · exact non_authorizable_eq_false_iff.mp (by simpa using hrecognized)
  · refine ⟨fun identity => ⟨identity.token + 1⟩, ?_, List.Perm.refl _, List.Perm.refl _, rfl⟩
    intro left right heq
    cases left
    cases right
    simpa using heq

end

end atoms.recovery

import Atoms.Recovery.Classifier
import Atoms.Recovery.Reducer.Steps
import Atoms.Recovery.Variants.Settlement

open atoms.errors atoms.fingerprint atoms.effects atoms.compiler checked keyed

namespace atoms.recovery

variable [UnicodeData]

/-- From `s` to `s'` one effect's journal row and the entries at its names changed, and nothing else. -/
structure Touches (index : Nat) (effect : Effect) (s s' : RecoverySnapshot) (state : JournalState) (v : EffectView) :
    Prop where
  frame : Frame s s'
  record : SameRecord s s'
  states : s'.states = s.states.set index state
  entries : ∀ path, path ∉ variants.effect_paths effect → s'.entry_at path = s.entry_at path
  scratch : ∀ other ∈ s.effects, other.effect_id ≠ effect.effect_id →
    (s'.scratch_at other).entry = (s.scratch_at other).entry
  relations : ∀ other ∈ s.effects, other.effect_id ≠ effect.effect_id → ∀ relation,
    (s'.scratch_at other).file_build_relation = some relation →
      (s.scratch_at other).file_build_relation = some relation
  view : s'.view effect = v

theorem states_set_self {s : RecoverySnapshot} {index : Nat} {state : JournalState} (h : s.states[index]? = some state) :
    s.states = s.states.set index state := by
  obtain ⟨hlt, rfl⟩ := List.getElem?_eq_some_iff.mp h
  exact (List.set_getElem_self hlt).symm

namespace Touches

variable {index : Nat} {effect : Effect} {s s' s'' : RecoverySnapshot} {state state' : JournalState} {v v' : EffectView}

theorem refl (hstate : s.states[index]? = some state) : Touches index effect s s state (s.view effect) :=
  ⟨Frame.refl s, SameRecord.refl s, states_set_self hstate, fun _ _ => rfl, fun _ _ _ => rfl, fun _ _ _ _ h => h, rfl⟩

theorem trans (h : Touches index effect s s' state v) (h' : Touches index effect s' s'' state' v') :
    Touches index effect s s'' state' v' := by
  refine ⟨h.frame.trans h'.frame, h.record.trans h'.record, ?_, ?_, ?_, ?_, h'.view⟩
  · rw [h'.states, h.states, List.set_set]
  · intro path hpath
    rw [h'.entries path hpath, h.entries path hpath]
  · intro other hother hne
    rw [h'.scratch other (h.frame.effects ▸ hother) hne, h.scratch other hother hne]
  · intro other hother hne relation hrelation
    exact h.relations other hother hne relation (h'.relations other (h.frame.effects ▸ hother) hne relation hrelation)

theorem state_at (h : Touches index effect s s' state v) (hlt : index < s.states.length) :
    s'.states[index]? = some state := by
  rw [h.states, List.getElem?_set_self hlt]

theorem state_at_ne (h : Touches index effect s s' state v) {other : Nat} (hne : index ≠ other) :
    s'.states[other]? = s.states[other]? := by
  rw [h.states, List.getElem?_set_ne hne]

/-- The view of another effect that shares no path stays as it is. -/
theorem view_of_disjoint (h : Touches index effect s s' state v) {other : Effect} (hother : other ∈ s.effects)
    (hne : other.effect_id ≠ effect.effect_id)
    (hpaths : ∀ path ∈ variants.effect_paths other, path ∉ variants.effect_paths effect) :
    s'.view other = s.view other := by
  have hentries : (variants.effect_paths other).map s'.entry_at = (variants.effect_paths other).map s.entry_at := by
    apply List.map_congr_left
    intro path hpath
    exact h.entries path (hpaths path hpath)
  simp only [RecoverySnapshot.view, hentries, h.scratch other hother hne]

end Touches

namespace reducer

variable {s s' : RecoverySnapshot} {effect : Effect}

/-- The result of a step lands at the names that it covers and nowhere else. -/
theorem Applied.touches {result : JointObservation} (h : Applied s s' result) {index : Nat}
    (heffect : s.effects[index]? = some effect) (hcovers : result.Covers effect) {state : JournalState}
    (hstate : s.states[index]? = some state) : Touches index effect s s' state result.view := by
  have hmem : effect ∈ s.effects := List.mem_of_getElem? heffect
  obtain ⟨item, hscratch, hkey⟩ := hcovers.scratch
  have hnodup : (result.persistent.map PersistentObservation.path).Nodup := by
    rw [hcovers.paths, variants.effect_paths_eq]
    exact s.compiled.occurrence_paths_nodup hmem
  have hnone : ∀ other : Effect, other.effect_id ≠ effect.effect_id →
      find_key ScratchObservation.key result.scratch (scratch_key other) = none := by
    intro other hne
    rw [find_key_eq_none_iff, hscratch]
    intro candidate hcandidate heq
    rw [List.mem_singleton.mp hcandidate, hkey] at heq
    exact hne (congrArg Prod.fst heq).symm
  refine ⟨h.frame, h.record, ?_, ?_, ?_, fun other hother hne => h.relations other hother (hnone other hne), ?_⟩
  · rw [RecoverySnapshot.states, h.journals]
    exact states_set_self hstate
  · intro path hpath
    by_cases hplanned : path ∈ s.compiled.paths
    · have hnone : find_key PersistentObservation.path result.persistent path = none := by
        rw [find_key_eq_none_iff]
        rintro other hother rfl
        exact hpath (hcovers.paths ▸ List.mem_map_of_mem hother)
      rw [h.entries path hplanned, entry_after, hnone]
      rfl
    · rw [RecoverySnapshot.entry_at_of_not_mem hplanned,
        RecoverySnapshot.entry_at_of_not_mem (h.frame.compiled_paths ▸ hplanned)]
  · intro other hother hne
    rw [h.scratch other hother, scratch_after, hnone other hne]
    rfl
  · have hfind : find_key ScratchObservation.key result.scratch (scratch_key effect) = some item := by
      simp [hscratch, find_key, hkey]
    have hentries : result.persistent.map (fun observation => s'.entry_at observation.path) =
        result.persistent.map PersistentObservation.entry := by
      apply List.map_congr_left
      intro observation hobservation
      have hpath : observation.path ∈ s.compiled.paths := by
        refine s.mem_paths_of_effect hmem ?_
        rw [← variants.effect_paths_eq, ← hcovers.paths]
        exact List.mem_map_of_mem hobservation
      rw [h.entries _ hpath, entry_after, find_key_of_mem hnodup hobservation]
      rfl
    simp only [RecoverySnapshot.view, JointObservation.view, JointObservation.scratch_entry, ← hcovers.paths,
      List.map_map, h.scratch effect hmem, scratch_after, hfind]
    simp [Function.comp_def, hentries, hscratch]

/-- An effect transition touches its effect and leaves its entries. -/
theorem transition_effect_touches {step : TransitionEffectState} (h : transition_effect s step = .ok s') {index : Nat}
    (heffect : s.effects[index]? = some effect) (hid : step.effect_id = effect.effect_id) :
    s.states[index]? = some step.from_state ∧ effect_recovery_edge step.from_state step.to_state = true ∧
      Touches index effect s s' step.to_state (s.view effect) := by
  obtain ⟨⟨i, hi, hfrom, hstates⟩, hedge, hframe, hrecord, hpersistent, hjournals, hscratch⟩ := transition_effect_eq_ok h
  obtain rfl : i = index := by
    have hindex : (s.effects.map Effect.effect_id)[index]? = some step.effect_id := by simp [heffect, hid]
    have hlt : i < (s.effects.map Effect.effect_id).length := (List.getElem?_eq_some_iff.mp hi).1
    exact (List.getElem?_inj hlt s.compiled.effect_ids_nodup).mp (hi.trans hindex.symm)
  have hentry : ∀ path, s'.entry_at path = s.entry_at path := fun path => by
    rw [RecoverySnapshot.entry_at, hpersistent, RecoverySnapshot.entry_at]
  have hat : ∀ other ∈ s.effects, s'.scratch_at other = normalize_scratch s.compiled
      (set_journal s.journals step.effect_id step.to_state) s.persistent_observations (s.scratch_at other) := by
    intro other hother
    have hfind := s'.find_scratch (hframe.effects ▸ hother)
    rw [hscratch, find_key_map (normalize_scratch_key s.compiled _ _), s.find_scratch hother] at hfind
    exact (Option.some.inj hfind).symm
  have hscratch_entry : ∀ other ∈ s.effects, (s'.scratch_at other).entry = (s.scratch_at other).entry := by
    intro other hother
    rw [hat other hother, normalize_scratch_entry]
  refine ⟨hfrom, hedge, hframe, hrecord, hstates, fun path _ => hentry path, fun other hother _ =>
    hscratch_entry other hother, ?_, ?_⟩
  · intro other hother _ relation hrelation
    rw [hat other hother] at hrelation
    exact normalize_scratch_relation hrelation
  simp only [RecoverySnapshot.view, hscratch_entry effect (List.mem_of_getElem? heffect), EffectView.mk.injEq, and_true]
  exact List.map_congr_left fun path _ => hentry path

/-- Normalizing an observation drops build relations and keeps everything else. -/
theorem normalize_joint_observation_eq_ok {observed normalized : JointObservation}
    (h : normalize_joint_observation s observed = .ok normalized) :
    normalized.persistent = observed.persistent ∧ normalized.parent_occupancy = observed.parent_occupancy ∧
      normalized.scratch = observed.scratch.map (normalize_scratch s.compiled s.journals
        (merge PersistentObservation.path observed.persistent s.persistent_observations)) := by
  unfold normalize_joint_observation at h
  rw [bind_eq_ok_iff] at h
  obtain ⟨merged, hmerged, h⟩ := h
  have hkeys : (observed.scratch.map ScratchObservation.key).Nodup := by
    have hmerged' := hmerged
    simp only [merge_joint_observation, bind_eq_ok_iff] at hmerged'
    obtain ⟨keys, hkeys, _⟩ := hmerged'
    exact (joint_keys_eq_ok hkeys).2.2
  obtain ⟨rfl, _, hscratch⟩ := merge_joint_observation_eq_ok hmerged
  simp only [bind_eq_ok_iff, pure_eq_ok_iff] at h
  obtain ⟨_, _, scratch, hnormalize, rfl⟩ := h
  refine ⟨rfl, rfl, ?_⟩
  rw [← normalize_file_build_relations_eq_ok hnormalize]
  simp only [find_key_map (normalize_scratch_key s.compiled s.journals _), find_key_merge]
  rw [← List.filterMap_eq_map]
  apply List.filterMap_congr
  intro item hitem
  obtain ⟨base, hbase⟩ := Option.isSome_iff_exists.mp (find_key_isSome_iff.mpr
    (List.mem_map.mp (hscratch item.key (List.mem_map_of_mem hitem))))
  simp [hbase, find_key_of_mem hkeys hitem]

theorem normalized_covers {observed normalized : JointObservation} (h : normalize_joint_observation s observed = .ok normalized)
    (hcovers : observed.Covers effect) : normalized.Covers effect ∧ normalized.view = observed.view := by
  obtain ⟨hpersistent, _, hscratch⟩ := normalize_joint_observation_eq_ok h
  obtain ⟨item, hitem, hkey⟩ := hcovers.scratch
  refine ⟨⟨hpersistent ▸ hcovers.paths, _, by rw [hscratch, hitem, List.map_singleton], by simpa using hkey⟩, ?_⟩
  simp [JointObservation.view, JointObservation.scratch_entry, hpersistent, hscratch, hitem]

end reducer

namespace classifier

variable {cursor final : RecoverySnapshot} {effect : Effect}

/-- Binding a step to the cursor changes neither its kind nor what it leaves. -/
theorem bind_step_eq_ok {provisional step : RecoveryStep} (h : bind_step cursor provisional = .ok step)
    (hconfined : confined effect provisional) : confined effect step ∧
      (∀ v, step_view step v = step_view provisional v) ∧ semantic_step step = semantic_step provisional := by
  cases provisional with
  | TransformEffectTuple provisional =>
    simp only [bind_step, bind_eq_ok_iff, pure_eq_ok_iff] at h
    obtain ⟨_, _, result, hresult, rfl⟩ := h
    obtain ⟨hcovers, hview⟩ := reducer.normalized_covers hresult hconfined.2
    exact ⟨⟨hconfined.1, hcovers⟩, fun _ => hview, rfl⟩
  | RemoveScratch provisional =>
    simp only [bind_step, bind_eq_ok_iff, pure_eq_ok_iff] at h
    obtain ⟨_, _, result, hresult, rfl⟩ := h
    obtain ⟨hcovers, hview⟩ := reducer.normalized_covers hresult hconfined.2
    exact ⟨⟨hconfined.1, hcovers⟩, fun _ => hview, rfl⟩
  | PreserveExternal provisional =>
    simp only [bind_step, pure_eq_ok_iff] at h
    obtain rfl := h
    exact ⟨trivial, fun _ => rfl, rfl⟩
  | _ => simp [bind_step] at h

/-- A confined step touches its own effect. -/
theorem apply_step_touches {step : RecoveryStep} (h : reducer.apply_step cursor step = .ok final)
    (hconfined : confined effect step) {index : Nat} (heffect : cursor.effects[index]? = some effect)
    {state : JournalState} (hstate : cursor.states[index]? = some state) :
    Touches index effect cursor final state (step_view step (cursor.view effect)) := by
  cases step with
  | TransformEffectTuple step =>
    exact (reducer.transform_effect_tuple_eq_ok h).touches heffect hconfined.2 hstate
  | RemoveScratch step => exact (reducer.remove_scratch_eq_ok h).touches heffect hconfined.2 hstate
  | PreserveExternal step =>
    obtain rfl := reducer.preserve_external_eq_ok h
    exact Touches.refl hstate
  | _ => exact hconfined.elim

/-- The steps of a decision, bound to the cursor: each touches the decision's effect and leaves there
what the decision says, at every cut. -/
theorem bind_effect_steps_eq_ok {steps bound : List RecoveryStep} (h : bind_effect_steps cursor steps = .ok (bound, final))
    (hconfined : ∀ step ∈ steps, confined effect step) {index : Nat} (heffect : cursor.effects[index]? = some effect)
    {state : JournalState} (hstate : cursor.states[index]? = some state) :
    bound.map semantic_step = steps.map semantic_step ∧ (∀ step ∈ bound, confined effect step) ∧
      reducer.apply_steps cursor bound = .ok final ∧ ∀ k X, reducer.apply_steps cursor (bound.take k) = .ok X →
        Touches index effect cursor X state (steps_view (steps.take k) (cursor.view effect)) := by
  induction steps generalizing cursor bound final with
  | nil =>
    simp only [bind_effect_steps, pure_eq_ok_iff, Prod.mk.injEq] at h
    obtain ⟨rfl, rfl⟩ := h
    refine ⟨rfl, hconfined, rfl, fun k X hX => ?_⟩
    simp only [List.take_nil, reducer.apply_steps_nil, Except.ok.injEq] at hX ⊢
    subst hX
    exact Touches.refl hstate
  | cons provisional rest ih =>
    simp only [bind_effect_steps, bind_eq_ok_iff, pure_eq_ok_iff, Prod.mk.injEq] at h
    obtain ⟨step, hstep, current, hcurrent, ⟨bound', final'⟩, hrest, rfl, rfl⟩ := h
    rw [reducer.apply_steps_singleton] at hcurrent
    obtain ⟨hstep_confined, hview, hkind⟩ := bind_step_eq_ok hstep (hconfined provisional List.mem_cons_self)
    have htouches := apply_step_touches hcurrent hstep_confined heffect hstate
    have hlt : index < cursor.states.length := (List.getElem?_eq_some_iff.mp hstate).1
    obtain ⟨hkinds, hbound, happly, hcuts⟩ := ih hrest (fun other hmem => hconfined other (List.mem_cons_of_mem _ hmem))
      (by rw [htouches.frame.effects]; exact heffect) (htouches.state_at hlt)
    have hcons : ∀ tail X, reducer.apply_steps cursor (step :: tail) = .ok X ↔ reducer.apply_steps current tail = .ok X := by
      intro tail X
      rw [reducer.apply_steps, foldlM_cons_eq_ok_iff]
      simp [hcurrent, reducer.apply_steps]
    refine ⟨by simp [hkind, hkinds], by simpa using ⟨hstep_confined, hbound⟩, (hcons _ _).mpr happly,
      fun k X hX => ?_⟩
    cases k with
    | zero =>
      simp only [List.take_zero, reducer.apply_steps_nil, Except.ok.injEq] at hX ⊢
      subst hX
      exact Touches.refl hstate
    | succ k =>
      rw [List.take_succ_cons, hcons] at hX
      have hcut := hcuts k X hX
      rw [htouches.view, hview] at hcut
      exact htouches.trans hcut

end classifier

end atoms.recovery

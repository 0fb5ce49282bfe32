import Atoms.Recovery.Reducer.Frame

open atoms.errors atoms.fingerprint atoms.effects atoms.compiler checked keyed

namespace atoms.recovery.reducer

variable [UnicodeData]

/-- Normalization drops nothing from an accepted snapshot. -/
theorem normalize_scratch_of_mem {s : RecoverySnapshot} {item : ScratchObservation} (hitem : item ∈ s.scratch_observations) :
    normalize_scratch s.compiled s.journals s.persistent_observations item = item := by
  have h := s.accepted.2.2.2.2.1
  simp only [snapshot.validate_observations, bind_eq_ok_iff, forM_eq_ok_iff, require_eq_ok_iff] at h
  obtain ⟨_, _, _, _, hrelation⟩ := h
  have hrequired := hrelation item hitem
  unfold normalize_scratch
  cases hrel : item.file_build_relation with
  | none =>
    cases item
    simp_all
  | some relation => simp [hrequired, hrel]

theorem normalize_scratch_self (s : RecoverySnapshot) :
    s.scratch_observations.map (normalize_scratch s.compiled s.journals s.persistent_observations) =
      s.scratch_observations := by
  conv_rhs => rw [← List.map_id s.scratch_observations]
  exact List.map_congr_left fun item hitem => normalize_scratch_of_mem hitem

/-- There is nothing to drop from an observation without a build relation. -/
theorem normalize_scratch_of_none {compiled : CompiledSpec} {journals : List EffectJournalState}
    {persistent : List PersistentObservation} {item : ScratchObservation} (h : item.file_build_relation = none) :
    normalize_scratch compiled journals persistent item = item := by
  unfold normalize_scratch
  split
  · rfl
  · rw [← h]

@[simp] theorem normalize_scratch_key (compiled : CompiledSpec) (journals : List EffectJournalState)
    (persistent : List PersistentObservation) (item : ScratchObservation) :
    (normalize_scratch compiled journals persistent item).key = item.key := by
  unfold normalize_scratch
  split <;> rfl

@[simp] theorem normalize_scratch_entry (compiled : CompiledSpec) (journals : List EffectJournalState)
    (persistent : List PersistentObservation) (item : ScratchObservation) :
    (normalize_scratch compiled journals persistent item).entry = item.entry := by
  unfold normalize_scratch
  split <;> rfl

theorem normalize_scratch_relation {compiled : CompiledSpec} {journals : List EffectJournalState}
    {persistent : List PersistentObservation} {item : ScratchObservation} {relation : FileBuildRelation}
    (h : (normalize_scratch compiled journals persistent item).file_build_relation = some relation) :
    item.file_build_relation = some relation := by
  unfold normalize_scratch at h
  split at h
  · exact h
  · cases h

theorem normalize_file_build_relations_eq_ok {compiled : CompiledSpec} {journals : List EffectJournalState}
    {persistent : List PersistentObservation} {scratch normalized : List ScratchObservation}
    (h : normalize_file_build_relations compiled journals persistent scratch = .ok normalized) :
    scratch.map (normalize_scratch compiled journals persistent) = normalized := by
  unfold normalize_file_build_relations at h
  rw [mapM_eq_ok_iff_map (C := fun item => (snapshot.effect_of compiled item.effect_id).isSome ∧
    (snapshot.journal_of journals item.effect_id).isSome) (g := normalize_scratch compiled journals persistent)] at h
  · exact h.2
  · intro item y
    simp

/-- What a rebuild returns: the fields it was given, their build relations normalized. -/
structure Rebuilt (s : RecoverySnapshot) (fields : SnapshotFields) (s' : RecoverySnapshot) : Prop where
  compiled : s'.compiled = fields.compiled
  topology : s'.topology = fields.topology
  commit_decision : s'.commit_decision = fields.commit_decision
  journals : s'.journals = fields.journals
  persistent : s'.persistent_observations = fields.persistent_observations
  scratch : s'.scratch_observations = fields.scratch_observations.map
    (normalize_scratch s.compiled fields.journals fields.persistent_observations)
  transaction_state : s'.transaction_state = fields.transaction_state
  rollback_result : s'.rollback_result = fields.rollback_result
  halt_diagnostic : s'.halt_diagnostic = fields.halt_diagnostic
  active : s'.active = fields.active

theorem rebuild_eq_ok {s s' : RecoverySnapshot} {fields : SnapshotFields} (h : rebuild s fields = .ok s') :
    Rebuilt s fields s' := by
  unfold rebuild at h
  rw [bind_eq_ok_iff] at h
  obtain ⟨scratch, hscratch, hbuild⟩ := h
  rw [build_recovery_snapshot_eq_ok_iff] at hbuild
  have hnormalized := normalize_file_build_relations_eq_ok hscratch
  constructor <;> rw [hbuild]
  exact hnormalized.symm

/-- A rebuild keeps the names of what it observes. -/
theorem Rebuilt.keys {s s' : RecoverySnapshot} {fields : SnapshotFields} (h : Rebuilt s fields s') :
    s'.scratch_observations.map ScratchObservation.key =
      fields.scratch_observations.map ScratchObservation.key := by
  rw [h.scratch, List.map_map]
  simp [Function.comp_def]

/-- Rebuilding after a change of the transaction row changes the row alone. -/
theorem Rebuilt.scratch_eq {s s' : RecoverySnapshot} {fields : SnapshotFields} (h : Rebuilt s fields s')
    (hjournals : fields.journals = s.journals)
    (hpersistent : fields.persistent_observations = s.persistent_observations)
    (hscratch : fields.scratch_observations = s.scratch_observations) :
    s'.scratch_observations = s.scratch_observations := by
  rw [h.scratch, hjournals, hpersistent, hscratch, normalize_scratch_self]

/-- What a change of the transaction row leaves as it was. -/
structure SameObservations (s s' : RecoverySnapshot) : Prop where
  frame : Frame s s'
  journals : s'.journals = s.journals
  persistent : s'.persistent_observations = s.persistent_observations
  scratch : s'.scratch_observations = s.scratch_observations

theorem Rebuilt.same_observations {s s' : RecoverySnapshot} {fields : SnapshotFields} (h : Rebuilt s fields s')
    (hcompiled : fields.compiled = s.compiled) (htopology : fields.topology = s.topology)
    (hcommit : fields.commit_decision = s.commit_decision) (hjournals : fields.journals = s.journals)
    (hpersistent : fields.persistent_observations = s.persistent_observations)
    (hscratch : fields.scratch_observations = s.scratch_observations) : SameObservations s s' := by
  have hkeep := h.scratch_eq hjournals hpersistent hscratch
  have hpersistent' := h.persistent.trans hpersistent
  refine ⟨⟨h.compiled.trans hcompiled, h.topology.trans htopology, h.commit_decision.trans hcommit, ?_, ?_⟩,
    h.journals.trans hjournals, hpersistent', hkeep⟩
  · rw [hpersistent']
  · rw [hkeep]

theorem transition_transaction_eq_ok {s s' : RecoverySnapshot} {step : TransitionTransactionState}
    (h : transition_transaction s step = .ok s') :
    s.transaction_state = step.from_state ∧ transaction_recovery_edge step.from_state step.to_state = true ∧
      SameObservations s s' ∧ s'.transaction_state = step.to_state ∧ s'.rollback_result = step.rollback_result ∧
      s'.halt_diagnostic = step.halt_diagnostic ∧ s'.active = s.active := by
  unfold transition_transaction at h
  simp only [bind_eq_ok_iff, require_eq_ok_iff] at h
  obtain ⟨_, hfrom, _, hedge, _, _, _, _, hrebuild⟩ := h
  have hrebuilt := rebuild_eq_ok hrebuild
  exact ⟨hfrom, hedge, hrebuilt.same_observations rfl rfl rfl rfl rfl rfl, hrebuilt.transaction_state,
    hrebuilt.rollback_result, hrebuilt.halt_diagnostic, hrebuilt.active⟩

theorem detach_active_eq_ok {s s' : RecoverySnapshot} (h : detach_active s = .ok s') :
    s.active = true ∧ SameObservations s s' ∧ s'.transaction_state = s.transaction_state ∧
      s'.rollback_result = s.rollback_result ∧ s'.halt_diagnostic = s.halt_diagnostic ∧ s'.active = false := by
  unfold detach_active at h
  simp only [bind_eq_ok_iff, require_eq_ok_iff] at h
  obtain ⟨_, hactive, _, _, hrebuild⟩ := h
  have hrebuilt := rebuild_eq_ok hrebuild
  exact ⟨hactive, hrebuilt.same_observations rfl rfl rfl rfl rfl rfl, hrebuilt.transaction_state,
    hrebuilt.rollback_result, hrebuilt.halt_diagnostic, hrebuilt.active⟩

/-- A terminal record that is still active can be detached. -/
theorem detach_active_of_terminal {s : RecoverySnapshot} (hactive : s.active = true)
    (hterminal : s.transaction_state = .COMMITTED ∨ s.transaction_state = .ROLLED_BACK) :
    ∃ s', detach_active s = .ok s' := by
  have hnormalize : normalize_file_build_relations s.compiled s.journals s.persistent_observations
      s.scratch_observations = .ok s.scratch_observations := by
    conv_rhs => rw [← normalize_scratch_self]
    apply mapM_eq_ok_of_forall
    intro item hitem
    obtain ⟨effect, heffect, rfl⟩ := s.exists_effect_of_scratch hitem
    obtain ⟨i, hi⟩ := List.getElem?_of_mem heffect
    obtain ⟨state, hstate⟩ := s.exists_state hi
    have hid : (s.scratch_at effect).effect_id = effect.effect_id := congrArg Prod.fst (s.scratch_at_key heffect)
    rw [hid, s.effect_of_eq heffect, s.journal_of_eq hi hstate]
    simp [require_of]
  have hvalid : snapshot.validate { s.toSnapshotFields with active := false } = .ok () := s.issued
  refine ⟨⟨_, hvalid⟩, ?_⟩
  unfold detach_active
  simp only [require_protocol, require_of hactive, require_of hterminal, ok_bind, rebuild, hnormalize]
  rw [build_recovery_snapshot_eq_ok_iff]

theorem preserve_external_eq_ok {s s' : RecoverySnapshot} {step : PreserveExternal}
    (h : preserve_external s step = .ok s') : s' = s := by
  unfold preserve_external at h
  simp only [bind_eq_ok_iff, pure_eq_ok_iff] at h
  obtain ⟨_, _, _, _, rfl⟩ := h
  rfl

/-! Journal transitions. -/

omit [UnicodeData] in
theorem set_journal_states {journals : List EffectJournalState} {i : Nat} {effect_id : String}
    (hnodup : (journals.map EffectJournalState.effect_id).Nodup)
    (hid : (journals.map EffectJournalState.effect_id)[i]? = some effect_id) (state : JournalState) :
    (set_journal journals effect_id state).map EffectJournalState.state =
      (journals.map EffectJournalState.state).set i state := by
  apply List.ext_getElem?
  intro k
  rw [set_journal, List.map_map, List.getElem?_map, List.getElem?_set, List.getElem?_map]
  by_cases hk : i = k
  · subst hk
    rw [List.getElem?_map] at hid
    cases hrow : journals[i]? with
    | none => simp [hrow] at hid
    | some row =>
      have hlt : i < journals.length := (List.getElem?_eq_some_iff.mp hrow).1
      simp_all
  · rw [if_neg hk]
    cases hrow : journals[k]? with
    | none => simp
    | some row =>
      have hne : row.effect_id ≠ effect_id := by
        rintro rfl
        have hkid : (journals.map EffectJournalState.effect_id)[k]? = some row.effect_id := by simp [hrow]
        have hlt : i < (journals.map EffectJournalState.effect_id).length := (List.getElem?_eq_some_iff.mp hid).1
        exact hk ((List.getElem?_inj hlt hnodup).mp (hid.trans hkid.symm))
      simp [hne]

omit [UnicodeData] in
@[simp] theorem set_journal_ids (journals : List EffectJournalState) (effect_id : String) (state : JournalState) :
    (set_journal journals effect_id state).map EffectJournalState.effect_id =
      journals.map EffectJournalState.effect_id := by
  rw [set_journal, List.map_map]
  apply List.map_congr_left
  intro row _
  simp only [Function.comp]
  split <;> rfl

/-- An effect transition moves one journal row along a recovery edge and changes no entry. -/
theorem transition_effect_eq_ok {s s' : RecoverySnapshot} {step : TransitionEffectState}
    (h : transition_effect s step = .ok s') :
    (∃ i, (s.effects.map Effect.effect_id)[i]? = some step.effect_id ∧ s.states[i]? = some step.from_state ∧
      s'.states = s.states.set i step.to_state) ∧
    effect_recovery_edge step.from_state step.to_state = true ∧
    Frame s s' ∧ SameRecord s s' ∧ s'.persistent_observations = s.persistent_observations ∧
    s'.journals = set_journal s.journals step.effect_id step.to_state ∧
    s'.scratch_observations = s.scratch_observations.map
      (normalize_scratch s.compiled (set_journal s.journals step.effect_id step.to_state) s.persistent_observations) := by
  unfold transition_effect at h
  split at h
  · rename_i journal hfilter
    simp only [bind_eq_ok_iff, require_eq_ok_iff] at h
    obtain ⟨_, hfrom, _, hedge, hrebuild⟩ := h
    have hrebuilt := rebuild_eq_ok hrebuild
    have hmem : journal ∈ s.journals.filter fun row => row.effect_id = step.effect_id := by
      rw [hfilter]
      exact List.mem_singleton_self _
    obtain ⟨hjournal, hid⟩ := List.mem_filter.mp hmem
    obtain ⟨i, hi⟩ := List.getElem?_of_mem hjournal
    have hid : journal.effect_id = step.effect_id := by simpa using hid
    have hids : (s.journals.map EffectJournalState.effect_id)[i]? = some step.effect_id := by simp [hi, hid]
    refine ⟨⟨i, ?_, ?_, ?_⟩, hedge, ?_, ?_, hrebuilt.persistent, hrebuilt.journals, hrebuilt.scratch⟩
    · rw [← s.journal_ids, hids]
    · simp [RecoverySnapshot.states, hi, hfrom]
    · rw [RecoverySnapshot.states, hrebuilt.journals]
      exact set_journal_states s.journal_ids_nodup hids _
    · refine ⟨hrebuilt.compiled, hrebuilt.topology, hrebuilt.commit_decision, ?_, hrebuilt.keys⟩
      rw [hrebuilt.persistent]
    · exact ⟨hrebuilt.transaction_state, hrebuilt.rollback_result, hrebuilt.halt_diagnostic, hrebuilt.active⟩
  · simp at h

/-! Mutating steps. -/

omit [UnicodeData] in
theorem joint_keys_eq_ok {observation : JointObservation} {keys : JointKeys} (h : joint_keys observation = .ok keys) :
    keys = ⟨observation.persistent.map PersistentObservation.path, observation.scratch.map ScratchObservation.key,
      observation.parent_occupancy.map ParentOccupancy.parent⟩ ∧
    (observation.persistent.map PersistentObservation.path).Nodup ∧
    (observation.scratch.map ScratchObservation.key).Nodup := by
  unfold joint_keys at h
  simp only [bind_eq_ok_iff, pure_eq_ok_iff, require_eq_ok_iff] at h
  obtain ⟨_, _, _, _, _, _, _, hpersistent, _, hscratch, _, _, rfl⟩ := h
  exact ⟨rfl, hpersistent, hscratch⟩

theorem merge_joint_observation_eq_ok {s : RecoverySnapshot} {observation : JointObservation}
    {merged : List PersistentObservation × List ScratchObservation}
    (h : merge_joint_observation s observation = .ok merged) :
    merged = (merge PersistentObservation.path observation.persistent s.persistent_observations,
      merge ScratchObservation.key observation.scratch s.scratch_observations) ∧
    (∀ path ∈ observation.persistent.map PersistentObservation.path,
      path ∈ s.persistent_observations.map PersistentObservation.path) ∧
    (∀ key ∈ observation.scratch.map ScratchObservation.key,
      key ∈ s.scratch_observations.map ScratchObservation.key) := by
  unfold merge_joint_observation at h
  simp only [bind_eq_ok_iff, pure_eq_ok_iff, require_eq_ok_iff] at h
  obtain ⟨keys, hkeys, _, hpersistent, _, hscratch, rfl⟩ := h
  obtain ⟨rfl, _, _⟩ := joint_keys_eq_ok hkeys
  exact ⟨rfl, hpersistent, hscratch⟩

/-- The entry that a result puts at a path, or the one that was there. -/
def entry_after (result : JointObservation) (path : RelPath) (before : ObservedEntry) : ObservedEntry :=
  ((find_key PersistentObservation.path result.persistent path).map PersistentObservation.entry).getD before

/-- The entry that a result puts at an effect's scratch name, or the one that was there. -/
def scratch_after (result : JointObservation) (effect : Effect) (before : ObservedEntry) : ObservedEntry :=
  ((find_key ScratchObservation.key result.scratch (scratch_key effect)).map ScratchObservation.entry).getD before

/-- What a mutating step does to a snapshot: its result in place and nothing else. -/
structure Applied (s s' : RecoverySnapshot) (result : JointObservation) : Prop where
  frame : Frame s s'
  record : SameRecord s s'
  journals : s'.journals = s.journals
  entries : ∀ path, path ∈ s.compiled.paths → s'.entry_at path = entry_after result path (s.entry_at path)
  scratch : ∀ effect ∈ s.effects,
    (s'.scratch_at effect).entry = scratch_after result effect (s.scratch_at effect).entry
  relations : ∀ effect ∈ s.effects, find_key ScratchObservation.key result.scratch (scratch_key effect) = none →
    ∀ relation, (s'.scratch_at effect).file_build_relation = some relation →
      (s.scratch_at effect).file_build_relation = some relation

theorem apply_result_eq_ok {s s' : RecoverySnapshot} {result : JointObservation} {message : String}
    (h : apply_result s result message = .ok s') : Applied s s' result := by
  unfold apply_result at h
  rw [bind_eq_ok_iff] at h
  obtain ⟨merged, hmerged, h⟩ := h
  simp only [bind_eq_ok_iff, require_eq_ok_iff] at h
  obtain ⟨_, _, _, _, hrebuild⟩ := h
  obtain ⟨rfl, _, _⟩ := merge_joint_observation_eq_ok hmerged
  have hrebuilt := rebuild_eq_ok hrebuild
  have hframe : Frame s s' := by
    refine ⟨hrebuilt.compiled, hrebuilt.topology, hrebuilt.commit_decision, ?_, ?_⟩
    · rw [hrebuilt.persistent]
      exact keys_merge ..
    · rw [hrebuilt.keys]
      exact keys_merge ..
  have hpersistent := hrebuilt.persistent
  have hscratch := hrebuilt.scratch
  simp only at hpersistent hscratch
  have hat : ∀ effect ∈ s.effects, s'.scratch_at effect = normalize_scratch s.compiled s.journals
      (merge PersistentObservation.path result.persistent s.persistent_observations)
      ((find_key ScratchObservation.key result.scratch (scratch_key effect)).getD (s.scratch_at effect)) := by
    intro effect heffect
    have hfind := s'.find_scratch (hframe.effects ▸ heffect)
    rw [hscratch, find_key_map (normalize_scratch_key s.compiled s.journals _), find_key_merge,
      s.find_scratch heffect] at hfind
    exact (Option.some.inj hfind).symm
  refine ⟨hframe, ?_, hrebuilt.journals, ?_, ?_, ?_⟩
  · exact ⟨hrebuilt.transaction_state, hrebuilt.rollback_result, hrebuilt.halt_diagnostic, hrebuilt.active⟩
  · intro path hpath
    rw [RecoverySnapshot.entry_at, hpersistent]
    simp only [find_key_merge, s.find_persistent hpath, Option.map_some, Option.getD_some, entry_after]
    cases find_key PersistentObservation.path result.persistent path <;> rfl
  · intro effect heffect
    rw [hat effect heffect, normalize_scratch_entry, scratch_after]
    cases find_key ScratchObservation.key result.scratch (scratch_key effect) <;> rfl
  · intro effect heffect hnone relation hrelation
    rw [hat effect heffect, hnone] at hrelation
    exact normalize_scratch_relation hrelation

theorem transform_effect_tuple_eq_ok {s s' : RecoverySnapshot} {step : TransformEffectTuple}
    (h : transform_effect_tuple s step = .ok s') : Applied s s' step.result_after := by
  unfold transform_effect_tuple at h
  simp only [bind_eq_ok_iff] at h
  obtain ⟨_, _, _, _, _, _, _, _, _, _, _, _, hresult⟩ := h
  exact apply_result_eq_ok hresult

theorem remove_scratch_eq_ok {s s' : RecoverySnapshot} {step : RemoveScratch}
    (h : remove_scratch s step = .ok s') : Applied s s' step.result_after := by
  unfold remove_scratch at h
  simp only [bind_eq_ok_iff] at h
  obtain ⟨_, _, _, _, _, _, _, _, _, _, hresult⟩ := h
  exact apply_result_eq_ok hresult

/-- Every step keeps the frame. -/
theorem apply_step_frame {s s' : RecoverySnapshot} {step : RecoveryStep} (h : apply_step s step = .ok s') :
    Frame s s' := by
  cases step with
  | TransitionTransactionState step => exact (transition_transaction_eq_ok h).2.2.1.frame
  | TransitionEffectState step => exact (transition_effect_eq_ok h).2.2.1
  | TransformEffectTuple step => exact (transform_effect_tuple_eq_ok h).frame
  | RemoveScratch step => exact (remove_scratch_eq_ok h).frame
  | PreserveExternal step =>
    obtain rfl := preserve_external_eq_ok h
    exact Frame.refl _
  | DetachActive => exact (detach_active_eq_ok h).2.1.frame

theorem apply_steps_frame {s s' : RecoverySnapshot} {steps : List RecoveryStep} (h : apply_steps s steps = .ok s') :
    Frame s s' :=
  foldlM_invariant (P := fun t => Frame s t) (fun _ _ _ hframe hstep => hframe.trans (apply_step_frame hstep))
    (Frame.refl s) h

@[simp] theorem apply_steps_nil (s : RecoverySnapshot) : apply_steps s [] = .ok s := rfl

theorem apply_steps_singleton {s s' : RecoverySnapshot} {step : RecoveryStep} :
    apply_steps s [step] = .ok s' ↔ apply_step s step = .ok s' := by
  unfold apply_steps
  rw [foldlM_cons_eq_ok_iff]
  simp

theorem apply_steps_append_eq_ok_iff {s s' : RecoverySnapshot} {steps rest : List RecoveryStep} :
    apply_steps s (steps ++ rest) = .ok s' ↔
      ∃ middle, apply_steps s steps = .ok middle ∧ apply_steps middle rest = .ok s' :=
  foldlM_append_eq_ok_iff

end atoms.recovery.reducer

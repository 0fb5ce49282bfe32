import Atoms.Recovery.Reducer.Steps

open atoms.errors atoms.fingerprint atoms.effects atoms.compiler checked keyed

namespace atoms.recovery

variable [UnicodeData]

/-- The snapshot observes the entry at some name. -/
def Observes (s : RecoverySnapshot) (entry : ObservedEntry) : Prop :=
  (∃ path, s.entry_at path = entry) ∨ ∃ effect ∈ s.effects, (s.scratch_at effect).entry = entry

theorem observes_of_persistent {s : RecoverySnapshot} {item : PersistentObservation}
    (h : item ∈ s.persistent_observations) : Observes s item.entry :=
  .inl ⟨item.path, s.entry_at_of_mem h⟩

theorem observes_of_scratch {s : RecoverySnapshot} {item : ScratchObservation} (h : item ∈ s.scratch_observations) :
    Observes s item.entry := by
  obtain ⟨effect, heffect, hat⟩ := s.exists_effect_of_scratch h
  exact .inr ⟨effect, heffect, congrArg ScratchObservation.entry hat⟩

namespace reducer

/-- The current observation at a template's slots holds entries of the snapshot. -/
theorem current_joint_observation_observes {s : RecoverySnapshot} {template current : JointObservation}
    (h : current_joint_observation s template = .ok current) : ∀ entry ∈ current.entries, Observes s entry := by
  unfold current_joint_observation at h
  simp only [bind_eq_ok_iff, pure_eq_ok_iff] at h
  obtain ⟨_, _, persistent, hpersistent, scratch, hscratch, _, _, rfl⟩ := h
  intro entry hentry
  rcases List.mem_append.mp hentry with hmem | hmem
  · obtain ⟨item, hitem, rfl⟩ := List.mem_map.mp hmem
    obtain ⟨template, _, hfound⟩ := exists_of_mapM_eq_ok hpersistent hitem
    split at hfound
    · rename_i hfind
      obtain rfl := pure_eq_ok_iff.mp hfound
      exact observes_of_persistent (find_key_some hfind).1
    · simp at hfound
  · obtain ⟨item, hitem, rfl⟩ := List.mem_map.mp hmem
    obtain ⟨template, _, hfound⟩ := exists_of_mapM_eq_ok hscratch hitem
    split at hfound
    · rename_i hfind
      obtain rfl := pure_eq_ok_iff.mp hfound
      exact observes_of_scratch (find_key_some hfind).1
    · simp at hfound

/-- A mutation that passes its checks puts in place only entries that the snapshot observes. -/
theorem require_mutation_observes {s : RecoverySnapshot} {effect : Effect} {before after : JointObservation}
    {message : String} (h : require_mutation s effect before after message = .ok ()) :
    ∀ entry ∈ after.entries, entry = .ObservedAbsent ∨ Observes s entry := by
  unfold require_mutation require_exact_entry_transfers at h
  simp only [bind_eq_ok_iff, require_eq_ok_iff] at h
  obtain ⟨current, hcurrent, _, rfl, _, htransfers, _⟩ := h
  intro entry hentry
  exact (htransfers entry hentry).imp_right (current_joint_observation_observes hcurrent entry)

theorem Applied.observes {s s' : RecoverySnapshot} {result : JointObservation} (h : Applied s s' result)
    (hresult : ∀ entry ∈ result.entries, entry = .ObservedAbsent ∨ Observes s entry) {entry : ObservedEntry}
    (hobserves : Observes s' entry) : entry = .ObservedAbsent ∨ Observes s entry := by
  rcases hobserves with ⟨path, rfl⟩ | ⟨effect, heffect, rfl⟩
  · by_cases hpath : path ∈ s.compiled.paths
    · rw [h.entries path hpath, entry_after]
      cases hfind : find_key PersistentObservation.path result.persistent path with
      | none => exact .inr (.inl ⟨path, rfl⟩)
      | some item =>
        exact hresult _ (List.mem_append_left _ (List.mem_map_of_mem (find_key_some hfind).1))
    · exact .inl (RecoverySnapshot.entry_at_of_not_mem (h.frame.compiled_paths ▸ hpath))
  · rw [h.frame.effects] at heffect
    rw [h.scratch effect heffect, scratch_after]
    cases hfind : find_key ScratchObservation.key result.scratch (scratch_key effect) with
    | none => exact .inr (.inr ⟨effect, heffect, rfl⟩)
    | some item =>
      exact hresult _ (List.mem_append_right _ (List.mem_map_of_mem (find_key_some hfind).1))

theorem SameObservations.observes {s s' : RecoverySnapshot} (h : SameObservations s s') {entry : ObservedEntry}
    (hobserves : Observes s' entry) : Observes s entry := by
  simpa only [Observes, RecoverySnapshot.entry_at, RecoverySnapshot.scratch_at, h.persistent, h.scratch,
    h.frame.effects] using hobserves

/-- No step fabricates an entry: what is observed after it was observed before. -/
theorem apply_step_observes {s s' : RecoverySnapshot} {step : RecoveryStep} (h : apply_step s step = .ok s')
    {entry : ObservedEntry} (hobserves : Observes s' entry) : entry = .ObservedAbsent ∨ Observes s entry := by
  cases step with
  | TransitionTransactionState step => exact .inr ((transition_transaction_eq_ok h).2.2.1.observes hobserves)
  | TransitionEffectState step =>
    obtain ⟨_, _, hframe, _, hpersistent, _, hscratch⟩ := transition_effect_eq_ok h
    refine .inr ?_
    rcases hobserves with ⟨path, rfl⟩ | ⟨effect, heffect, rfl⟩
    · exact .inl ⟨path, by simp only [RecoverySnapshot.entry_at, hpersistent]⟩
    · have hmem := s'.scratch_at_mem heffect
      rw [hscratch, List.mem_map] at hmem
      obtain ⟨item, hitem, heq⟩ := hmem
      rw [← heq, normalize_scratch_entry]
      exact observes_of_scratch hitem
  | TransformEffectTuple step =>
    have happlied := transform_effect_tuple_eq_ok h
    simp only [apply_step, transform_effect_tuple, bind_eq_ok_iff] at h
    obtain ⟨_, _, _, _, _, _, _, _, _, _, _, hmutation, _⟩ := h
    exact happlied.observes (require_mutation_observes hmutation) hobserves
  | RemoveScratch step =>
    have happlied := remove_scratch_eq_ok h
    simp only [apply_step, remove_scratch, bind_eq_ok_iff] at h
    obtain ⟨_, _, _, _, _, _, _, hmutation, _⟩ := h
    exact happlied.observes (require_mutation_observes hmutation) hobserves
  | PreserveExternal step =>
    obtain rfl := preserve_external_eq_ok h
    exact .inr hobserves
  | DetachActive => exact .inr ((detach_active_eq_ok h).2.1.observes hobserves)

/-- No run of steps fabricates an entry. -/
theorem apply_steps_observes {s s' : RecoverySnapshot} {steps : List RecoveryStep} (h : apply_steps s steps = .ok s')
    {entry : ObservedEntry} (hobserves : Observes s' entry) : entry = .ObservedAbsent ∨ Observes s entry := by
  refine foldlM_invariant (P := fun t => ∀ entry, Observes t entry → entry = .ObservedAbsent ∨ Observes s entry)
    ?_ (fun _ hstart => .inr hstart) h entry hobserves
  intro t step t' hkept hstep entry hentry
  exact (apply_step_observes hstep hentry).elim .inl (hkept entry)

end reducer

end atoms.recovery

import Atoms.Recovery.Reducer.Steps

open atoms.errors atoms.fingerprint atoms.effects atoms.compiler checked keyed

namespace atoms.recovery

/-- An entry that an observation may list. -/
def ValidEntry : ObservedEntry → Prop
  | .ObservedUnrecognized st_mode => is_unrecognized_st_mode st_mode = true
  | _ => True

theorem validate_observed_entry_eq_ok_iff {label : String} {entry : ObservedEntry} {u : Unit} :
    snapshot.validate_observed_entry label entry = .ok u ↔ ValidEntry entry := by
  cases entry <;> simp [snapshot.validate_observed_entry, ValidEntry]

@[simp] theorem valid_absent : ValidEntry .ObservedAbsent := trivial

variable [UnicodeData]

namespace RecoverySnapshot

variable (s : RecoverySnapshot)

theorem observations_valid : (∀ item ∈ s.persistent_observations, ValidEntry item.entry) ∧
    ∀ item ∈ s.scratch_observations, ValidEntry item.entry := by
  have h := s.accepted.2.2.2.2.1
  simp only [snapshot.validate_observations, bind_eq_ok_iff, forM_eq_ok_iff, validate_observed_entry_eq_ok_iff] at h
  obtain ⟨_, hpersistent, _, hscratch, _⟩ := h
  exact ⟨hpersistent, hscratch⟩

theorem scratch_valid {effect : Effect} (heffect : effect ∈ s.effects) : ValidEntry (s.scratch_at effect).entry :=
  s.observations_valid.2 _ (s.scratch_at_mem heffect)

end RecoverySnapshot

namespace reducer

/-- Fields that a rebuild of `s` accepts. -/
structure Rebuildable (s : RecoverySnapshot) (fields : SnapshotFields) : Prop where
  compiled : fields.compiled = s.compiled
  topology : fields.topology = s.topology
  journal_ids : fields.journals.map EffectJournalState.effect_id = s.journals.map EffectJournalState.effect_id
  paths : fields.persistent_observations.map PersistentObservation.path =
    s.persistent_observations.map PersistentObservation.path
  keys : fields.scratch_observations.map ScratchObservation.key = s.scratch_observations.map ScratchObservation.key
  persistent : ∀ item ∈ fields.persistent_observations, ValidEntry item.entry
  scratch : ∀ item ∈ fields.scratch_observations, ValidEntry item.entry
  relations : ∀ item ∈ fields.scratch_observations,
    snapshot.relation_required s.compiled fields.journals fields.persistent_observations item = true →
      item.file_build_relation.isSome = true
  diagnostic : snapshot.validate_halt_diagnostic fields.halt_diagnostic = .ok ()
  payloads : snapshot.validate_terminal_payloads fields = .ok ()

/-- Normalization finds an effect and a journal for every scratch name of the snapshot. -/
theorem normalize_file_build_relations_total {s : RecoverySnapshot} {journals : List EffectJournalState}
    (persistent : List PersistentObservation) {scratch : List ScratchObservation}
    (hids : journals.map EffectJournalState.effect_id = s.journals.map EffectJournalState.effect_id)
    (hkeys : ∀ item ∈ scratch, item.key ∈ s.effects.map scratch_key) :
    normalize_file_build_relations s.compiled journals persistent scratch =
      .ok (scratch.map (normalize_scratch s.compiled journals persistent)) := by
  apply mapM_eq_ok_of_forall
  intro item hitem
  obtain ⟨effect, heffect, hkey⟩ := List.mem_map.mp (hkeys item hitem)
  have hid : item.effect_id = effect.effect_id := (congrArg Prod.fst hkey).symm
  have hjournal : (find_key EffectJournalState.effect_id journals effect.effect_id).isSome = true := by
    rw [find_key_isSome_iff]
    have hmem : effect.effect_id ∈ journals.map EffectJournalState.effect_id := by
      rw [hids, s.journal_ids]
      exact List.mem_map_of_mem heffect
    exact List.mem_map.mp hmem
  rw [hid, s.effect_of_eq heffect]
  simp only [require_protocol, snapshot.journal_of, Option.isSome_map, Option.isSome_some, hjournal, and_self]
  rw [require_of trivial, ok_bind]
  rfl

/-- Whether a build relation is required does not depend on the one that is there. -/
theorem relation_required_normalize (compiled : CompiledSpec) (journals : List EffectJournalState)
    (persistent : List PersistentObservation) (item : ScratchObservation) :
    snapshot.relation_required compiled journals persistent (normalize_scratch compiled journals persistent item) =
      snapshot.relation_required compiled journals persistent item := by
  unfold normalize_scratch
  split <;> rfl

theorem rebuild_total {s : RecoverySnapshot} {fields : SnapshotFields} (h : Rebuildable s fields) :
    ∃ s', rebuild s fields = .ok s' := by
  have hkeys : ∀ item ∈ fields.scratch_observations, item.key ∈ s.effects.map scratch_key := by
    intro item hitem
    refine s.scratch_coverage.1.1 _ ?_
    rw [← h.keys]
    exact List.mem_map_of_mem hitem
  have hnormalize := normalize_file_build_relations_total fields.persistent_observations h.journal_ids hkeys
  have hvalid : snapshot.validate
      { fields with
        scratch_observations := fields.scratch_observations.map
          (normalize_scratch s.compiled fields.journals fields.persistent_observations) } = .ok () := by
    have haccepted := s.accepted
    unfold snapshot.validate
    simp only [bind_eq_ok_iff]
    refine ⟨(), ?_, (), ?_, (), ?_, (), ?_, (), ?_, (), h.diagnostic, h.payloads⟩
    · rw [snapshot.validate_journal_coverage, h.journal_ids, h.compiled]
      exact haccepted.1
    · have hlength : fields.persistent_observations.length = s.persistent_observations.length := by
        simpa using congrArg List.length h.paths
      rw [snapshot.validate_persistent_coverage, h.paths, h.compiled, hlength]
      exact haccepted.2.1
    · have hlength : fields.scratch_observations.length = s.scratch_observations.length := by
        simpa using congrArg List.length h.keys
      have hmap : (fields.scratch_observations.map (normalize_scratch s.compiled fields.journals
          fields.persistent_observations)).map ScratchObservation.key =
          s.scratch_observations.map ScratchObservation.key := by
        rw [List.map_map, ← h.keys]
        simp [Function.comp_def]
      rw [snapshot.validate_scratch_coverage, hmap, h.compiled, List.length_map, hlength]
      exact haccepted.2.2.1
    · rw [h.compiled, h.topology]
      exact haccepted.2.2.2.1
    · simp only [snapshot.validate_observations, bind_eq_ok_iff, forM_eq_ok_iff, validate_observed_entry_eq_ok_iff,
        require_eq_ok_iff, List.forall_mem_map, normalize_scratch_entry, relation_required_normalize, h.compiled]
      refine ⟨(), h.persistent, (), h.scratch, ?_⟩
      intro item hitem
      unfold normalize_scratch
      split
      · rename_i hrequired
        rw [hrequired, h.relations item hitem hrequired]
      · rename_i hrequired
        simpa using hrequired
  unfold rebuild
  rw [hnormalize, ok_bind]
  exact ⟨⟨_, hvalid⟩, build_recovery_snapshot_eq_ok_iff.mpr rfl⟩

/-- An observation whose slots are listed once each, with entries that may be listed. -/
structure WellKeyed (observation : JointObservation) : Prop where
  persistent : ∀ item ∈ observation.persistent, ValidEntry item.entry
  scratch : ∀ item ∈ observation.scratch, ValidEntry item.entry
  children : ∀ item ∈ observation.parent_occupancy, item.present_children.Nodup
  paths : (observation.persistent.map PersistentObservation.path).Nodup
  keys : (observation.scratch.map ScratchObservation.key).Nodup
  parents : (observation.parent_occupancy.map ParentOccupancy.parent).Nodup

omit [UnicodeData] in
theorem joint_keys_eq_ok_iff {observation : JointObservation} {keys : JointKeys} :
    joint_keys observation = .ok keys ↔ WellKeyed observation ∧
      keys = ⟨observation.persistent.map PersistentObservation.path,
        observation.scratch.map ScratchObservation.key, observation.parent_occupancy.map ParentOccupancy.parent⟩ := by
  unfold joint_keys
  simp only [bind_eq_ok_iff, pure_eq_ok_iff, require_eq_ok_iff, forM_eq_ok_iff, validate_observed_entry_eq_ok_iff,
    exists_const]
  constructor
  · rintro ⟨h1, h2, h3, h4, h5, h6, rfl⟩
    exact ⟨⟨h1, h2, h3, h4, h5, h6⟩, rfl⟩
  · rintro ⟨⟨h1, h2, h3, h4, h5, h6⟩, rfl⟩
    exact ⟨h1, h2, h3, h4, h5, h6, rfl⟩

omit [UnicodeData] in
theorem validate_joint_coverage_eq_ok_iff {expected result : JointObservation} {u : Unit} :
    validate_joint_coverage expected result = .ok u ↔ WellKeyed expected ∧ WellKeyed result ∧
      set_eq (expected.persistent.map PersistentObservation.path) (result.persistent.map PersistentObservation.path) ∧
      set_eq (expected.scratch.map ScratchObservation.key) (result.scratch.map ScratchObservation.key) ∧
      set_eq (expected.parent_occupancy.map ParentOccupancy.parent) (result.parent_occupancy.map ParentOccupancy.parent) := by
  unfold validate_joint_coverage
  simp only [bind_eq_ok_iff, joint_keys_eq_ok_iff, require_eq_ok_iff]
  constructor
  · rintro ⟨_, ⟨hexpected, rfl⟩, _, ⟨hresult, rfl⟩, h⟩
    exact ⟨hexpected, hresult, h⟩
  · rintro ⟨hexpected, hresult, h⟩
    exact ⟨_, ⟨hexpected, rfl⟩, _, ⟨hresult, rfl⟩, h⟩

theorem mutating_step_effect_eq {s : RecoverySnapshot} {effect : Effect} (heffect : effect ∈ s.effects) :
    mutating_step_effect s effect.effect_id = .ok effect := by
  unfold mutating_step_effect
  rw [filter_key_of_mem s.compiled.effect_ids_nodup heffect]
  rfl

/-- An observation of names that the snapshot has. -/
structure Listed (s : RecoverySnapshot) (observation : JointObservation) : Prop where
  well_keyed : WellKeyed observation
  paths : ∀ path ∈ observation.persistent.map PersistentObservation.path, path ∈ s.compiled.paths
  keys : ∀ key ∈ observation.scratch.map ScratchObservation.key, key ∈ s.effects.map scratch_key

theorem merge_joint_observation_total {s : RecoverySnapshot} {observation : JointObservation} (h : Listed s observation) :
    merge_joint_observation s observation =
      .ok (merge PersistentObservation.path observation.persistent s.persistent_observations,
        merge ScratchObservation.key observation.scratch s.scratch_observations) := by
  unfold merge_joint_observation
  rw [joint_keys_eq_ok_iff.mpr ⟨h.well_keyed, rfl⟩, ok_bind, require_protocol, require_of, ok_bind, require_protocol,
    require_of, ok_bind]
  · rfl
  · exact fun key hkey => s.scratch_coverage.1.2 key (h.keys key hkey)
  · exact fun path hpath => s.persistent_coverage.1.2 path (h.paths path hpath)

theorem merged_keys_known {s : RecoverySnapshot} {updates : List ScratchObservation} {item : ScratchObservation}
    (h : item ∈ merge ScratchObservation.key updates s.scratch_observations) :
    item.key ∈ s.effects.map scratch_key := by
  refine s.scratch_coverage.1.1 _ ?_
  rw [← keys_merge ScratchObservation.key updates]
  exact List.mem_map_of_mem h

/-- Normalization keeps what an observation of the snapshot's names lists. -/
theorem normalize_joint_observation_total {s : RecoverySnapshot} {observation : JointObservation} (h : Listed s observation)
    (htopology : validate_occupancy_topology s observation.parent_occupancy = .ok ()) :
    normalize_joint_observation s observation = .ok
      { persistent := observation.persistent
        scratch := observation.scratch.map (normalize_scratch s.compiled s.journals
          (merge PersistentObservation.path observation.persistent s.persistent_observations))
        parent_occupancy := observation.parent_occupancy } := by
  have hknown : ∀ item ∈ merge ScratchObservation.key observation.scratch s.scratch_observations,
      item.key ∈ s.effects.map scratch_key := fun item => merged_keys_known
  have hnormalize := normalize_file_build_relations_total
    (merge PersistentObservation.path observation.persistent s.persistent_observations) (Eq.refl (s.journals.map _)) hknown
  unfold normalize_joint_observation
  rw [merge_joint_observation_total h, ok_bind]
  simp only [htopology, hnormalize, ok_bind]
  have hscratch : (observation.scratch.filterMap fun item => find_key ScratchObservation.key
      ((merge ScratchObservation.key observation.scratch s.scratch_observations).map
        (normalize_scratch s.compiled s.journals
          (merge PersistentObservation.path observation.persistent s.persistent_observations))) item.key) =
      observation.scratch.map (normalize_scratch s.compiled s.journals
        (merge PersistentObservation.path observation.persistent s.persistent_observations)) := by
    conv_rhs => rw [← List.filterMap_eq_map]
    apply List.filterMap_congr
    intro item hitem
    obtain ⟨effect, heffect, hkey⟩ := List.mem_map.mp (h.keys item.key (List.mem_map_of_mem hitem))
    rw [find_key_map (normalize_scratch_key s.compiled s.journals _), find_key_merge, ← hkey, s.find_scratch heffect,
      hkey, find_key_of_mem h.well_keyed.keys hitem]
    rfl
  rw [hscratch]
  rfl

/-- Where no effect is under construction, no build relation is required. -/
theorem relation_not_required {s : RecoverySnapshot} (hstarted : JournalState.STARTED ∉ s.states)
    (persistent : List PersistentObservation) (item : ScratchObservation) :
    snapshot.relation_required s.compiled s.journals persistent item = false := by
  unfold snapshot.relation_required
  cases heffect : snapshot.effect_of s.compiled item.effect_id with
  | none => rfl
  | some effect =>
    cases hjournal : snapshot.journal_of s.journals item.effect_id with
    | none => rfl
    | some state =>
      have hmem : state ∈ s.states := by
        obtain ⟨row, hrow, rfl⟩ := Option.map_eq_some_iff.mp hjournal
        exact List.mem_map_of_mem (find_key_some hrow).1
      have hne : state ≠ .STARTED := fun heq => hstarted (heq ▸ hmem)
      simp [snapshot.construction_relation_required, hne]

/-- With no effect under construction, what a result puts into a snapshot can be rebuilt. -/
theorem merged_rebuildable {s : RecoverySnapshot} {result : JointObservation} (h : Listed s result)
    (hstarted : JournalState.STARTED ∉ s.states) : Rebuildable s
      { s.toSnapshotFields with
        persistent_observations := merge PersistentObservation.path result.persistent s.persistent_observations
        scratch_observations := merge ScratchObservation.key result.scratch s.scratch_observations } := by
  have haccepted := s.accepted
  refine ⟨rfl, rfl, rfl, keys_merge .., keys_merge .., ?_, ?_, ?_, haccepted.2.2.2.2.2.1, haccepted.2.2.2.2.2.2⟩
  · intro item hitem
    rcases mem_merge hitem with hnew | hold
    · exact h.well_keyed.persistent item hnew
    · exact s.observations_valid.1 item hold
  · intro item hitem
    rcases mem_merge hitem with hnew | hold
    · exact h.well_keyed.scratch item hnew
    · exact s.observations_valid.2 item hold
  · intro item _ hrequired
    rw [relation_not_required hstarted] at hrequired
    cases hrequired

/-- A result whose occupancy follows from it can be put into a snapshot with no effect under construction. -/
theorem apply_result_total {s : RecoverySnapshot} {result : JointObservation} (h : Listed s result)
    (hstarted : JournalState.STARTED ∉ s.states) (message : String)
    (hoccupancy : recompute_occupancy s result.parent_occupancy
        (merge PersistentObservation.path result.persistent s.persistent_observations)
        (merge ScratchObservation.key result.scratch s.scratch_observations) (fun item => pure item.has_unmodeled_child) =
      .ok result.parent_occupancy) : ∃ s', apply_result s result message = .ok s' := by
  obtain ⟨s', hs'⟩ := rebuild_total (merged_rebuildable h hstarted)
  refine ⟨s', ?_⟩
  unfold apply_result
  rw [merge_joint_observation_total h, ok_bind]
  simp only [hoccupancy, ok_bind, require_protocol, require_of trivial]
  exact hs'

end reducer

end atoms.recovery

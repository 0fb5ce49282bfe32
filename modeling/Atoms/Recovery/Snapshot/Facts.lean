import Atoms.Core.Compiler.Facts
import Atoms.Recovery.Journal

open atoms.errors atoms.fingerprint atoms.effects atoms.compiler checked keyed

namespace atoms.recovery

variable [UnicodeData]

namespace RecoverySnapshot

variable (s : RecoverySnapshot)

/-- The checks that an accepted snapshot has passed. -/
theorem accepted : snapshot.validate_journal_coverage s.compiled s.journals = .ok () ∧
    snapshot.validate_persistent_coverage s.compiled s.persistent_observations = .ok () ∧
    snapshot.validate_scratch_coverage s.compiled s.scratch_observations = .ok () ∧
    topology.validate_topology s.compiled s.topology = .ok () ∧
    snapshot.validate_observations s.toSnapshotFields = .ok () ∧
    snapshot.validate_halt_diagnostic s.halt_diagnostic = .ok () ∧
    snapshot.validate_terminal_payloads s.toSnapshotFields = .ok () := by
  have h := s.issued
  unfold snapshot.validate at h
  simp only [bind_eq_ok_iff] at h
  obtain ⟨_, h1, _, h2, _, h3, _, h4, _, h5, _, h6, h7⟩ := h
  exact ⟨h1, h2, h3, h4, h5, h6, h7⟩

theorem journal_ids : s.journals.map EffectJournalState.effect_id = s.effects.map Effect.effect_id := by
  simpa [snapshot.validate_journal_coverage] using s.accepted.1

theorem journals_length : s.journals.length = s.effects.length := by
  simpa using congrArg List.length s.journal_ids

theorem states_length : s.states.length = s.effects.length := by
  rw [states, List.length_map, journals_length]

theorem journal_ids_nodup : (s.journals.map EffectJournalState.effect_id).Nodup := by
  rw [journal_ids]
  exact s.compiled.effect_ids_nodup

theorem persistent_coverage : set_eq (s.persistent_observations.map PersistentObservation.path) s.compiled.paths ∧
    (s.persistent_observations.map PersistentObservation.path).Nodup := by
  have h := s.accepted.2.1
  simp only [snapshot.validate_persistent_coverage, require_eq_ok_iff] at h
  refine ⟨h.2, nodup_of_set_eq ?_ h.2 s.compiled.paths_nodup⟩
  rw [List.length_map]
  exact h.1

theorem scratch_keys_nodup : (s.effects.map scratch_key).Nodup := by
  have h := s.compiled.effect_ids_nodup
  rw [show s.effects.map Effect.effect_id = (s.effects.map scratch_key).map Prod.fst by
    simp [List.map_map, Function.comp_def, scratch_key]] at h
  exact h.of_map _

theorem scratch_coverage : set_eq (s.scratch_observations.map ScratchObservation.key) (s.effects.map scratch_key) ∧
    (s.scratch_observations.map ScratchObservation.key).Nodup := by
  have h := s.accepted.2.2.1
  simp only [snapshot.validate_scratch_coverage, require_eq_ok_iff] at h
  refine ⟨h.2, nodup_of_set_eq ?_ h.2 s.scratch_keys_nodup⟩
  rw [List.length_map]
  exact h.1

/-- What the snapshot observes at a planned path. -/
def entry_at (path : RelPath) : ObservedEntry :=
  ((find_key PersistentObservation.path s.persistent_observations path).map PersistentObservation.entry).getD
    OBSERVED_ABSENT

/-- What the snapshot observes at an effect's scratch name. -/
def scratch_at (effect : Effect) : ScratchObservation :=
  (find_key ScratchObservation.key s.scratch_observations (scratch_key effect)).getD
    { effect_id := effect.effect_id, role := required_scratch_role effect, entry := OBSERVED_ABSENT,
      file_build_relation := none }

theorem mem_paths_of_effect {effect : Effect} (heffect : effect ∈ s.effects) {path : RelPath}
    (hpath : path ∈ (occurrences effect).map Occurrence.path) : path ∈ s.compiled.paths := by
  obtain ⟨occurrence, hmem, rfl⟩ := List.mem_map.mp hpath
  exact s.compiled.mem_paths_iff.mpr ⟨effect, heffect, occurrence, hmem, rfl⟩

theorem find_persistent {path : RelPath} (hpath : path ∈ s.compiled.paths) :
    find_key PersistentObservation.path s.persistent_observations path = some ⟨path, s.entry_at path⟩ := by
  obtain ⟨item, hitem, hkey⟩ := List.mem_map.mp (s.persistent_coverage.1.2 path hpath)
  have hfind := find_key_of_mem s.persistent_coverage.2 hitem
  rw [hkey] at hfind
  have hentry : s.entry_at path = item.entry := by simp [entry_at, hfind]
  rw [hfind, hentry, ← hkey]

theorem find_scratch {effect : Effect} (heffect : effect ∈ s.effects) :
    find_key ScratchObservation.key s.scratch_observations (scratch_key effect) = some (s.scratch_at effect) := by
  obtain ⟨item, hitem, hkey⟩ := List.mem_map.mp
    (s.scratch_coverage.1.2 (scratch_key effect) (List.mem_map_of_mem heffect))
  have hfind := find_key_of_mem s.scratch_coverage.2 hitem
  rw [hkey] at hfind
  simp [scratch_at, hfind]

theorem scratch_at_key {effect : Effect} (heffect : effect ∈ s.effects) :
    (s.scratch_at effect).key = scratch_key effect :=
  (find_key_some (s.find_scratch heffect)).2

theorem scratch_at_mem {effect : Effect} (heffect : effect ∈ s.effects) :
    s.scratch_at effect ∈ s.scratch_observations :=
  (find_key_some (s.find_scratch heffect)).1

/-- An observation of a snapshot is the one its own name is looked up to. -/
theorem entry_at_of_mem {item : PersistentObservation} (hmem : item ∈ s.persistent_observations) :
    s.entry_at item.path = item.entry := by
  simp [entry_at, find_key_of_mem s.persistent_coverage.2 hmem]

theorem exists_effect_of_scratch {item : ScratchObservation} (hmem : item ∈ s.scratch_observations) :
    ∃ effect ∈ s.effects, s.scratch_at effect = item := by
  obtain ⟨effect, heffect, hkey⟩ := List.mem_map.mp
    (s.scratch_coverage.1.1 item.key (List.mem_map_of_mem hmem))
  refine ⟨effect, heffect, ?_⟩
  have hfind := find_key_of_mem s.scratch_coverage.2 hmem
  rw [← hkey, s.find_scratch heffect] at hfind
  exact Option.some.inj hfind

theorem journals_getElem_effect_id {i : Nat} {effect : Effect} (heffect : s.effects[i]? = some effect) :
    (s.journals[i]?).map EffectJournalState.effect_id = some effect.effect_id := by
  have h := congrArg (fun ids : List String => ids[i]?) s.journal_ids
  simpa [List.getElem?_map, heffect] using h

/-- The journal row of the effect at an index holds the state at that index. -/
theorem journals_getElem {i : Nat} {effect : Effect} (heffect : s.effects[i]? = some effect) {state : JournalState}
    (hstate : s.states[i]? = some state) : s.journals[i]? = some ⟨effect.effect_id, state⟩ := by
  have hid := s.journals_getElem_effect_id heffect
  rw [states, List.getElem?_map] at hstate
  cases hrow : s.journals[i]? with
  | none => simp [hrow] at hid
  | some row =>
    cases row
    simp_all

theorem exists_state {i : Nat} {effect : Effect} (heffect : s.effects[i]? = some effect) :
    ∃ state, s.states[i]? = some state := by
  have hlt : i < s.effects.length := (List.getElem?_eq_some_iff.mp heffect).1
  rw [← s.states_length] at hlt
  exact ⟨_, List.getElem?_eq_getElem hlt⟩

theorem effect_of_eq {effect : Effect} (heffect : effect ∈ s.effects) :
    snapshot.effect_of s.compiled effect.effect_id = some effect :=
  find_key_of_mem s.compiled.effect_ids_nodup heffect

theorem journal_of_eq {i : Nat} {effect : Effect} (heffect : s.effects[i]? = some effect) {state : JournalState}
    (hstate : s.states[i]? = some state) : snapshot.journal_of s.journals effect.effect_id = some state := by
  have hfind := find_key_of_mem s.journal_ids_nodup (List.mem_of_getElem? (s.journals_getElem heffect hstate))
  simp only at hfind
  simp [snapshot.journal_of, hfind]

/-- Different positions hold effects of different ids. -/
theorem effect_id_ne {i j : Nat} {left right : Effect} (hleft : s.effects[i]? = some left)
    (hright : s.effects[j]? = some right) (hne : i ≠ j) : left.effect_id ≠ right.effect_id := by
  intro hid
  have hi : (s.effects.map Effect.effect_id)[i]? = some left.effect_id := by simp [hleft]
  have hj : (s.effects.map Effect.effect_id)[j]? = some right.effect_id := by simp [hright]
  have hlt := (List.getElem?_eq_some_iff.mp hi).1
  exact hne ((List.getElem?_inj hlt s.compiled.effect_ids_nodup).mp (hi.trans (hid ▸ hj.symm)))

/-- An accepted snapshot carries a build relation exactly for staging files under construction. -/
theorem build_relation_isSome {i : Nat} {effect : Effect} (heffect : s.effects[i]? = some effect)
    {state : JournalState} (hstate : s.states[i]? = some state) :
    (s.scratch_at effect).file_build_relation.isSome =
      snapshot.construction_relation_required effect state s.persistent_observations (s.scratch_at effect) := by
  have hmem : effect ∈ s.effects := List.mem_of_getElem? heffect
  have h := s.accepted.2.2.2.2.1
  simp only [snapshot.validate_observations, bind_eq_ok_iff, forM_eq_ok_iff, require_eq_ok_iff] at h
  obtain ⟨_, _, _, _, hrelation⟩ := h
  have hitem := hrelation (s.scratch_at effect) (s.scratch_at_mem hmem)
  have hkey := s.scratch_at_key hmem
  have hid : (s.scratch_at effect).effect_id = effect.effect_id := congrArg Prod.fst hkey
  rw [← hitem, snapshot.relation_required, hid, s.effect_of_eq hmem, s.journal_of_eq heffect hstate]

/-- Only the effect under construction has a build relation. -/
theorem build_relation_none {i : Nat} {effect : Effect} (heffect : s.effects[i]? = some effect)
    {state : JournalState} (hstate : s.states[i]? = some state) (hstarted : state ≠ .STARTED) :
    (s.scratch_at effect).file_build_relation = none := by
  have h := s.build_relation_isSome heffect hstate
  simpa [snapshot.construction_relation_required, hstarted] using h

end RecoverySnapshot

end atoms.recovery

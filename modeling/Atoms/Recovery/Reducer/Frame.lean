import Atoms.Recovery.Reducer
import Atoms.Recovery.Snapshot.Facts

open atoms.errors atoms.fingerprint atoms.effects atoms.compiler checked keyed

namespace atoms.recovery

variable [UnicodeData]

/-- What no recovery step changes: the plan's subject and the names it observes. -/
structure Frame (s s' : RecoverySnapshot) : Prop where
  compiled : s'.compiled = s.compiled
  topology : s'.topology = s.topology
  commit_decision : s'.commit_decision = s.commit_decision
  paths : s'.persistent_observations.map PersistentObservation.path =
    s.persistent_observations.map PersistentObservation.path
  keys : s'.scratch_observations.map ScratchObservation.key = s.scratch_observations.map ScratchObservation.key

/-- The two snapshots agree on the transaction row, journals apart. -/
structure SameRecord (s s' : RecoverySnapshot) : Prop where
  transaction_state : s'.transaction_state = s.transaction_state
  rollback_result : s'.rollback_result = s.rollback_result
  halt_diagnostic : s'.halt_diagnostic = s.halt_diagnostic
  active : s'.active = s.active

namespace Frame

variable {s s' s'' : RecoverySnapshot}

theorem refl (s : RecoverySnapshot) : Frame s s := ⟨rfl, rfl, rfl, rfl, rfl⟩

theorem trans (h : Frame s s') (h' : Frame s' s'') : Frame s s'' :=
  ⟨h'.compiled.trans h.compiled, h'.topology.trans h.topology, h'.commit_decision.trans h.commit_decision,
    h'.paths.trans h.paths, h'.keys.trans h.keys⟩

theorem symm (h : Frame s s') : Frame s' s :=
  ⟨h.compiled.symm, h.topology.symm, h.commit_decision.symm, h.paths.symm, h.keys.symm⟩

theorem effects (h : Frame s s') : s'.effects = s.effects := by
  rw [RecoverySnapshot.effects, h.compiled]

theorem compiled_paths (h : Frame s s') : s'.compiled.paths = s.compiled.paths := by rw [h.compiled]

end Frame

namespace SameRecord

variable {s s' s'' : RecoverySnapshot}

theorem refl (s : RecoverySnapshot) : SameRecord s s := ⟨rfl, rfl, rfl, rfl⟩

theorem trans (h : SameRecord s s') (h' : SameRecord s' s'') : SameRecord s s'' :=
  ⟨h'.transaction_state.trans h.transaction_state, h'.rollback_result.trans h.rollback_result,
    h'.halt_diagnostic.trans h.halt_diagnostic, h'.active.trans h.active⟩

theorem symm (h : SameRecord s s') : SameRecord s' s :=
  ⟨h.transaction_state.symm, h.rollback_result.symm, h.halt_diagnostic.symm, h.active.symm⟩

end SameRecord

namespace RecoverySnapshot

theorem fields_injective {s s' : RecoverySnapshot} (h : s.toSnapshotFields = s'.toSnapshotFields) : s = s' := by
  cases s
  cases s'
  simp_all

theorem persistent_eq_map (s : RecoverySnapshot) :
    s.persistent_observations = (s.persistent_observations.map PersistentObservation.path).map
      fun path => ⟨path, s.entry_at path⟩ := by
  rw [List.map_map]
  conv_lhs => rw [← List.map_id s.persistent_observations]
  apply List.map_congr_left
  intro item hitem
  simp [s.entry_at_of_mem hitem]

/-- A name that no effect plans is observed absent. -/
theorem entry_at_of_not_mem {s : RecoverySnapshot} {path : RelPath} (hpath : path ∉ s.compiled.paths) :
    s.entry_at path = .ObservedAbsent := by
  have hnone : find_key PersistentObservation.path s.persistent_observations path = none := by
    rw [find_key_eq_none_iff]
    rintro item hitem rfl
    exact hpath (s.persistent_coverage.1.1 _ (List.mem_map_of_mem hitem))
  simp [entry_at, hnone, OBSERVED_ABSENT]

/-- Two snapshots with one frame, one record and one view are one snapshot, where no
effect is under construction. -/
theorem ext_of_views {s s' : RecoverySnapshot} (hframe : Frame s s') (hrecord : SameRecord s s')
    (hjournals : s'.journals = s.journals) (hstarted : JournalState.STARTED ∉ s.states)
    (hentries : ∀ path, s'.entry_at path = s.entry_at path)
    (hscratch : ∀ effect ∈ s.effects, (s'.scratch_at effect).entry = (s.scratch_at effect).entry) : s' = s := by
  have hpersistent : s'.persistent_observations = s.persistent_observations := by
    rw [s'.persistent_eq_map, s.persistent_eq_map, hframe.paths]
    simp [hentries]
  have hrelation : ∀ (t : RecoverySnapshot) (effect : Effect), JournalState.STARTED ∉ t.states → effect ∈ t.effects →
      (t.scratch_at effect).file_build_relation = none := by
    intro t effect ht hmem
    obtain ⟨i, hi⟩ := List.getElem?_of_mem hmem
    obtain ⟨state, hstate⟩ := t.exists_state hi
    refine t.build_relation_none hi hstate ?_
    rintro rfl
    exact ht (List.mem_of_getElem? hstate)
  have hstarted' : JournalState.STARTED ∉ s'.states := by rwa [states, hjournals]
  have hitem : ∀ effect ∈ s.effects, s'.scratch_at effect = s.scratch_at effect := by
    intro effect hmem
    have hmem' : effect ∈ s'.effects := by rwa [hframe.effects]
    have hkey : (s'.scratch_at effect).key = (s.scratch_at effect).key :=
      (s'.scratch_at_key hmem').trans (s.scratch_at_key hmem).symm
    have hentry := hscratch effect hmem
    have hrel := (hrelation s' effect hstarted' hmem').trans (hrelation s effect hstarted hmem).symm
    simp only [ScratchObservation.key, Prod.mk.injEq] at hkey
    cases hx : s'.scratch_at effect
    cases hy : s.scratch_at effect
    simp_all
  have hscratch_list : s'.scratch_observations = s.scratch_observations := by
    have hlength : s'.scratch_observations.length = s.scratch_observations.length := by
      simpa using congrArg List.length hframe.keys
    apply List.ext_getElem hlength
    intro i hi hi'
    have hmem' : s'.scratch_observations[i] ∈ s'.scratch_observations := List.getElem_mem hi
    obtain ⟨effect, heffect, hat⟩ := s.exists_effect_of_scratch (List.getElem_mem hi')
    have hkeys : s'.scratch_observations[i].key = s.scratch_observations[i].key := by
      have h := congrArg (fun keys : List (String × ScratchRole) => keys[i]?) hframe.keys
      simpa [hi, hi'] using h
    have hfind := find_key_of_mem s'.scratch_coverage.2 hmem'
    rw [hkeys, ← hat, s.scratch_at_key heffect, s'.find_scratch (hframe.effects ▸ heffect)] at hfind
    rw [← Option.some.inj hfind, hitem effect heffect, hat]
  apply fields_injective
  cases hs : s.toSnapshotFields
  cases hs' : s'.toSnapshotFields
  have h1 := hframe.compiled
  have h2 := hframe.topology
  have h3 := hframe.commit_decision
  obtain ⟨h4, h5, h6, h7⟩ := hrecord
  simp only [hs, hs'] at h1 h2 h3 h4 h5 h6 h7 hjournals hpersistent hscratch_list
  subst_vars
  rfl

end RecoverySnapshot

end atoms.recovery

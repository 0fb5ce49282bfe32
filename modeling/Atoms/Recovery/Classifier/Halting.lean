import Atoms.Recovery.Classifier.Rollback

open atoms.errors atoms.fingerprint atoms.effects atoms.timeline atoms.compiler checked keyed

namespace atoms.recovery

/-- An observation whose slots a diagnostic can name apart: each path once, and at most one scratch name. -/
structure Reportable (observation : JointObservation) : Prop where
  paths : (observation.persistent.map PersistentObservation.path).Nodup
  scratch : observation.scratch.length ≤ 1

namespace diagnostics

theorem persistent_slot_injective : Function.Injective persistent_slot := by
  intro left right h
  unfold persistent_slot at h
  have h := congrArg String.toList h
  rw [String.toList_append, String.toList_append, List.append_cancel_left_eq] at h
  exact String.toList_inj.mp h

theorem persistent_slot_ne_scratch_slot (path : RelPath) (effect_id : String) (role : ScratchRole) :
    persistent_slot path ≠ scratch_slot effect_id role := by
  intro h
  have h := congrArg (fun text => text.toList.head?) h
  simp [persistent_slot, scratch_slot] at h

/-- The slots that `_named_entries` finds, before it sorts them. -/
def slots (observation : JointObservation) : List String :=
  observation.persistent.map (fun item => persistent_slot item.path) ++
    observation.scratch.map fun item => scratch_slot item.effect_id item.role

theorem slots_nodup {observation : JointObservation} (h : Reportable observation) : (slots observation).Nodup := by
  unfold slots
  rw [List.nodup_append]
  refine ⟨?_, ?_, ?_⟩
  · have hmap := h.paths.map persistent_slot_injective
    rwa [List.map_map] at hmap
  · apply List.Nodup.of_map fun text => text
    have hlength := h.scratch
    rcases hscratch : observation.scratch with _ | ⟨item, _ | ⟨other, rest⟩⟩
    · simp
    · simp
    · simp [hscratch] at hlength
  · intro left hleft right hright
    obtain ⟨item, _, rfl⟩ := List.mem_map.mp hleft
    obtain ⟨other, _, rfl⟩ := List.mem_map.mp hright
    exact persistent_slot_ne_scratch_slot _ _ _

theorem named_entries_total {observation : Option JointObservation} (h : ∀ item ∈ observation, Reportable item) :
    ∃ entries, named_entries observation = .ok entries := by
  cases observation with
  | none => exact ⟨[], rfl⟩
  | some item =>
    have hslots : ((spec.sorted_by NamedEntry.slot
        (item.persistent.map (fun item => (⟨persistent_slot item.path, item.entry, none⟩ : NamedEntry)) ++
          item.scratch.map fun item =>
            ⟨scratch_slot item.effect_id item.role, item.entry, item.file_build_relation⟩)).map NamedEntry.slot).Nodup := by
      rw [((spec.sorted_by_perm _ _).map NamedEntry.slot).nodup_iff]
      have hnodup := slots_nodup (h item rfl)
      simpa [slots, Function.comp_def] using hnodup
    unfold named_entries
    simp only [require_protocol]
    rw [require_of hslots, ok_bind]
    exact ⟨_, rfl⟩

variable [UnicodeData]

theorem diagnostic_total (source : RecoverySnapshot) (reason : HaltReason) (projected : Option RecoverySnapshot)
    (effect_id : Option String) {expected observed : Option JointObservation} (hexpected : ∀ item ∈ expected, Reportable item)
    (hobserved : ∀ item ∈ observed, Reportable item) :
    ∃ d, diagnostic source reason projected effect_id expected observed = .ok d ∧
      d.pre_halt_state = source.transaction_state := by
  obtain ⟨expected_entries, he⟩ := named_entries_total hexpected
  obtain ⟨observed_entries, ho⟩ := named_entries_total hobserved
  unfold diagnostic project_entries project_identity_relations
  rw [he, ho]
  exact ⟨_, rfl, rfl⟩

end diagnostics

namespace classifier

variable [UnicodeData]

/-- A record that has not halted can be halted with any evidence that can be named. -/
theorem halt_plan_total {source : RecoverySnapshot} (hlive : source.transaction_state ≠ .HALTED) (reason : HaltReason)
    (effect_id : Option String) (projected : Option RecoverySnapshot) {expected observed : Option JointObservation}
    (hexpected : ∀ item ∈ expected, Reportable item) (hobserved : ∀ item ∈ observed, Reportable item) :
    ∃ plan, halt_plan source reason effect_id expected observed projected = .ok plan := by
  obtain ⟨d, hd, _⟩ := diagnostics.diagnostic_total source reason projected effect_id hexpected hobserved
  unfold halt_plan new_halt_plan
  rw [if_neg hlive, hd, ok_bind, require_protocol, require_of (by rw [if_neg hlive]), ok_bind]
  exact ⟨_, rfl⟩

/-- What a halted effect shows can be named. -/
theorem reportable_joint_view {s : RecoverySnapshot} {effect : Effect} (heffect : effect ∈ s.effects) :
    Reportable (s.joint_view effect) := by
  have hcovers := s.joint_view_covers heffect
  refine ⟨?_, Nat.le_refl 1⟩
  rw [hcovers.paths, variants.effect_paths_eq]
  exact s.compiled.occurrence_paths_nodup heffect

end classifier

end atoms.recovery

import Atoms.Recovery.Classifier
import Atoms.Recovery.Reducer.Transfers
import Atoms.Recovery.Variants.View

open atoms.errors atoms.fingerprint atoms.effects atoms.timeline atoms.compiler checked keyed

namespace atoms.recovery

variable [UnicodeData]

/-- Recovery may touch every entry that the snapshot observes. -/
def Authorizable (s : RecoverySnapshot) : Prop :=
  ∀ entry, Observes s entry → classifier.non_authorizable_entry entry = false

theorem Authorizable.of_steps {s s' : RecoverySnapshot} (h : Authorizable s) {steps : List RecoveryStep}
    (hsteps : reducer.apply_steps s steps = .ok s') : Authorizable s' := by
  intro entry hentry
  rcases reducer.apply_steps_observes hsteps hentry with rfl | hbefore
  · rfl
  · exact h entry hbefore

/-- What recovery may touch has one of the four states. -/
theorem Authorizable.stated {s : RecoverySnapshot} (h : Authorizable s) {entry : ObservedEntry} (hentry : Observes s entry) :
    entry.state?.isSome = true := by
  have hfree := h entry hentry
  cases entry <;> simp_all [classifier.non_authorizable_entry, ObservedEntry.state?]

theorem Authorizable.view_stated {s : RecoverySnapshot} (h : Authorizable s) {effect : Effect} (heffect : effect ∈ s.effects) :
    variants.Stated (s.view effect) := by
  constructor
  · intro entry hentry
    simp only [RecoverySnapshot.view, List.mem_map] at hentry
    obtain ⟨path, _, rfl⟩ := hentry
    exact h.stated (.inl ⟨path, rfl⟩)
  · exact h.stated (.inr ⟨effect, heffect, rfl⟩)

namespace classifier

theorem first_non_authorizable_eq_none_iff {s : RecoverySnapshot} {effects : List Effect}
    (heffects : ∀ effect ∈ effects, effect ∈ s.effects) : first_non_authorizable s effects = .ok none ↔
      ∀ effect ∈ effects, non_authorizable (s.joint_view effect) = false := by
  induction effects with
  | nil => simp [first_non_authorizable]
  | cons effect rest ih =>
    have hrest := ih fun other hother => heffects other (List.mem_cons_of_mem _ hother)
    rw [first_non_authorizable, variants.joint_eq (heffects effect List.mem_cons_self), ok_bind, List.forall_mem_cons,
      ← hrest]
    split
    · rename_i hrefused
      simp [hrefused]
    · rename_i hfree
      simp [hfree]

/-- The search for an effect that recovery may not touch never raises. -/
theorem first_non_authorizable_total {s : RecoverySnapshot} {effects : List Effect}
    (heffects : ∀ effect ∈ effects, effect ∈ s.effects) : ∃ refused, first_non_authorizable s effects = .ok refused := by
  induction effects with
  | nil => exact ⟨_, rfl⟩
  | cons effect rest ih =>
    rw [first_non_authorizable, variants.joint_eq (heffects effect List.mem_cons_self), ok_bind]
    split
    · exact ⟨_, rfl⟩
    · exact ih fun other hother => heffects other (List.mem_cons_of_mem _ hother)

theorem first_non_authorizable_eq_some {s : RecoverySnapshot} {effects : List Effect}
    (heffects : ∀ effect ∈ effects, effect ∈ s.effects) {item : Effect × JointObservation}
    (h : first_non_authorizable s effects = .ok (some item)) : item.1 ∈ s.effects ∧ item.2 = s.joint_view item.1 := by
  induction effects with
  | nil => simp [first_non_authorizable] at h
  | cons effect rest ih =>
    have hmem := heffects effect List.mem_cons_self
    rw [first_non_authorizable, variants.joint_eq hmem, ok_bind] at h
    split at h
    · obtain rfl := Option.some.inj (pure_eq_ok_iff.mp h)
      exact ⟨hmem, rfl⟩
    · exact ih (fun other hother => heffects other (List.mem_cons_of_mem _ hother)) h

theorem authorizable_iff {s : RecoverySnapshot} : first_non_authorizable s s.effects = .ok none ↔ Authorizable s := by
  rw [first_non_authorizable_eq_none_iff fun _ h => h]
  constructor
  · intro h entry hobserves
    have hview : ∀ effect ∈ s.effects, ∀ entry ∈ (s.joint_view effect).entries, non_authorizable_entry entry = false := by
      intro effect heffect entry hentry
      have hnone := h effect heffect
      rw [non_authorizable, List.any_eq_false] at hnone
      simpa using hnone entry hentry
    rcases hobserves with ⟨path, rfl⟩ | ⟨effect, heffect, rfl⟩
    · by_cases hpath : path ∈ s.compiled.paths
      · obtain ⟨effect, heffect, occurrence, hocc, rfl⟩ := s.compiled.mem_paths_iff.mp hpath
        refine hview effect heffect _ (List.mem_append_left _ ?_)
        simp only [RecoverySnapshot.joint_view, List.map_map, List.mem_map]
        exact ⟨occurrence.path, by rw [variants.effect_paths_eq]; exact List.mem_map_of_mem hocc, rfl⟩
      · rw [RecoverySnapshot.entry_at_of_not_mem hpath]
        rfl
    · exact hview effect heffect _ (List.mem_append_right _ (by simp [RecoverySnapshot.joint_view]))
  · intro h effect heffect
    rw [non_authorizable, List.any_eq_false]
    intro entry hentry
    rw [Bool.not_eq_true]
    apply h
    rcases List.mem_append.mp hentry with hmem | hmem
    · simp only [RecoverySnapshot.joint_view, List.map_map, List.mem_map] at hmem
      obtain ⟨path, _, rfl⟩ := hmem
      exact .inl ⟨path, rfl⟩
    · simp only [RecoverySnapshot.joint_view, List.map_cons, List.map_nil, List.mem_singleton] at hmem
      exact .inr ⟨effect, heffect, hmem.symm⟩

end classifier

end atoms.recovery

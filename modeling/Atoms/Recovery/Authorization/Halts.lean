import Atoms.Recovery.Authorization
import Atoms.Recovery.Classifier.Halted

open atoms.errors checked keyed

namespace atoms.recovery.authorization

variable [UnicodeData] {before : RecoverySnapshot} {expected observed : JointObservation} {reason : HaltReason}

/-- What a halt that replaces a plan keeps of the prefix it was made from. -/
structure Replaces (before : RecoverySnapshot) (halt : HaltPlan) : Prop where
  frame : Frame before halt.bound_snapshot
  record : SameRecord before halt.bound_snapshot
  journals : halt.bound_snapshot.journals = before.journals
  halts : classifier.Halts halt.bound_snapshot halt

/-- A halt for an observation keeps the record of the prefix, and its diagnostic can be shown. -/
theorem halt_for_observation_replaces {plan : RecoveryPlan}
    (h : halt_for_observation before expected observed reason = .ok plan)
    (hcoverage : reducer.validate_joint_coverage expected observed = .ok ())
    (hlive : before.transaction_state ≠ .HALTED) : ∃ halt, plan = .HaltPlan halt ∧ Replaces before halt := by
  unfold halt_for_observation at h
  obtain ⟨normalized, hnormalized, h⟩ := bind_eq_ok_iff.mp h
  obtain ⟨⟨persistent, scratch⟩, hmerged, h⟩ := bind_eq_ok_iff.mp h
  obtain ⟨conflicting, hconflicting, h⟩ := bind_eq_ok_iff.mp h
  obtain ⟨diagnostic, hdiagnostic, hnew⟩ := bind_eq_ok_iff.mp h
  rw [build_recovery_snapshot_eq_ok_iff] at hconflicting
  unfold reducer.normalize_joint_observation at hnormalized
  obtain ⟨_, hobserved, hnormalized⟩ := bind_eq_ok_iff.mp hnormalized
  obtain ⟨_, _, hnormalized⟩ := bind_eq_ok_iff.mp hnormalized
  obtain ⟨hmerge, _, _⟩ := reducer.merge_joint_observation_eq_ok hmerged
  obtain ⟨_, hplanned, _⟩ := reducer.merge_joint_observation_eq_ok hobserved
  obtain ⟨rfl, rfl⟩ := Prod.mk.inj hmerge
  obtain ⟨hexpected_keyed, hobserved_keyed, hpaths, _, _⟩ := reducer.validate_joint_coverage_eq_ok_iff.mp hcoverage
  have hframe : Frame before conflicting := by
    constructor <;> rw [hconflicting]
    · exact keys_merge _ _ _
    · exact keys_merge _ _ _
  have hrecord : SameRecord before conflicting := by
    constructor <;> rw [hconflicting]
  have hlisted : ∀ path ∈ observed.persistent.map PersistentObservation.path, path ∈ conflicting.compiled.paths := by
    intro path hpath
    rw [hframe.compiled]
    exact before.persistent_coverage.1.1 path (hplanned path hpath)
  have hpresentable : Presentable conflicting observed := by
    constructor
    · intro entry hentry
      obtain hentry | hentry := List.mem_append.mp hentry
      · obtain ⟨item, hitem, rfl⟩ := List.mem_map.mp hentry
        exact hobserved_keyed.persistent item hitem
      · obtain ⟨item, hitem, rfl⟩ := List.mem_map.mp hentry
        exact hobserved_keyed.scratch item hitem
    · intro item hitem
      exact hlisted _ (List.mem_map_of_mem hitem)
  have hexpected : Presentable conflicting expected := by
    constructor
    · intro entry hentry
      obtain hentry | hentry := List.mem_append.mp hentry
      · obtain ⟨item, hitem, rfl⟩ := List.mem_map.mp hentry
        exact hexpected_keyed.persistent item hitem
      · obtain ⟨item, hitem, rfl⟩ := List.mem_map.mp hentry
        exact hexpected_keyed.scratch item hitem
    · intro item hitem
      exact hlisted _ (hpaths.1 _ (List.mem_map_of_mem hitem))
  cases plan with
  | HaltPlan halt =>
    obtain ⟨rfl, rfl, hsteps, _⟩ := classifier.new_halt_plan_eq_ok hnew
    have hlive' : halt.bound_snapshot.transaction_state ≠ .HALTED := by
      rw [hrecord.transaction_state]
      exact hlive
    refine ⟨halt, rfl, hframe, hrecord, by rw [hconflicting], rfl, fun hhalted => absurd hhalted hlive', fun _ => ⟨?_, hsteps⟩⟩
    refine ⟨reason, none, none, some expected, some observed, hdiagnostic, by simp, ?_, ?_⟩
    · rintro item ⟨⟩
      exact hexpected
    · rintro item ⟨⟩
      exact hpresentable
  | _ =>
    unfold new_halt_plan at hnew
    obtain ⟨_, _, hnew⟩ := bind_eq_ok_iff.mp hnew
    cases hnew

/-- A halt in place of a step replaces the plan's prefix. -/
theorem authorize_replaces {plan halted : RecoveryPlan} {k : Nat}
    (h : authorize_recovery_step plan k observed = .ok (.HaltPlan halted))
    (hbefore : reducer.reduce_recovery_plan_prefix plan.bound_snapshot plan k = .ok before)
    (hlive : before.transaction_state ≠ .HALTED) : ∃ halt, halted = .HaltPlan halt ∧ Replaces before halt := by
  unfold authorize_recovery_step at h
  split at h
  · simp at h
  · split at h
    · simp at h
    · rename_i step _
      rw [hbefore, ok_bind] at h
      obtain ⟨_, hcoverage, h⟩ := bind_eq_ok_iff.mp h
      have hreplaced : ∀ {value : Except AtomsError RecoveryPlan}, value = halt_for_observation before
          step.expected_before observed .PLAN_PRECONDITION_CHANGED →
          (do let halt ← value
              pure (Authorization.HaltPlan halt)) = (.ok (.HaltPlan halted) : Except AtomsError Authorization) →
          ∃ halt, halted = .HaltPlan halt ∧ Replaces before halt := by
        rintro _ rfl hvalue
        obtain ⟨plan, hplan, hvalue⟩ := bind_eq_ok_iff.mp hvalue
        rw [pure_eq_ok_iff, Authorization.HaltPlan.injEq] at hvalue
        subst hvalue
        exact halt_for_observation_replaces hplan hcoverage hlive
      split at h
      · exact hreplaced rfl h
      · obtain ⟨_, _, h⟩ := bind_eq_ok_iff.mp h
        obtain ⟨_, _, h⟩ := bind_eq_ok_iff.mp h
        split at h
        · simp at h
        · exact hreplaced rfl h

/-- What is authorized is the step of the plan. -/
theorem authorize_authorized {plan : RecoveryPlan} {k : Nat} {authorized : AuthorizedStep}
    (h : authorize_recovery_step plan k observed = .ok (.AuthorizedStep authorized)) :
    authorized.plan = plan ∧ authorized.step_index = k := by
  unfold authorize_recovery_step at h
  split at h
  · simp at h
  · split at h
    · simp at h
    · obtain ⟨_, _, h⟩ := bind_eq_ok_iff.mp h
      obtain ⟨_, _, h⟩ := bind_eq_ok_iff.mp h
      split at h
      · simp at h
      · obtain ⟨_, _, h⟩ := bind_eq_ok_iff.mp h
        obtain ⟨_, _, h⟩ := bind_eq_ok_iff.mp h
        split at h
        · rw [pure_eq_ok_iff, Authorization.AuthorizedStep.injEq] at h
          subst h
          exact ⟨rfl, rfl⟩
        · simp at h

/-- The halt of a denied mutation replaces the plan's prefix. -/
theorem mutation_denied_replaces {authorized : AuthorizedStep} {halted : RecoveryPlan}
    (h : mutation_denied authorized observed = .ok halted)
    (hbefore : reducer.reduce_recovery_plan_prefix authorized.plan.bound_snapshot authorized.plan authorized.step_index =
      .ok before)
    (hlive : before.transaction_state ≠ .HALTED) : ∃ halt, halted = .HaltPlan halt ∧ Replaces before halt := by
  unfold mutation_denied at h
  obtain ⟨_, hcoverage, h⟩ := bind_eq_ok_iff.mp h
  obtain ⟨_, _, h⟩ := bind_eq_ok_iff.mp h
  obtain ⟨_, _, h⟩ := bind_eq_ok_iff.mp h
  obtain ⟨_, _, h⟩ := bind_eq_ok_iff.mp h
  rw [hbefore, ok_bind] at h
  exact halt_for_observation_replaces h hcoverage hlive

end atoms.recovery.authorization

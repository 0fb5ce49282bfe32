import Atoms.Recovery.Classifier.Cleanup
import Atoms.Recovery.Classifier.Restored
import Atoms.Recovery.Reducer.Transfers
import Atoms.Recovery.Variants.Occupancy

open atoms.errors atoms.fingerprint atoms.effects atoms.spec atoms.timeline atoms.compiler checked keyed

namespace atoms.recovery.classifier

section

variable [UnicodeData]

/-- The effect whose names a step changes. -/
def step_owner : RecoveryStep → Option String
  | .TransformEffectTuple step => some step.effect_id
  | .RemoveScratch step => some step.effect_id
  | _ => none

/-- What a step may take from the scratch of its effect: an entry in a declared state, a
partly written staging file, or an empty scaffold directory. -/
def Expendable (source s : RecoverySnapshot) (effect : Effect) : Prop :=
  Declared effect (s.scratch_at effect).entry ∨
    ((s.scratch_at effect).entry = (source.scratch_at effect).entry ∧
      (source.scratch_at effect).file_build_relation = some .STRICT_PREFIX) ∨
    (variants.is_directory_scaffold (s.scratch_at effect).entry = true ∧
      EmptyDirectory s (scratch_node effect) (s.scratch_at effect).entry)

/-- A step from `s` to `s'` takes from its owner's paths only entries in a declared state, from its
owner's scratch only what is expendable or moves to a path of the owner, and from elsewhere nothing. -/
structure Conserves (source s : RecoverySnapshot) (step : RecoveryStep) (s' : RecoverySnapshot) : Prop where
  paths : ∀ path, s'.entry_at path ≠ s.entry_at path → s.entry_at path ≠ .ObservedAbsent →
    ∃ effect ∈ source.effects, step_owner step = some effect.effect_id ∧ path ∈ variants.effect_paths effect ∧
      Declared effect (s.entry_at path)
  scratch : ∀ effect ∈ source.effects, (s'.scratch_at effect).entry ≠ (s.scratch_at effect).entry →
    (s.scratch_at effect).entry ≠ .ObservedAbsent → step_owner step = some effect.effect_id ∧
      (Expendable source s effect ∨
        ∃ path ∈ variants.effect_paths effect, s'.entry_at path = (s.scratch_at effect).entry)

/-- Two snapshots observe the same entry everywhere. -/
structure SameEntries (s s' : RecoverySnapshot) : Prop where
  paths : ∀ path, s'.entry_at path = s.entry_at path
  scratch : ∀ effect ∈ s.effects, (s'.scratch_at effect).entry = (s.scratch_at effect).entry

theorem SameEntries.conserves {source s s' : RecoverySnapshot} (h : SameEntries s s') (hframe : Frame source s)
    (step : RecoveryStep) : Conserves source s step s' :=
  ⟨fun path hne => absurd (h.paths path) hne, fun effect heffect hne =>
    absurd (h.scratch effect (hframe.effects ▸ heffect)) hne⟩

theorem SameEntries.only_removed {s s' : RecoverySnapshot} (h : SameEntries s s') : OnlyRemoved s s' := by
  refine ⟨fun path hpresent => ?_, fun effect heffect hpresent => ?_⟩
  · rwa [h.paths path] at hpresent
  · rwa [h.scratch effect heffect] at hpresent

theorem same_entries_of_observations {s s' : RecoverySnapshot} (h : reducer.SameObservations s s') : SameEntries s s' := by
  refine ⟨fun path => ?_, fun effect _ => ?_⟩
  · rw [RecoverySnapshot.entry_at, h.persistent, RecoverySnapshot.entry_at]
  · rw [RecoverySnapshot.scratch_at, h.scratch, RecoverySnapshot.scratch_at]

/-- A snapshot touched at one effect, with that effect's view as it was, observes the same entries. -/
theorem same_entries_of_touches {s s' : RecoverySnapshot} {index : Nat} {effect : Effect} {state : JournalState}
    (h : Touches index effect s s' state (s.view effect)) (heffect : s.effects[index]? = some effect) :
    SameEntries s s' := by
  refine ⟨fun path => ?_, fun other hother => ?_⟩
  · by_cases hpath : path ∈ variants.effect_paths effect
    · exact entry_at_of_view h.view hpath
    · exact h.entries path hpath
  · obtain ⟨j, hj⟩ := List.getElem?_of_mem hother
    by_cases hindex : j = index
    · subst hindex
      rw [heffect, Option.some.injEq] at hj
      subst hj
      exact congrArg EffectView.scratch h.view
    · exact h.scratch other hother (s.effect_id_ne hj heffect hindex)

/-- Steps that are journal or transaction transitions conserve everything. -/
theorem transition_conserves {source s s' : RecoverySnapshot} {step : RecoveryStep} (hframe : Frame source s)
    (hstep : step_owner step = none) (h : reducer.apply_step s step = .ok s') : Conserves source s step s' := by
  refine SameEntries.conserves ?_ hframe step
  cases step with
  | TransitionTransactionState step => exact same_entries_of_observations (reducer.transition_transaction_eq_ok h).2.2.1
  | TransitionEffectState step =>
    obtain ⟨⟨i, hid, _⟩, _⟩ := reducer.transition_effect_eq_ok h
    rw [List.getElem?_map] at hid
    obtain ⟨effect, heffect, hid⟩ := Option.map_eq_some_iff.mp hid
    exact same_entries_of_touches (reducer.transition_effect_touches h heffect hid.symm).2.2 heffect
  | PreserveExternal step =>
    obtain rfl := reducer.preserve_external_eq_ok h
    exact ⟨fun _ => rfl, fun _ _ => rfl⟩
  | DetachActive => exact same_entries_of_observations (reducer.detach_active_eq_ok h).2.1
  | _ => cases hstep

theorem every_transition_conserves {source s : RecoverySnapshot} {steps : List RecoveryStep} (hframe : Frame source s)
    (hsteps : ∀ step ∈ steps, step_owner step = none) :
    EveryStep reducer.apply_step (Conserves source) s steps := by
  intro k step c d hk hcut hstep
  have hframe' : Frame source c := hframe.trans (reducer.apply_steps_frame hcut)
  exact transition_conserves hframe' (hsteps step (List.mem_of_getElem? hk)) hstep

/-- What a decision's own steps take, seen at its effect's names. -/
theorem decides_lawful {s : RecoverySnapshot} {effect : Effect} {state : JournalState} {d : EffectDecision}
    (h : variants.Decides s effect state d) (heffect : effect ∈ s.effects) (hcommit : s.commit_decision = .UNCOMMITTED)
    (hhalt : d.halt_reason = none) {k : Nat} {step : RecoveryStep} (hstep : d.steps[k]? = some step) :
    variants.Lawful effect (s.joint_view effect) (steps_view (d.steps.take k) (s.view effect))
      (step_view step (steps_view (d.steps.take k) (s.view effect))) := by
  cases hneeds : needs_reversal state with
  | false =>
    rcases (h.rests hneeds).steps with hsteps | ⟨nodes, hsteps⟩
    · simp [hsteps] at hstep
    · rcases k with _ | k
      · simp only [hsteps, List.getElem?_cons_zero, Option.some.injEq] at hstep
        subst hstep
        exact .refl _
      · simp [hsteps] at hstep
  | true =>
    have hd := h.in_flight hneeds
    rw [hcommit] at hd
    have hcovers := s.joint_view_covers heffect
    have hlawful := (variants.effect_cell_settlement hcovers hd.symm hhalt).lawful hcovers hstep
    rwa [s.joint_view_view] at hlawful

/-- The scratch of an effect that the loop has not reached is the source's. -/
def Unreached (source s : RecoverySnapshot) (effect : Effect) : Prop :=
  (s.scratch_at effect).entry = (source.scratch_at effect).entry ∧ ∀ relation,
    (s.scratch_at effect).file_build_relation = some relation →
      (source.scratch_at effect).file_build_relation = some relation

/-- The bound steps of a decision conserve. -/
theorem Reversal.conserves {source cursor opened reversed closed : RecoverySnapshot} {index : Nat} {effect : Effect}
    {state : JournalState} {d : EffectDecision} {bound : List RecoveryStep}
    (h : Reversal cursor index effect state d bound opened reversed closed) (hframe : Frame source cursor)
    (hdecides : variants.Decides cursor effect state d) (heffect : cursor.effects[index]? = some effect)
    (hcommit : cursor.commit_decision = .UNCOMMITTED) (hhalt : d.halt_reason = none)
    (hunreached : Unreached source cursor effect) :
    EveryStep reducer.apply_step (Conserves source) opened bound := by
  intro k step X X' hk hcut hstep
  have hmem := List.mem_of_getElem? heffect
  have hX := h.cuts k X hcut
  have hX' := h.cuts (k + 1) X' (by
    rw [List.take_add_one, hk, Option.toList_some, reducer.apply_steps, foldlM_append_eq_ok_iff]
    exact ⟨X, hcut, reducer.apply_steps_singleton.mpr hstep⟩)
  have hcompiled : X.effects = cursor.effects := hX.frame.effects
  by_cases howner : step_owner step = none
  · exact transition_conserves (hframe.trans hX.frame) howner hstep
  have howner : step_owner step = some effect.effect_id := by
    have hconfined := h.confined step (List.mem_of_getElem? hk)
    cases step with
    | TransformEffectTuple step => exact congrArg some hconfined.1
    | RemoveScratch step => exact congrArg some hconfined.1
    | _ => exact absurd rfl howner
  have hlength : bound.length = d.steps.length := by simpa using congrArg List.length h.kinds
  have hlt : k < d.steps.length := hlength ▸ (List.getElem?_eq_some_iff.mp hk).1
  have hlawful := decides_lawful hdecides hmem hcommit hhalt (List.getElem?_eq_getElem hlt)
  have hnext : steps_view (d.steps.take (k + 1)) (cursor.view effect) =
      step_view d.steps[k] (steps_view (d.steps.take k) (cursor.view effect)) := by
    rw [List.take_succ_eq_append_getElem hlt, steps_view_append]
    rfl
  rw [← hnext, ← hX.view, ← hX'.view] at hlawful
  constructor
  · intro path hchanged hpresent
    by_cases hpath : path ∈ variants.effect_paths effect
    · obtain ⟨i, hi⟩ := List.getElem?_of_mem hpath
      have hold : (X.view effect).persistent[i]? = some (X.entry_at path) := by simp [RecoverySnapshot.view, hi]
      have hnew : (X'.view effect).persistent[i]? ≠ some (X.entry_at path) := by
        simpa [RecoverySnapshot.view, hi] using hchanged
      have hdeclared := (hlawful.persistent i _ hold hnew).resolve_left hpresent
      exact ⟨effect, hframe.effects ▸ hmem, howner, hpath, hdeclared⟩
    · exact absurd ((hX'.entries path hpath).trans (hX.entries path hpath).symm) hchanged
  · intro other hother hchanged hpresent
    rw [← hframe.effects] at hother
    obtain ⟨j, hj⟩ := List.getElem?_of_mem hother
    by_cases hindex : j = index
    · subst hindex
      rw [heffect, Option.some.injEq] at hj
      subst hj
      refine ⟨howner, ?_⟩
      rcases (hlawful.scratch hchanged).resolve_left hpresent with hdeclared | hmoved | ⟨hview, hremovable⟩
      · exact .inl (.inl hdeclared)
      · obtain ⟨path, hpath, hentry⟩ := List.mem_map.mp hmoved
        exact .inr ⟨path, hpath, hentry⟩
      · -- nothing but the journal has changed since the decision
        rw [cursor.joint_view_view] at hview
        have hentry : (X.scratch_at effect).entry = (cursor.scratch_at effect).entry := congrArg EffectView.scratch hview
        rcases hremovable with hdeclared | hreduce | ⟨hscaffold, hempty⟩
        · refine .inl (.inl ?_)
          rw [hentry]
          exact hdeclared
        · exact .inl (.inr (.inl ⟨hentry.trans hunreached.1, hunreached.2 _ hreduce⟩))
        · have htouches := hX
          rw [← hX.view, hview] at htouches
          have hsame := same_entries_of_touches htouches heffect
          refine .inl (.inr (.inr ?_))
          rw [hentry]
          exact ⟨hscaffold, ((variants.scratch_is_empty_iff).mp hempty).of_only_removed hX.frame hsame.only_removed⟩
    · have hne := cursor.effect_id_ne hj heffect hindex
      exact absurd ((hX'.scratch other hother hne).trans (hX.scratch other hother hne).symm) hchanged

/-- The steps of the loop so far conserve, and the scratch of every effect below is the source's. -/
structure Conserving (source : RecoverySnapshot) (count : Nat) (progress : RollbackProgress) : Prop where
  steps : EveryStep reducer.apply_step (Conserves source) source progress.steps
  unreached : ∀ i effect, i < count → source.effects[i]? = some effect → Unreached source progress.cursor effect

theorem Conserving.step {source : RecoverySnapshot} {progress next : RollbackProgress} {index : Nat} {effect : Effect}
    {state : JournalState} {d : EffectDecision} (h : Conserving source (index + 1) progress)
    (hrolling : Rolling source progress) (hsettled : Settled progress index effect state d next)
    (hhalt : d.halt_reason = none) : Conserving source index next := by
  have htouches := hsettled.touches
  obtain ⟨bound, opened, reversed, hsteps, hreversal⟩ := hsettled.steps
  have heffect : source.effects[index]? = some effect := by
    rw [← hrolling.frame.effects]
    exact hsettled.effect_at
  have hopened : Frame source opened := hrolling.frame.trans hreversal.opened_touches.frame
  have hreversed : Frame source reversed := hopened.trans (reducer.apply_steps_frame hreversal.reverses)
  constructor
  · rw [hsteps]
    refine every_step_append h.steps fun c hc => ?_
    have hcursor : c = progress.cursor := Except.ok.inj (hc.symm.trans hrolling.applies)
    subst hcursor
    rw [List.append_assoc]
    refine every_step_append (every_transition_conserves hrolling.frame ?_) fun c hc => ?_
    · unfold opening_steps
      split <;> simp [step_owner]
    have hc : c = opened := Except.ok.inj (hc.symm.trans hreversal.opens)
    subst hc
    refine every_step_append ?_ fun c hc => ?_
    · exact hreversal.conserves hrolling.frame hsettled.decides hsettled.effect_at hrolling.commit hhalt
        (h.unreached index effect (Nat.lt_succ_self index) heffect)
    have hc : c = reversed := Except.ok.inj (hc.symm.trans hreversal.reverses)
    subst hc
    refine every_transition_conserves hreversed ?_
    unfold closing_steps
    split <;> simp [step_owner]
  · intro i other hi hother
    have hne := source.effect_id_ne hother heffect (by omega)
    have hmem : other ∈ progress.cursor.effects := hrolling.frame.effects ▸ List.mem_of_getElem? hother
    have hprevious := h.unreached i other (by omega) hother
    refine ⟨(htouches.scratch other hmem hne).trans hprevious.1, fun relation hrelation => ?_⟩
    exact hprevious.2 relation (htouches.relations other hmem hne relation hrelation)

theorem RollsBack.conserves {source opened settled : RecoverySnapshot} {plan : ActionPlan} {final : RollbackProgress}
    (h : RollsBack source plan opened final settled) (hsource : RollbackSource source) :
    EveryStep reducer.apply_step (Conserves source) source plan.steps := by
  have hstart := h.start hsource
  have hopening : EveryStep reducer.apply_step (Conserves source) source (opening_transition source) := by
    refine every_transition_conserves (Frame.refl source) ?_
    unfold opening_transition
    split <;> simp [step_owner]
  obtain ⟨_, hsame⟩ := opening_transition_eq_ok h.opens
  obtain ⟨hrolling, hconserving⟩ := roll_back_effects_invariant (P := Conserving source)
    (fun index progress next effect state d hrolling hP hhalt hsettled _ => hP.step hrolling hsettled hhalt)
    hstart (Nat.le_refl _) ⟨hopening, fun i effect _ _ => by
      simp only [Unreached, RecoverySnapshot.scratch_at, hsame.scratch]
      exact ⟨trivial, fun _ hrelation => hrelation⟩⟩ h.loop
  rw [h.steps]
  refine every_step_append hconserving.steps fun c hc => ?_
  have hc : c = final.cursor := Except.ok.inj (hc.symm.trans hrolling.applies)
  subst hc
  refine every_transition_conserves hrolling.frame ?_
  simp [terminal_steps, step_owner]

/-! Cleanup plans. -/

omit [UnicodeData] in
/-- A retained scratch entry is in a state that its effect declares. -/
theorem declared_of_retained {effect : Effect} {state : PathState} {entry : ObservedEntry}
    (h : variants.expected_retained_scratch_state effect = some state) (hstate : entry.state? = some state) :
    Declared effect entry := by
  cases effect with
  | ReplaceFile e =>
    obtain rfl := Option.some.inj h
    exact ⟨_, List.mem_singleton_self _, .inl hstate⟩
  | DeletePath e =>
    obtain rfl := Option.some.inj h
    exact ⟨_, List.mem_singleton_self _, .inl hstate⟩
  | MoveNoClobber e =>
    obtain rfl := Option.some.inj h
    exact ⟨_, List.mem_cons_self, .inl hstate⟩
  | _ => cases h

theorem CleanUpStep.conserves {source cursor next : RecoverySnapshot} {index : Nat} {effect : Effect}
    {bound : List RecoveryStep} (h : CleanUpStep cursor index effect bound next) (hframe : Frame source cursor) :
    EveryStep reducer.apply_step (Conserves source) cursor bound := by
  have hmem := List.mem_of_getElem? h.effect_at
  rcases h.outcome with ⟨_, rfl, _⟩ | ⟨state, step, hexpected, hstate, rfl, hid, hcleared⟩
  · exact every_step_nil _
  · refine every_step_singleton fun c hc => ?_
    obtain rfl : c = next := Except.ok.inj (hc.symm.trans (reducer.apply_steps_singleton.mp h.applies))
    refine ⟨fun path hne => absurd (hcleared.entries path) hne, fun other hother hne _ => ?_⟩
    have hother : other ∈ cursor.effects := hframe.effects ▸ hother
    by_cases hsame : other.effect_id = effect.effect_id
    · obtain rfl : other = effect := by
        have hleft := cursor.effect_of_eq hother
        rw [hsame, cursor.effect_of_eq hmem] at hleft
        exact (Option.some.inj hleft).symm
      exact ⟨congrArg some hid, .inl (.inl (declared_of_retained hexpected hstate))⟩
    · exact absurd (hcleared.scratch other hother hsame) hne

theorem CleansUpAll.applies {indices : List Nat} {cursor final : RecoverySnapshot} {steps : List RecoveryStep}
    (h : CleansUpAll indices cursor steps final) : reducer.apply_steps cursor steps = .ok final := by
  induction h with
  | nil => rfl
  | cons hstep _ ih => exact reducer.apply_steps_append_eq_ok_iff.mpr ⟨_, hstep.applies, ih⟩

theorem CleansUpAll.conserves {source : RecoverySnapshot} {indices : List Nat} {cursor final : RecoverySnapshot}
    {steps : List RecoveryStep} (h : CleansUpAll indices cursor steps final) (hframe : Frame source cursor) :
    EveryStep reducer.apply_step (Conserves source) cursor steps := by
  induction h with
  | nil => exact every_step_nil _
  | cons hstep _ ih =>
    refine every_step_append (hstep.conserves hframe) fun c hc => ?_
    obtain rfl := Except.ok.inj (hc.symm.trans hstep.applies)
    exact ih (hframe.trans (reducer.apply_steps_frame hstep.applies))

theorem committed_plan_conserves {source final : RecoverySnapshot} {plan : ActionPlan} {steps : List RecoveryStep}
    (h : CommitsCleanly source plan steps final) : EveryStep reducer.apply_step (Conserves source) source plan.steps := by
  rw [h.steps_eq]
  refine every_step_append (h.loop.conserves (Frame.refl source)) fun c hc => ?_
  exact every_transition_conserves (reducer.apply_steps_frame hc) (by simp [step_owner])

/-- The steps of every action plan conserve. -/
theorem action_plan_conserves {source : RecoverySnapshot} {plan : ActionPlan}
    (h : classify_recovery source = .ok (.ActionPlan plan)) :
    EveryStep reducer.apply_step (Conserves source) source plan.steps := by
  rcases classify_recovery_action h with ⟨hsource, hplan⟩ | ⟨_, hplan⟩ | ⟨_, _, _, hsteps⟩
  · obtain ⟨opened, final, settled, hrolls⟩ := rollback_plan_eq_ok hplan
    exact hrolls.conserves hsource
  · obtain ⟨steps, final, hcommits⟩ := committed_plan_eq_ok hplan
    exact committed_plan_conserves hcommits
  · rw [hsteps]
    exact every_transition_conserves (Frame.refl source) (by simp [step_owner])

/-- A step takes an entry away for good: it is of its owner's making, and it is observed nowhere afterwards. -/
structure Destroys (source s : RecoverySnapshot) (step : RecoveryStep) (s' : RecoverySnapshot) (entry : ObservedEntry) :
    Prop where
  owned : ∃ effect ∈ source.effects, step_owner step = some effect.effect_id ∧
    ((∃ path ∈ variants.effect_paths effect, s.entry_at path = entry) ∧ Declared effect entry ∨
      (s.scratch_at effect).entry = entry ∧ Expendable source s effect)
  gone : ¬ Observes s' entry

/-- An entry that a step takes away was its owner's. -/
theorem Conserves.destroys {source s s' : RecoverySnapshot} {step : RecoveryStep} (h : Conserves source s step s')
    (hframe : Frame source s) (hframe' : Frame s s') {entry : ObservedEntry} (hpresent : entry ≠ .ObservedAbsent)
    (hobserves : Observes s entry) (hgone : ¬ Observes s' entry) : Destroys source s step s' entry := by
  refine ⟨?_, hgone⟩
  rcases hobserves with ⟨path, rfl⟩ | ⟨effect, heffect, rfl⟩
  · have hchanged : s'.entry_at path ≠ s.entry_at path := fun heq => hgone (.inl ⟨path, heq⟩)
    obtain ⟨effect, heffect, howner, hpath, hdeclared⟩ := h.paths path hchanged hpresent
    exact ⟨effect, heffect, howner, .inl ⟨⟨path, hpath, rfl⟩, hdeclared⟩⟩
  · have hsource : effect ∈ source.effects := hframe.effects ▸ heffect
    have hchanged : (s'.scratch_at effect).entry ≠ (s.scratch_at effect).entry :=
      fun heq => hgone (.inr ⟨effect, hframe'.effects ▸ heffect, heq⟩)
    obtain ⟨howner, hexpendable | ⟨path, _, hmoved⟩⟩ := h.scratch effect hsource hchanged hpresent
    · exact ⟨effect, hsource, howner, .inr ⟨rfl, hexpendable⟩⟩
    · exact absurd (.inl ⟨path, hmoved⟩) hgone

theorem reduce_prefix_eq_ok_iff {source s : RecoverySnapshot} {plan : RecoveryPlan} {k : Nat} :
    reducer.reduce_recovery_plan_prefix source plan k = .ok s ↔
      source = plan.bound_snapshot ∧ k ≤ plan.steps.length ∧ reducer.apply_steps source (plan.steps.take k) = .ok s := by
  unfold reducer.reduce_recovery_plan_prefix
  simp only [bind_eq_ok_iff, require_eq_ok_iff, exists_and_left, exists_const]

/-- An action plan is bound to its source and reduces to the end. -/
theorem action_plan_reduces {source : RecoverySnapshot} {plan : ActionPlan}
    (h : classify_recovery source = .ok (.ActionPlan plan)) :
    plan.bound_snapshot = source ∧ ∃ final, reducer.apply_steps source plan.steps = .ok final := by
  rcases classify_recovery_action h with ⟨hsource, hplan⟩ | ⟨_, hplan⟩ | ⟨hstate, hactive, hbound, hsteps⟩
  · obtain ⟨opened, final, settled, hrolls⟩ := rollback_plan_eq_ok hplan
    refine ⟨hrolls.bound, settled, ?_⟩
    rw [hrolls.steps]
    exact reducer.apply_steps_append_eq_ok_iff.mpr ⟨_, (hrolls.unwound hsource).1.applies, hrolls.ends⟩
  · obtain ⟨steps, final, hcommits⟩ := committed_plan_eq_ok hplan
    obtain ⟨settled, hends⟩ := hcommits.ends
    refine ⟨hcommits.bound, settled, ?_⟩
    rw [hcommits.steps_eq]
    exact reducer.apply_steps_append_eq_ok_iff.mpr ⟨_, hcommits.loop.applies, hends⟩
  · obtain ⟨settled, hdetach⟩ := reducer.detach_active_of_terminal hactive (.inr hstate)
    refine ⟨hbound, settled, ?_⟩
    rw [hsteps]
    exact reducer.apply_steps_singleton.mpr hdetach

/-- No step of an action plan takes away, or moves off the declared paths, an entry that its
owner did not make; every entry of the source that no step takes away is observed in the end. -/
theorem plan_conserves_external {source : RecoverySnapshot} {plan : ActionPlan}
    (h : classify_recovery source = .ok (.ActionPlan plan)) :
    ∃ final, reducer.apply_recovery_plan source (.ActionPlan plan) = .ok final ∧
      (∀ k step s s', plan.steps[k]? = some step →
        reducer.reduce_recovery_plan_prefix source (.ActionPlan plan) k = .ok s →
        reducer.reduce_recovery_plan_prefix source (.ActionPlan plan) (k + 1) = .ok s' → Conserves source s step s') ∧
      ∀ entry, Observes source entry → entry ≠ .ObservedAbsent → Observes final entry ∨ ∃ k step s s',
        plan.steps[k]? = some step ∧ reducer.reduce_recovery_plan_prefix source (.ActionPlan plan) k = .ok s ∧
        reducer.reduce_recovery_plan_prefix source (.ActionPlan plan) (k + 1) = .ok s' ∧
        Destroys source s step s' entry := by
  obtain ⟨hbound, final, hfinal⟩ := action_plan_reduces h
  have hconserves := action_plan_conserves h
  have hreduce : ∀ {k s}, k ≤ plan.steps.length → (reducer.reduce_recovery_plan_prefix source (.ActionPlan plan) k = .ok s ↔
      reducer.apply_steps source (plan.steps.take k) = .ok s) := by
    intro k s hk
    rw [reduce_prefix_eq_ok_iff]
    exact ⟨fun h => h.2.2, fun h => ⟨hbound.symm, hk, h⟩⟩
  have hnext : ∀ {k step s s'}, plan.steps[k]? = some step → reducer.apply_steps source (plan.steps.take k) = .ok s →
      (reducer.apply_steps source (plan.steps.take (k + 1)) = .ok s' ↔ reducer.apply_step s step = .ok s') := by
    intro k step s s' hk hs
    rw [List.take_add_one, hk, Option.toList_some, reducer.apply_steps_append_eq_ok_iff]
    simp [hs, reducer.apply_steps_singleton]
  refine ⟨final, ?_, ?_, ?_⟩
  · unfold reducer.apply_recovery_plan
    exact (hreduce (Nat.le_refl plan.steps.length)).mpr (by rwa [List.take_length])
  · intro k step s s' hk hs hs'
    have hlt := (List.getElem?_eq_some_iff.mp hk).1
    rw [hreduce hlt.le] at hs
    rw [hreduce hlt, hnext hk hs] at hs'
    exact hconserves k step s s' hk hs hs'
  · intro entry hobserves hpresent
    rcases every_step_survives (R := fun s => Observes s entry)
      (Q := fun s _ s' => Observes s entry ∧ ¬ Observes s' entry)
      (fun s step s' _ hkept => by
        by_cases hafter : Observes s' entry
        · exact .inr hafter
        · exact .inl ⟨hkept, hafter⟩) hobserves hfinal with ⟨k, step, s, s', hk, hs, hstep, hkept, hgone⟩ | hend
    · refine .inr ⟨k, step, s, s', hk, ?_, ?_, ?_⟩
      · exact (hreduce (List.getElem?_eq_some_iff.mp hk).1.le).mpr hs
      · exact (hreduce (List.getElem?_eq_some_iff.mp hk).1).mpr ((hnext hk hs).mpr hstep)
      · exact (hconserves k step s s' hk hs hstep).destroys (reducer.apply_steps_frame hs)
          (reducer.apply_step_frame hstep) hpresent hkept hgone
    · exact .inl hend

end

section

attribute [local instance] journal.ascii

theorem first_directory_created_conserved : ∃ plan final,
    classify_recovery first_directory_created = .ok (.ActionPlan plan) ∧
      reducer.apply_recovery_plan first_directory_created (.ActionPlan plan) = .ok final := by
  obtain ⟨plan, hplan⟩ := first_directory_created_plan
  obtain ⟨final, hfinal, _⟩ := plan_conserves_external hplan
  exact ⟨plan, final, hplan, hfinal⟩

end

end atoms.recovery.classifier

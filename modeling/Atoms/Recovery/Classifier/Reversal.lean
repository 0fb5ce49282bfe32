import Atoms.Recovery.Classifier.Binding
import Atoms.Recovery.Journal.Frontier

open atoms.errors atoms.fingerprint atoms.effects atoms.timeline atoms.compiler checked keyed

namespace atoms.recovery

variable [UnicodeData]

/-- Every path of the effect is at the state that the reverse frontier expects of it. -/
def AtFrontier (s : RecoverySnapshot) (effect : Effect) : Prop :=
  ∀ path ∈ variants.effect_paths effect, (s.entry_at path).state? = journal.expected_at s.effects s.states path

namespace variants

variable {s : RecoverySnapshot} {effect : Effect} {d : EffectDecision}

/-- The frontiers that `reconstruct_frontiers` gives a record that rolls back. -/
def ReverseFrontiers (s : RecoverySnapshot) (frontiers : List PathFrontier) : Prop :=
  frontiers.map PathFrontier.path = s.compiled.paths ∧ ∀ path ∈ s.compiled.paths, ∃ frontier,
    frontier_of frontiers path = some frontier ∧
      journal.expected_at s.effects s.states path = some frontier.expected_state

theorem reverse_frontiers_of_eq_ok (hrolling : s.transaction_state = .ROLLING_BACK) {frontiers : List PathFrontier}
    (h : journal.reconstruct_frontiers s = .ok frontiers) : ReverseFrontiers s frontiers := by
  obtain ⟨frontiers', heq, hpaths, hexpected⟩ := journal.reconstruct_frontiers_eq hrolling
  rw [heq] at h
  obtain rfl := Except.ok.inj h
  exact ⟨hpaths, hexpected⟩

/-- The drifted paths of an effect, where its entries have states. -/
theorem at_frontier_eq_ok {frontiers : List PathFrontier} (hfrontiers : ReverseFrontiers s frontiers)
    (heffect : effect ∈ s.effects) {drifted : List RelPath} (h : at_frontier (s.joint_view effect) frontiers = .ok drifted) :
    drifted = [] ↔ AtFrontier s effect := by
  unfold at_frontier at h
  rw [bind_eq_ok_iff] at h
  obtain ⟨items, hitems, h⟩ := h
  rw [← pure_eq_ok_iff.mp h]
  clear h
  rw [mapM_eq_ok_iff, RecoverySnapshot.joint_view, List.forall₂_map_left_iff] at hitems
  have hpaths : ∀ path ∈ effect_paths effect, path ∈ s.compiled.paths := fun path hpath =>
    s.mem_paths_of_effect heffect (effect_paths_eq effect ▸ hpath)
  unfold AtFrontier
  generalize effect_paths effect = paths at hitems hpaths
  induction hitems with
  | nil => simp
  | cons hitem _ ih =>
    rename_i path item paths items _
    have hhead := hpaths path List.mem_cons_self
    obtain ⟨frontier, hfrontier, hexpected⟩ := hfrontiers.2 path hhead
    simp only [hfrontier, bind_eq_ok_iff, pure_eq_ok_iff] at hitem
    obtain ⟨state, hstate, rfl⟩ := hitem
    rw [entry_state_eq_ok_iff] at hstate
    have hrest := ih fun path hmem => hpaths path (List.mem_cons_of_mem _ hmem)
    rw [List.forall_mem_cons, hstate, hexpected]
    by_cases heq : state = frontier.expected_state
    · simpa [heq] using hrest
    · simp [heq]

/-- What a decision on an effect that is not in flight says. -/
structure Rests (s : RecoverySnapshot) (effect : Effect) (d : EffectDecision) : Prop where
  scratch : (s.scratch_at effect).entry = .ObservedAbsent
  steps : d.steps = [] ∨ ∃ nodes, d.steps = [.PreserveExternal (preserve nodes)]
  refused : d.refused = false ↔ AtFrontier s effect

theorem classify_pending_eq_ok {frontiers : List PathFrontier} (hfrontiers : ReverseFrontiers s frontiers)
    (heffect : effect ∈ s.effects) (h : classify_pending s effect frontiers = .ok d) (hhalt : d.halt_reason = none) :
    Rests s effect d := by
  unfold classify_pending at h
  rw [joint_eq heffect, ok_bind] at h
  split at h
  · obtain rfl := pure_eq_ok_iff.mp h
    simp [halt] at hhalt
  · rename_i hscratch
    simp only [RecoverySnapshot.joint_view, List.any_cons, List.any_nil, Bool.or_false, Bool.not_eq_true',
      Bool.not_eq_false, ObservedEntry.is_absent_iff] at hscratch
    rw [bind_eq_ok_iff] at h
    obtain ⟨drifted, hdrifted, h⟩ := h
    have hiff := at_frontier_eq_ok hfrontiers heffect hdrifted
    split at h <;> obtain rfl := pure_eq_ok_iff.mp h
    · rename_i hnil
      exact ⟨hscratch, .inl rfl, by simp [decision, hiff.mp hnil]⟩
    · rename_i hne
      exact ⟨hscratch, .inr ⟨_, rfl⟩, by simp [refused_decision, ← hiff, hne]⟩

theorem classify_undone_eq_ok {frontiers : List PathFrontier} (hfrontiers : ReverseFrontiers s frontiers)
    (heffect : effect ∈ s.effects) (h : classify_undone s effect frontiers = .ok d) (hhalt : d.halt_reason = none) :
    Rests s effect d ∧ AtFrontier s effect := by
  unfold classify_undone at h
  rw [joint_eq heffect, ok_bind, bind_eq_ok_iff] at h
  obtain ⟨drifted, hdrifted, h⟩ := h
  have hiff := at_frontier_eq_ok hfrontiers heffect hdrifted
  split at h <;> obtain rfl := pure_eq_ok_iff.mp h
  · rename_i hrest
    obtain ⟨hscratch, hnil⟩ := hrest
    have habsent : (s.scratch_at effect).entry = .ObservedAbsent := by
      simpa [RecoverySnapshot.joint_view] using hscratch
    exact ⟨⟨habsent, .inl rfl, by simp [decision, hiff.mp hnil]⟩, hiff.mp hnil⟩
  · simp [halt] at hhalt

/-- The decision on one effect of a record that rolls back, by its journal state. -/
structure Decides (s : RecoverySnapshot) (effect : Effect) (state : JournalState) (d : EffectDecision) : Prop where
  rests : classifier.needs_reversal state = false → Rests s effect d
  undone : state = .UNDONE → AtFrontier s effect
  in_flight : classifier.needs_reversal state = true →
    d = effect_cell s.commit_decision state effect (s.joint_view effect)

theorem classify_effect_eq_ok {frontiers : List PathFrontier} (hfrontiers : ReverseFrontiers s frontiers) {index : Nat}
    (heffect : s.effects[index]? = some effect) {state : JournalState} (hstate : s.states[index]? = some state)
    (h : classify_effect s index frontiers = .ok d) (hhalt : d.halt_reason = none) : Decides s effect state d := by
  have hmem := List.mem_of_getElem? heffect
  unfold classify_effect at h
  rw [show s.compiled.spec.effects[index]? = some effect from heffect] at h
  simp only [bind_eq_ok_iff, require_eq_ok_iff, journal_eq heffect hstate, Except.ok.injEq] at h
  obtain ⟨_, _, _, _, state', rfl, h⟩ := h
  cases state with
  | PENDING =>
    exact ⟨fun _ => classify_pending_eq_ok hfrontiers hmem h hhalt, by simp, by simp [classifier.needs_reversal]⟩
  | UNDONE =>
    obtain ⟨hrests, hat⟩ := classify_undone_eq_ok hfrontiers hmem h hhalt
    exact ⟨fun _ => hrests, fun _ => hat, by simp [classifier.needs_reversal]⟩
  | _ =>
    exact ⟨by simp [classifier.needs_reversal], by simp, fun _ => classify_variant_eq_ok heffect hstate h⟩

/-- The steps of a decision speak about its own effect. -/
theorem Decides.steps_confined {state : JournalState} (h : Decides s effect state d) (heffect : effect ∈ s.effects)
    (hcommit : s.commit_decision = .UNCOMMITTED) (hhalt : d.halt_reason = none) :
    ∀ step ∈ d.steps, confined effect step := by
  cases hneeds : classifier.needs_reversal state with
  | false =>
    rcases (h.rests hneeds).steps with hsteps | ⟨nodes, hsteps⟩ <;> simp [hsteps, confined]
  | true =>
    have hd := h.in_flight hneeds
    rw [hcommit] at hd
    have hcovers := s.joint_view_covers heffect
    exact (effect_cell_settlement hcovers hd.symm hhalt).steps_confined hcovers

end variants

namespace classifier

/-- The journal state that rollback leaves an effect in. -/
def settled_state (state : JournalState) : JournalState := if needs_reversal state then .UNDONE else state

def opening_steps (effect : Effect) (state : JournalState) : List RecoveryStep :=
  if state = .STARTED ∨ state = .DONE then
    [.TransitionEffectState { effect_id := effect.effect_id, from_state := state, to_state := .UNDO_STARTED }]
  else []

def closing_steps (effect : Effect) (state : JournalState) : List RecoveryStep :=
  if needs_reversal state then
    [.TransitionEffectState { effect_id := effect.effect_id, from_state := .UNDO_STARTED, to_state := .UNDONE }]
  else []

/-- The journal state an effect has while its decision's steps run. -/
def opened_state (state : JournalState) : JournalState := if needs_reversal state then .UNDO_STARTED else state

/-- The steps that reverse one effect, and the snapshots between its three parts. -/
structure Reversal (cursor : RecoverySnapshot) (index : Nat) (effect : Effect) (state : JournalState)
    (d : EffectDecision) (bound : List RecoveryStep) (opened reversed closed : RecoverySnapshot) : Prop where
  opens : reducer.apply_steps cursor (opening_steps effect state) = .ok opened
  opened_touches : Touches index effect cursor opened (opened_state state) (cursor.view effect)
  kinds : bound.map semantic_step = d.steps.map semantic_step
  confined : ∀ step ∈ bound, confined effect step
  reverses : reducer.apply_steps opened bound = .ok reversed
  cuts : ∀ k X, reducer.apply_steps opened (bound.take k) = .ok X →
    Touches index effect cursor X (opened_state state) (steps_view (d.steps.take k) (cursor.view effect))
  closes : reducer.apply_steps reversed (closing_steps effect state) = .ok closed
  touches : Touches index effect cursor closed (settled_state state) (steps_view d.steps (cursor.view effect))

theorem reverse_effect_steps_eq_ok {cursor : RecoverySnapshot} {index : Nat} {effect : Effect} {state : JournalState}
    (heffect : cursor.effects[index]? = some effect) (hstate : cursor.states[index]? = some state) {d : EffectDecision}
    (hconfined : ∀ step ∈ d.steps, confined effect step) {steps : List RecoveryStep}
    (h : reverse_effect_steps cursor index d = .ok steps) :
    ∃ bound opened reversed closed, steps = opening_steps effect state ++ bound ++ closing_steps effect state ∧
      Reversal cursor index effect state d bound opened reversed closed := by
  unfold reverse_effect_steps at h
  rw [show cursor.compiled.spec.effects[index]? = some effect from heffect, cursor.journals_getElem heffect hstate] at h
  simp only [bind_eq_ok_iff, require_eq_ok_iff, pure_eq_ok_iff] at h
  obtain ⟨opened, hopened, ⟨bound, reversed⟩, hbound, closed, hclosed, _, _, rfl⟩ := h
  have hopened : reducer.apply_steps cursor (opening_steps effect state) = .ok opened := hopened
  have hclosed : reducer.apply_steps reversed (closing_steps effect state) = .ok closed := hclosed
  have hlt : index < cursor.states.length := (List.getElem?_eq_some_iff.mp hstate).1
  have hopen : Touches index effect cursor opened (opened_state state) (cursor.view effect) := by
    unfold opening_steps at hopened
    split at hopened
    · rename_i hcases
      rw [reducer.apply_steps_singleton] at hopened
      have htouches := (reducer.transition_effect_touches hopened heffect rfl).2.2
      have hneeds : opened_state state = .UNDO_STARTED := by rcases hcases with rfl | rfl <;> rfl
      rwa [hneeds]
    · rename_i hcases
      rw [reducer.apply_steps_nil, Except.ok.injEq] at hopened
      subst hopened
      have hsame : opened_state state = state := by cases state <;> simp_all [opened_state, needs_reversal]
      rw [hsame]
      exact Touches.refl hstate
  obtain ⟨hkinds, hbound_confined, hreverses, hcuts⟩ := bind_effect_steps_eq_ok hbound hconfined
    (by rw [hopen.frame.effects]; exact heffect) (hopen.state_at hlt)
  rw [hopen.view] at hcuts
  have hwhole := hcuts bound.length reversed (by rw [List.take_length]; exact hreverses)
  have hlength : bound.length = d.steps.length := by simpa using congrArg List.length hkinds
  rw [hlength, List.take_length] at hwhole
  refine ⟨bound, opened, reversed, closed, rfl, hopened, hopen, hkinds, hbound_confined, hreverses,
    fun k X hX => hopen.trans (hcuts k X hX), hclosed, ?_⟩
  have hreversed := hopen.trans hwhole
  unfold closing_steps at hclosed
  unfold settled_state
  split at hclosed
  · rename_i hneeds
    rw [reducer.apply_steps_singleton] at hclosed
    have hclose := (reducer.transition_effect_touches hclosed
      (by rw [hreversed.frame.effects]; exact heffect) rfl).2.2
    rw [hreversed.view] at hclose
    simpa [hneeds] using hreversed.trans hclose
  · rename_i hneeds
    rw [reducer.apply_steps_nil, Except.ok.injEq] at hclosed
    subst hclosed
    simpa [hneeds, opened_state] using hreversed

/-- One pass through the body of the reverse loop that settles its effect. -/
structure Settled (progress : RollbackProgress) (index : Nat) (effect : Effect) (state : JournalState)
    (d : EffectDecision) (next : RollbackProgress) : Prop where
  effect_at : progress.cursor.effects[index]? = some effect
  state_at : progress.cursor.states[index]? = some state
  decides : variants.Decides progress.cursor effect state d
  steps : ∃ bound opened reversed,
    next.steps = progress.steps ++ (opening_steps effect state ++ bound ++ closing_steps effect state) ∧
      Reversal progress.cursor index effect state d bound opened reversed next.cursor
  refused : next.refused = (progress.refused || d.refused)

theorem roll_back_effect_eq_ok {progress next : RollbackProgress} {index : Nat} {d : EffectDecision}
    (hrolling : progress.cursor.transaction_state = .ROLLING_BACK)
    (hcommit : progress.cursor.commit_decision = .UNCOMMITTED) (hlt : index < progress.cursor.effects.length)
    (h : roll_back_effect progress index = .ok (d, next)) (hhalt : d.halt_reason = none) :
    ∃ effect state, Settled progress index effect state d next := by
  have heffect := List.getElem?_eq_getElem hlt
  obtain ⟨state, hstate⟩ := progress.cursor.exists_state heffect
  unfold roll_back_effect at h
  simp only [bind_eq_ok_iff] at h
  obtain ⟨frontiers, hfrontiers, decision, hdecision, _, _, h⟩ := h
  have hreverse := variants.reverse_frontiers_of_eq_ok hrolling hfrontiers
  by_cases hsome : decision.halt_reason.isSome = true
  · rw [if_pos hsome] at h
    simp only [pure_eq_ok_iff, Prod.mk.injEq] at h
    obtain ⟨rfl, rfl⟩ := h
    simp [hhalt] at hsome
  · rw [if_neg hsome] at h
    simp only [bind_eq_ok_iff, pure_eq_ok_iff, Prod.mk.injEq] at h
    obtain ⟨steps, hsteps, cursor, hcursor, rfl, rfl⟩ := h
    have hdecides := variants.classify_effect_eq_ok hreverse heffect hstate hdecision hhalt
    have hconfined := hdecides.steps_confined (List.mem_of_getElem? heffect) hcommit hhalt
    obtain ⟨bound, opened, reversed, closed, rfl, hreversal⟩ :=
      reverse_effect_steps_eq_ok heffect hstate hconfined hsteps
    have hclosed : closed = cursor := by
      rw [List.append_assoc, reducer.apply_steps_append_eq_ok_iff] at hcursor
      obtain ⟨_, hopened, hcursor⟩ := hcursor
      rw [hreversal.opens, Except.ok.injEq] at hopened
      subst hopened
      rw [reducer.apply_steps_append_eq_ok_iff] at hcursor
      obtain ⟨_, hreversed, hcursor⟩ := hcursor
      rw [hreversal.reverses, Except.ok.injEq] at hreversed
      subst hreversed
      rw [hreversal.closes, Except.ok.injEq] at hcursor
      exact hcursor
    subst hclosed
    exact ⟨_, state, heffect, hstate, hdecides, ⟨bound, opened, reversed, rfl, hreversal⟩, rfl⟩

end classifier

end atoms.recovery

import Atoms.Coordinator.Simulation.Record
import Atoms.Recovery.Authorization.Halts

open atoms.errors atoms.effects atoms.fs atoms.recovery atoms.store atoms.compiler checked keyed crash

namespace atoms.coordinator

variable [UnicodeData]

/-! The plan that the engine follows. -/

/-- A plan for the approved spec that reduces to its end, whose record is active before every step and open to a
transition before every step but the detachment. -/
structure Follows (approved : ProjectApprovedSpec) (plan : RecoveryPlan) : Prop where
  compiled : plan.bound_snapshot.compiled = approved.compiled
  topology : plan.bound_snapshot.topology = approved.topology
  reduces : ∃ final, reducer.apply_steps plan.bound_snapshot plan.steps = .ok final
  live : ∀ k s, k < plan.steps.length →
    reducer.reduce_recovery_plan_prefix plan.bound_snapshot plan k = .ok s → s.active = true
  unsettled : ∀ k s step, plan.steps[k]? = some step → step ≠ .DetachActive →
    reducer.reduce_recovery_plan_prefix plan.bound_snapshot plan k = .ok s →
    s.transaction_state ≠ .ROLLED_BACK ∧ s.transaction_state ≠ .HALTED

/-- The engine is at some step of the plan, and its record is that of the plan's prefix. -/
structure Stands (approved : ProjectApprovedSpec) (plan : RecoveryPlan) (walk : Walk) : Prop where
  same : walk.plan = plan
  cursor : walk.cursor ≤ plan.steps.length
  mirrored : ∃ s row, reducer.reduce_recovery_plan_prefix plan.bound_snapshot plan walk.cursor = .ok s ∧
    Mirrored walk.engine.db approved.txid s row

section

variable {approved : ProjectApprovedSpec} {plan : RecoveryPlan} {walk : Walk} {s : RecoverySnapshot} {k : Nat}

/-- The prefix of one more step. -/
theorem Follows.next {step : RecoveryStep} (h : Follows approved plan) (hstep : plan.steps[k]? = some step)
    (hs : reducer.reduce_recovery_plan_prefix plan.bound_snapshot plan k = .ok s) :
    ∃ s', reducer.apply_step s step = .ok s' ∧
      reducer.reduce_recovery_plan_prefix plan.bound_snapshot plan (k + 1) = .ok s' := by
  obtain ⟨final, hfinal⟩ := h.reduces
  obtain ⟨s', hs', _⟩ := foldlM_take (k + 1) hfinal
  have hlt : k < plan.steps.length := (List.getElem?_eq_some_iff.mp hstep).1
  have htake : plan.steps.take (k + 1) = plan.steps.take k ++ [step] := by
    rw [List.take_add_one, hstep]
    rfl
  have happly : reducer.apply_steps plan.bound_snapshot (plan.steps.take k ++ [step]) = .ok s' := by
    rw [← htake]
    exact hs'
  obtain ⟨middle, hmiddle, hlast⟩ := reducer.apply_steps_append_eq_ok_iff.mp happly
  obtain ⟨_, _, hreached⟩ := classifier.reduce_prefix_eq_ok_iff.mp hs
  rw [hreached, Except.ok.injEq] at hmiddle
  subst hmiddle
  exact ⟨s', reducer.apply_steps_singleton.mp hlast, classifier.reduce_prefix_eq_ok_iff.mpr ⟨rfl, hlt, hs'⟩⟩

/-- The check on the active record accepts the record of the prefix. -/
theorem Follows.projects {db : Database} {row : RecordRow} (h : Follows approved plan) (hk : k < plan.steps.length)
    (hs : reducer.reduce_recovery_plan_prefix plan.bound_snapshot plan k = .ok s)
    (hmirrored : Mirrored db approved.txid s row) :
    require_projection_matches (row.stored s.halt_diagnostic (db.effects_of approved.txid)) plan k approved = .ok () := by
  refine bind_eq_ok_iff.mpr ⟨(), require_of h.compiled, ?_⟩
  refine bind_eq_ok_iff.mpr ⟨(), require_of h.topology, ?_⟩
  refine bind_eq_ok_iff.mpr ⟨s, hs, ?_⟩
  refine bind_eq_ok_iff.mpr ⟨(), require_of hmirrored.spec, ?_⟩
  refine bind_eq_ok_iff.mpr ⟨(), require_of hmirrored.state, ?_⟩
  refine bind_eq_ok_iff.mpr ⟨(), require_of hmirrored.committed, ?_⟩
  refine bind_eq_ok_iff.mpr ⟨(), require_of hmirrored.rollback_result, ?_⟩
  refine bind_eq_ok_iff.mpr ⟨(), require_of rfl, ?_⟩
  refine bind_eq_ok_iff.mpr ⟨(), require_of hmirrored.journals, ?_⟩
  exact require_of (h.live k s hk hs)

omit [UnicodeData] in
theorem require_step_returns {condition : Prop} [Decidable condition] (message : String) (engine : Engine)
    (h : condition) : (require_step condition message).Returns engine () := by
  rw [require_step, if_pos h]
  exact .pure

omit [UnicodeData] in
theorem modeled_step_returns {α : Type} {value : Except AtomsError α} {a : α} (engine : Engine) (h : value = .ok a) :
    (modeled_step value).Returns engine a := by
  rw [h]
  exact .read rfl

/-- The active record is found and accepted, wherever the engine stands before the end of the plan. -/
theorem Follows.require_record {engine : Engine} {row : RecordRow} (h : Follows approved plan)
    (hk : k < plan.steps.length) (hs : reducer.reduce_recovery_plan_prefix plan.bound_snapshot plan k = .ok s)
    (hmirrored : Mirrored engine.db approved.txid s row) (absent : String) (foreign : String → String) :
    (require_record approved plan k absent foreign).Returns engine
      (row.stored s.halt_diagnostic (engine.db.effects_of approved.txid)) := by
  have htxid := Database.record_txid hmirrored.found
  unfold coordinator.require_record read_active_record
  refine .bind (.read (hmirrored.read_active (h.live _ s hk hs))) ?_
  exact .bind (require_step_returns _ _ htxid) (.bind (modeled_step_returns _ (h.projects hk hs hmirrored)) .pure)

theorem in_engine_returns {α : Type} {p : Step α} {a : α} (h : p.Returns walk.engine a) : (in_engine p).Returns walk a :=
  .zoom h

/-- A check of the recovery model leaves the engine as it is. -/
theorem modeled_step_ensures {α : Type} {value : Except AtomsError α} {I : Walk → Prop} {Q : Except Raised α → Walk → Prop}
    (hok : ∀ a, value = .ok a → Q (.ok a) walk) (herror : ∀ e, Q (.error e) walk) :
    (in_engine (modeled_step value)).Ensures walk I Q := by
  refine .zoom (.read ?_)
  cases value with
  | ok a => exact hok a rfl
  | error e => exact herror (.AtomsError e)

/-- One step of the walk is committed, and leads to the record of the next prefix. -/
theorem Stands.persist_one {step : RecoveryStep} (h : Stands approved plan walk) (hfollows : Follows approved plan)
    (hstep : plan.steps[walk.cursor]? = some step) (hstop : is_stop step = false) :
    (persist_one approved.txid step).Ensures walk (Stands approved plan)
      fun r t => r = .ok () ∧ t.cursor = walk.cursor + 1 ∧ Stands approved plan t := by
  obtain ⟨s, row, hs, hmirrored⟩ := h.mirrored
  obtain ⟨s', happly, hs'⟩ := hfollows.next hstep hs
  have hlt : walk.cursor < plan.steps.length := (List.getElem?_eq_some_iff.mp hstep).1
  have hcommit : ∀ {body : StoreTransaction → Except Raised StoreTransaction} {db' : Database} {row' : RecordRow},
      transaction walk.engine.db body = .ok db' → Mirrored db' approved.txid s' row' →
      (commit_step body).Ensures walk (Stands approved plan)
        fun r t => r = .ok () ∧ t.cursor = walk.cursor + 1 ∧ Stands approved plan t := by
    intro body db' row' hdb hnext
    have hstands : Stands approved plan
        { walk with engine := { walk.engine with db := db' }, cursor := walk.cursor + 1 } :=
      ⟨h.same, hlt, s', row', hs', hnext⟩
    refine .call_ok (a := ()) ?_ hstands ⟨rfl, rfl, hstands⟩
    rw [hdb]
    rfl
  cases step with
  | TransitionTransactionState step =>
    have hunsettled := hfollows.unsettled _ s _ hstep (by simp) hs
    obtain ⟨db', row', hdb, hnext, _⟩ := hmirrored.transition hunsettled happly
    exact hcommit hdb hnext
  | TransitionEffectState step =>
    obtain ⟨db', hdb, hnext⟩ := hmirrored.effect_transition happly
    exact hcommit hdb hnext
  | PreserveExternal step =>
    obtain rfl := reducer.preserve_external_eq_ok happly
    have hstands : Stands approved plan { walk with cursor := walk.cursor + 1 } := ⟨h.same, hlt, s', row, hs', hmirrored⟩
    unfold coordinator.persist_one advance
    exact .call_ok (a := ()) rfl hstands ⟨rfl, rfl, hstands⟩
  | _ => cases hstop

/-- A step at which the walk of the transitions stops, or the end of the plan. -/
def Stops (plan : RecoveryPlan) (k : Nat) : Prop := ∀ step, plan.steps[k]? = some step → is_stop step = true

/-- The walk commits every transition up to the next step at which it stops. -/
theorem Stands.persist_steps (hfollows : Follows approved plan) {rest : List RecoveryStep} (h : Stands approved plan walk)
    (hrest : plan.steps.drop walk.cursor = rest) :
    (persist_steps approved.txid walk.cursor rest).Ensures walk (Stands approved plan)
      fun r t => r = .ok t.cursor ∧ walk.cursor ≤ t.cursor ∧ Stands approved plan t ∧ Stops plan t.cursor := by
  induction rest generalizing walk with
  | nil =>
    have hend : plan.steps[walk.cursor]? = none := List.getElem?_eq_none (List.drop_eq_nil_iff.mp hrest)
    refine .pure ⟨rfl, Nat.le_refl _, h, ?_⟩
    intro step hstep
    rw [hend] at hstep
    cases hstep
  | cons step rest ih =>
    have hstep : plan.steps[walk.cursor]? = some step := by
      rw [← List.head?_drop, hrest]
      rfl
    have hdrop : plan.steps.drop (walk.cursor + 1) = rest := by
      rw [← List.drop_drop, hrest]
      rfl
    unfold coordinator.persist_steps
    split
    · rename_i hstop
      refine .pure ⟨rfl, Nat.le_refl _, h, ?_⟩
      intro other hother
      rw [hstep, Option.some.injEq] at hother
      exact hother ▸ hstop
    · rename_i hstop
      refine (h.persist_one hfollows hstep (Bool.not_eq_true _ ▸ hstop)).bind ?_ ?_
      · rintro _ t ⟨_, hcursor, ht⟩
        rw [← hcursor]
        refine (ih ht (hcursor ▸ hdrop)).mono (fun _ h => h) ?_
        rintro r t' ⟨hr, hle, ht', hstops⟩
        exact ⟨hr, by omega, ht', hstops⟩
      · rintro e t ⟨he, _⟩
        cases he

/-- From wherever the engine stands before the end of the plan, `persist_plan_prefix` completes. -/
theorem Stands.persist_plan_take (hfollows : Follows approved plan) (h : Stands approved plan walk)
    (hk : walk.cursor < plan.steps.length) :
    ( persist_plan_prefix approved plan walk.cursor).Ensures walk (Stands approved plan)
      fun r t => r = .ok t.cursor ∧ walk.cursor ≤ t.cursor ∧ Stands approved plan t ∧ Stops plan t.cursor := by
  obtain ⟨s, row, hs, hmirrored⟩ := h.mirrored
  have hrecord := hfollows.require_record hk hs hmirrored "no active record to advance"
    fun txid => "active record " ++ py_repr txid ++ " is not the proof's " ++ py_repr approved.txid
  have htxid : (row.stored s.halt_diagnostic (walk.engine.db.effects_of approved.txid)).txid = approved.txid :=
    Database.record_txid hmirrored.found
  unfold coordinator.persist_plan_prefix
  refine (in_engine_returns (require_step_returns _ _ (Nat.le_of_lt hk))).ensures_bind ?_
  refine (in_engine_returns hrecord).ensures_bind ?_
  rw [htxid]
  exact h.persist_steps hfollows rfl

/-- At the detachment of a bound record, `persist_detach` completes. -/
theorem Stands.persist_detach (hfollows : Follows approved plan) (h : Stands approved plan walk)
    (hstep : plan.steps[walk.cursor]? = some .DetachActive) (hsettled : ∃ row, walk.engine.db.record? approved.txid = some row ∧
      row.settlement_digest.isSome = true) :
    (persist_detach approved plan walk.cursor).Ensures walk (Stands approved plan)
      fun r t => r = .ok t.cursor ∧ t.cursor = walk.cursor + 1 ∧ Stands approved plan t := by
  have hlt : walk.cursor < plan.steps.length := (List.getElem?_eq_some_iff.mp hstep).1
  obtain ⟨s, row, hs, hmirrored⟩ := h.mirrored
  obtain ⟨s', happly, hs'⟩ := hfollows.next hstep hs
  obtain ⟨_, hrow, hsettled⟩ := hsettled
  rw [hmirrored.found, Option.some.injEq] at hrow
  subst hrow
  obtain ⟨db', hdb, hnext⟩ := hmirrored.detach hsettled happly
  have hstands : Stands approved plan { walk with engine := { walk.engine with db := db' }, cursor := walk.cursor + 1 } :=
    ⟨h.same, hlt, s', row, hs', hnext⟩
  have hrecord := hfollows.require_record hlt hs hmirrored "the proof's transaction is not active"
    fun _ => "the proof's transaction is not active"
  unfold coordinator.persist_detach
  refine (in_engine_returns (require_step_returns _ _ hlt)).ensures_bind ?_
  refine (in_engine_returns (require_step_returns _ _ hstep)).ensures_bind ?_
  refine (in_engine_returns hrecord).ensures_bind ?_
  refine (in_engine_returns (require_step_returns _ _ ⟨hmirrored.registered, hsettled⟩)).ensures_bind ?_
  have hcommit : (commit_step fun txn => txn.set_active none).Ensures walk (Stands approved plan)
      fun r t => r = .ok () ∧ t.cursor = walk.cursor + 1 ∧ Stands approved plan t := by
    refine .call_ok (a := ()) ?_ hstands ⟨rfl, rfl, hstands⟩
    rw [hdb]
    rfl
  refine hcommit.bind ?_ ?_
  · rintro _ t ⟨_, hcursor, ht⟩
    exact .pure ⟨by rw [hcursor], hcursor, ht⟩
  · rintro e t ⟨he, _⟩
    cases he

/-- The record of the snapshot stands in another snapshot of the same record. -/
theorem Mirrored.of_same {db : Database} {txid : String} {s' : RecoverySnapshot} {row : RecordRow}
    (h : Mirrored db txid s row) (hframe : Frame s s') (hrecord : SameRecord s s') (hjournals : s'.journals = s.journals) :
    Mirrored db txid s' row := by
  refine ⟨h.found, h.coherent, h.unfrozen, h.registered, h.unique, ?_, ?_, h.state.trans hrecord.transaction_state.symm,
    h.committed.trans hframe.commit_decision.symm, h.rollback_result.trans hrecord.rollback_result.symm, ?_,
    h.journals.trans hjournals.symm⟩
  · rw [hrecord.active]
    exact h.active
  · rw [hframe.compiled]
    exact h.spec
  · rw [hrecord.halt_diagnostic]
    exact h.halt_diagnostic

theorem Stands.of_db (h : Stands approved plan walk) {engine : Engine} (hdb : engine.db = walk.engine.db) :
    Stands approved plan { walk with engine } := by
  obtain ⟨s, row, hs, hmirrored⟩ := h.mirrored
  refine ⟨h.same, h.cursor, s, row, hs, ?_⟩
  rw [hdb]
  exact hmirrored

/-- Calls on the volume leave the engine where it stands. -/
theorem Stands.on_disk {α : Type} (h : Stands approved plan walk) (p : Call α) :
    (in_engine (on_disk p)).Ensures walk (Stands approved plan)
      fun _ t => Stands approved plan t ∧ t.cursor = walk.cursor := by
  have hdb : (coordinator.on_disk p).Ensures walk.engine (fun engine => engine.db = walk.engine.db)
      fun _ engine => engine.db = walk.engine.db := by
    have hkeeps : Prog.Keeps (fun engine : Engine => engine.db = walk.engine.db) (coordinator.on_disk p) :=
      .zoom fun _ _ hdb => hdb
    exact hkeeps walk.engine rfl
  exact .zoom (hdb.mono (fun _ hengine => h.of_db hengine) fun _ _ hengine => ⟨h.of_db hengine, rfl⟩)

/-- Where the plan that the engine follows comes from: it is the one the run was given, or a halt in its place. -/
def Origin (given plan : RecoveryPlan) : Prop :=
  plan = given ∨ ∃ k s halt, reducer.reduce_recovery_plan_prefix given.bound_snapshot given k = .ok s ∧
    plan = .HaltPlan halt ∧ authorization.Replaces s halt

/-- The engine follows the plan of its run, or a halt in its place, and its record is that of the plan's prefix. -/
def Simulates (approved : ProjectApprovedSpec) (given : RecoveryPlan) (walk : Walk) : Prop :=
  ∃ plan, Origin given plan ∧ Follows approved plan ∧ Stands approved plan walk

/-- A halt in place of a step can be followed. -/
theorem Follows.replaced {step : RecoveryStep} {halt : HaltPlan} (h : Follows approved plan)
    (hstep : plan.steps[k]? = some step) (hdetach : step ≠ .DetachActive)
    (hs : reducer.reduce_recovery_plan_prefix plan.bound_snapshot plan k = .ok s)
    (hreplaces : authorization.Replaces s halt) : Follows approved (.HaltPlan halt) ∧ halt.steps.length = 1 := by
  have hlt : k < plan.steps.length := (List.getElem?_eq_some_iff.mp hstep).1
  obtain ⟨hrolled, hlive⟩ := h.unsettled k s step hstep hdetach hs
  have hactive := h.live k s hlt hs
  have hframe := reducer.apply_steps_frame (classifier.reduce_prefix_eq_ok_iff.mp hs).2.2
  rw [← hreplaces.record.transaction_state] at hrolled hlive
  obtain ⟨hdiagnoses, hsteps⟩ := hreplaces.halts.live hlive
  obtain ⟨final, hfinal⟩ := hdiagnoses.applies hlive
  have hplan : (RecoveryPlan.HaltPlan halt).steps = [.TransitionTransactionState
      ⟨halt.bound_snapshot.transaction_state, .HALTED, none, some halt.diagnostic⟩] := by
    rw [RecoveryPlan.steps, hsteps]
    rfl
  have hfirst : ∀ i (s' : RecoverySnapshot), i < (RecoveryPlan.HaltPlan halt).steps.length →
      reducer.reduce_recovery_plan_prefix halt.bound_snapshot (.HaltPlan halt) i = .ok s' → s' = halt.bound_snapshot := by
    intro i s' hi hs'
    rw [hplan, List.length_singleton, Nat.lt_one_iff] at hi
    subst hi
    have happly := (classifier.reduce_prefix_eq_ok_iff.mp hs').2.2
    exact (Except.ok.inj happly).symm
  refine ⟨⟨?_, ?_, ⟨final, ?_⟩, ?_, ?_⟩, by rw [hsteps]; rfl⟩
  · exact hreplaces.frame.compiled.trans (hframe.compiled.trans h.compiled)
  · exact hreplaces.frame.topology.trans (hframe.topology.trans h.topology)
  · rw [hplan]
    exact reducer.apply_steps_singleton.mpr hfinal
  · intro i s' hi hs'
    rw [hfirst i s' hi hs', hreplaces.record.active]
    exact hactive
  · intro i s' other hother _ hs'
    have hi : i < (RecoveryPlan.HaltPlan halt).steps.length := (List.getElem?_eq_some_iff.mp hother).1
    rw [hfirst i s' hi hs']
    exact ⟨hrolled, hlive⟩

/-- A halt in place of a step is persisted to its end. -/
theorem Stands.persist_halt {step : RecoveryStep} {halt : HaltPlan} (h : Stands approved plan walk)
    (hfollows : Follows approved plan) (hstep : plan.steps[walk.cursor]? = some step) (hdetach : step ≠ .DetachActive)
    (hs : reducer.reduce_recovery_plan_prefix plan.bound_snapshot plan walk.cursor = .ok s)
    (hreplaces : authorization.Replaces s halt) :
    (persist_halt approved (.HaltPlan halt)).Ensures walk (Simulates approved plan)
      fun r t => r = .ok (.HaltPlan halt) ∧ Simulates approved plan t ∧ t.plan = .HaltPlan halt ∧
        t.cursor = (RecoveryPlan.HaltPlan halt).steps.length := by
  obtain ⟨s', row, hs', hmirrored⟩ := h.mirrored
  rw [hs, Except.ok.injEq] at hs'
  subst hs'
  obtain ⟨hhalt, hlength⟩ := hfollows.replaced hstep hdetach hs hreplaces
  have hlength : (RecoveryPlan.HaltPlan halt).steps.length = 1 := by
    rw [RecoveryPlan.steps, List.length_map, hlength]
  have horigin : Origin plan (.HaltPlan halt) := .inr ⟨walk.cursor, s, halt, hs, rfl, hreplaces⟩
  have hstart : Stands approved (.HaltPlan halt) { walk with plan := .HaltPlan halt, cursor := 0 } := by
    refine ⟨rfl, Nat.zero_le _, halt.bound_snapshot, row, ?_, hmirrored.of_same hreplaces.frame hreplaces.record
      hreplaces.journals⟩
    exact classifier.reduce_prefix_eq_ok_iff.mpr ⟨rfl, Nat.zero_le _, rfl⟩
  unfold coordinator.persist_halt
  refine Prog.Ensures.bind (Q := fun r t => r = .ok () ∧ t = { walk with plan := .HaltPlan halt, cursor := 0 })
    (.call_ok (a := ()) rfl ⟨_, horigin, hhalt, hstart⟩ ⟨rfl, rfl⟩) ?_ ?_
  · rintro _ _ ⟨_, rfl⟩
    refine ((hstart.persist_plan_take hhalt (by rw [hlength]; exact Nat.one_pos)).mono
      (fun t ht => ⟨_, horigin, hhalt, ht⟩) (fun _ _ hQ => hQ)).bind ?_ ?_
    · rintro persisted t ⟨hpersisted, _, ht, hstops⟩
      rw [Except.ok.injEq] at hpersisted
      have hend : t.cursor = (RecoveryPlan.HaltPlan halt).steps.length := by
        by_contra hne
        have hlt : t.cursor < (RecoveryPlan.HaltPlan halt).steps.length := by
          have hle := ht.cursor
          omega
        have hmem := List.getElem?_eq_getElem hlt
        have hstop := hstops _ hmem
        obtain ⟨other, _, heq⟩ := List.mem_map.mp (List.getElem_mem hlt)
        rw [← heq] at hstop
        cases hstop
      refine (in_engine_returns (require_step_returns _ _ (hpersisted.trans hend))).ensures_bind ?_
      exact .pure ⟨rfl, ⟨_, horigin, hhalt, ht⟩, ht.same, hend⟩
    · rintro e t ⟨he, _⟩
      cases he
  · rintro e t ⟨he, _⟩
    cases he

omit [UnicodeData] in
/-- A mutating step is a step of the plan at which the walk stops. -/
theorem mutating_step_eq_some {raw : RecoveryStep} {step : MutatingStep} (h : mutating_step raw = some step) :
    raw = step.step ∧ raw ≠ .DetachActive := by
  cases raw <;> simp only [mutating_step, Option.some.injEq, reduceCtorEq] at h
  · subst h
    exact ⟨rfl, by simp⟩
  · subst h
    exact ⟨rfl, by simp⟩

variable [Sha256]

/-- The run is at the end of a plan, whichever plan it returned. -/
def Ends (approved : ProjectApprovedSpec) (given : RecoveryPlan) (result : Except Raised RecoveryPlan) (walk : Walk) :
    Prop :=
  Simulates approved given walk ∧ ∀ plan, result = .ok plan → walk.plan = plan ∧ walk.cursor = plan.steps.length

omit [Sha256] in
theorem Stands.simulates (h : Stands approved plan walk) (hfollows : Follows approved plan) :
    Simulates approved plan walk := ⟨plan, .inl rfl, hfollows, h⟩

omit [Sha256] in
theorem Stands.raises (h : Stands approved plan walk) (hfollows : Follows approved plan) (e : Raised) :
    Ends approved plan (.error e) walk := ⟨h.simulates hfollows, fun _ heq => nomatch heq⟩

/-- A step of the plan that changes the volume, at which the engine stands. -/
structure Mutates (approved : ProjectApprovedSpec) (plan : RecoveryPlan) (walk : Walk) (step : MutatingStep)
    (s : RecoverySnapshot) : Prop where
  stands : Stands approved plan walk
  follows : Follows approved plan
  step : plan.steps[walk.cursor]? = some step.step
  before : reducer.reduce_recovery_plan_prefix plan.bound_snapshot plan walk.cursor = .ok s
  live : s.transaction_state ≠ .HALTED

omit [UnicodeData] [Sha256] in
theorem MutatingStep.ne_detach (step : MutatingStep) : step.step ≠ .DetachActive := by
  cases step <;> simp [recovery.MutatingStep.step]

omit [Sha256] in
theorem Stands.mutates {step : MutatingStep} (h : Stands approved plan walk) (hfollows : Follows approved plan)
    (hstep : plan.steps[walk.cursor]? = some step.step) : ∃ s, Mutates approved plan walk step s := by
  obtain ⟨s, row, hs, hmirrored⟩ := h.mirrored
  exact ⟨s, h, hfollows, hstep, hs, (hfollows.unsettled _ s _ hstep (MutatingStep.ne_detach step) hs).2⟩

namespace Mutates

variable {step : MutatingStep}

omit [Sha256] in
/-- Where the engine still stands before the step, the same step awaits it. -/
theorem again {now : Walk} (h : Mutates approved plan walk step s) (hnow : Stands approved plan now)
    (hcursor : now.cursor = walk.cursor) : Mutates approved plan now step s :=
  ⟨hnow, h.follows, hcursor ▸ h.step, hcursor ▸ h.before, h.live⟩

omit [Sha256] in
/-- A halt in place of the step is persisted, and the run is at its end. -/
theorem halts {halted : RecoveryPlan} (h : Mutates approved plan walk step s)
    (hhalted : ∃ halt, halted = .HaltPlan halt ∧ authorization.Replaces s halt) :
    (persist_halt approved halted).Ensures walk (Simulates approved plan) (Ends approved plan) := by
  obtain ⟨halt, rfl, hreplaces⟩ := hhalted
  refine (h.stands.persist_halt h.follows h.step (MutatingStep.ne_detach step) h.before hreplaces).mono (fun _ h => h) ?_
  rintro _ t ⟨rfl, hsimulates, hplan, hend⟩
  refine ⟨hsimulates, fun other hother => ?_⟩
  rw [Except.ok.injEq] at hother
  subst hother
  exact ⟨hplan, hend⟩

/-- The observation before a step, and what the authorization makes of it. -/
theorem authorizes (h : Mutates approved plan walk step s) (blobs : Blobs) (table : DescriptorTable)
    {α : Type} {next : JointObservation → Authorization → Walking α} {R : Except Raised α → Walk → Prop}
    (hnext : ∀ observed authorized now, Mutates approved plan now step s → now.cursor = walk.cursor →
      authorization.authorize_recovery_step plan walk.cursor observed = .ok authorized →
      (next observed authorized).Ensures now (Simulates approved plan) R)
    (herror : ∀ e now, Stands approved plan now → R (.error e) now) :
    (do
      let observed ← in_engine (observe_for_step blobs approved table step)
      let authorized ← in_engine (modeled_step (authorization.authorize_recovery_step plan walk.cursor observed))
      next observed authorized : Walking α).Ensures walk (Simulates approved plan) R := by
  unfold observe_for_step
  refine ((h.stands.on_disk _).mono (fun _ ht => ht.simulates h.follows) fun _ _ hQ => hQ).bind ?_
    fun e t ht => herror e t ht.1
  rintro observed now ⟨hnow, hcursor⟩
  refine (modeled_step_ensures (I := Simulates approved plan) (Q := fun r t => t = now ∧ ∀ a, r = .ok a →
    authorization.authorize_recovery_step plan walk.cursor observed = .ok a) ?_ ?_).bind ?_ ?_
  · intro authorized hauthorized
    refine ⟨rfl, fun other hother => ?_⟩
    rw [Except.ok.injEq] at hother
    exact hother ▸ hauthorized
  · exact fun e => ⟨rfl, fun _ heq => nomatch heq⟩
  · intro authorized t ⟨ht, hauthorized⟩
    subst ht
    exact hnext observed authorized t (h.again hnow hcursor) hcursor (hauthorized authorized rfl)
  · intro e t ⟨ht, _⟩
    subst ht
    exact herror e t hnow

/-- A mutation that failed leaves the record of the plan's prefix, or halts it. -/
theorem reconsider (h : Mutates approved plan walk step s) (blobs : Blobs) (table : DescriptorTable)
    (errno : Option Errno) : (reconsider blobs approved table plan walk.cursor step errno).Ensures walk
      (Simulates approved plan) (Ends approved plan) := by
  refine h.authorizes blobs table ?_ fun e now hnow => hnow.raises h.follows e
  intro observed authorized now hnow hcursor hauthorized
  cases authorized with
  | HaltPlan halted => exact hnow.halts (authorization.authorize_replaces hauthorized h.before h.live)
  | AuthorizedStep authorized =>
    obtain ⟨hplan, hindex⟩ := authorization.authorize_authorized hauthorized
    have hbefore : reducer.reduce_recovery_plan_prefix authorized.plan.bound_snapshot authorized.plan
        authorized.step_index = .ok s := by
      rw [hplan, hindex]
      exact h.before
    dsimp only
    split
    · refine (modeled_step_ensures (I := Simulates approved plan) (Q := fun r t => t = now ∧ ∀ a, r = .ok a →
        authorization.mutation_denied authorized observed = .ok a) ?_ ?_).bind ?_ ?_
      · intro denied hdenied
        refine ⟨rfl, fun other hother => ?_⟩
        rw [Except.ok.injEq] at hother
        exact hother ▸ hdenied
      · exact fun e => ⟨rfl, fun _ heq => nomatch heq⟩
      · intro denied t ⟨ht, hdenied⟩
        subst ht
        exact hnow.halts (authorization.mutation_denied_replaces (hdenied denied rfl) hbefore h.live)
      · intro e t ⟨ht, _⟩
        subst ht
        exact hnow.stands.raises h.follows e
    · exact .throw (hnow.stands.raises h.follows _)

/-- What a mutating step leaves: the engine still stands before it, or it has halted the record. -/
def Leaves (approved : ProjectApprovedSpec) (plan : RecoveryPlan) (cursor : Nat) :
    Except Raised (Option RecoveryPlan) → Walk → Prop
  | .ok none, now => Stands approved plan now ∧ now.cursor = cursor
  | .ok (some halt), now => Ends approved plan (.ok halt) now
  | .error _, now => Simulates approved plan now

omit [Sha256] in
/-- A run that has ended with a halt leaves the halt. -/
theorem leaves_halt {p : Walking RecoveryPlan} {now : Walk} {cursor : Nat}
    (h : p.Ensures now (Simulates approved plan) (Ends approved plan)) :
    (do
      let halted ← p
      pure (some halted) : Walking (Option RecoveryPlan)).Ensures now (Simulates approved plan)
        (Leaves approved plan cursor) :=
  h.bind (fun _ _ hends => .pure hends) fun _ _ hends => hends.1

/-- A step leaves the engine standing before it, with its mutation done, or has halted the record. -/
theorem run_mutation (h : Mutates approved plan walk step s) (blobs : Blobs) (table : DescriptorTable) :
    (run_mutation blobs approved table plan walk.cursor step).Ensures walk (Simulates approved plan)
      (Leaves approved plan walk.cursor) := by
  refine h.authorizes blobs table ?_ fun e now hnow => hnow.simulates h.follows
  intro observed authorized now hnow hcursor hauthorized
  cases authorized with
  | HaltPlan halted =>
    exact leaves_halt (hnow.halts (authorization.authorize_replaces hauthorized h.before h.live))
  | AuthorizedStep authorized =>
    refine Prog.Ensures.tryCatch (Q := fun r t => (∀ a, r = .ok a → a = none) ∧ Stands approved plan t ∧
      t.cursor = walk.cursor) ?_ ?_ ?_
    · refine ((hnow.stands.on_disk _).mono (fun _ ht => ht.simulates h.follows) fun _ _ hQ => hQ).bind ?_ ?_
      · intro _ t ht
        refine .pure ⟨fun a ha => ?_, ht.1, ht.2.trans hcursor⟩
        rw [Except.ok.injEq] at ha
        exact ha.symm
      · exact fun _ t ht => ⟨fun _ heq => (nomatch heq), ht.1, ht.2.trans hcursor⟩
    · intro a t ⟨ha, ht, hend⟩
      rw [ha a rfl]
      exact ⟨ht, hend⟩
    · intro e t ⟨_, ht, hend⟩
      have hagain := h.again ht hend
      have hreconsider := fun errno => hagain.reconsider blobs table errno
      rw [hend] at hreconsider
      cases e with
      | EffectMismatch _ _ errno => exact leaves_halt (hreconsider errno)
      | _ => exact .throw (ht.simulates h.follows)

omit [Sha256] in
/-- A mutation changes no part of the record. -/
theorem advance (h : Mutates approved plan walk step s) : advance.Ensures walk (Stands approved plan) fun r t =>
    r = .ok () ∧ t.cursor = walk.cursor + 1 ∧ Stands approved plan t := by
  obtain ⟨s', row, hs, hmirrored⟩ := h.stands.mirrored
  have hlt : walk.cursor < plan.steps.length := (List.getElem?_eq_some_iff.mp h.step).1
  obtain ⟨next, happly, hnext⟩ := h.follows.next h.step hs
  have happlied : ∃ result, reducer.Applied s' next result := by
    cases step with
    | TransformEffectTuple step => exact ⟨_, (reducer.transform_effect_tuple_eq_ok happly)⟩
    | RemoveScratch step => exact ⟨_, (reducer.remove_scratch_eq_ok happly)⟩
  obtain ⟨_, happlied⟩ := happlied
  have hstands : Stands approved plan { walk with cursor := walk.cursor + 1 } :=
    ⟨h.stands.same, hlt, next, row, hnext, hmirrored.of_same happlied.frame happlied.record happlied.journals⟩
  unfold coordinator.advance
  exact .call_ok (a := ()) rfl hstands ⟨rfl, rfl, hstands⟩

end Mutates

/-! The settlement before the detachment. -/

omit [UnicodeData] [Sha256] in
/-- Calls on the volume keep the store. -/
theorem on_disk_keeps {α : Type} (db : Database) (p : Call α) :
    Prog.Keeps (fun engine : Engine => engine.db = db) (on_disk p) := .zoom fun _ _ hdb => hdb

theorem registered_root_keeps (db : Database) (project_root_fd : Inode) :
    Prog.Keeps (fun engine : Engine => engine.db = db) (registered_root project_root_fd) := by
  have hread : Prog.Keeps (fun engine : Engine => engine.db = db) read_active_record := .read _
  unfold registered_root
  refine .bind (.tryCatch (on_disk_keeps db _) ?_) ?_
  · intro caught
    split
    · refine .bind hread fun record => ?_
      split
      · exact .throw _
      · exact .throw _
    · exact .throw _
    · exact .throw _
  · intro chain_fd
    refine .bind (on_disk_keeps db _) fun validated => .bind (on_disk_keeps db _) fun _ => ?_
    split
    · refine .bind hread fun record => ?_
      split
      · exact .throw _
      · exact .throw _
    · exact .pure _

theorem publish_keeps (db : Database) (chain_fd : Inode) (envelope : Option (List UInt8)) (fresh : chain.ValidatedChain)
    (action : ReconciliationAction) : Prog.Keeps (fun engine : Engine => engine.db = db)
      (publish chain_fd envelope fresh action) := by
  unfold publish
  cases action with
  | Backfill digest => exact .pure _
  | Append entry =>
    dsimp only
    split
    · exact .pure _
    · refine .bind (on_disk_keeps db _) fun appended => .bind ?_ fun _ => .bind (on_disk_keeps db _) fun _ => .pure _
      unfold require_step
      split
      · exact .pure _
      · exact .throw _

omit [UnicodeData] [Sha256] in
/-- A terminal record that needs no settlement has one. -/
theorem settled_of_derived {record : StoredRecord} {entries : List (String × chain.Entry)}
    (h : derive_settlement record entries = .ok none) (houtcome : (terminal_outcome record).isSome = true) :
    record.settlement_digest.isSome = true := by
  obtain ⟨outcome, houtcome⟩ := Option.isSome_iff_exists.mp houtcome
  unfold derive_settlement at h
  obtain ⟨_, _, h⟩ := bind_eq_ok_iff.mp h
  cases hdigest : record.settlement_digest with
  | some digest => rfl
  | none =>
    simp only [hdigest, houtcome] at h
    cases hfound : settlements entries record.txid with
    | nil => simp [hfound] at h
    | cons first rest =>
      obtain ⟨digest, entry⟩ := first
      simp only [hfound] at h
      obtain ⟨_, _, h⟩ := bind_eq_ok_iff.mp h
      simp at h

omit [Sha256] in
/-- The store holds the record of the snapshot, in a row with `P`. -/
def Holds (txid : String) (s : RecoverySnapshot) (P : RecordRow → Prop) (engine : Engine) : Prop :=
  ∃ row, Mirrored engine.db txid s row ∧ P row

section

variable {txid : String} {engine : Engine} {P : RecordRow → Prop}

omit [Sha256] in
/-- A program that keeps the store keeps its record. -/
theorem Holds.of_keeps {α : Type} {p : Step α} (h : Holds txid s P engine)
    (hp : ∀ db, Prog.Keeps (fun engine : Engine => engine.db = db) p) :
    p.Ensures engine (Holds txid s P) fun _ t => Holds txid s P t ∧ t.db = engine.db := by
  have hmove : ∀ t : Engine, t.db = engine.db → Holds txid s P t := by
    intro t ht
    obtain ⟨row, hmirrored, hrow⟩ := h
    exact ⟨row, ht ▸ hmirrored, hrow⟩
  exact (hp engine.db engine rfl).mono (fun t ht => hmove t ht) fun _ t ht => ⟨hmove t ht, ht⟩

/-- Binding a digest keeps the record of the snapshot, and an action that succeeds has bound one. -/
theorem Holds.perform_action (h : Holds txid s P engine) (column : String → Column) (chain_fd : Inode)
    (envelope : Option (List UInt8)) (fresh : chain.ValidatedChain) (action : Option ReconciliationAction)
    (hcolumn : ∀ digest, digest_column (column digest) = true) (hP : ∀ row digest, P row → P (row.set (column digest))) :
    (perform_action chain_fd envelope (fun txn digest => txn.set_column txid (column digest)) fresh action).Ensures engine
      (Holds txid s P) fun r t => Holds txid s P t ∧ ((∃ value, r = .ok value) → action.isSome = true →
        Holds txid s (fun row => ∃ old digest, row = RecordRow.set old (column digest)) t) := by
  unfold coordinator.perform_action
  cases action with
  | none => exact .pure ⟨h, fun _ hsome => nomatch hsome⟩
  | some action =>
    refine (h.of_keeps fun db => publish_keeps db chain_fd envelope fresh action).bind ?_ ?_
    · rintro ⟨digest, fresh'⟩ t ⟨ht, _⟩
      obtain ⟨row, hmirrored, hrow⟩ := ht
      refine Prog.Ensures.bind (Q := fun r t' => Holds txid s P t' ∧ (r = .ok () →
        Holds txid s (fun row => ∃ old digest, row = RecordRow.set old (column digest)) t')) (.call ?_ ?_) ?_ ?_
      · intro _ t' ht'
        obtain ⟨db', hdb, heq⟩ := bind_eq_ok_iff.mp ht'
        rw [pure_eq_ok_iff, Prod.mk.injEq] at heq
        obtain ⟨_, rfl⟩ := heq
        have hnext := hmirrored.bind_digest (hcolumn digest) hdb
        exact ⟨⟨_, hnext, hP row digest hrow⟩, ⟨_, hnext, hP row digest hrow⟩, fun _ => ⟨_, hnext, row, digest, rfl⟩⟩
      · exact fun _ _ => ⟨⟨row, hmirrored, hrow⟩, fun heq => nomatch heq⟩
      · exact fun _ t' ht' => .pure ⟨ht'.1, fun _ _ => ht'.2 rfl⟩
      · exact fun _ t' ht' => ⟨ht'.1, fun ⟨_, heq⟩ => nomatch heq⟩
    · exact fun _ t ht => ⟨ht.1, fun ⟨_, heq⟩ => nomatch heq⟩

/-- A reconciliation keeps the record of the snapshot, and once it is through the settlement is bound. -/
theorem Holds.perform_reconciliation {actions : Reconciliation} (h : Holds txid s P engine) (hactive : s.active = true)
    (hP : ∀ row, P row → actions.settlement = none → row.settlement_digest.isSome = true)
    (hset : ∀ row digest, P row → P (row.set (.registration_digest digest)) ∧ P (row.set (.settlement_digest digest)))
    (chain_fd : Inode) (validated : chain.ValidatedChain) :
    (perform_reconciliation chain_fd validated actions).Ensures engine (Holds txid s P) fun r t => Holds txid s P t ∧
      ((∃ value, r = .ok value) → Holds txid s (fun row => row.settlement_digest.isSome = true) t) := by
  have herror : ∀ {e : Raised} {t : Engine}, Holds txid s P t → Holds txid s P t ∧
      ((∃ value, (Except.error e : Except Raised chain.ValidatedChain) = .ok value) →
        Holds txid s (fun row => row.settlement_digest.isSome = true) t) :=
    fun ht => ⟨ht, fun ⟨_, heq⟩ => nomatch heq⟩
  unfold coordinator.perform_reconciliation
  refine (h.of_keeps fun db => .read _).bind ?_ fun e t ht => herror ht.1
  rintro envelope t ⟨ht, _⟩
  refine (ht.of_keeps fun db => on_disk_keeps db _).bind ?_ fun e t ht => herror ht.1
  rintro fresh t ⟨ht, _⟩
  refine (ht.of_keeps fun db => on_disk_keeps db _).bind ?_ fun e t ht => herror ht.1
  rintro _ t ⟨ht, _⟩
  refine (ht.of_keeps fun db => on_disk_keeps db _).bind ?_ fun e t ht => herror ht.1
  rintro fresh t ⟨ht, _⟩
  obtain ⟨row, hmirrored, hrow⟩ := ht
  have hread : read_active_record.Returns t (some (row.stored s.halt_diagnostic (t.db.effects_of txid))) :=
    .read (hmirrored.read_active hactive)
  refine hread.ensures_bind ?_
  have htxid : (row.stored s.halt_diagnostic (t.db.effects_of txid)).txid = txid := Database.record_txid hmirrored.found
  have ht : Holds txid s P t := ⟨row, hmirrored, hrow⟩
  dsimp only
  rw [htxid]
  refine (ht.perform_action .registration_digest chain_fd envelope fresh actions.registration (fun _ => rfl)
    fun row digest hrow => (hset row digest hrow).1).bind ?_ fun e t ht => herror ht.1
  rintro fresh t ⟨ht, _⟩
  refine (ht.perform_action .settlement_digest chain_fd envelope fresh actions.settlement (fun _ => rfl)
    fun row digest hrow => (hset row digest hrow).2).mono (fun _ ht => ht) ?_
  rintro r t ⟨ht, hbound⟩
  refine ⟨ht, fun hok => ?_⟩
  cases hsettlement : actions.settlement with
  | none =>
    obtain ⟨row, hmirrored, hrow⟩ := ht
    exact ⟨row, hmirrored, hP row hrow hsettlement⟩
  | some action =>
    obtain ⟨_, hmirrored, old, digest, rfl⟩ := hbound hok (by rw [hsettlement]; rfl)
    exact ⟨_, hmirrored, rfl⟩

/-- Where the record is terminal, a reconciliation before the detachment that is through has bound the settlement. -/
theorem Holds.reconcile_settlement (h : Holds approved.txid s (fun _ => True) engine) (hactive : s.active = true)
    (hterminal : s.transaction_state = .COMMITTED ∨ s.transaction_state = .ROLLED_BACK) (project_root_fd : Inode) :
    (reconcile_settlement project_root_fd approved).Ensures engine (Holds approved.txid s fun _ => True) fun r t =>
      Holds approved.txid s (fun _ => True) t ∧
        (r = .ok () → Holds approved.txid s (fun row => row.settlement_digest.isSome = true) t) := by
  have hweaken : ∀ {P : RecordRow → Prop} {t : Engine}, Holds approved.txid s P t →
      Holds approved.txid s (fun _ => True) t := fun ⟨row, hmirrored, _⟩ => ⟨row, hmirrored, trivial⟩
  have herror : ∀ {e : Raised} {t : Engine}, Holds approved.txid s (fun _ => True) t →
      Holds approved.txid s (fun _ => True) t ∧ ((Except.error e : Except Raised Unit) = .ok () →
        Holds approved.txid s (fun row => row.settlement_digest.isSome = true) t) :=
    fun ht => ⟨ht, fun heq => nomatch heq⟩
  obtain ⟨row, hmirrored, _⟩ := h
  have htxid : (row.stored s.halt_diagnostic (engine.db.effects_of approved.txid)).txid = approved.txid :=
    Database.record_txid hmirrored.found
  have houtcome : (terminal_outcome (row.stored s.halt_diagnostic (engine.db.effects_of approved.txid))).isSome = true := by
    unfold terminal_outcome RecordRow.stored
    rw [hmirrored.state]
    obtain hstate | hstate := hterminal
    · rw [hstate]
      rfl
    · rw [hstate]
      rfl
  have hread : read_active_record.Returns engine
      (some (row.stored s.halt_diagnostic (engine.db.effects_of approved.txid))) := .read (hmirrored.read_active hactive)
  -- The reconciliation is derived from the record as it is, whose settlement column it fills unless it is filled.
  have hholds : ∀ P : RecordRow → Prop, P row → Holds approved.txid s P engine := fun P hrow => ⟨row, hmirrored, hrow⟩
  unfold coordinator.reconcile_settlement
  refine hread.ensures_bind ((require_step_returns _ _ htxid).ensures_bind ?_)
  refine (((hholds (fun other => other = row) rfl).of_keeps fun db => registered_root_keeps db project_root_fd).mono
    (fun _ ht => hweaken ht) fun _ _ ht => ht).bind ?_ fun e t ht => herror (hweaken ht.1)
  rintro ⟨chain_fd, validated⟩ t ⟨ht, _⟩
  obtain ⟨other, hfound, hother⟩ := ht
  rw [hother] at hfound
  refine Prog.Ensures.bind (I := Holds approved.txid s fun _ => True) (Q := fun r t' => t' = t ∧
    r = derive_reconciliation (some (row.stored s.halt_diagnostic (engine.db.effects_of approved.txid))) validated)
    (.read ⟨rfl, rfl⟩) ?_ ?_
  · intro actions t' ⟨ht', hactions⟩
    subst ht'
    obtain ⟨_, _, hactions⟩ := bind_eq_ok_iff.mp hactions.symm
    obtain ⟨settlement, hsettlement, hactions⟩ := bind_eq_ok_iff.mp hactions
    rw [pure_eq_ok_iff] at hactions
    subst hactions
    have hsettled : settlement = none → row.settlement_digest.isSome = true := by
      rintro rfl
      exact settled_of_derived hsettlement houtcome
    have hset : ∀ (other : RecordRow) (digest : String),
        (settlement = none → other.settlement_digest.isSome = true) →
        (settlement = none → (other.set (.registration_digest digest)).settlement_digest.isSome = true) ∧
        (settlement = none → (other.set (.settlement_digest digest)).settlement_digest.isSome = true) :=
      fun other digest hother => ⟨hother, fun _ => rfl⟩
    have hstart : Holds approved.txid s (fun other => settlement = none → other.settlement_digest.isSome = true) t' :=
      ⟨row, hfound, hsettled⟩
    refine ((hstart.perform_reconciliation hactive (fun _ hrow => hrow) (fun other digest => hset other digest) chain_fd
      validated).mono (fun _ ht => hweaken ht) fun _ _ ht => ht).bind ?_ fun e t ht => herror (hweaken ht.1)
    exact fun _ t ht => .pure ⟨hweaken ht.1, fun _ => ht.2 ⟨_, rfl⟩⟩
  · intro e t' ⟨ht', _⟩
    subst ht'
    exact herror ⟨row, hfound, trivial⟩

end

/-! The whole run. -/

/-- The settlement before the detachment leaves the engine where it stands, and lets the detachment pass. -/
theorem Stands.settles (h : Stands approved plan walk) (hfollows : Follows approved plan)
    (hstep : plan.steps[walk.cursor]? = some .DetachActive) (project_root_fd : Inode) :
    (in_engine (reconcile_settlement project_root_fd approved)).Ensures walk (Stands approved plan) fun r t =>
      Stands approved plan t ∧ t.cursor = walk.cursor ∧ (r = .ok () →
        ∃ row, t.engine.db.record? approved.txid = some row ∧ row.settlement_digest.isSome = true) := by
  have hlt : walk.cursor < plan.steps.length := (List.getElem?_eq_some_iff.mp hstep).1
  obtain ⟨s, row, hs, hmirrored⟩ := h.mirrored
  obtain ⟨_, hdetach, _⟩ := hfollows.next hstep hs
  have hterminal : s.transaction_state = .COMMITTED ∨ s.transaction_state = .ROLLED_BACK := by
    have hdetach : reducer.detach_active s = .ok _ := hdetach
    unfold reducer.detach_active at hdetach
    obtain ⟨_, _, hdetach⟩ := bind_eq_ok_iff.mp hdetach
    obtain ⟨_, hterminal, _⟩ := bind_eq_ok_iff.mp hdetach
    exact require_eq_ok_iff.mp hterminal
  have hstands : ∀ {P : RecordRow → Prop} {t : Engine}, Holds approved.txid s P t →
      Stands approved plan { walk with engine := t } := by
    rintro P t ⟨row', hmirrored', _⟩
    exact ⟨h.same, h.cursor, s, row', hs, hmirrored'⟩
  have hholds : Holds approved.txid s (fun _ => True) walk.engine := ⟨row, hmirrored, trivial⟩
  refine .zoom ((hholds.reconcile_settlement (hfollows.live _ s hlt hs) hterminal project_root_fd).mono
    (fun t ht => hstands ht) ?_)
  rintro r t ⟨ht, hbound⟩
  refine ⟨hstands ht, rfl, fun hok => ?_⟩
  obtain ⟨row', hmirrored', hsettled⟩ := hbound hok
  exact ⟨row', hmirrored'.found, hsettled⟩

omit [Sha256] in
theorem Stands.ends (h : Stands approved plan walk) (hfollows : Follows approved plan)
    (hend : plan.steps.length ≤ walk.cursor) : Ends approved plan (.ok plan) walk := by
  refine ⟨h.simulates hfollows, fun other hother => ?_⟩
  rw [Except.ok.injEq] at hother
  subst hother
  exact ⟨h.same, Nat.le_antisymm h.cursor hend⟩

/-- A step that changes the volume, and what follows it: a halt that ends the run, or the steps after it. -/
theorem Stands.mutation (step : MutatingStep) {next : Option RecoveryPlan → Walking RecoveryPlan}
    {rest : Walking RecoveryPlan} (h : Stands approved plan walk) (hfollows : Follows approved plan)
    (hstep : plan.steps[walk.cursor]? = some step.step) (blobs : Blobs) (table : DescriptorTable)
    (hhalted : ∀ halt, next (some halt) = pure halt) (hdone : next none = do advance; rest)
    (hrest : ∀ {now}, Stands approved plan now → now.cursor = walk.cursor + 1 →
      rest.Ensures now (Simulates approved plan) (Ends approved plan)) :
    ( run_mutation blobs approved table plan walk.cursor step >>= next).Ensures walk (Simulates approved plan)
      (Ends approved plan) := by
  obtain ⟨s, hmutates⟩ := h.mutates hfollows hstep
  refine (hmutates.run_mutation blobs table).bind ?_ ?_
  · intro halted t hleaves
    cases halted with
    | some halt =>
      rw [hhalted]
      exact .pure hleaves
    | none =>
      obtain ⟨ht, hcursor⟩ := hleaves
      rw [hdone]
      refine ((hmutates.again ht hcursor).advance.mono (fun _ ht => ht.simulates hfollows) fun _ _ hQ => hQ).bind ?_ ?_
      · rintro _ now ⟨_, hnext, hnow⟩
        exact hrest hnow (by omega)
      · rintro e now ⟨he, _⟩
        cases he
  · intro e t hleaves
    exact ⟨hleaves, fun _ heq => by cases heq⟩

/-- The loop of the run: each turn passes a step, and the fuel lasts to the end of the plan. -/
theorem Stands.run_steps (hfollows : Follows approved plan) (project_root_fd : Inode) (blobs : Blobs)
    (table : DescriptorTable) {fuel : Nat} (h : Stands approved plan walk)
    (hfuel : plan.steps.length ≤ walk.cursor + fuel) :
    (run_steps project_root_fd blobs approved table plan fuel walk.cursor).Ensures walk (Simulates approved plan)
      (Ends approved plan) := by
  induction fuel generalizing walk with
  | zero => exact .pure (h.ends hfollows hfuel)
  | succ fuel ih =>
    unfold coordinator.run_steps
    split
    · rename_i hlt
      refine ((h.persist_plan_take hfollows hlt).mono (fun _ ht => ht.simulates hfollows) fun _ _ hQ => hQ).bind ?_ ?_
      · rintro cursor t ⟨hcursor, hle, ht, hstops⟩
        rw [Except.ok.injEq] at hcursor
        subst hcursor
        cases hstep : plan.steps[t.cursor]? with
        | none => exact .pure (ht.ends hfollows (List.getElem?_eq_none_iff.mp hstep))
        | some step =>
          have hrest : ∀ {now}, Stands approved plan now → now.cursor = t.cursor + 1 →
              (coordinator.run_steps project_root_fd blobs approved table plan fuel (t.cursor + 1)).Ensures now
                (Simulates approved plan) (Ends approved plan) := by
            intro now hnow hcursor
            rw [← hcursor]
            exact ih hnow (by omega)
          have hstop := hstops step hstep
          cases step with
          | TransformEffectTuple step =>
            exact ht.mutation (.TransformEffectTuple step) hfollows hstep blobs table (fun _ => rfl) rfl hrest
          | RemoveScratch step =>
            exact ht.mutation (.RemoveScratch step) hfollows hstep blobs table (fun _ => rfl) rfl hrest
          | DetachActive =>
            refine ((ht.settles hfollows hstep project_root_fd).mono (fun _ ht => ht.simulates hfollows)
              fun _ _ hQ => hQ).bind ?_ ?_
            · rintro _ t' ⟨ht', hcursor, hbound⟩
              rw [← hcursor] at hstep ⊢
              refine ((ht'.persist_detach hfollows hstep (hbound rfl)).mono (fun _ ht => ht.simulates hfollows)
                fun _ _ hQ => hQ).bind ?_ ?_
              · rintro cursor t'' ⟨hresult, hcursor', ht''⟩
                rw [Except.ok.injEq] at hresult
                subst hresult
                exact ih ht'' (by omega)
              · rintro e t'' ⟨he, _⟩
                cases he
            · intro e t' ht'
              exact ⟨ht'.1.simulates hfollows, fun _ heq => by cases heq⟩
          | _ => cases hstop
      · rintro e t ⟨he, _⟩
        cases he
    · rename_i hge
      exact .pure (h.ends hfollows (Nat.le_of_not_lt hge))

omit [Sha256] in
/-- No step makes a snapshot active. -/
theorem apply_steps_active {s' : RecoverySnapshot} {steps : List RecoveryStep} (h : reducer.apply_steps s steps = .ok s')
    (hactive : s'.active = true) : s.active = true := by
  induction steps generalizing s with
  | nil =>
    obtain rfl := Except.ok.inj h
    exact hactive
  | cons step rest ih =>
    rw [reducer.apply_steps, foldlM_cons_eq_ok_iff] at h
    obtain ⟨next, hnext, h⟩ := h
    have hactive := ih h
    cases step with
    | TransitionTransactionState step =>
      obtain ⟨_, _, _, _, _, _, hsame⟩ := reducer.transition_transaction_eq_ok hnext
      exact hsame ▸ hactive
    | TransitionEffectState step =>
      obtain ⟨_, _, _, hsame, _⟩ := reducer.transition_effect_eq_ok hnext
      exact hsame.active ▸ hactive
    | TransformEffectTuple step => exact (reducer.transform_effect_tuple_eq_ok hnext).record.active ▸ hactive
    | RemoveScratch step => exact (reducer.remove_scratch_eq_ok hnext).record.active ▸ hactive
    | PreserveExternal step =>
      obtain rfl := reducer.preserve_external_eq_ok hnext
      exact hactive
    | DetachActive => exact (reducer.detach_active_eq_ok hnext).1

/-- The states that recovery does not leave for one that it rolls back or cleans up from. -/
def settled_state (state : TransactionState) : Prop := state = .ROLLED_BACK ∨ state = .HALTED

omit [Sha256] in
/-- What has been rolled back, or has halted, stays so. -/
theorem apply_steps_settled {s' : RecoverySnapshot} {steps : List RecoveryStep} (h : reducer.apply_steps s steps = .ok s')
    (hsettled : settled_state s.transaction_state) : settled_state s'.transaction_state := by
  induction steps generalizing s with
  | nil =>
    obtain rfl := Except.ok.inj h
    exact hsettled
  | cons step rest ih =>
    rw [reducer.apply_steps, foldlM_cons_eq_ok_iff] at h
    obtain ⟨next, hnext, h⟩ := h
    refine ih h ?_
    cases step with
    | TransitionTransactionState step =>
      obtain ⟨hfrom, hedge, _, hstate, _⟩ := reducer.transition_transaction_eq_ok hnext
      rw [hstate]
      rw [hfrom] at hsettled
      obtain hrolled | hhalted := hsettled
      · rw [hrolled] at hedge
        cases hto : step.to_state <;> rw [hto] at hedge <;> first | exact .inr rfl | cases hedge
      · rw [hhalted] at hedge
        cases hto : step.to_state <;> rw [hto] at hedge <;> cases hedge
    | TransitionEffectState step =>
      obtain ⟨_, _, _, hsame, _⟩ := reducer.transition_effect_eq_ok hnext
      exact hsame.transaction_state ▸ hsettled
    | TransformEffectTuple step => exact (reducer.transform_effect_tuple_eq_ok hnext).record.transaction_state ▸ hsettled
    | RemoveScratch step => exact (reducer.remove_scratch_eq_ok hnext).record.transaction_state ▸ hsettled
    | PreserveExternal step =>
      obtain rfl := reducer.preserve_external_eq_ok hnext
      exact hsettled
    | DetachActive => exact (reducer.detach_active_eq_ok hnext).2.2.1 ▸ hsettled

omit [Sha256] in
/-- A plan that detaches at its end, and that settles its record by at most one step before, can be followed. -/
theorem follows_of_front (front ends : List RecoveryStep) {unsettled : RecoverySnapshot}
    (hcompiled : plan.bound_snapshot.compiled = approved.compiled)
    (htopology : plan.bound_snapshot.topology = approved.topology)
    (hreduces : ∃ final, reducer.apply_steps plan.bound_snapshot plan.steps = .ok final)
    (hsteps : plan.steps = front ++ ends ++ [.DetachActive]) (hends : ends.length ≤ 1)
    (hfront : reducer.apply_steps plan.bound_snapshot front = .ok unsettled)
    (hunsettled : front ++ ends ≠ [] → ¬ settled_state unsettled.transaction_state) : Follows approved plan := by
  obtain ⟨final, hfinal⟩ := hreduces
  refine ⟨hcompiled, htopology, ⟨final, hfinal⟩, ?_, ?_⟩
  · intro k s hk hs
    rw [hsteps, reducer.apply_steps_append_eq_ok_iff] at hfinal
    obtain ⟨before, hbefore, hdetach⟩ := hfinal
    obtain ⟨hactive, _⟩ := reducer.detach_active_eq_ok (reducer.apply_steps_singleton.mp hdetach)
    obtain ⟨_, _, happly⟩ := classifier.reduce_prefix_eq_ok_iff.mp hs
    rw [hsteps, List.length_append, List.length_singleton] at hk
    rw [hsteps, List.take_append_of_le_length (by omega)] at happly
    obtain ⟨middle, hmiddle, hrest⟩ := foldlM_take k hbefore
    rw [show reducer.apply_steps plan.bound_snapshot ((front ++ ends).take k) = .ok middle from hmiddle,
      Except.ok.injEq] at happly
    exact apply_steps_active (happly ▸ hrest) hactive
  · intro k s step hstep hdetach hs
    have hlt : k < (front ++ ends).length := by
      by_contra hge
      rw [hsteps, List.getElem?_append_right (Nat.le_of_not_lt hge)] at hstep
      obtain ⟨hindex, heq⟩ := List.getElem?_eq_some_iff.mp hstep
      have hzero : k - (front ++ ends).length = 0 := by simpa using hindex
      simp only [hzero, List.getElem_cons_zero] at heq
      exact hdetach heq.symm
    have hle : k ≤ front.length := by
      rw [List.length_append] at hlt
      omega
    obtain ⟨_, _, happly⟩ := classifier.reduce_prefix_eq_ok_iff.mp hs
    rw [hsteps, List.append_assoc, List.take_append_of_le_length hle] at happly
    obtain ⟨middle, hmiddle, hrest⟩ := foldlM_take k hfront
    rw [show reducer.apply_steps plan.bound_snapshot (front.take k) = .ok middle from hmiddle, Except.ok.injEq] at happly
    have hnonempty : front ++ ends ≠ [] := List.ne_nil_of_length_pos (by omega)
    have hnot : ¬ settled_state s.transaction_state :=
      fun hsettled => hunsettled hnonempty (apply_steps_settled (happly ▸ hrest) hsettled)
    exact not_or.mp hnot

omit [Sha256] in
/-- Every plan that acts can be followed. -/
theorem follows_of_action {source : RecoverySnapshot} {action : ActionPlan}
    (h : classifier.classify_recovery source = .ok (.ActionPlan action)) (hcompiled : source.compiled = approved.compiled)
    (htopology : source.topology = approved.topology) : Follows approved (.ActionPlan action) := by
  obtain ⟨hbound, hreduces⟩ := classifier.action_plan_reduces h
  subst hbound
  obtain ⟨hsource, hplan⟩ | ⟨hstate, hplan⟩ | ⟨_, _, _, hsteps⟩ := classifier.classify_recovery_action h
  · obtain ⟨opened, progress, settled, hrolls⟩ := classifier.rollback_plan_eq_ok hplan
    have hsteps := hrolls.steps
    have hends := hrolls.ends
    unfold classifier.terminal_steps at hsteps hends
    refine follows_of_front progress.steps [_] hcompiled htopology hreduces (hsteps.trans (List.append_assoc _ [_] _).symm) (Nat.le_refl _)
      (hrolls.unwound hsource).1.applies ?_
    rw [reducer.apply_steps, foldlM_cons_eq_ok_iff] at hends
    obtain ⟨_, hrolled, _⟩ := hends
    obtain ⟨hfrom, _⟩ := reducer.transition_transaction_eq_ok hrolled
    rw [hfrom]
    rintro _ (hrolled | hhalted)
    · cases hrolled
    · cases hhalted
  · obtain ⟨steps, final, hcommits⟩ := classifier.committed_plan_eq_ok hplan
    refine follows_of_front steps [] hcompiled htopology hreduces (by rw [List.append_nil]; exact hcommits.steps_eq)
      (Nat.zero_le _) hcommits.loop.applies ?_
    have hcommitted : final.transaction_state = .COMMITTED := hcommits.loop.clears.record.transaction_state.trans hstate
    rw [hcommitted]
    rintro _ (hrolled | hhalted)
    · cases hrolled
    · cases hhalted
  · exact follows_of_front [] [] hcompiled htopology hreduces hsteps (Nat.zero_le _) rfl
      fun hne => absurd rfl hne

end

end atoms.coordinator

import Atoms.Coordinator.Simulation.Run

open atoms.errors atoms.effects atoms.fs atoms.recovery atoms.store atoms.compiler checked keyed crash

namespace atoms.coordinator

section

variable [UnicodeData]

/-- The durable record of a transaction, as the store reads it, is the record of a snapshot. -/
structure Mirrors (db : Database) (txid : String) (s : RecoverySnapshot) (record : StoredRecord) : Prop where
  loaded : load_record db txid = .ok (some record)
  active : db.active = if s.active then some txid else none
  state : record.state = s.transaction_state
  committed : record.committed = s.commit_decision
  rollback_result : record.rollback_result = s.rollback_result
  halt_diagnostic : record.halt_diagnostic = s.halt_diagnostic
  journals : record.journals = s.journals

/-- What holds when a recovery starts to run the plan of a snapshot: the snapshot was made of the active record, which is
registered and not frozen, and the digest columns of its row are unique. -/
structure Starts (approved : ProjectApprovedSpec) (s : RecoverySnapshot) (engine : Engine) : Prop where
  compiled : s.compiled = approved.compiled
  topology : s.topology = approved.topology
  record : ∃ record, Mirrors engine.db approved.txid s record ∧ canonicalize record.spec = canonicalize s.compiled.spec ∧
    record.registration_digest.isSome = true ∧ record.assembly_halt = none
  unique : ∀ row, engine.db.record? approved.txid = some row → engine.db.unique_digests row = .ok ()

/-- The engine at one moment of a run: it has done `cursor` steps of the plan that it was given, or of the halt that has
replaced it, and the durable record is the record of that prefix. The check on the record before the next step accepts
it, the store permits every transition up to the next step on the volume, and it permits the detachment once the
settlement is bound. -/
structure Simulated (approved : ProjectApprovedSpec) (given : RecoveryPlan) (walk : Walk) : Prop where
  origin : Origin given walk.plan
  record : ∃ s record, reducer.reduce_recovery_plan_prefix walk.plan.bound_snapshot walk.plan walk.cursor = .ok s ∧
    Mirrors walk.engine.db approved.txid s record
  projects : walk.cursor < walk.plan.steps.length → ∃ record, read_active walk.engine.db = .ok (some record) ∧
    record.txid = approved.txid ∧ require_projection_matches record walk.plan walk.cursor approved = .ok ()
  persists : walk.cursor < walk.plan.steps.length →
    ∃ next walk', ( persist_plan_prefix approved walk.plan walk.cursor).Completes walk next walk'
  detaches : ∀ record, load_record walk.engine.db approved.txid = .ok (some record) →
    record.settlement_digest.isSome = true → walk.plan.steps[walk.cursor]? = some .DetachActive →
    ∃ next walk', (persist_detach approved walk.plan walk.cursor).Completes walk next walk'

variable {approved : ProjectApprovedSpec} {given plan : RecoveryPlan} {walk : Walk}

theorem Mirrored.mirrors {db : Database} {txid : String} {s : RecoverySnapshot} {row : RecordRow}
    (h : Mirrored db txid s row) : Mirrors db txid s (row.stored s.halt_diagnostic (db.effects_of txid)) :=
  ⟨h.load, h.active, h.state, h.committed, h.rollback_result, rfl, h.journals⟩

/-- The record that a recovery starts from is in a row that may be written. -/
theorem Starts.mirrored {s : RecoverySnapshot} {engine : Engine} (h : Starts approved s engine) :
    ∃ row, Mirrored engine.db approved.txid s row := by
  obtain ⟨record, hmirrors, hspec, hregistered, hunfrozen⟩ := h.record
  obtain ⟨row, diagnostic, hfound, hcoherent, hdiagnostic, rfl⟩ := exists_row_of_load hmirrors.loaded
  have heq : diagnostic = s.halt_diagnostic := hmirrors.halt_diagnostic
  exact ⟨row, hfound, hcoherent, hunfrozen, hregistered, h.unique row hfound, hmirrors.active, hspec, hmirrors.state,
    hmirrors.committed, hmirrors.rollback_result, heq ▸ hdiagnostic, hmirrors.journals⟩

/-- Where the engine follows its plan, its run is as it should be. -/
theorem Simulates.simulated (h : Simulates approved given walk) : Simulated approved given walk := by
  obtain ⟨plan, horigin, hfollows, hstands⟩ := h
  have hsame := hstands.same
  subst hsame
  obtain ⟨s, row, hs, hmirrored⟩ := hstands.mirrored
  have htxid := Database.record_txid hmirrored.found
  refine ⟨horigin, ⟨s, _, hs, hmirrored.mirrors⟩, fun hlt => ?_, fun hlt => ?_, ?_⟩
  · exact ⟨_, hmirrored.read_active (hfollows.live _ s hlt hs), htxid, hfollows.projects hlt hs hmirrored⟩
  · have hpersists := (hstands.persist_plan_take hfollows hlt).2.1
    exact ⟨_, _, Prog.completes_final hpersists⟩
  · intro record hload hsettled hstep
    rw [hmirrored.load, Except.ok.injEq, Option.some.injEq] at hload
    subst hload
    have hdetaches := (hstands.persist_detach hfollows hstep ⟨row, hmirrored.found, hsettled⟩).2.1
    exact ⟨_, _, Prog.completes_final hdetaches⟩

variable [Sha256]

/-- The durable run of a plan that acts simulates its reduction: wherever a kill may find it, the durable record is the
record of the prefix that the cursor names, and a run that returns is at the end of the plan that it returns. -/
theorem run_plan_simulates {s : RecoverySnapshot} {action : ActionPlan} {engine : Engine}
    (hplan : classifier.classify_recovery s = .ok (.ActionPlan action)) (hstarts : Starts approved s engine)
    (project_root_fd : Inode) (blobs : Blobs) (table : DescriptorTable) :
    action.bound_snapshot = s ∧ Simulated approved (.ActionPlan action) ⟨engine, .ActionPlan action, 0⟩ ∧
      (run_plan project_root_fd blobs approved table (.ActionPlan action)).Ensures ⟨engine, .ActionPlan action, 0⟩
        (Simulated approved (.ActionPlan action)) fun result walk => Simulated approved (.ActionPlan action) walk ∧
          ∀ plan, result = .ok plan → walk.plan = plan ∧ walk.cursor = plan.steps.length := by
  obtain ⟨hbound, _⟩ := classifier.action_plan_reduces hplan
  have hfollows := follows_of_action hplan hstarts.compiled hstarts.topology
  obtain ⟨row, hmirrored⟩ := hstarts.mirrored
  have hstands : Stands approved (.ActionPlan action) ⟨engine, .ActionPlan action, 0⟩ := by
    refine ⟨rfl, Nat.zero_le _, s, row, ?_, hmirrored⟩
    exact classifier.reduce_prefix_eq_ok_iff.mpr ⟨rfl, Nat.zero_le _, congrArg Except.ok hbound⟩
  refine ⟨hbound, (hstands.simulates hfollows).simulated, ?_⟩
  have hrun := hstands.run_steps hfollows project_root_fd blobs table (Nat.le_of_eq (Nat.zero_add _).symm)
  exact hrun.mono (fun _ h => h.simulated) fun _ _ h => ⟨h.1.simulated, h.2⟩

end

/-! A recovery of the two creations, killed after the first. -/

section

attribute [local instance] journal.ascii empty_digest

def killed_engine : Engine where
  disk := two_directories_engine.disk
  db := { two_directories_engine.db with
    effects := [⟨"t", "e1", .CREATE_DIRECTORY, .DONE⟩, ⟨"t", "e2", .CREATE_DIRECTORY, .PENDING⟩] }
  table := two_directories_engine.table

theorem killed_engine_starts :
    Starts two_directories_approved classifier.first_directory_created killed_engine := by
  have hrow : killed_engine.db.record? "t" =
      some ⟨"t", journal.two_directories_spec, .APPLYING, .UNCOMMITTED, none, none, some "r", none, "", none⟩ := rfl
  have hcoherent := (coherence_findings_eq_ok_nil_iff hrow).mp (by decide +kernel)
  obtain ⟨_, hdiagnostic, hload⟩ := load_record_eq hrow hcoherent rfl
  obtain rfl := pure_eq_ok_iff.mp hdiagnostic
  refine ⟨rfl, rfl, ⟨_, ⟨hload, rfl, rfl, rfl, rfl, rfl, by decide +kernel⟩, rfl, rfl, rfl⟩, ?_⟩
  intro row hfound
  rw [show killed_engine.db.record? two_directories_approved.txid = some _ from hrow, Option.some.injEq] at hfound
  subst hfound
  decide +kernel

theorem killed_engine_simulates : ∃ action,
    classifier.classify_recovery classifier.first_directory_created = .ok (.ActionPlan action) ∧
      Simulated two_directories_approved (.ActionPlan action) ⟨killed_engine, .ActionPlan action, 0⟩ ∧
      (run_plan 0 (fun _ => none) two_directories_approved killed_engine.table (.ActionPlan action)).Ensures
        ⟨killed_engine, .ActionPlan action, 0⟩ (Simulated two_directories_approved (.ActionPlan action)) fun _ walk =>
          Simulated two_directories_approved (.ActionPlan action) walk := by
  obtain ⟨action, hplan⟩ := classifier.first_directory_created_plan
  obtain ⟨_, hstart, hrun⟩ := run_plan_simulates hplan killed_engine_starts 0 (fun _ => none) killed_engine.table
  exact ⟨action, hplan, hstart, hrun.mono (fun _ h => h) fun _ _ h => h.1⟩

end

end atoms.coordinator

import Atoms.Coordinator.Serviceability
import Atoms.Coordinator.Register.Operation
import Mathlib.Logic.Relation

open atoms.errors atoms.fingerprint atoms.identifiers atoms.paths atoms.spec atoms.recovery atoms.fs atoms.store checked crash
  Relation

namespace atoms.coordinator

/-! What the commands of a root make of its tables. -/

/-- One change of the tables, whatever the volume is. -/
inductive TableStep : Carrier → Carrier → Prop
  | opened (tables : RootTables) : TableStep ⟨0, tables⟩ ⟨3, ⟨none, none⟩⟩
  | recorded {version : Nat} {tables middle tables' : RootTables} {operation_id request_json request_hash machine_id root_path : String}
    {kind : RootOperationKind} : tables.insert_root_operation operation_id kind request_json request_hash = .ok middle →
    middle.insert_root_lifecycle .read_only_unserviceable machine_id root_path kind.origin = .ok tables' →
    TableStep ⟨version, tables⟩ ⟨version, tables'⟩
  | snapshot {version : Nat} {tables tables' : RootTables} {snapshot : Snapshot} :
    tables.set_root_operation_source_snapshot snapshot = .ok tables' → TableStep ⟨version, tables⟩ ⟨version, tables'⟩
  | proved {version : Nat} {tables tables' : RootTables} {snapshot : Snapshot} {genesis_digest : Option String} :
    tables.set_root_operation_tree_proof snapshot genesis_digest = .ok tables' → TableStep ⟨version, tables⟩ ⟨version, tables'⟩
  | completed {version : Nat} {tables middle tables' : RootTables} {state : RootLifecycleState} :
    tables.set_root_lifecycle_state state = .ok middle → middle.set_root_operation_phase .complete = .ok tables' →
    TableStep ⟨version, tables⟩ ⟨version, tables'⟩
  | served {version : Nat} {tables tables' : RootTables} :
    tables.set_root_lifecycle_state .read_only_serviceable = .ok tables' → TableStep ⟨version, tables⟩ ⟨version, tables'⟩
  | admitted {version : Nat} {tables tables' : RootTables} {machine_id root_path : String} :
    tables.insert_root_lifecycle .read_only_serviceable machine_id root_path .read_serviceability = .ok tables' →
    TableStep ⟨version, tables⟩ ⟨version, tables'⟩
  | migrated {tables tables' : RootTables} {machine_id root_path : String} :
    RootTables.insert_root_lifecycle ⟨none, none⟩ .writable machine_id root_path .migration_v2 = .ok tables' →
    TableStep ⟨2, tables⟩ ⟨3, tables'⟩

/-- The tables come from those of `base` step by step. -/
def Stepped (base : Carrier) (s : RootState) : Prop := ReflTransGen TableStep base s.carrier

section

variable {base : Carrier} {α : Type}

/-- Calls on the volume leave the tables alone. -/
theorem keeps_in_root (p : Call α) : Prog.Keeps (Stepped base) (in_root p) := .zoom fun _ _ h => h

theorem keeps_commit {body : RootTables → Except Raised RootTables}
    (h : ∀ version tables tables', body tables = .ok tables' → TableStep ⟨version, tables⟩ ⟨version, tables'⟩) :
    Prog.Keeps (Stepped base) (commit_tables body) := by
  refine .call fun s a t hs hcall => ?_
  obtain ⟨tables, htables, hcall⟩ := bind_eq_ok_iff.mp hcall
  cases pure_eq_ok_iff.mp hcall
  exact ReflTransGen.tail hs (h s.carrier.version s.carrier.tables tables htables)

theorem keeps_open_store : Prog.Keeps (Stepped base) open_store := by
  refine .call fun s a t hs hcall => ?_
  split at hcall
  · rename_i hzero
    cases hcall
    obtain ⟨disk, version, tables⟩ := s
    cases hzero
    exact ReflTransGen.tail hs (.opened tables)
  · split at hcall
    · cases hcall
    · cases hcall
      exact hs

theorem keeps_require_precondition (condition : Prop) [Decidable condition] (message : String) :
    Prog.Keeps (Stepped base) (require_precondition condition message) := .ite (.pure _) (.throw _)

theorem keeps_complete (state : RootLifecycleState) : Prog.Keeps (Stepped base) (complete_root_operation state) := by
  refine keeps_commit fun version tables tables' h => ?_
  obtain ⟨middle, hmiddle, h⟩ := bind_eq_ok_iff.mp h
  exact .completed hmiddle h

end

section

variable [UnicodeData] [Sha256] {base : Carrier}

omit [UnicodeData] in
theorem keeps_register_operation (root_fd : Inode) (args : Registration) (minted : String) (request : OperationRequest) :
    Prog.Keeps (Stepped base) (register_operation root_fd args minted request) := by
  refine .bind (.read _) fun row => .bind (keeps_in_root _) fun existing => .bind (keeps_in_root _) fun claimed => ?_
  cases row with
  | some row => exact keeps_in_root _
  | none =>
    have hcommit : ∀ operation_id, Prog.Keeps (Stepped base) (commit_tables fun tables => do
        let tables ← tables.insert_root_operation operation_id .register request.operation_json request.operation_hash
        tables.insert_root_lifecycle .read_only_unserviceable args.machine_id args.project_root .register) := by
      refine fun operation_id => keeps_commit fun version tables tables' h => ?_
      obtain ⟨middle, hmiddle, h⟩ := bind_eq_ok_iff.mp h
      exact .recorded hmiddle h
    cases claimed with
    | some operation_id => exact .bind (.pure _) fun operation_id => .bind (hcommit operation_id) fun _ => .pure _
    | none => exact .bind (keeps_in_root _) fun operation_id => .bind (hcommit operation_id) fun _ => .pure _

theorem keeps_register_root (depth : Nat) (root_fd : Inode) (args : Registration) (minted : String) :
    Prog.Keeps (Stepped base) (register_root depth root_fd args minted) := by
  have hprove : ∀ digest, Prog.Keeps (Stepped base) (prove_register_tree depth root_fd digest) := by
    refine fun digest => .bind (keeps_in_root _) fun snapshot => .bind (.read _) fun row => ?_
    cases row with
    | none => exact .throw _
    | some row => exact .ite (keeps_commit fun _ _ _ h => .proved h) (.bind (keeps_in_root _) fun _ => keeps_in_root _)
  have hlease : Prog.Keeps (Stepped base) (register_under_lease depth root_fd args minted) :=
    .bind keeps_open_store fun _ => .bind (keeps_in_root _) fun _ => .bind (keeps_in_root _) fun request =>
      .bind (keeps_register_operation root_fd args minted request) fun operation_id => .bind (keeps_in_root _) fun claim =>
        .bind (keeps_in_root _) fun digest => .bind (hprove digest) fun _ => .bind (keeps_in_root _) fun _ =>
          .bind (keeps_complete _) fun _ => .pure _
  have hcarrier : ∀ view, Prog.Keeps (Stepped base) (admit_carrier root_fd args view) := by
    intro view
    unfold admit_carrier
    split
    · exact .throw _
    · exact .throw _
    · refine .bind (keeps_require_precondition _ _) fun _ => .ite (keeps_require_precondition _ _) ?_
      exact .bind (keeps_in_root _) fun claim => .ite (keeps_in_root _) (.pure _)
  exact .bind (keeps_in_root _) fun _ => .bind (.read _) fun view => .ite (keeps_in_root _)
    (.bind (hcarrier view) fun _ => hlease)

/-! The copies. -/

theorem keeps_advance_copy (depth : Nat) (plan : CopyPlan) (source : Option CopySource) (root : Inode) :
    Prog.Keeps (Stepped base) (advance_copy depth plan source root) := by
  have hrow : Prog.Keeps (Stepped base) operation_row := by
    refine .bind (.read _) fun row => ?_
    cases row with
    | none => exact .throw _
    | some row => exact .pure _
  have hproof : ∀ snapshot, Prog.Keeps (Stepped base) (proof_of snapshot) := by
    intro snapshot
    cases snapshot with
    | none => exact .throw _
    | some snapshot => exact .pure _
  have hphase : ∀ phase row body, Prog.Keeps (Stepped base) body → Prog.Keeps (Stepped base) (in_phase phase row body) :=
    fun phase row body hbody => .ite (.bind hbody fun _ => hrow) (.pure _)
  have hstamp : Prog.Keeps (Stepped base) (stamp_copy_destination plan) := by
    refine .bind (keeps_in_root _) fun request => keeps_commit fun version tables tables' h => ?_
    obtain ⟨middle, hmiddle, h⟩ := bind_eq_ok_iff.mp h
    exact .recorded hmiddle h
  have hstamped : Prog.Keeps (Stepped base) (stamped_row plan) := by
    refine .bind (.read _) fun row => ?_
    cases row with
    | none => exact .bind hstamp fun _ => hrow
    | some row => exact .bind (keeps_in_root _) fun _ => .pure _
  have htake : Prog.Keeps (Stepped base) (take_source_snapshot depth plan source) := by
    cases source with
    | none => exact .throw _
    | some source => exact .bind (keeps_in_root _) fun snapshot => keeps_commit fun _ _ _ h => .snapshot h
  have hcopy : ∀ row, Prog.Keeps (Stepped base) (copy_destination depth plan source root row) := fun row =>
    .bind (hproof _) fun snapshot => .bind (keeps_in_root _) fun digest => .bind (keeps_in_root _) fun proof =>
      .bind (keeps_in_root _) fun _ => keeps_commit fun _ _ _ h => .proved h
  have hgrant : ∀ row, Prog.Keeps (Stepped base) (grant_destination depth plan root row) := fun row =>
    .bind (hproof _) fun snapshot => .bind (hproof _) fun proof => .bind (keeps_in_root _) fun reproved =>
      .bind (keeps_in_root _) fun _ => .bind (keeps_in_root _) fun claim => .bind (keeps_in_root _) fun _ => keeps_complete _
  exact .bind hstamped fun row => .bind (hphase _ _ _ htake) fun row => .bind (hphase _ _ _ (hcopy row)) fun row =>
    .ite (hgrant row) (.pure _)

omit [UnicodeData] [Sha256] in
theorem keeps_claimed_destination_lease (args : CopyArguments) :
    Prog.Keeps (Stepped base) (claimed_destination_lease args) :=
  .bind (keeps_in_root _) fun _ => .bind keeps_open_store fun _ => .pure _

theorem keeps_resume_copy (depth : Nat) (args : CopyArguments) (claimed : Option CopyPlan) (source : Except Raised CopySource) :
    Prog.Keeps (Stepped base) (resume_copy depth args claimed source) := by
  have hfinish : ∀ plan, Prog.Keeps (Stepped base) (finish_with_source depth plan source) := by
    refine fun plan => .bind (keeps_in_root _) fun source => .bind (keeps_in_root _) fun _ =>
      .bind (keeps_claimed_destination_lease _) fun root => .bind (.read _) fun row => ?_
    cases row with
    | none => exact keeps_advance_copy _ _ _ _
    | some row => exact .bind (keeps_in_root _) fun _ => keeps_advance_copy _ _ _ _
  refine .bind (keeps_claimed_destination_lease _) fun root => .bind (.read _) fun row => .bind (keeps_in_root _) fun plan =>
    .bind (.tryCatch (.bind (keeps_advance_copy _ _ _ _) fun _ => .pure _) fun caught => ?_) fun needs_source => ?_
  · split
    · exact .pure _
    · exact .throw _
  · exact .ite (.bind (hfinish plan) fun _ => .pure _) (.pure _)

theorem keeps_copy_command (depth : Nat) (args : CopyArguments) (source : Except Raised CopySource) (minted : String) :
    Prog.Keeps (Stepped base) (copy_command depth args source minted) := by
  have hfresh : Prog.Keeps (Stepped base) (fresh_copy depth args source minted) :=
    .bind (keeps_in_root _) fun source => .bind (keeps_in_root _) fun plan => .bind (keeps_in_root _) fun claim =>
      .bind (keeps_in_root _) fun plan => .bind (keeps_claimed_destination_lease _) fun root =>
        .bind (keeps_advance_copy _ _ _ _) fun _ => .pure _
  have hcopy : Prog.Keeps (Stepped base) (copy_root depth args source minted) := by
    refine .bind (keeps_in_root _) fun claim => ?_
    cases claim with
    | some claim => exact .bind (keeps_in_root _) fun plan => keeps_resume_copy _ _ _ _
    | none =>
      refine .bind (keeps_in_root _) fun dest => ?_
      cases dest with
      | none => exact hfresh
      | some root => exact .bind (.read _) fun version => .ite (.throw _) (keeps_resume_copy _ _ _ _)
  unfold copy_command
  cases args.fork with
  | none => exact hcopy
  | some fork => exact .bind (keeps_in_root _) fun _ => hcopy

/-! The grant and the migration. -/

theorem keeps_grant_read_serviceability (root_fd : Inode) (beyond : String → Except Raised Bool) (machine_id root_path : String) :
    Prog.Keeps (Stepped base) (grant_read_serviceability root_fd beyond machine_id root_path) := by
  have htransition : Prog.Keeps (Stepped base) transition_serviceability := by
    refine keeps_commit fun version tables tables' h => ?_
    split at h
    · cases h
    · split at h
      · rename_i hset
        obtain rfl := pure_eq_ok_iff.mp h
        exact .served hset
      · cases h
      · cases h
  refine .bind (.read _) fun view => .bind (keeps_require_precondition _ _) fun _ => .bind (keeps_require_precondition _ _) fun _ =>
    .bind (keeps_require_precondition _ _) fun _ => .bind (keeps_in_root _) fun _ => ?_
  split
  · exact .pure _
  · exact .bind (keeps_require_precondition _ _) fun _ => htransition
  · exact .bind keeps_open_store fun _ => keeps_commit fun _ _ _ h => .admitted h

end

end atoms.coordinator

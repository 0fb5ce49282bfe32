import Atoms.Store.Kept

open atoms.errors atoms.effects atoms.recovery atoms.spec atoms.fs checked keyed

namespace atoms.store

/-- The operations that write no record and index no blob. -/
def Operation.is_transition : Operation → Bool
  | .promote_staging _ _ => false
  | .insert_record _ _ _ => false
  | _ => true

/-- A body that only makes such calls. -/
def Body.Transitions : Body → Prop
  | .returns => True
  | .raises _ => True
  | .call operation _ _ next => operation.is_transition = true ∧ ∀ answer db, (next answer db).Transitions

/-- The same transactions have records, and the same blobs are indexed. -/
structure SameIndex (db db' : Database) : Prop where
  blobs : db'.blobs = db.blobs
  records : ∀ txid, (db'.record? txid).isSome = (db.record? txid).isSome

theorem SameIndex.refl (db : Database) : SameIndex db db := ⟨rfl, fun _ => rfl⟩

theorem SameIndex.trans {db db' db'' : Database} (h : SameIndex db db') (h' : SameIndex db' db'') : SameIndex db db'' :=
  ⟨h'.blobs.trans h.blobs, fun txid => (h'.records txid).trans (h.records txid)⟩

section

variable [UnicodeData]

theorem same_index_set_column {txn txn' : StoreTransaction} {txid : String} {column : Column}
    (h : txn.set_column txid column = .ok txn') : SameIndex txn.db txn'.db := by
  obtain ⟨old, hold, _, _, rfl⟩ := set_column_eq_ok_iff.mp h
  refine ⟨rfl, fun other => ?_⟩
  rw [Database.put_record_record]
  split
  · rw [Option.isSome_map]
  · rfl

theorem same_index_apply {txn txn' : StoreTransaction} {operation : Operation} (htransition : operation.is_transition = true)
    (h : operation.apply txn = .ok txn') : SameIndex txn.db txn'.db := by
  cases operation with
  | promote_staging txid manifest => cases htransition
  | insert_record txid spec approval_evidence => cases htransition
  | set_transaction_state txid state => exact same_index_set_column h
  | set_commit_decision txid decision => exact same_index_set_column h
  | set_rollback_result txid result => exact same_index_set_column h
  | set_halt_diagnostic txid diagnostic => exact same_index_set_column h
  | set_registration_digest txid digest => exact same_index_set_column h
  | set_settlement_digest txid digest => exact same_index_set_column h
  | set_assembly_halt txid halt =>
    rw [Operation.apply, StoreTransaction.set_assembly_halt] at h
    cases hrow : txn.db.record? txid with
    | none =>
      rw [hrow] at h
      cases h
    | some row =>
      simp only [hrow] at h
      cases hbound : require_assembly_halt_binding txid row.approval_evidence halt with
      | error error =>
        rw [hbound] at h
        cases h
      | ok _ =>
        rw [hbound] at h
        exact same_index_set_column h
  | set_journal_state txid effect_id state =>
    obtain ⟨old, _, _, rfl⟩ := set_journal_state_eq_ok_iff.mp h
    exact ⟨rfl, fun _ => rfl⟩
  | set_active txid =>
    cases txid with
    | none =>
      rw [Operation.apply, StoreTransaction.set_active] at h
      cases hactive : txn.db.active with
      | none =>
        rw [hactive] at h
        exact pure_eq_ok_iff.mp h ▸ .refl _
      | some active =>
        rw [hactive] at h
        obtain ⟨_, _, h⟩ := bind_eq_ok_iff.mp h
        obtain rfl := pure_eq_ok_iff.mp h
        exact ⟨rfl, fun _ => rfl⟩
    | some txid =>
      obtain ⟨_, _, h⟩ := bind_eq_ok_iff.mp h
      obtain rfl := pure_eq_ok_iff.mp h
      exact ⟨rfl, fun _ => rfl⟩
  | root_table => exact pure_eq_ok_iff.mp h ▸ .refl _

theorem Body.Transitions.run {body : Body} (h : body.Transitions) (opened : OpenTransaction)
    (hclean : (body.run opened).2.poisoned_by = none) : opened.poisoned_by = none ∧
      SameIndex opened.txn.db (body.run opened).2.txn.db := by
  induction body generalizing opened with
  | returns => exact ⟨hclean, .refl _⟩
  | raises error => exact ⟨hclean, .refl _⟩
  | call operation broken left next ih =>
    obtain ⟨htransition, hnext⟩ := h
    rw [Body.run] at hclean ⊢
    obtain ⟨hpoison, hsame⟩ := ih _ _ (hnext _ _) _ hclean
    cases hattempt : operation.attempt opened.txn broken with
    | error error =>
      simp only [hattempt] at hpoison
      cases hcause : opened.poisoned_by <;> simp [hcause] at hpoison
    | ok txn =>
      simp only [OpenTransaction.mutating, hattempt] at hpoison hsame ⊢
      cases broken with
      | some error => cases hattempt
      | none => exact ⟨hpoison, (same_index_apply htransition hattempt).trans hsame⟩

/-- A transaction that ends without an error has the tables of its body, which nothing has poisoned. -/
theorem run_eq_ok {db db' : Database} {body : Body} {refused : Option Raised} (h : db.run body refused = (.ok (), db')) :
    (body.run (.start db)).1 = .ok () ∧ (body.run (.start db)).2.poisoned_by = none ∧
      (body.run (.start db)).2.run_barrier = .ok () ∧ db' = (body.run (.start db)).2.txn.db := by
  unfold Database.run at h
  cases hcommit : (body.run (.start db)).2.commit (body.run (.start db)).1 refused with
  | error error =>
    simp only [hcommit] at h
    cases h
  | ok _ =>
    simp only [hcommit, Prod.mk.injEq, true_and] at h
    obtain ⟨_, hended, hcommit⟩ := bind_eq_ok_iff.mp hcommit
    obtain ⟨_, hpoison, hcommit⟩ := bind_eq_ok_iff.mp hcommit
    obtain ⟨_, hbarrier, _⟩ := bind_eq_ok_iff.mp hcommit
    refine ⟨hended, ?_, hbarrier, h.symm⟩
    rw [OpenTransaction.require_not_poisoned] at hpoison
    cases hcause : (body.run (.start db)).2.poisoned_by with
    | none => rfl
    | some cause =>
      rw [hcause] at hpoison
      cases hpoison

/-- A transaction that ends with an error leaves the tables. -/
theorem run_eq_error {db db' : Database} {body : Body} {refused : Option Raised} {error : Raised}
    (h : db.run body refused = (.error error, db')) : db' = db := by
  unfold Database.run at h
  cases hcommit : (body.run (.start db)).2.commit (body.run (.start db)).1 refused with
  | ok _ =>
    simp only [hcommit] at h
    cases h
  | error error =>
    simp only [hcommit, Prod.mk.injEq] at h
    exact h.2.symm

/-- Transitions, committed or not, leave the index as it was. -/
theorem Body.Transitions.same_index {body : Body} (h : body.Transitions) (db : Database) (refused : Option Raised) :
    SameIndex db (db.run body refused).2 := by
  cases hrun : db.run body refused with
  | mk result db' =>
    cases result with
    | ok _ =>
      obtain ⟨_, hclean, _, rfl⟩ := run_eq_ok hrun
      exact (h.run _ hclean).2
    | error error => exact run_eq_error hrun ▸ .refl db

/-- What each operation that takes effect keeps, a body keeps that nothing poisons. -/
theorem Body.run_keeps {P : Database → Prop}
    (happly : ∀ operation (txn txn' : StoreTransaction), Operation.apply txn operation = .ok txn' → P txn.db → P txn'.db)
    (body : Body) (opened : OpenTransaction) (hclean : (body.run opened).2.poisoned_by = none) :
    opened.poisoned_by = none ∧ (P opened.txn.db → P (body.run opened).2.txn.db) := by
  induction body generalizing opened with
  | returns => exact ⟨hclean, id⟩
  | raises error => exact ⟨hclean, id⟩
  | call operation broken left next ih =>
    rw [Body.run] at hclean ⊢
    obtain ⟨hpoison, hkeeps⟩ := ih _ _ _ hclean
    cases hattempt : operation.attempt opened.txn broken with
    | error error =>
      simp only [hattempt] at hpoison
      cases hcause : opened.poisoned_by <;> simp [hcause] at hpoison
    | ok txn =>
      simp only [OpenTransaction.mutating, hattempt] at hpoison hkeeps ⊢
      refine ⟨hpoison, fun hstart => hkeeps ?_⟩
      cases broken with
      | some error => cases hattempt
      | none => exact happly operation _ _ hattempt hstart

/-- And so does a transaction, committed or not. -/
theorem Database.run_keeps {P : Database → Prop}
    (happly : ∀ operation (txn txn' : StoreTransaction), Operation.apply txn operation = .ok txn' → P txn.db → P txn'.db)
    {db : Database} (h : P db) (body : Body) (refused : Option Raised) : P (db.run body refused).2 := by
  cases hrun : db.run body refused with
  | mk result db' =>
    cases result with
    | ok _ =>
      obtain ⟨_, hclean, _, rfl⟩ := run_eq_ok hrun
      exact (body.run_keeps happly _ hclean).2 h
    | error error => exact run_eq_error hrun ▸ h

/-- No transaction removes or changes the row of a blob. -/
theorem run_blobs (db : Database) (body : Body) (refused : Option Raised) {digest : String} {byte_len : Int}
    (h : select_blob db digest = some byte_len) : select_blob (db.run body refused).2 digest = some byte_len := by
  obtain ⟨row, hrow, hlength⟩ := Option.map_eq_some_iff.mp h
  cases hrun : db.run body refused with
  | mk result db' =>
    cases result with
    | ok _ =>
      obtain ⟨_, hclean, _, rfl⟩ := run_eq_ok hrun
      have hextends := (body.run_extends (.start db) hclean).2 (Extends.refl db)
      rw [select_blob, hextends.blobs digest row hrow, Option.map_some, hlength]
    | error error => exact run_eq_error hrun ▸ h

/-! The assembly halts. -/

/-- The assembly halt of a row is bound to the row. -/
def RecordRow.HaltBound (row : RecordRow) : Prop :=
  ∀ halt ∈ row.assembly_halt, require_assembly_halt_binding row.txid row.approval_evidence halt = .ok ()

def Database.HaltsBound (db : Database) : Prop := ∀ row ∈ db.records, row.HaltBound

theorem halts_bound_set_column {txn txn' : StoreTransaction} {txid : String} {column : Column}
    (h : txn.set_column txid column = .ok txn') (hbound : txn.db.HaltsBound)
    (hcolumn : ∀ row, txn.db.record? txid = some row → row.HaltBound → (row.set column).HaltBound) : txn'.db.HaltsBound := by
  obtain ⟨old, hold, _, _, rfl⟩ := set_column_eq_ok_iff.mp h
  intro row hrow
  obtain ⟨other, hother, rfl⟩ := List.mem_map.mp hrow
  by_cases heq : other.txid = (old.set column).txid
  · rw [if_pos heq]
    exact hcolumn old hold (hbound old (find_key_some hold).1)
  · rw [if_neg heq]
    exact hbound other hother

theorem halts_bound_apply (operation : Operation) (txn txn' : StoreTransaction) (h : operation.apply txn = .ok txn')
    (hbound : txn.db.HaltsBound) : txn'.db.HaltsBound := by
  cases operation with
  | promote_staging txid manifest => exact pure_eq_ok_iff.mp h ▸ hbound
  | insert_record txid spec approval_evidence =>
    obtain ⟨_, _, h⟩ := bind_eq_ok_iff.mp h
    obtain ⟨_, _, h⟩ := bind_eq_ok_iff.mp h
    obtain rfl := pure_eq_ok_iff.mp h
    intro row hrow
    rcases List.mem_append.mp hrow with hold | hnew
    · exact hbound row hold
    · rw [List.mem_singleton.mp hnew]
      intro halt hhalt
      cases hhalt
  | set_transaction_state txid state => exact halts_bound_set_column h hbound fun _ _ => id
  | set_commit_decision txid decision => exact halts_bound_set_column h hbound fun _ _ => id
  | set_rollback_result txid result => exact halts_bound_set_column h hbound fun _ _ => id
  | set_halt_diagnostic txid diagnostic => exact halts_bound_set_column h hbound fun _ _ => id
  | set_registration_digest txid digest => exact halts_bound_set_column h hbound fun _ _ => id
  | set_settlement_digest txid digest => exact halts_bound_set_column h hbound fun _ _ => id
  | set_assembly_halt txid halt =>
    rw [Operation.apply, StoreTransaction.set_assembly_halt] at h
    cases hrow : txn.db.record? txid with
    | none =>
      rw [hrow] at h
      cases h
    | some row =>
      simp only [hrow] at h
      cases hhalt : require_assembly_halt_binding txid row.approval_evidence halt with
      | error error =>
        rw [hhalt] at h
        cases h
      | ok _ =>
        rw [hhalt] at h
        refine halts_bound_set_column h hbound fun other hother _ => ?_
        obtain rfl := Option.some.inj (hrow.symm.trans hother)
        intro other hother
        obtain rfl := Option.some.inj hother
        rw [← Database.record_txid hrow] at hhalt
        exact hhalt
  | set_journal_state txid effect_id state =>
    obtain ⟨old, _, _, rfl⟩ := set_journal_state_eq_ok_iff.mp h
    exact hbound
  | set_active txid =>
    cases txid with
    | none =>
      rw [Operation.apply, StoreTransaction.set_active] at h
      cases hactive : txn.db.active with
      | none =>
        rw [hactive] at h
        exact pure_eq_ok_iff.mp h ▸ hbound
      | some active =>
        rw [hactive] at h
        obtain ⟨_, _, h⟩ := bind_eq_ok_iff.mp h
        obtain rfl := pure_eq_ok_iff.mp h
        exact hbound
    | some txid =>
      obtain ⟨_, _, h⟩ := bind_eq_ok_iff.mp h
      obtain rfl := pure_eq_ok_iff.mp h
      exact hbound
  | root_table => exact pure_eq_ok_iff.mp h ▸ hbound

variable [Sha256] {dirs : Directories} {captured : List (List UInt8)} {db db' : Database} {d : Disk}

theorem Kept.same_index (h : Kept dirs captured db d) (hsame : SameIndex db db')
    (hcoherent : ∀ txid, coherence_findings db' txid = .ok []) : Kept dirs captured db' d :=
  { h with
    indexed := fun digest byte_len hrow => h.indexed digest byte_len (by rwa [select_blob, hsame.blobs] at hrow)
    recorded := fun txid hsome => h.recorded txid (by rwa [hsame.records] at hsome)
    coherent := hcoherent }

end

end atoms.store

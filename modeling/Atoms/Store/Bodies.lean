import Atoms.Recovery.Journal.Authority
import Atoms.Store.Coherence

open atoms.errors atoms.effects atoms.recovery atoms.spec atoms.compiler checked keyed

namespace atoms.store

/-! The body of a store transaction, as the calls that it makes of the store's operations. -/

/-- A call of one of the operations. -/
inductive Operation
  | promote_staging (txid : String) (manifest : List StagedBlob)
  | insert_record (txid : String) (spec : TransactionSpec) (approval_evidence : String)
  | set_transaction_state (txid : String) (state : TransactionState)
  | set_commit_decision (txid : String) (decision : CommitDecision)
  | set_rollback_result (txid : String) (result : RollbackResult)
  | set_halt_diagnostic (txid : String) (diagnostic : HaltDiagnostic)
  | set_registration_digest (txid digest : String)
  | set_settlement_digest (txid digest : String)
  | set_assembly_halt (txid : String) (halt : AssemblyHalt)
  | set_journal_state (txid effect_id : String) (state : JournalState)
  | set_active (txid : Option String)
  /-- An operation on the tables of the root, which say nothing of any record. -/
  | root_table

/-- The transaction and the digests that an operation promotes. -/
def Operation.promoted : Operation → List (String × String)
  | .promote_staging txid manifest => manifest.map fun entry => (txid, entry.digest)
  | _ => []

/-- `type(caught).__name__` -/
def class_name : Raised → String
  | .OSError _ => "OSError"
  | .IntegrityError _ => "IntegrityError"
  | .EffectMismatch _ _ _ => "EffectMismatch"
  | .MetadataStoreInvalid _ => "MetadataStoreInvalid"
  | .ChainStateInvalid _ => "ChainStateInvalid"
  | .AtomsError (.ProtocolError _) => "ProtocolError"
  | .AtomsError (.SpecValidationError _) => "SpecValidationError"
  | .AtomsError (.ProjectApprovalRefused _) => "ProjectApprovalRefused"
  | .AtomsError (.PreconditionRefused _) => "PreconditionRefused"
  | .AtomsError (.CapabilityUnavailable _) => "CapabilityUnavailable"
  | .AtomsError (.TransactionHalted _) => "TransactionHalted"
  | .AtomsError (.PendingUnresolved _) => "PendingUnresolved"
  | .AtomsError (.RootOperationInvalid _) => "RootOperationInvalid"
  | .AtomsError (.RootOperationMismatch _) => "RootOperationMismatch"
  | .AtomsError (.SourceSnapshotMoved _) => "SourceSnapshotMoved"
  | .RecursionError => "RecursionError"
  | .KeyError => "KeyError"
  | .NeedsSource => "_NeedsSource"

/-- The open transaction: its tables and the records it has touched, what it has promoted for which record, and the
first failure of a call. -/
structure OpenTransaction where
  txn : StoreTransaction
  promoted : List (String × String)
  poisoned_by : Option Raised

/-- A body: it returns, it raises, or it makes a call and goes on with the answer and with whatever it reads of the
tables. A call may also break off for a reason outside the tables, and one that raises leaves anything in them. -/
inductive Body
  | returns
  | raises (error : Raised)
  | call (operation : Operation) (broken : Option Raised) (left : Database)
    (next : Except Raised Unit → Database → Body)

section

variable [UnicodeData]

def Operation.apply (txn : StoreTransaction) : Operation → Except Raised StoreTransaction
  | .promote_staging txid manifest => pure (txn.promote_staging txid manifest)
  | .insert_record txid spec approval_evidence => txn.insert_record txid spec approval_evidence
  | .set_transaction_state txid state => txn.set_transaction_state txid state
  | .set_commit_decision txid decision => txn.set_commit_decision txid decision
  | .set_rollback_result txid result => txn.set_rollback_result txid result
  | .set_halt_diagnostic txid diagnostic => txn.set_halt_diagnostic txid diagnostic
  | .set_registration_digest txid digest => txn.set_registration_digest txid digest
  | .set_settlement_digest txid digest => txn.set_settlement_digest txid digest
  | .set_assembly_halt txid halt => txn.set_assembly_halt txid halt
  | .set_journal_state txid effect_id state => txn.set_journal_state txid effect_id state
  | .set_active txid => txn.set_active txid
  | .root_table => pure txn

/-- A call that breaks off before its end, or not. -/
def Operation.attempt (txn : StoreTransaction) (operation : Operation) : Option Raised → Except Raised StoreTransaction
  | some error => throw error
  | none => operation.apply txn

namespace OpenTransaction

/-- `_mutating`: a call that raises poisons the transaction, and the first cause stays. -/
def mutating (opened : OpenTransaction) (operation : Operation) (broken : Option Raised) (left : Database) :
    Except Raised Unit × OpenTransaction :=
  match operation.attempt opened.txn broken with
  | .ok txn => (.ok (), { opened with txn, promoted := opened.promoted ++ operation.promoted })
  | .error error => (.error error,
    { opened with txn := { opened.txn with db := left }, poisoned_by := opened.poisoned_by.or (some error) })

/-- `_require_not_poisoned` -/
def require_not_poisoned (opened : OpenTransaction) : Except Raised Unit :=
  match opened.poisoned_by with
  | none => pure ()
  | some cause => throw (.AtomsError (.ProtocolError ("this transaction is poisoned: a write raised " ++
    class_name cause ++ " and was caught inside the transaction block. SQLite rolls back the failing statement, not " ++
    "the transaction, so whatever ran before it is still there; committing would make a partial write durable")))

/-- The digests that were promoted for a record and that the record does not reference. -/
def unreferenced (opened : OpenTransaction) (txid : String) : List String :=
  let referenced := match opened.txn.db.record? txid with
    | none => []
    | some row => (referenced_digests row.spec).map Prod.fst
  sorted_by id (((opened.promoted.filter fun item => item.1 = txid).map Prod.snd).filter fun digest =>
    digest ∉ referenced).dedup

/-- `_run_barrier` -/
def run_barrier (opened : OpenTransaction) : Except Raised Unit := do
  opened.txn.run_barrier
  (sorted_by id (opened.promoted.map Prod.fst).dedup).forM fun txid =>
    require_store (opened.unreferenced txid = []) ("this transaction promoted digests the record for txid " ++
      py_repr txid ++ " does not reference: " ++ String.intercalate ", " (opened.unreferenced txid) ++
      ". A committed blob row with no reference is invisible to both reclaimers and would be stranded permanently")

/-- `BEGIN IMMEDIATE` -/
def start (db : Database) : OpenTransaction :=
  { txn := { db, touched := [] }, promoted := [], poisoned_by := none }

/-- The end of `Store.transaction`, after a body that has ended so. -/
def commit (opened : OpenTransaction) (ended : Except Raised Unit) (refused : Option Raised) : Except Raised Unit := do
  ended
  opened.require_not_poisoned
  opened.run_barrier
  match refused with
  | none => pure ()
  | some error => throw error

end OpenTransaction

def Body.run : Body → OpenTransaction → Except Raised Unit × OpenTransaction
  | .returns, opened => (.ok (), opened)
  | .raises error, opened => (.error error, opened)
  | .call operation broken left next, opened =>
    let (answer, opened) := opened.mutating operation broken left
    (next answer opened.txn.db).run opened

/-- `with store.transaction() as txn: body`: what it raises, if it does, and the tables after it. `refused` is what the
last gate or the commit raises. -/
def Database.run (db : Database) (body : Body) (refused : Option Raised) : Except Raised Unit × Database :=
  let (ended, opened) := body.run (.start db)
  match opened.commit ended refused with
  | .ok () => (.ok (), opened.txn.db)
  | .error error => (.error error, db)

/-- The tables after a sequence of transactions. -/
def Database.run_all (db : Database) : List (Body × Option Raised) → Database
  | [] => db
  | (body, refused) :: rest => (db.run body refused).2.run_all rest

/-! What a transaction has changed since it began. -/

/-- Since `db`, only touched records have changed, no record and no blob row is gone, and an active transaction that
was not active before is touched. -/
structure Extends (db : Database) (txn : StoreTransaction) : Prop where
  records : ∀ txid ∉ txn.touched, txn.db.record? txid = db.record? txid
  effects : ∀ txid ∉ txn.touched, txn.db.effects_of txid = db.effects_of txid
  blobs : ∀ digest row, find_key BlobRow.digest db.blobs digest = some row →
    find_key BlobRow.digest txn.db.blobs digest = some row
  kept : ∀ txid, (db.record? txid).isSome → (txn.db.record? txid).isSome
  active : ∀ active ∈ txn.db.active, active ∈ txn.touched ∨ db.active = some active

namespace Extends

omit [UnicodeData]

variable {db db' : Database} {txn : StoreTransaction}

theorem refl (db : Database) : Extends db { db, touched := [] } where
  records _ _ := rfl
  effects _ _ := rfl
  blobs _ _ h := h
  kept _ h := h
  active _ h := .inr h

/-- What an operation on one record changes. -/
theorem touch (h : Extends db txn) {txid : String} (hrecords : ∀ other ≠ txid, db'.record? other = txn.db.record? other)
    (heffects : ∀ other ≠ txid, db'.effects_of other = txn.db.effects_of other)
    (hblobs : ∀ digest row, find_key BlobRow.digest txn.db.blobs digest = some row →
      find_key BlobRow.digest db'.blobs digest = some row)
    (hkept : (txn.db.record? txid).isSome → (db'.record? txid).isSome)
    (hactive : ∀ active ∈ db'.active, active = txid ∨ txn.db.active = some active) :
    Extends db { db := db', touched := txid :: txn.touched } where
  records other hother := by
    rw [List.mem_cons, not_or] at hother
    exact (hrecords other hother.1).trans (h.records other hother.2)
  effects other hother := by
    rw [List.mem_cons, not_or] at hother
    exact (heffects other hother.1).trans (h.effects other hother.2)
  blobs digest row hrow := hblobs digest row (h.blobs digest row hrow)
  kept other hother := by
    have hsome := h.kept other hother
    by_cases heq : other = txid
    · rw [heq] at hsome ⊢
      exact hkept hsome
    · rw [hrecords other heq]
      exact hsome
  active active hmem := by
    rcases hactive active hmem with rfl | hold
    · exact .inl List.mem_cons_self
    · exact (h.active active hold).imp (List.mem_cons_of_mem _) id

end Extends

omit [UnicodeData] in
theorem find_promoted (blobs : List BlobRow) (manifest : List StagedBlob) {digest : String} {row : BlobRow}
    (h : find_key BlobRow.digest blobs digest = some row) :
    find_key BlobRow.digest (manifest.foldl (fun blobs entry =>
      if (find_key BlobRow.digest blobs entry.digest).isSome then blobs
      else blobs ++ [⟨entry.digest, entry.byte_len⟩]) blobs) digest = some row := by
  induction manifest generalizing blobs with
  | nil => exact h
  | cons entry rest ih =>
    rw [List.foldl_cons]
    refine ih _ ?_
    by_cases hsome : (find_key BlobRow.digest blobs entry.digest).isSome
    · rw [if_pos hsome]
      exact h
    · have hne : entry.digest ≠ digest := by
        rintro rfl
        rw [h] at hsome
        exact hsome rfl
      rw [if_neg hsome, find_key_append, find_key, find_key, Option.none_or, if_neg hne, Option.none_or]
      exact h

theorem Extends.set_column {db : Database} {txn txn' : StoreTransaction} {txid : String} {column : Column}
    (h : Extends db txn) (hset : txn.set_column txid column = .ok txn') : Extends db txn' := by
  obtain ⟨old, hold, _, _, rfl⟩ := set_column_eq_ok_iff.mp hset
  have hkey : (old.set column).txid = txid := by
    rw [← Database.record_txid hold]
    cases column <;> rfl
  refine h.touch (fun other hother => ?_) (fun _ _ => rfl) (fun _ _ hrow => hrow) (fun _ => ?_) fun _ hactive => .inr hactive
  · rw [Database.put_record_record, hkey, if_neg hother]
  · rw [Database.put_record_record, hkey, if_pos rfl, hold]
    rfl

omit [UnicodeData] in
theorem insert_record_ok {txn txn' : StoreTransaction} {txid approval_evidence : String} {spec : TransactionSpec}
    (h : txn.insert_record txid spec approval_evidence = .ok txn') :
    txn.db.record? txid = none ∧ ∃ row rows, row.txid = txid ∧ (∀ effect ∈ rows, effect.txid = txid) ∧
      txn' = ⟨{ txn.db with records := txn.db.records ++ [row], effects := txn.db.effects ++ rows }, txid :: txn.touched⟩ := by
  obtain ⟨_, hnew, h⟩ := bind_eq_ok_iff.mp h
  obtain ⟨_, _, h⟩ := bind_eq_ok_iff.mp h
  refine ⟨Option.isNone_iff_eq_none.mp (require_eq_ok_iff.mp hnew), _, _, ?_, ?_, (pure_eq_ok_iff.mp h).symm⟩
  · rfl
  · intro effect heffect
    obtain ⟨_, _, rfl⟩ := List.mem_map.mp heffect
    rfl

omit [UnicodeData] in
theorem Extends.insert_record {db : Database} {txn txn' : StoreTransaction} {txid approval_evidence : String}
    {spec : TransactionSpec} (h : Extends db txn) (hinsert : txn.insert_record txid spec approval_evidence = .ok txn') :
    Extends db txn' := by
  obtain ⟨hnew, row, rows, hrow, hrows, rfl⟩ := insert_record_ok hinsert
  refine h.touch (fun other hother => ?_) (fun other hother => ?_) (fun _ _ hblob => hblob) (fun hsome => ?_)
    fun _ hactive => .inr hactive
  · have hne : row.txid ≠ other := hrow ▸ Ne.symm hother
    rw [Database.record?, find_key_append, find_key, find_key, Option.none_or, if_neg hne, Option.none_or]
    rfl
  · have hnone : rows.filter (fun effect => effect.txid = other) = [] := by
      rw [List.filter_eq_nil_iff]
      intro effect heffect heq
      exact hother ((of_decide_eq_true heq).symm.trans (hrows effect heffect))
    rw [Database.effects_of, List.filter_append, hnone, List.append_nil]
    rfl
  · rw [hnew] at hsome
    cases hsome

theorem Extends.apply {db : Database} {txn txn' : StoreTransaction} {operation : Operation} (h : Extends db txn)
    (happly : operation.apply txn = .ok txn') : Extends db txn' := by
  cases operation with
  | promote_staging txid manifest =>
    obtain rfl := pure_eq_ok_iff.mp happly
    exact h.touch (fun _ _ => rfl) (fun _ _ => rfl) (fun _ _ hrow => find_promoted _ manifest hrow) id fun _ hactive =>
      .inr hactive
  | insert_record txid spec approval_evidence => exact h.insert_record happly
  | set_transaction_state txid state => exact h.set_column happly
  | set_commit_decision txid decision => exact h.set_column happly
  | set_rollback_result txid result => exact h.set_column happly
  | set_halt_diagnostic txid diagnostic => exact h.set_column happly
  | set_registration_digest txid digest => exact h.set_column happly
  | set_settlement_digest txid digest => exact h.set_column happly
  | set_assembly_halt txid halt =>
    rw [Operation.apply, StoreTransaction.set_assembly_halt] at happly
    cases hrow : txn.db.record? txid with
    | none =>
      rw [hrow] at happly
      cases happly
    | some row =>
      simp only [hrow] at happly
      cases hbound : require_assembly_halt_binding txid row.approval_evidence halt with
      | error error =>
        rw [hbound] at happly
        cases happly
      | ok _ =>
        rw [hbound] at happly
        exact h.set_column happly
  | set_journal_state txid effect_id state =>
    obtain ⟨old, _, _, rfl⟩ := set_journal_state_eq_ok_iff.mp happly
    exact h.touch (fun _ _ => rfl) (fun other hother => Database.put_journal_effects_of_ne hother effect_id state)
      (fun _ _ hrow => hrow) id fun _ hactive => .inr hactive
  | set_active txid =>
    cases txid with
    | none =>
      rw [Operation.apply, StoreTransaction.set_active] at happly
      cases hactive : txn.db.active with
      | none =>
        rw [hactive] at happly
        exact pure_eq_ok_iff.mp happly ▸ h
      | some active =>
        rw [hactive] at happly
        obtain ⟨_, _, happly⟩ := bind_eq_ok_iff.mp happly
        obtain rfl := pure_eq_ok_iff.mp happly
        exact ⟨h.records, h.effects, h.blobs, h.kept, fun other hother => absurd hother (Option.not_mem_none other)⟩
    | some txid =>
      obtain ⟨_, _, happly⟩ := bind_eq_ok_iff.mp happly
      obtain rfl := pure_eq_ok_iff.mp happly
      refine h.touch (fun _ _ => rfl) (fun _ _ => rfl) (fun _ _ hrow => hrow) id ?_
      rintro active ⟨rfl⟩
      exact .inl rfl
  | root_table => exact pure_eq_ok_iff.mp happly ▸ h

/-- A poisoned transaction stays poisoned, and one that ends without poison has changed what its calls changed. -/
theorem Body.run_extends {db : Database} (body : Body) (opened : OpenTransaction)
    (h : (body.run opened).2.poisoned_by = none) :
    opened.poisoned_by = none ∧ (Extends db opened.txn → Extends db (body.run opened).2.txn) := by
  induction body generalizing opened with
  | returns => exact ⟨h, id⟩
  | raises error => exact ⟨h, id⟩
  | call operation broken left next ih =>
    rw [Body.run] at h ⊢
    obtain ⟨hpoison, hextends⟩ := ih _ _ _ h
    cases hattempt : operation.attempt opened.txn broken with
    | error error =>
      simp only [hattempt] at hpoison
      cases hcause : opened.poisoned_by <;> simp [hcause] at hpoison
    | ok txn =>
      simp only [OpenTransaction.mutating, hattempt] at hpoison hextends ⊢
      refine ⟨hpoison, fun hstart => hextends ?_⟩
      cases broken with
      | some error => cases hattempt
      | none => exact hstart.apply hattempt

/-- A referenced blob stays indexed. -/
theorem blob_findings_nil {spec : TransactionSpec} {blobs blobs' : List BlobRow}
    (hkept : ∀ digest row, find_key BlobRow.digest blobs digest = some row → find_key BlobRow.digest blobs' digest = some row)
    (h : blob_findings spec blobs = []) : blob_findings spec blobs' = [] := by
  rw [blob_findings, List.flatMap_eq_nil_iff] at h ⊢
  rintro ⟨digest, byte_len⟩ hmem
  have hitem := h (digest, byte_len) hmem
  simp only at hitem ⊢
  cases hfind : find_key BlobRow.digest blobs digest with
  | none =>
    rw [hfind] at hitem
    cases hitem
  | some row =>
    rw [hfind] at hitem
    rw [hkept digest row hfind]
    exact hitem

theorem active_record {db : Database} {active : String} (h : coherence_findings db active = .ok [])
    (hactive : active ∈ db.active) : (db.record? active).isSome := by
  cases hrow : db.record? active with
  | some row => rfl
  | none =>
    rw [coherence_findings, hrow, pure_eq_ok_iff, active_findings, finding_eq_nil_iff] at h
    rw [← hrow]
    exact h active hactive

/-- Where the barrier accepts what was touched, every record is coherent that was coherent. -/
theorem Extends.coherent {db : Database} {txn : StoreTransaction} (h : Extends db txn)
    (hcoherent : ∀ txid, coherence_findings db txid = .ok [])
    (hbarrier : ∀ txid ∈ txn.touched, coherence_findings txn.db txid = .ok []) (txid : String) :
    coherence_findings txn.db txid = .ok [] := by
  have hactive : ∀ active ∈ txn.db.active, (txn.db.record? active).isSome := by
    intro active hmem
    rcases h.active active hmem with htouched | hold
    · exact active_record (hbarrier active htouched) hmem
    · exact h.kept active (active_record (hcoherent active) hold)
  by_cases htouched : txid ∈ txn.touched
  · exact hbarrier txid htouched
  · have hstart := hcoherent txid
    have hrecord := h.records txid htouched
    cases hrow : db.record? txid with
    | none =>
      rw [hrow] at hrecord
      rw [coherence_findings, hrecord, pure_eq_ok_iff, active_findings, finding_eq_nil_iff]
      exact hactive
    | some row =>
      rw [hrow] at hrecord
      have hcoherent := (coherence_findings_eq_ok_nil_iff hrow).mp hstart
      have heffects : txn.db.effects_of row.txid = db.effects_of row.txid := by
        rw [Database.record_txid hrow]
        exact h.effects txid htouched
      refine (coherence_findings_eq_ok_nil_iff hrecord).mpr ⟨hcoherent.compiles, ?_, ?_, hcoherent.rolled_back,
        hcoherent.halted, ?_, hactive⟩
      · rw [heffects]
        exact hcoherent.effects
      · exact blob_findings_nil h.blobs hcoherent.blobs
      · rw [heffects]
        exact hcoherent.diagnostic

/-- A transaction that ends with an error, or with poison, leaves the tables as they were. -/
theorem run_refused (db : Database) (body : Body) (refused : Option Raised)
    (h : (∃ error, (body.run (.start db)).1 = .error error) ∨ (body.run (.start db)).2.poisoned_by ≠ none) :
    ∃ error, db.run body refused = (.error error, db) := by
  unfold Database.run
  cases hcommit : (body.run (.start db)).2.commit (body.run (.start db)).1 refused with
  | error error => exact ⟨error, by simp only [hcommit]⟩
  | ok _ =>
    obtain ⟨_, hended, hcommit⟩ := bind_eq_ok_iff.mp hcommit
    obtain ⟨_, hpoison, _⟩ := bind_eq_ok_iff.mp hcommit
    rcases h with ⟨error, herror⟩ | hpoisoned
    · rw [herror] at hended
      cases hended
    · rw [OpenTransaction.require_not_poisoned] at hpoison
      cases hcause : (body.run (.start db)).2.poisoned_by with
      | none => exact absurd hcause hpoisoned
      | some cause =>
        rw [hcause] at hpoison
        cases hpoison

theorem run_coherent {db : Database} (h : ∀ txid, coherence_findings db txid = .ok []) (body : Body)
    (refused : Option Raised) (txid : String) : coherence_findings (db.run body refused).2 txid = .ok [] := by
  unfold Database.run
  cases hcommit : (body.run (.start db)).2.commit (body.run (.start db)).1 refused with
  | error error =>
    simp only [hcommit]
    exact h txid
  | ok _ =>
    simp only [hcommit]
    obtain ⟨_, _, hcommit⟩ := bind_eq_ok_iff.mp hcommit
    obtain ⟨_, hpoison, hcommit⟩ := bind_eq_ok_iff.mp hcommit
    obtain ⟨_, hbarrier, _⟩ := bind_eq_ok_iff.mp hcommit
    obtain ⟨_, hbarrier, _⟩ := bind_eq_ok_iff.mp hbarrier
    have hclean : (body.run (.start db)).2.poisoned_by = none := by
      rw [OpenTransaction.require_not_poisoned] at hpoison
      cases hcause : (body.run (.start db)).2.poisoned_by with
      | none => rfl
      | some cause =>
        rw [hcause] at hpoison
        cases hpoison
    have hextends := (body.run_extends (.start db) hclean).2 (Extends.refl db)
    exact hextends.coherent h (barrier_eq_ok_iff.mp hbarrier) txid

theorem run_all_concat (db : Database) (before : List (Body × Option Raised)) (body : Body) (refused : Option Raised) :
    db.run_all (before ++ [(body, refused)]) = ((db.run_all before).run body refused).2 := by
  induction before generalizing db with
  | nil => rfl
  | cons item rest ih => exact ih _

/-- Whatever the bodies are and wherever they fail, no record of the store ever has a finding, and a body that raises or
poisons its transaction leaves the tables as they were. -/
theorem run_all_coherent {db : Database} (h : ∀ txid, coherence_findings db txid = .ok [])
    (bodies : List (Body × Option Raised)) :
    (∀ txid, coherence_findings (db.run_all bodies) txid = .ok []) ∧
      ∀ body refused, (∃ error, (body.run (.start (db.run_all bodies))).1 = .error error) ∨
        (body.run (.start (db.run_all bodies))).2.poisoned_by ≠ none →
        db.run_all (bodies ++ [(body, refused)]) = db.run_all bodies := by
  constructor
  · induction bodies generalizing db with
    | nil => exact h
    | cons item rest ih => exact ih (run_coherent h item.1 item.2)
  · intro body refused hfailed
    obtain ⟨error, hrun⟩ := run_refused (db.run_all bodies) body refused hfailed
    rw [run_all_concat, hrun]

/-- The tables of a new store. -/
def Database.new : Database := { records := [], effects := [], blobs := [], active := none }

theorem coherent_new (txid : String) : coherence_findings Database.new txid = .ok [] := rfl

end

section

attribute [local instance] journal.ascii

/-- An insertion that the body catches the failure of: the second insertion of one transaction. -/
def caught_body : Body :=
  .call (.insert_record "t" journal.two_directories_spec "approved") none .new fun _ _ =>
    .call (.insert_record "t" journal.two_directories_spec "approved") none .new fun _ _ => .returns

theorem caught_body_rolled_back :
    (∀ txid, coherence_findings (Database.new.run_all [(caught_body, none)]) txid = .ok []) ∧
      Database.new.run_all [(caught_body, none)] = Database.new := by
  obtain ⟨hcoherent, _⟩ := run_all_coherent coherent_new [(caught_body, none)]
  obtain ⟨_, hfailed⟩ := run_all_coherent coherent_new []
  refine ⟨hcoherent, hfailed caught_body none (.inr ?_)⟩
  intro hclean
  cases hclean

end

end atoms.store

import Atoms.Recovery.Reducer
import Atoms.Store.Codec
import Atoms.Store.Record

open atoms.errors atoms.effects atoms.recovery atoms.spec atoms.compiler checked keyed

namespace atoms.store

namespace Database

variable {db : Database} {row old : RecordRow}

theorem record_txid {txid : String} (h : db.record? txid = some row) : row.txid = txid := (find_key_some h).2

/-- After a row is written, its key holds it and every other key what it held. -/
theorem put_record_record (txid : String) : (db.put_record row).record? txid =
    if txid = row.txid then (db.record? txid).map fun _ => row else db.record? txid := by
  unfold record? put_record
  rw [find_key_map (f := fun old : RecordRow => if old.txid = row.txid then row else old)
    (fun old => by split <;> simp_all)]
  cases hfind : find_key RecordRow.txid db.records txid with
  | none => simp
  | some found =>
    have hkey := (find_key_some hfind).2
    by_cases htxid : txid = row.txid
    · simp [hkey, htxid]
    · simp [hkey, htxid]

theorem put_record_self (h : db.record? row.txid = some old) : (db.put_record row).record? row.txid = some row := by
  rw [put_record_record, if_pos rfl, h, Option.map_some]

/-- Of two rows written under one key the second stays. -/
theorem put_record_put_record {row' : RecordRow} (h : row'.txid = row.txid) :
    (db.put_record row).put_record row' = db.put_record row' := by
  unfold put_record
  rw [List.map_map]
  congr 1
  apply List.map_congr_left
  intro old _
  simp only [Function.comp_apply, h]
  by_cases hold : old.txid = row.txid
  · simp [hold]
  · simp [hold]

/-- The other rows keep their digests, so a row that holds its own digests is as unique as before. -/
theorem unique_digests_put {row' : RecordRow} (hkey : row'.txid = row.txid)
    (hregistration : row'.registration_digest = row.registration_digest)
    (hsettlement : row'.settlement_digest = row.settlement_digest) {other : RecordRow} (hother : other.txid = row.txid)
    (h : db.unique_digests row = .ok ()) : (db.put_record other).unique_digests row' = .ok () := by
  have hkeep : ∀ P : RecordRow → Prop, (∀ item ∈ db.records, item.txid ≠ row.txid → P item) →
      ∀ item ∈ (db.put_record other).records, item.txid ≠ row.txid → P item := by
    intro P hP item hitem hne
    obtain ⟨old, hold, rfl⟩ := List.mem_map.mp hitem
    by_cases hsame : old.txid = other.txid
    · rw [if_pos hsame] at hne
      exact absurd hother hne
    · rw [if_neg hsame] at hne ⊢
      exact hP old hold hne
  unfold unique_digests at h ⊢
  simp only [bind_eq_ok_iff, require_eq_ok_iff] at h ⊢
  obtain ⟨_, hregistrations, hsettlements⟩ := h
  rw [hkey, hregistration, hsettlement]
  exact ⟨(), hkeep _ hregistrations, hkeep _ hsettlements⟩

@[simp] theorem put_record_effects_of (txid : String) : (db.put_record row).effects_of txid = db.effects_of txid := rfl

@[simp] theorem put_record_blobs : (db.put_record row).blobs = db.blobs := rfl

@[simp] theorem put_record_active : (db.put_record row).active = db.active := rfl

@[simp] theorem put_journal_record (txid effect_id : String) (state : JournalState) (other : String) :
    (db.put_journal txid effect_id state).record? other = db.record? other := rfl

@[simp] theorem put_journal_blobs (txid effect_id : String) (state : JournalState) :
    (db.put_journal txid effect_id state).blobs = db.blobs := rfl

@[simp] theorem put_journal_active (txid effect_id : String) (state : JournalState) :
    (db.put_journal txid effect_id state).active = db.active := rfl

/-- The rows of a record with the journal state of one effect replaced. -/
def set_rows (rows : List EffectRow) (effect_id : String) (state : JournalState) : List EffectRow :=
  rows.map fun row => if row.effect_id = effect_id then { row with journal_state := state } else row

theorem put_journal_effects_of (txid effect_id : String) (state : JournalState) :
    (db.put_journal txid effect_id state).effects_of txid = set_rows (db.effects_of txid) effect_id state := by
  unfold effects_of put_journal set_rows
  rw [List.filter_map, List.map_congr_left]
  · congr 1
    apply List.filter_congr
    intro row _
    simp only [Function.comp_apply]
    split <;> rfl
  · intro row hrow
    have htxid : row.txid = txid := by
      obtain ⟨_, hrow⟩ := List.mem_filter.mp hrow
      simp only [Function.comp_apply] at hrow
      split at hrow <;> simpa using hrow
    simp [EffectRow.key, htxid]

/-- The rows of the other records stay. -/
theorem put_journal_effects_of_ne {txid other : String} (h : other ≠ txid) (effect_id : String) (state : JournalState) :
    (db.put_journal txid effect_id state).effects_of other = db.effects_of other := by
  have hrows : ∀ rows : List EffectRow, (rows.map fun row =>
      if row.key = (txid, effect_id) then { row with journal_state := state } else row).filter
        (fun row => row.txid = other) = rows.filter fun row => row.txid = other := by
    intro rows
    induction rows with
    | nil => rfl
    | cons row rest ih =>
      rw [List.map_cons, List.filter_cons, List.filter_cons, ih]
      by_cases hkey : row.key = (txid, effect_id)
      · have hne : row.txid ≠ other := fun heq => h (heq.symm.trans (Prod.mk.inj hkey).1)
        rw [if_pos hkey]
        simp [hne]
      · rw [if_neg hkey]
  exact hrows db.effects

@[simp] theorem set_rows_ids (rows : List EffectRow) (effect_id : String) (state : JournalState) :
    (set_rows rows effect_id state).map EffectRow.effect_id = rows.map EffectRow.effect_id := by
  unfold set_rows
  rw [List.map_map]
  apply List.map_congr_left
  intro row _
  simp only [Function.comp_apply]
  split <;> rfl

theorem set_rows_find (rows : List EffectRow) (effect_id : String) (state : JournalState) (id : String) :
    find_key EffectRow.effect_id (set_rows rows effect_id state) id =
      (find_key EffectRow.effect_id rows id).map fun row =>
        if row.effect_id = effect_id then { row with journal_state := state } else row := by
  unfold set_rows
  exact find_key_map (fun row => by split <;> rfl) rows id

end Database

/-- Where one row's journal state is replaced, so is the state in the vector. -/
theorem journal_vector_set_rows (spec : TransactionSpec) (rows : List EffectRow) (effect_id : String)
    (state : JournalState) : journal_vector spec (Database.set_rows rows effect_id state) =
      reducer.set_journal (journal_vector spec rows) effect_id state := by
  unfold journal_vector reducer.set_journal
  rw [List.map_filterMap]
  apply List.filterMap_congr
  intro effect _
  rw [Database.set_rows_find]
  cases hfind : find_key EffectRow.effect_id rows effect.effect_id with
  | none => rfl
  | some row =>
    have hkey := (find_key_some hfind).2
    by_cases heq : effect.effect_id = effect_id
    · simp [hkey, heq]
    · simp [hkey, heq]

/-- The findings of a condition that holds. -/
@[simp] theorem finding_eq_nil_iff {condition : Prop} [Decidable condition] {rule detail : String} :
    finding condition rule detail = [] ↔ condition := by
  unfold finding
  split <;> simp_all

variable [UnicodeData]

/-- The findings do not read the journal states. -/
theorem effect_findings_set_rows (spec : TransactionSpec) (rows : List EffectRow) (effect_id : String)
    (state : JournalState) : effect_findings spec (Database.set_rows rows effect_id state) = effect_findings spec rows := by
  unfold effect_findings
  simp only [Database.set_rows_ids, Database.set_rows_find]
  congr 1
  apply List.flatMap_congr
  intro effect _
  cases find_key EffectRow.effect_id rows effect.effect_id with
  | none => rfl
  | some row =>
    simp only [Option.map_some]
    split <;> rfl

theorem covered_of_effect_findings {spec : TransactionSpec} {rows : List EffectRow} (h : effect_findings spec rows = []) :
    set_eq (spec.effects.map Effect.effect_id) (rows.map EffectRow.effect_id) := by
  unfold effect_findings at h
  simp only [List.append_eq_nil_iff, List.flatMap_eq_nil_iff, finding_eq_nil_iff, mem_sorted_by] at h
  exact ⟨h.1.1, h.1.2⟩

/-- A row that the barrier accepts. -/
structure Coherent (db : Database) (row : RecordRow) : Prop where
  compiles : ∃ compiled, compile_spec row.spec = .ok compiled
  effects : effect_findings row.spec (db.effects_of row.txid) = []
  blobs : blob_findings row.spec db.blobs = []
  rolled_back : row.state = .ROLLED_BACK ↔ row.rollback_result.isSome
  halted : row.state = .HALTED ↔ row.halt_diagnostic.isSome
  diagnostic : ∀ text ∈ row.halt_diagnostic, ∃ d, decode_diagnostic text = .ok d ∧ d.commit_decision = row.committed ∧
    d.journals = journal_vector row.spec (db.effects_of row.txid)
  active : ∀ active ∈ db.active, (db.record? active).isSome

theorem diagnostic_findings_eq_ok_nil_iff {row : RecordRow} {rows : List EffectRow}
    (h : set_eq (row.spec.effects.map Effect.effect_id) (rows.map EffectRow.effect_id)) :
    diagnostic_findings row rows = .ok [] ↔ ∀ text ∈ row.halt_diagnostic, ∃ d, decode_diagnostic text = .ok d ∧
      d.commit_decision = row.committed ∧ d.journals = journal_vector row.spec rows := by
  unfold diagnostic_findings
  cases row.halt_diagnostic with
  | none => simp [pure, Except.pure]
  | some text => simp [h]

theorem coherence_findings_eq_ok_nil_iff {db : Database} {txid : String} {row : RecordRow}
    (h : db.record? txid = some row) : coherence_findings db txid = .ok [] ↔ Coherent db row := by
  have htxid := Database.record_txid h
  subst htxid
  unfold coherence_findings
  simp only [h, bind_eq_ok_iff, pure_eq_ok_iff, List.append_eq_nil_iff, finding_eq_nil_iff, active_findings]
  constructor
  · rintro ⟨_, hdiagnostics, ⟨⟨⟨⟨⟨hcompiles, heffects⟩, hblobs⟩, hrolled⟩, hhalted⟩, rfl⟩, hactive⟩
    refine ⟨?_, heffects, hblobs, hrolled, hhalted, ?_, hactive⟩
    · cases hcompile : compile_spec row.spec with
      | ok compiled => exact ⟨compiled, rfl⟩
      | error error => simp [hcompile] at hcompiles
    · exact (diagnostic_findings_eq_ok_nil_iff (covered_of_effect_findings heffects)).mp hdiagnostics
  · intro hcoherent
    obtain ⟨compiled, hcompile⟩ := hcoherent.compiles
    refine ⟨[], (diagnostic_findings_eq_ok_nil_iff (covered_of_effect_findings hcoherent.effects)).mpr hcoherent.diagnostic,
      ⟨⟨⟨⟨⟨?_, hcoherent.effects⟩, hcoherent.blobs⟩, hcoherent.rolled_back⟩, hcoherent.halted⟩, rfl⟩, hcoherent.active⟩
    simp [hcompile]

theorem barrier_eq_ok_iff {db : Database} {touched : List String} :
    StoreTransaction.run_barrier ⟨db, touched⟩ = .ok () ↔ ∀ txid ∈ touched, coherence_findings db txid = .ok [] := by
  unfold StoreTransaction.run_barrier
  simp only [forM_eq_ok_iff, bind_eq_ok_iff, require_eq_ok_iff, mem_sorted_by, List.mem_dedup]
  constructor
  · intro h txid htxid
    obtain ⟨findings, hfindings, rfl⟩ := h txid htxid
    exact hfindings
  · intro h txid htxid
    exact ⟨[], h txid htxid, rfl⟩

/-- A store transaction commits what its body left, when every record it touched is coherent. -/
theorem transaction_eq_ok_iff {db db' : Database} {body : StoreTransaction → Except Raised StoreTransaction} :
    transaction db body = .ok db' ↔ ∃ txn, body ⟨db, []⟩ = .ok txn ∧
      (∀ txid ∈ txn.touched, coherence_findings txn.db txid = .ok []) ∧ txn.db = db' := by
  unfold transaction
  simp only [bind_eq_ok_iff, pure_eq_ok_iff]
  constructor
  · rintro ⟨txn, hbody, _, hbarrier, rfl⟩
    exact ⟨txn, hbody, barrier_eq_ok_iff.mp hbarrier, rfl⟩
  · rintro ⟨txn, hbody, hcoherent, rfl⟩
    exact ⟨txn, hbody, (), barrier_eq_ok_iff.mpr hcoherent, rfl⟩

theorem set_column_eq_ok_iff {txn txn' : StoreTransaction} {txid : String} {column : Column} :
    txn.set_column txid column = .ok txn' ↔ ∃ old, txn.db.record? txid = some old ∧
      txn.db.before_update old column = .ok () ∧ txn.db.unique_digests (old.set column) = .ok () ∧
      txn' = ⟨txn.db.put_record (old.set column), txid :: txn.touched⟩ := by
  unfold StoreTransaction.set_column
  cases hold : txn.db.record? txid with
  | none => simp
  | some old =>
    simp only [Option.some.injEq, exists_eq_left', bind_eq_ok_iff, pure_eq_ok_iff]
    constructor
    · rintro ⟨_, hbefore, _, hunique, rfl⟩
      exact ⟨hbefore, hunique, rfl⟩
    · rintro ⟨hbefore, hunique, rfl⟩
      exact ⟨(), hbefore, (), hunique, rfl⟩

theorem set_journal_state_eq_ok_iff {txn txn' : StoreTransaction} {txid effect_id : String} {state : JournalState} :
    txn.set_journal_state txid effect_id state = .ok txn' ↔ ∃ old, txn.db.effect? txid effect_id = some old ∧
      txn.db.before_journal old state = .ok () ∧
      txn' = ⟨txn.db.put_journal txid effect_id state, txid :: txn.touched⟩ := by
  unfold StoreTransaction.set_journal_state
  cases hold : txn.db.effect? txid effect_id with
  | none => simp
  | some old =>
    simp only [Option.some.injEq, exists_eq_left', bind_eq_ok_iff, pure_eq_ok_iff]
    constructor
    · rintro ⟨_, hbefore, rfl⟩
      exact ⟨hbefore, rfl⟩
    · rintro ⟨hbefore, rfl⟩
      exact ⟨(), hbefore, rfl⟩

/-- What `load_record` returns for a coherent row. -/
def RecordRow.stored (row : RecordRow) (halt_diagnostic : Option HaltDiagnostic) (rows : List EffectRow) :
    StoredRecord where
  txid := row.txid
  spec := row.spec
  state := row.state
  committed := row.committed
  rollback_result := row.rollback_result
  halt_diagnostic
  registration_digest := row.registration_digest
  settlement_digest := row.settlement_digest
  approval_evidence := row.approval_evidence
  assembly_halt := row.assembly_halt
  journals := journal_vector row.spec rows

/-- A coherent row without an assembly halt is loaded. -/
theorem load_record_eq {db : Database} {txid : String} {row : RecordRow} (hrow : db.record? txid = some row)
    (hcoherent : Coherent db row) (hfree : row.assembly_halt = none) :
    ∃ diagnostic, decode_optional_diagnostic row.halt_diagnostic = .ok diagnostic ∧
      load_record db txid = .ok (some (row.stored diagnostic (db.effects_of txid))) := by
  have htxid := Database.record_txid hrow
  have hfindings := (coherence_findings_eq_ok_nil_iff hrow).mpr hcoherent
  have hdecode : ∃ diagnostic, decode_optional_diagnostic row.halt_diagnostic = .ok diagnostic := by
    cases htext : row.halt_diagnostic with
    | none => exact ⟨none, rfl⟩
    | some text =>
      obtain ⟨d, hd, _⟩ := hcoherent.diagnostic text htext
      exact ⟨some d, by simp [decode_optional_diagnostic, hd]⟩
  obtain ⟨diagnostic, hdiagnostic⟩ := hdecode
  refine ⟨diagnostic, hdiagnostic, ?_⟩
  unfold load_record require_stored_halt
  simp only [hfindings, ok_bind, require_true, hrow, hfree, hdiagnostic]
  subst htxid
  rw [RecordRow.stored, hfree]
  rfl

theorem load_record_none {db : Database} {txid : String} (h : load_record db txid = .ok none) : db.record? txid = none := by
  unfold load_record at h
  obtain ⟨_, _, h⟩ := bind_eq_ok_iff.mp h
  obtain ⟨_, _, h⟩ := bind_eq_ok_iff.mp h
  cases hrow : db.record? txid with
  | none => rfl
  | some row =>
    simp only [hrow] at h
    obtain ⟨_, _, h⟩ := bind_eq_ok_iff.mp h
    obtain ⟨_, _, h⟩ := bind_eq_ok_iff.mp h
    cases pure_eq_ok_iff.mp h

/-- A record that was loaded is the content of a coherent row. -/
theorem exists_row_of_load {db : Database} {txid : String} {record : StoredRecord}
    (h : load_record db txid = .ok (some record)) :
    ∃ row diagnostic, db.record? txid = some row ∧ Coherent db row ∧
      decode_optional_diagnostic row.halt_diagnostic = .ok diagnostic ∧
      record = row.stored diagnostic (db.effects_of txid) := by
  unfold load_record at h
  obtain ⟨findings, hfindings, h⟩ := bind_eq_ok_iff.mp h
  obtain ⟨_, hnil, h⟩ := bind_eq_ok_iff.mp h
  rw [require_eq_ok_iff] at hnil
  subst hnil
  cases hrow : db.record? txid with
  | none => simp [hrow] at h
  | some row =>
    have htxid := Database.record_txid hrow
    simp only [hrow] at h
    obtain ⟨_, _, h⟩ := bind_eq_ok_iff.mp h
    obtain ⟨_, _, h⟩ := bind_eq_ok_iff.mp h
    obtain ⟨diagnostic, hdiagnostic, h⟩ := bind_eq_ok_iff.mp h
    rw [pure_eq_ok_iff, Option.some.injEq] at h
    refine ⟨row, diagnostic, rfl, (coherence_findings_eq_ok_nil_iff hrow).mp hfindings, hdiagnostic, ?_⟩
    subst htxid
    exact h.symm

theorem load_record_some {db : Database} {txid : String} {record : StoredRecord}
    (h : load_record db txid = .ok (some record)) : (db.record? txid).isSome = true := by
  obtain ⟨row, _, hrow, _⟩ := exists_row_of_load h
  rw [hrow]
  rfl

end atoms.store

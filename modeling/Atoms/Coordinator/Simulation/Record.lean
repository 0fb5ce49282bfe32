import Atoms.Coordinator.Recover
import Atoms.Recovery.Classifier.SecondPass
import Atoms.Store.Coherence

open atoms.errors atoms.effects atoms.fs atoms.recovery atoms.store atoms.compiler checked keyed crash

namespace atoms.coordinator

variable [UnicodeData]

/-! The rows of a transaction and the record of a snapshot. -/

/-- The row of a transaction says what a snapshot says of its record, and nothing bars it from being written. -/
structure Mirrored (db : Database) (txid : String) (s : RecoverySnapshot) (row : RecordRow) : Prop where
  found : db.record? txid = some row
  coherent : Coherent db row
  unfrozen : row.assembly_halt = none
  registered : row.registration_digest.isSome = true
  unique : db.unique_digests row = .ok ()
  active : db.active = if s.active then some txid else none
  spec : canonicalize row.spec = canonicalize s.compiled.spec
  state : row.state = s.transaction_state
  committed : row.committed = s.commit_decision
  rollback_result : row.rollback_result = s.rollback_result
  halt_diagnostic : decode_optional_diagnostic row.halt_diagnostic = .ok s.halt_diagnostic
  journals : journal_vector row.spec (db.effects_of txid) = s.journals

section

variable {db : Database} {txid : String} {s s' : RecoverySnapshot} {row row' : RecordRow}

/-- The terminal payloads of a snapshot are those of its state. -/
theorem terminal_payloads (s : RecoverySnapshot) :
    (s.rollback_result.isSome = true ↔ s.transaction_state = .ROLLED_BACK) ∧
      (s.halt_diagnostic.isSome = true ↔ s.transaction_state = .HALTED) ∧
      ∀ d ∈ s.halt_diagnostic, s.commit_decision = d.commit_decision ∧ s.journals = d.journals := by
  have h := s.accepted.2.2.2.2.2.2
  simp only [snapshot.validate_terminal_payloads, bind_eq_ok_iff, require_eq_ok_iff] at h
  obtain ⟨_, hresult, _, hhalt, hdiagnostic⟩ := h
  exact ⟨hresult, hhalt, hdiagnostic⟩

theorem decode_optional_diagnostic_eq_ok {text : Option String} {diagnostic : Option HaltDiagnostic}
    (h : decode_optional_diagnostic text = .ok diagnostic) :
    (text = none ∧ diagnostic = none) ∨ ∃ value d, text = some value ∧ decode_diagnostic value = .ok d ∧
      diagnostic = some d := by
  cases text with
  | none => exact .inl ⟨rfl, (pure_eq_ok_iff.mp h).symm⟩
  | some value =>
    simp only [decode_optional_diagnostic, bind_eq_ok_iff, pure_eq_ok_iff] at h
    obtain ⟨d, hd, rfl⟩ := h
    exact .inr ⟨value, d, rfl, hd, rfl⟩

/-- A row that says what an accepted snapshot says is coherent. -/
theorem coherent_of_says (hcompiles : ∃ compiled, compile_spec row.spec = .ok compiled)
    (heffects : effect_findings row.spec (db.effects_of row.txid) = []) (hblobs : blob_findings row.spec db.blobs = [])
    (hactive : ∀ active ∈ db.active, (db.record? active).isSome) (hstate : row.state = s.transaction_state)
    (hcommitted : row.committed = s.commit_decision) (hresult : row.rollback_result = s.rollback_result)
    (hdiagnostic : decode_optional_diagnostic row.halt_diagnostic = .ok s.halt_diagnostic)
    (hjournals : journal_vector row.spec (db.effects_of row.txid) = s.journals) : Coherent db row := by
  obtain ⟨hresults, hhalts, hdiagnoses⟩ := terminal_payloads s
  refine ⟨hcompiles, heffects, hblobs, ?_, ?_, ?_, hactive⟩
  · rw [hstate, hresult]
    exact hresults.symm
  · obtain ⟨htext, hnone⟩ | ⟨value, d, htext, _, hsome⟩ := decode_optional_diagnostic_eq_ok hdiagnostic
    · rw [hstate, htext, ← hhalts, hnone]
      rfl
    · rw [hstate, htext, ← hhalts, hsome]
      rfl
  · intro text htext
    obtain ⟨hnone, _⟩ | ⟨value, d, hvalue, hdecode, hsome⟩ := decode_optional_diagnostic_eq_ok hdiagnostic
    · rw [hnone] at htext
      cases htext
    · rw [hvalue, Option.mem_some_iff] at htext
      subst htext
      obtain ⟨hcommit, hvector⟩ := hdiagnoses d hsome
      exact ⟨d, hdecode, hcommit.symm.trans hcommitted.symm, hvector.symm.trans hjournals.symm⟩

/-- Writing a row that says what the next snapshot says. -/
theorem Mirrored.put (h : Mirrored db txid s row) (hkey : row'.txid = row.txid) (hspec : row'.spec = row.spec)
    (hunfrozen : row'.assembly_halt = none) (hregistered : row'.registration_digest.isSome = true)
    (hunique : (db.put_record row').unique_digests row' = .ok ()) (hcompiled : s'.compiled = s.compiled)
    (hactive : s'.active = s.active) (hjournals : s'.journals = s.journals)
    (hstate : row'.state = s'.transaction_state) (hcommitted : row'.committed = s'.commit_decision)
    (hresult : row'.rollback_result = s'.rollback_result)
    (hdiagnostic : decode_optional_diagnostic row'.halt_diagnostic = .ok s'.halt_diagnostic) :
    Mirrored (db.put_record row') txid s' row' := by
  have htxid := Database.record_txid h.found
  subst htxid
  have hself : (db.put_record row').record? row.txid = some row' := by
    rw [← hkey]
    exact Database.put_record_self (hkey ▸ h.found)
  have hvector : journal_vector row'.spec ((db.put_record row').effects_of row.txid) = s'.journals := by
    rw [hspec, hjournals]
    exact h.journals
  refine ⟨hself, ?_, hunfrozen, hregistered, hunique, ?_, ?_, hstate, hcommitted, hresult, hdiagnostic, hvector⟩
  · apply coherent_of_says (s := s') _ _ _ _ hstate hcommitted hresult hdiagnostic (hkey ▸ hvector)
    · rw [hspec]
      exact h.coherent.compiles
    · rw [hspec, hkey]
      exact h.coherent.effects
    · rw [hspec]
      exact h.coherent.blobs
    · intro active hmem
      rw [Database.put_record_record]
      have hsome := h.coherent.active active hmem
      split
      · rw [Option.isSome_map]
        exact hsome
      · exact hsome
  · rw [hactive]
    exact h.active
  · rw [hspec, hcompiled]
    exact h.spec

/-- The columns of a transition do not touch the digests. -/
def transition_column : Column → Bool
  | .state _ | .rollback_result _ | .halt_diagnostic _ => true
  | _ => false

/-- A store transaction that began at `db` holds the row and may go on writing it. -/
structure Writes (db : Database) (txid : String) (txn : StoreTransaction) (row : RecordRow) : Prop where
  found : txn.db.record? txid = some row
  puts : ∀ row' : RecordRow, row'.txid = txid → txn.db.put_record row' = db.put_record row'
  touched : ∀ other ∈ txn.touched, other = txid
  unfrozen : row.assembly_halt = none
  registered : row.registration_digest.isSome = true
  unique : txn.db.unique_digests row = .ok ()

/-- A column of a transition can be written to a registered row that is not frozen. -/
theorem Writes.set_column {txn : StoreTransaction} (h : Writes db txid txn row) (column : Column)
    (hcolumn : transition_column column = true) : ∃ txn', txn.set_column txid column = .ok txn' ∧
      txn'.db = db.put_record (row.set column) ∧ Writes db txid txn' (row.set column) := by
  have htxid := Database.record_txid h.found
  have hkey : (row.set column).txid = row.txid := by cases column <;> rfl
  have hregistration : (row.set column).registration_digest = row.registration_digest := by
    cases column <;> first | rfl | cases hcolumn
  have hsettlement : (row.set column).settlement_digest = row.settlement_digest := by
    cases column <;> first | rfl | cases hcolumn
  have hhalt : (row.set column).assembly_halt = row.assembly_halt := by
    cases column <;> first | rfl | cases hcolumn
  have hnone : row.registration_digest ≠ none := by
    intro hnone
    have hsome := h.registered
    rw [hnone] at hsome
    cases hsome
  have hbefore : txn.db.before_update row column = .ok () := by
    unfold Database.before_update
    cases column with
    | state value => simp [h.unfrozen, hnone, require_of]
    | rollback_result value => simp [h.unfrozen, require_of]
    | halt_diagnostic value => simp [h.unfrozen, require_of]
    | _ => cases hcolumn
  have hsame : txn.db.unique_digests (row.set column) = txn.db.unique_digests row := by
    unfold Database.unique_digests
    rw [hkey, hregistration, hsettlement]
  have hputs := h.puts (row.set column) (hkey.trans htxid)
  refine ⟨_, set_column_eq_ok_iff.mpr ⟨row, h.found, hbefore, hsame.trans h.unique, rfl⟩, hputs, ?_⟩
  refine ⟨?_, ?_, ?_, hhalt.trans h.unfrozen, hregistration ▸ h.registered, ?_⟩
  · rw [← htxid, ← hkey]
    exact Database.put_record_self (by rw [hkey, htxid, h.found])
  · intro row' hrow'
    rw [Database.put_record_put_record (hrow'.trans (hkey.trans htxid).symm)]
    exact h.puts row' hrow'
  · intro other hother
    cases hother with
    | head => rfl
    | tail _ hother => exact h.touched other hother
  · exact Database.unique_digests_put hkey hregistration hsettlement hkey h.unique

/-- The row after the state and the result of a transition are written. -/
def resulted (row : RecordRow) (step : TransitionTransactionState) : RecordRow :=
  { row with state := step.to_state, rollback_result := step.rollback_result.or row.rollback_result }

/-- The row after a transition of the transaction. -/
def transitioned (row : RecordRow) (step : TransitionTransactionState) : RecordRow :=
  { resulted row step with
    halt_diagnostic := (step.halt_diagnostic.map encode_diagnostic).or row.halt_diagnostic }

/-- The writes of a transition are permitted, and leave the row of the transition. -/
theorem transition_body_total {txn : StoreTransaction} (step : TransitionTransactionState) (h : Writes db txid txn row) :
    ∃ txn', transition_body txid step txn = .ok txn' ∧ txn'.db = db.put_record (transitioned row step) ∧
      Writes db txid txn' (transitioned row step) := by
  obtain ⟨opened, hopened, hopened_db, hopens⟩ := h.set_column (.state step.to_state) rfl
  have hresult : ∃ txn', write_result txid step.rollback_result opened = .ok txn' ∧
      txn'.db = db.put_record (resulted row step) ∧ Writes db txid txn' (resulted row step) := by
    unfold resulted write_result
    cases step.rollback_result with
    | none => exact ⟨opened, rfl, hopened_db, hopens⟩
    | some result => exact hopens.set_column (.rollback_result result) rfl
  obtain ⟨resulting, hresulting, hresult_db, hresults⟩ := hresult
  have hdiagnostic : ∃ txn', write_diagnostic txid step.halt_diagnostic resulting = .ok txn' ∧
      txn'.db = db.put_record (transitioned row step) ∧ Writes db txid txn' (transitioned row step) := by
    unfold transitioned write_diagnostic
    cases step.halt_diagnostic with
    | none => exact ⟨resulting, rfl, hresult_db, hresults⟩
    | some diagnostic => exact hresults.set_column (.halt_diagnostic (encode_diagnostic diagnostic)) rfl
  unfold transition_body StoreTransaction.set_transaction_state
  rw [hopened, ok_bind, hresulting]
  exact hdiagnostic

/-- A transition of the snapshot's record is one that the store permits, and it leaves the same record. -/
theorem Mirrored.transition {step : TransitionTransactionState} (h : Mirrored db txid s row)
    (hunsettled : s.transaction_state ≠ .ROLLED_BACK ∧ s.transaction_state ≠ .HALTED)
    (hstep : reducer.transition_transaction s step = .ok s') : ∃ db' row', transaction db (transition_body txid step) = .ok db' ∧
      Mirrored db' txid s' row' ∧ row'.settlement_digest = row.settlement_digest := by
  obtain ⟨_, _, hsame, hstate, hresult, hdiagnostic, hactive⟩ := reducer.transition_transaction_eq_ok hstep
  obtain ⟨hresults, hhalts, _⟩ := terminal_payloads s
  have hno_result : row.rollback_result = none := by
    rw [h.rollback_result, ← Option.not_isSome_iff_eq_none, hresults]
    exact hunsettled.1
  have hno_diagnostic : row.halt_diagnostic = none := by
    obtain ⟨htext, _⟩ | ⟨_, d, _, _, hsome⟩ := decode_optional_diagnostic_eq_ok h.halt_diagnostic
    · exact htext
    · exact absurd (hhalts.mp (by rw [hsome]; rfl)) hunsettled.2
  have hdecoded : decode_optional_diagnostic (transitioned row step).halt_diagnostic = .ok s'.halt_diagnostic := by
    rw [transitioned, hno_diagnostic, hdiagnostic, Option.or_none]
    cases hsome : step.halt_diagnostic with
    | none => rfl
    | some d =>
      have hvalid := s'.accepted.2.2.2.2.2.1
      rw [hdiagnostic, hsome] at hvalid
      have hdecode := decode_encode_diagnostic (classifier.valid_diagnostic_of_validated hvalid)
      simp [decode_optional_diagnostic, hdecode]
  have hwrites : Writes db txid ⟨db, []⟩ row :=
    ⟨h.found, fun _ _ => rfl, by simp, h.unfrozen, h.registered, h.unique⟩
  obtain ⟨txn, hbody, hdb, hwrites⟩ := transition_body_total step hwrites
  have hmirrored : Mirrored (db.put_record (transitioned row step)) txid s' (transitioned row step) := by
    have hcommitted : (transitioned row step).committed = s'.commit_decision :=
      h.committed.trans hsame.frame.commit_decision.symm
    have hnext : (transitioned row step).rollback_result = s'.rollback_result := by
      simp [transitioned, resulted, hno_result, hresult]
    exact h.put rfl rfl h.unfrozen h.registered (hdb ▸ hwrites.unique) hsame.frame.compiled hactive hsame.journals
      hstate.symm hcommitted hnext hdecoded
  refine ⟨_, _, transaction_eq_ok_iff.mpr ⟨txn, hbody, ?_, hdb⟩, hmirrored, rfl⟩
  intro other hother
  rw [hwrites.touched other hother, hdb]
  exact (coherence_findings_eq_ok_nil_iff hmirrored.found).mpr hmirrored.coherent

/-- A transition of one of the snapshot's journals is one that the store permits, and it leaves the same journals. -/
theorem Mirrored.effect_transition {step : TransitionEffectState} (h : Mirrored db txid s row)
    (hstep : reducer.transition_effect s step = .ok s') : ∃ db',
      transaction db (fun txn => txn.set_journal_state txid step.effect_id step.to_state) = .ok db' ∧
        Mirrored db' txid s' row := by
  obtain ⟨⟨i, hid, _, _⟩, hedge, hframe, hrecord, _, hjournals, _⟩ := reducer.transition_effect_eq_ok hstep
  have htxid := Database.record_txid h.found
  have hlisted : step.effect_id ∈ s.journals.map EffectJournalState.effect_id := by
    rw [s.journal_ids]
    exact List.mem_of_getElem? hid
  obtain ⟨stored, hstored⟩ : ∃ stored, db.effect? txid step.effect_id = some stored := by
    rw [← h.journals, journal_vector, List.mem_map] at hlisted
    obtain ⟨_, hjournal, heq⟩ := hlisted
    obtain ⟨effect, _, hfind⟩ := List.mem_filterMap.mp hjournal
    obtain ⟨found, hfound, rfl⟩ := Option.map_eq_some_iff.mp hfind
    obtain ⟨hmem, hkey⟩ := find_key_some hfound
    obtain ⟨hmem, howner⟩ := List.mem_filter.mp hmem
    refine Option.isSome_iff_exists.mp (find_key_isSome_iff.mpr ⟨found, hmem, ?_⟩)
    rw [EffectRow.key, hkey, of_decide_eq_true howner]
    exact congrArg _ heq
  have howner : stored.txid = txid := congrArg Prod.fst (find_key_some hstored).2
  have hbefore : db.before_journal stored step.to_state = .ok () := by
    have hstarted : step.to_state ≠ .STARTED := by
      intro heq
      rw [heq] at hedge
      cases hfrom : step.from_state <;> simp [hfrom, reducer.effect_recovery_edge] at hedge
    unfold Database.before_journal
    rw [howner, h.found]
    simp [hstarted, h.unfrozen, require_of]
  have hvector : journal_vector row.spec ((db.put_journal txid step.effect_id step.to_state).effects_of txid) =
      s'.journals := by
    rw [Database.put_journal_effects_of, journal_vector_set_rows, h.journals, hjournals]
  have hstate : row.state = s'.transaction_state := h.state.trans hrecord.transaction_state.symm
  have hcommitted : row.committed = s'.commit_decision := h.committed.trans hframe.commit_decision.symm
  have hresult : row.rollback_result = s'.rollback_result := h.rollback_result.trans hrecord.rollback_result.symm
  have hdiagnostic : decode_optional_diagnostic row.halt_diagnostic = .ok s'.halt_diagnostic := by
    rw [hrecord.halt_diagnostic]
    exact h.halt_diagnostic
  have hcoherent : Coherent (db.put_journal txid step.effect_id step.to_state) row := by
    refine coherent_of_says h.coherent.compiles ?_ h.coherent.blobs h.coherent.active hstate hcommitted hresult hdiagnostic
      (htxid ▸ hvector)
    rw [htxid, Database.put_journal_effects_of, effect_findings_set_rows]
    exact htxid ▸ h.coherent.effects
  have hmirrored : Mirrored (db.put_journal txid step.effect_id step.to_state) txid s' row := by
    refine ⟨h.found, hcoherent, h.unfrozen, h.registered, h.unique, ?_, ?_, hstate, hcommitted, hresult, hdiagnostic, hvector⟩
    · rw [hrecord.active]
      exact h.active
    · rw [hframe.compiled]
      exact h.spec
  refine ⟨_, transaction_eq_ok_iff.mpr ⟨_, set_journal_state_eq_ok_iff.mpr ⟨stored, hstored, hbefore, rfl⟩, ?_, rfl⟩,
    hmirrored⟩
  intro other hother
  rw [List.mem_singleton.mp hother]
  exact (coherence_findings_eq_ok_nil_iff hmirrored.found).mpr hcoherent

/-- A bound terminal record can be detached. -/
theorem Mirrored.detach (h : Mirrored db txid s row) (hsettled : row.settlement_digest.isSome = true)
    (hstep : reducer.detach_active s = .ok s') : ∃ db', transaction db (fun txn => txn.set_active none) = .ok db' ∧
      Mirrored db' txid s' row := by
  obtain ⟨hactive, hsame, hstate', hresult', hdiagnostic', hinactive⟩ := reducer.detach_active_eq_ok hstep
  have hdb : db.active = some txid := by
    rw [h.active, if_pos hactive]
  have hterminal : is_terminal row.state = true := by
    unfold reducer.detach_active at hstep
    simp only [bind_eq_ok_iff, require_eq_ok_iff] at hstep
    obtain ⟨_, _, _, hterminal, _⟩ := hstep
    rw [h.state]
    obtain hstate | hstate := hterminal
    · rw [hstate]
      rfl
    · rw [hstate]
      rfl
  have hbody : StoreTransaction.set_active ⟨db, []⟩ none = .ok ⟨{ db with active := none }, []⟩ := by
    unfold StoreTransaction.set_active
    rw [hdb]
    dsimp only
    rw [bind_eq_ok_iff]
    exact ⟨(), require_of ⟨row, h.found, hterminal, h.registered, hsettled, h.unfrozen⟩, rfl⟩
  have hstate : row.state = s'.transaction_state := h.state.trans hstate'.symm
  have hcommitted : row.committed = s'.commit_decision := h.committed.trans hsame.frame.commit_decision.symm
  have hresult : row.rollback_result = s'.rollback_result := h.rollback_result.trans hresult'.symm
  have hdiagnostic : decode_optional_diagnostic row.halt_diagnostic = .ok s'.halt_diagnostic := by
    rw [hdiagnostic']
    exact h.halt_diagnostic
  refine ⟨{ db with active := none }, transaction_eq_ok_iff.mpr ⟨_, hbody, by simp, rfl⟩, h.found, ?_, h.unfrozen,
    h.registered, h.unique, ?_, ?_, hstate, hcommitted, hresult, hdiagnostic, h.journals.trans hsame.journals.symm⟩
  · exact ⟨h.coherent.compiles, h.coherent.effects, h.coherent.blobs, h.coherent.rolled_back, h.coherent.halted,
      h.coherent.diagnostic, by simp⟩
  · rw [hinactive]
    rfl
  · rw [hsame.frame.compiled]
    exact h.spec

/-- The store reads the record of the snapshot. -/
theorem Mirrored.load (h : Mirrored db txid s row) :
    load_record db txid = .ok (some (row.stored s.halt_diagnostic (db.effects_of txid))) := by
  obtain ⟨diagnostic, hdiagnostic, hload⟩ := load_record_eq h.found h.coherent h.unfrozen
  rw [h.halt_diagnostic, Except.ok.injEq] at hdiagnostic
  rw [hdiagnostic]
  exact hload

/-- While the snapshot is active, its record is the active one. -/
theorem Mirrored.read_active (h : Mirrored db txid s row) (hactive : s.active = true) :
    read_active db = .ok (some (row.stored s.halt_diagnostic (db.effects_of txid))) := by
  unfold store.read_active
  rw [h.active, if_pos hactive]
  exact h.load

/-- The columns of the digests. -/
def digest_column : Column → Bool
  | .registration_digest _ | .settlement_digest _ => true
  | _ => false

/-- Binding a digest leaves the record of the snapshot as it is. -/
theorem Mirrored.bind_digest {db' : Database} {column : Column} (h : Mirrored db txid s row)
    (hcolumn : digest_column column = true)
    (hbind : transaction db (fun txn => txn.set_column txid column) = .ok db') :
    Mirrored db' txid s (row.set column) := by
  obtain ⟨txn, hbody, hcoherent, rfl⟩ := transaction_eq_ok_iff.mp hbind
  obtain ⟨old, hold, _, hunique, rfl⟩ := set_column_eq_ok_iff.mp hbody
  rw [h.found, Option.some.injEq] at hold
  subst hold
  have hkey : (row.set column).txid = row.txid := by cases column <;> rfl
  have hunique' : (db.put_record (row.set column)).unique_digests (row.set column) = .ok () :=
    Database.unique_digests_put rfl rfl rfl rfl hunique
  have hregistered : (row.set column).registration_digest.isSome = true := by
    cases column with
    | registration_digest value => rfl
    | settlement_digest value => exact h.registered
    | _ => cases hcolumn
  cases column with
  | registration_digest value =>
    exact h.put rfl rfl h.unfrozen hregistered hunique' rfl rfl rfl h.state h.committed h.rollback_result h.halt_diagnostic
  | settlement_digest value =>
    exact h.put rfl rfl h.unfrozen hregistered hunique' rfl rfl rfl h.state h.committed h.rollback_result h.halt_diagnostic
  | _ => cases hcolumn

end

end atoms.coordinator

import Atoms.Store.Diagnostic

open atoms.errors atoms.fingerprint atoms.effects atoms.recovery checked json

namespace atoms.store

theorem field_of {members sorted : Members} (h : SortedObj members sorted) (key : String) (value : Json)
    (hmem : (key, value) ∈ members) : field sorted key = sort_keys value := by
  rw [field, h.lookup key value hmem]
  rfl

/-- A loop over written items reads each of them back. -/
theorem mapM_written {α : Type} {read : Json → Except Raised α} {write : α → Json} {items : List α}
    (h : ∀ item ∈ items, read (sort_keys (write item)) = .ok item) :
    (sort_items (items.map write)).mapM read = .ok items := by
  rw [sort_items_eq, List.map_map, mapM_eq_ok_iff, List.forall₂_map_left_iff]
  exact List.forall₂_same.mpr h

/-- A state that a diagnostic may hold. -/
def ValidState : DiagnosticState → Prop
  | .ObservedUnrecognized st_mode => is_unrecognized_st_mode st_mode = true
  | _ => True

/-! Every object the writer makes is plain. -/

theorem plain_optional {α : Type} {write : α → Json} (h : ∀ item, Plain (write item)) (value : Option α) :
    Plain (optional write value) := by
  cases value with
  | none => exact .null
  | some item => exact h item

theorem plain_state_obj (state : DiagnosticState) : Plain (state_obj state) := by
  have hobj : ∀ {members : Members}, (members.map Prod.fst).Nodup →
      (∀ member ∈ members, (∃ value, member.2 = .str value) ∨ ∃ value, member.2 = .int value) → Plain (.obj members) := by
    intro members hkeys h
    refine .obj hkeys fun member hmember => ?_
    rcases h member hmember with ⟨value, heq⟩ | ⟨value, heq⟩
    · exact heq ▸ .str value
    · exact heq ▸ .int value
  cases state with
  | state state => cases state <;> exact hobj (by simp) (by simp)
  | ObservedUnrecognized st_mode => exact hobj (by simp) (by simp)
  | ObservedContended => exact hobj (by simp) (by simp)
  | ObservedInaccessible => exact hobj (by simp) (by simp)

theorem plain_journal_obj (journal : EffectJournalState) : Plain (journal_obj journal) := by
  refine .obj (by simp) ?_
  simp only [List.forall_mem_cons, List.not_mem_nil, false_implies, implies_true, and_true]
  exact ⟨.str _, .str _⟩

theorem plain_relation_obj (relation : DiagnosticIdentityRelation) : Plain (relation_obj relation) := by
  refine .obj (by simp) ?_
  simp only [List.forall_mem_cons, List.not_mem_nil, false_implies, implies_true, and_true]
  exact ⟨.str _, .str _, .str _⟩

theorem plain_entry_obj (entry : DiagnosticEntry) : Plain (entry_obj entry) := by
  refine .obj (by simp) ?_
  simp only [List.forall_mem_cons, List.not_mem_nil, false_implies, implies_true, and_true]
  exact ⟨.str _, plain_state_obj _, plain_optional .bool _, plain_optional (fun _ => .str _) _⟩

theorem plain_arr {α : Type} {write : α → Json} (h : ∀ item, Plain (write item)) (items : List α) :
    Plain (.arr (items.map write)) := by
  apply Plain.arr
  intro value hvalue
  obtain ⟨item, _, rfl⟩ := List.mem_map.mp hvalue
  exact h item

theorem plain_diagnostic_obj (diagnostic : HaltDiagnostic) : Plain (diagnostic_obj diagnostic) := by
  refine .obj (by simp) ?_
  simp only [List.forall_mem_cons, List.not_mem_nil, false_implies, implies_true, and_true]
  exact ⟨.str _, .str _, plain_arr plain_journal_obj _, .str _, plain_arr plain_journal_obj _, plain_optional .str _,
    plain_arr .str _, plain_arr plain_entry_obj _, plain_arr plain_entry_obj _, plain_arr plain_relation_obj _,
    .str _, .str _⟩

/-! Reading back what was written. -/

/-! What may be null is read back as it was written. -/

theorem optional_flag_written {obj : Members} {key : String} {value : Option Bool}
    (h : field obj key = sort_keys (optional .bool value)) : optional_flag obj key = .ok value := by
  cases value with
  | none => simp only [optional_flag, h, optional, sort_keys]; rfl
  | some value => simp only [optional_flag, flag, h, optional, sort_keys]; rfl

theorem optional_text_written {obj : Members} {key : String} {value : Option String}
    (h : field obj key = sort_keys (optional .str value)) : optional_text obj key = .ok value := by
  cases value with
  | none => simp only [optional_text, h, optional, sort_keys]; rfl
  | some value => simp only [optional_text, text, h, optional, sort_keys]; rfl

theorem decode_paths_written (index : Nat) (paths : List RelPath) :
    decode_paths index (sort_items (paths.map .str)) = .ok paths := by
  induction paths generalizing index with
  | nil => rfl
  | cons path rest ih =>
    simp only [List.map_cons, sort_items, sort_keys, decode_paths, ih, ok_bind]
    rfl

variable [UnicodeData]

theorem member_written {α : Type} [DecidableEq α] {members : List α} {value_of : α → String} {label : String} {item : α}
    (h : members.find? (fun other => value_of other = value_of item) = some item) :
    member members value_of label (.str (value_of item)) = .ok item := by
  rw [member, h]
  rfl

theorem transaction_state_written (state : TransactionState) (label : String) :
    member transaction_states transaction_state_value label (.str (transaction_state_value state)) = .ok state := by
  apply member_written
  cases state <;> rfl

theorem commit_decision_written (decision : CommitDecision) (label : String) :
    member commit_decisions commit_decision_value label (.str (commit_decision_value decision)) = .ok decision := by
  apply member_written
  cases decision <;> rfl

theorem journal_state_written (state : JournalState) (label : String) :
    member journal_states journal_state_value label (.str (journal_state_value state)) = .ok state := by
  apply member_written
  cases state <;> rfl

theorem halt_reason_written (reason : HaltReason) (label : String) :
    member halt_reasons halt_reason_value label (.str (halt_reason_value reason)) = .ok reason := by
  apply member_written
  cases reason <;> rfl

theorem build_relation_written (relation : FileBuildRelation) (label : String) :
    member file_build_relations file_build_relation_value label (.str (file_build_relation_value relation)) =
      .ok relation := by
  apply member_written
  cases relation <;> rfl

theorem identity_relation_written (relation : IdentityRelation) (label : String) :
    member identity_relations identity_relation_value label (.str (identity_relation_value relation)) = .ok relation := by
  apply member_written
  cases relation <;> rfl

theorem operator_action_written (action : OperatorAction) (label : String) :
    member operator_actions operator_action_value label (.str (operator_action_value action)) = .ok action := by
  apply member_written
  cases action <;> rfl

theorem require_keys_of {obj : Members} {expected : List String} (h : keyed.set_eq (obj.map Prod.fst) expected) :
    require_keys obj expected = .ok () := by
  rw [require_keys, if_pos h]

theorem decode_journal_written (journal : EffectJournalState) :
    decode_journal (sort_keys (journal_obj journal)) = .ok journal := by
  obtain ⟨sorted, hvalue, hsorted⟩ := sorted_obj [("effect_id", .str journal.effect_id),
    ("state", .str (journal_state_value journal.state))] (by simp)
  have hkeys : require_keys sorted ["effect_id", "state"] = .ok () := require_keys_of hsorted.keys
  have heffect := field_of hsorted "effect_id" _ (by simp; rfl)
  have hstate := field_of hsorted "state" _ (by simp; rfl)
  rw [journal_obj, hvalue]
  simp only [decode_journal, require_dict, pure_bind, hkeys, ok_bind, text, heffect, hstate, sort_keys,
    journal_state_written]
  rfl

theorem decode_relation_written (relation : DiagnosticIdentityRelation) :
    decode_relation (sort_keys (relation_obj relation)) = .ok relation := by
  obtain ⟨sorted, hvalue, hsorted⟩ := sorted_obj [("left_slot", .str relation.left_slot),
    ("right_slot", .str relation.right_slot),
    ("relation", .str (identity_relation_value relation.relation))] (by simp)
  have hkeys : require_keys sorted ["left_slot", "right_slot", "relation"] = .ok () := require_keys_of hsorted.keys
  have hleft := field_of hsorted "left_slot" _ (by simp; rfl)
  have hright := field_of hsorted "right_slot" _ (by simp; rfl)
  have hrelation := field_of hsorted "relation" _ (by simp; rfl)
  rw [relation_obj, hvalue]
  simp only [decode_relation, require_dict, pure_bind, hkeys, ok_bind, text, hleft, hright, hrelation, sort_keys,
    identity_relation_written]
  rfl

theorem decode_state_written {state : DiagnosticState} (h : ValidState state) :
    decode_state (sort_keys (state_obj state)) = .ok state := by
  cases state with
  | state state =>
    cases state with
    | AbsentState =>
      obtain ⟨sorted, hvalue, hsorted⟩ := sorted_obj [("kind", .str "absent")] (by simp)
      have hkeys : require_keys sorted ["kind"] = .ok () := require_keys_of hsorted.keys
      have hkind := field_of hsorted "kind" _ (by simp; rfl)
      rw [state_obj, hvalue]
      simp only [decode_state, require_dict, pure_bind, hkeys, ok_bind, hkind, sort_keys]
      rfl
    | FileState state =>
      obtain ⟨sorted, hvalue, hsorted⟩ := sorted_obj [("kind", .str "file"),
        ("content_hash", .str state.content_hash), ("mode", .int state.mode), ("byte_len", .int state.byte_len)] (by simp)
      have hkeys : require_keys sorted ["kind", "content_hash", "mode", "byte_len"] = .ok () :=
        require_keys_of hsorted.keys
      have hkind := field_of hsorted "kind" _ (by simp; rfl)
      have hhash := field_of hsorted "content_hash" _ (by simp; rfl)
      have hmode := field_of hsorted "mode" _ (by simp; rfl)
      have hlen := field_of hsorted "byte_len" _ (by simp; rfl)
      rw [state_obj, hvalue]
      simp only [decode_state, require_dict, pure_bind, hkeys, ok_bind, hkind, text, hhash, integer, hmode, hlen, sort_keys]
      rfl
    | DirectoryState state =>
      obtain ⟨sorted, hvalue, hsorted⟩ := sorted_obj [("kind", .str "directory"), ("mode", .int state.mode)] (by simp)
      have hkeys : require_keys sorted ["kind", "mode"] = .ok () := require_keys_of hsorted.keys
      have hkind := field_of hsorted "kind" _ (by simp; rfl)
      have hmode := field_of hsorted "mode" _ (by simp; rfl)
      rw [state_obj, hvalue]
      simp only [decode_state, require_dict, pure_bind, hkeys, ok_bind, hkind, integer, hmode, sort_keys]
      rfl
    | SymlinkState state =>
      obtain ⟨sorted, hvalue, hsorted⟩ := sorted_obj [("kind", .str "symlink"), ("target", .str state.target),
        ("mode", .int state.mode)] (by simp)
      have hkeys : require_keys sorted ["kind", "target", "mode"] = .ok () := require_keys_of hsorted.keys
      have hkind := field_of hsorted "kind" _ (by simp; rfl)
      have htarget := field_of hsorted "target" _ (by simp; rfl)
      have hmode := field_of hsorted "mode" _ (by simp; rfl)
      rw [state_obj, hvalue]
      simp only [decode_state, require_dict, pure_bind, hkeys, ok_bind, hkind, text, htarget, integer, hmode, sort_keys]
      rfl
  | ObservedUnrecognized st_mode =>
    obtain ⟨sorted, hvalue, hsorted⟩ := sorted_obj [("kind", .str "unrecognized"), ("st_mode", .int st_mode)] (by simp)
    have hkeys : require_keys sorted ["kind", "st_mode"] = .ok () := require_keys_of hsorted.keys
    have hkind := field_of hsorted "kind" _ (by simp; rfl)
    have hmode := field_of hsorted "st_mode" _ (by simp; rfl)
    have hvalid : is_unrecognized_st_mode st_mode = true := h
    rw [state_obj, hvalue]
    simp only [decode_state, require_dict, pure_bind, hkeys, ok_bind, hkind, integer, hmode, sort_keys, hvalid, if_true]
    rfl
  | ObservedContended =>
    obtain ⟨sorted, hvalue, hsorted⟩ := sorted_obj [("kind", .str "contended")] (by simp)
    have hkeys : require_keys sorted ["kind"] = .ok () := require_keys_of hsorted.keys
    have hkind := field_of hsorted "kind" _ (by simp; rfl)
    rw [state_obj, hvalue]
    simp only [decode_state, require_dict, pure_bind, hkeys, ok_bind, hkind, sort_keys]
    rfl
  | ObservedInaccessible =>
    obtain ⟨sorted, hvalue, hsorted⟩ := sorted_obj [("kind", .str "inaccessible")] (by simp)
    have hkeys : require_keys sorted ["kind"] = .ok () := require_keys_of hsorted.keys
    have hkind := field_of hsorted "kind" _ (by simp; rfl)
    rw [state_obj, hvalue]
    simp only [decode_state, require_dict, pure_bind, hkeys, ok_bind, hkind, sort_keys]
    rfl

theorem optional_relation_written (value : Option FileBuildRelation) :
    optional_relation (sort_keys (optional (fun relation => .str (file_build_relation_value relation)) value)) = .ok value := by
  cases value with
  | none => rfl
  | some value => simp only [optional, sort_keys, optional_relation, build_relation_written]; rfl

theorem decode_entry_written {entry : DiagnosticEntry} (h : ValidState entry.state) :
    decode_entry (sort_keys (entry_obj entry)) = .ok entry := by
  obtain ⟨sorted, hvalue, hsorted⟩ := sorted_obj [("slot", .str entry.slot), ("state", state_obj entry.state),
    ("has_unmodeled_child", optional .bool entry.has_unmodeled_child),
    ("file_build_relation", optional (fun relation => .str (file_build_relation_value relation)) entry.file_build_relation)]
    (by simp)
  have hkeys : require_keys sorted ["slot", "state", "has_unmodeled_child", "file_build_relation"] = .ok () :=
    require_keys_of hsorted.keys
  have hslot := field_of hsorted "slot" (.str entry.slot) (by simp)
  have hstate := field_of hsorted "state" (state_obj entry.state) (by simp)
  have hunmodeled := field_of hsorted "has_unmodeled_child" (optional .bool entry.has_unmodeled_child) (by simp)
  have hbuild := field_of hsorted "file_build_relation"
    (optional (fun relation => .str (file_build_relation_value relation)) entry.file_build_relation) (by simp)
  rw [entry_obj, hvalue]
  simp only [decode_entry, require_dict, pure_bind, hkeys, ok_bind, text, hslot, hstate, sort_keys,
    decode_state_written h, optional_flag_written hunmodeled, hbuild, optional_relation_written]
  rfl

/-- A diagnostic whose listed states can be written and read back. -/
structure ValidDiagnostic (diagnostic : HaltDiagnostic) : Prop where
  expected : ∀ entry ∈ diagnostic.expected, ValidState entry.state
  observed : ∀ entry ∈ diagnostic.observed, ValidState entry.state

/-- What `encode_diagnostic` writes, `decode_diagnostic` reads back. -/
theorem decode_encode_diagnostic {diagnostic : HaltDiagnostic} (h : ValidDiagnostic diagnostic) :
    decode_diagnostic (encode_diagnostic diagnostic) = .ok diagnostic := by
  have hload : load_payload (encode_diagnostic diagnostic) = .ok (sort_keys (diagnostic_obj diagnostic)) := by
    rw [load_payload, encode_diagnostic, loads_dumps true (plain_diagnostic_obj diagnostic)]
    rfl
  obtain ⟨sorted, hvalue, hsorted⟩ := sorted_obj
    [("pre_halt_state", .str (transaction_state_value diagnostic.pre_halt_state)),
      ("commit_decision", .str (commit_decision_value diagnostic.commit_decision)),
      ("journals", .arr (diagnostic.journals.map journal_obj)),
      ("projected_transaction_state", .str (transaction_state_value diagnostic.projected_transaction_state)),
      ("projected_journals", .arr (diagnostic.projected_journals.map journal_obj)),
      ("effect_id", optional .str diagnostic.effect_id),
      ("paths", .arr (diagnostic.paths.map .str)),
      ("expected", .arr (diagnostic.expected.map entry_obj)),
      ("observed", .arr (diagnostic.observed.map entry_obj)),
      ("identity_relations", .arr (diagnostic.identity_relations.map relation_obj)),
      ("reason", .str (halt_reason_value diagnostic.reason)),
      ("operator_action", .str (operator_action_value diagnostic.operator_action))] (by simp)
  have hkeys : require_keys sorted diagnostic_fields = .ok () := require_keys_of hsorted.keys
  have hpre := field_of hsorted "pre_halt_state" (.str (transaction_state_value diagnostic.pre_halt_state)) (by simp)
  have hcommit := field_of hsorted "commit_decision" (.str (commit_decision_value diagnostic.commit_decision)) (by simp)
  have hjournals := field_of hsorted "journals" (.arr (diagnostic.journals.map journal_obj)) (by simp)
  have hprojected := field_of hsorted "projected_transaction_state"
    (.str (transaction_state_value diagnostic.projected_transaction_state)) (by simp)
  have hprojected_journals := field_of hsorted "projected_journals"
    (.arr (diagnostic.projected_journals.map journal_obj)) (by simp)
  have heffect := field_of hsorted "effect_id" (optional .str diagnostic.effect_id) (by simp)
  have hpaths := field_of hsorted "paths" (.arr (diagnostic.paths.map .str)) (by simp)
  have hexpected := field_of hsorted "expected" (.arr (diagnostic.expected.map entry_obj)) (by simp)
  have hobserved := field_of hsorted "observed" (.arr (diagnostic.observed.map entry_obj)) (by simp)
  have hrelations := field_of hsorted "identity_relations" (.arr (diagnostic.identity_relations.map relation_obj))
    (by simp)
  have hreason := field_of hsorted "reason" (.str (halt_reason_value diagnostic.reason)) (by simp)
  have haction := field_of hsorted "operator_action" (.str (operator_action_value diagnostic.operator_action)) (by simp)
  have hread_journals := mapM_written fun journal (_ : journal ∈ diagnostic.journals) => decode_journal_written journal
  have hread_projected := mapM_written
    fun journal (_ : journal ∈ diagnostic.projected_journals) => decode_journal_written journal
  have hread_expected := mapM_written fun entry hentry => decode_entry_written (h.expected entry hentry)
  have hread_observed := mapM_written fun entry hentry => decode_entry_written (h.observed entry hentry)
  have hread_relations := mapM_written
    fun relation (_ : relation ∈ diagnostic.identity_relations) => decode_relation_written relation
  rw [decode_diagnostic, hload, diagnostic_obj, hvalue]
  simp only [require_dict, pure_bind, hkeys, ok_bind, sequence, hpaths, hjournals, hprojected_journals, hexpected,
    hobserved, hrelations, sort_keys, decode_paths_written, hpre, hcommit, hprojected, hreason, haction,
    transaction_state_written, commit_decision_written, halt_reason_written, operator_action_written,
    optional_text_written heffect, hread_journals, hread_projected, hread_expected, hread_observed, hread_relations]
  rfl

end atoms.store

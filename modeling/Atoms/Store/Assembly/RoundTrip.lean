import Atoms.Store.Assembly

open atoms.errors checked json

namespace atoms.store

/-! Every object the writer makes is plain. -/

theorem plain_fact_obj (fact : String × String) : Plain (fact_obj fact) := by
  apply Plain.arr
  simp only [List.forall_mem_cons, List.not_mem_nil, false_implies, implies_true, and_true]
  exact ⟨.str _, .str _⟩

theorem plain_finding_obj (finding : AssemblyFinding) : Plain (finding_obj finding) := by
  refine .obj (by simp) ?_
  simp only [List.forall_mem_cons, List.not_mem_nil, false_implies, implies_true, and_true]
  exact ⟨.str _, .str _, plain_arr plain_fact_obj _⟩

theorem plain_halt_obj (halt : AssemblyHalt) : Plain (halt_obj halt) := by
  refine .obj (by simp) ?_
  simp only [List.forall_mem_cons, List.not_mem_nil, false_implies, implies_true, and_true]
  exact ⟨.str _, .str _, .str _, plain_arr plain_finding_obj _, .str _⟩

/-! Reading back what was written. -/

theorem closed_enum_written {α : Type} {members : List α} {value_of : α → String} {label : String} {item : α}
    (h : members.find? (fun other => value_of other = value_of item) = some item) :
    closed_enum members value_of (.str (value_of item)) label = .ok item := by
  unfold closed_enum exact_string
  rw [pure_bind, h]
  rfl

theorem only_of {obj : Members} {fields : List String} (h : keyed.set_eq (obj.map Prod.fst) fields) (label : String) :
    only obj fields label = .ok () := require_of h

theorem decode_facts_written (index fact_index : Nat) (facts : List (String × String)) :
    decode_facts index fact_index (sort_items (facts.map fact_obj)) = .ok facts := by
  induction facts generalizing fact_index with
  | nil => rfl
  | cons fact rest ih =>
    have hfact : decode_fact index fact_index (sort_keys (fact_obj fact)) = .ok fact := rfl
    rw [List.map_cons, sort_items, decode_facts, hfact, ok_bind, ih]
    rfl

theorem finding_kind_written (kind : AssemblyFindingKind) (label : String) :
    closed_enum assembly_finding_kinds assembly_finding_kind_value (.str (assembly_finding_kind_value kind)) label =
      .ok kind := by
  apply closed_enum_written
  cases kind <;> rfl

variable [UnicodeData]

/-- A finding that the constructor makes. -/
def AssemblyFinding.Valid (finding : AssemblyFinding) : Prop :=
  assembly_finding finding.path finding.kind finding.observed = .ok finding

theorem decode_finding_written {finding : AssemblyFinding} (h : finding.Valid) (index : Nat) :
    decode_finding index (sort_keys (finding_obj finding)) = .ok finding := by
  obtain ⟨sorted, hvalue, hsorted⟩ := sorted_obj [("path", .str finding.path),
    ("kind", .str (assembly_finding_kind_value finding.kind)), ("observed", .arr (finding.observed.map fact_obj))] (by simp)
  have hkeys : ∀ label, only sorted ["path", "kind", "observed"] label = .ok () := only_of hsorted.keys
  have hpath := field_of hsorted "path" (.str finding.path) (by simp)
  have hkind := field_of hsorted "kind" (.str (assembly_finding_kind_value finding.kind)) (by simp)
  have hobserved := field_of hsorted "observed" (.arr (finding.observed.map fact_obj)) (by simp)
  rw [finding_obj, hvalue]
  simp only [decode_finding, object, pure_bind, hkeys, ok_bind, hobserved, hpath, hkind, sort_keys, array,
    decode_facts_written, exact_string, finding_kind_written]
  exact h

theorem decode_findings_written {findings : List AssemblyFinding} (h : ∀ finding ∈ findings, finding.Valid) (index : Nat) :
    decode_findings index (sort_items (findings.map finding_obj)) = .ok findings := by
  induction findings generalizing index with
  | nil => rfl
  | cons finding rest ih =>
    rw [List.map_cons, sort_items, decode_findings, decode_finding_written (h finding List.mem_cons_self), ok_bind,
      ih fun other hother => h other (List.mem_cons_of_mem _ hother)]
    rfl

/-- What `encode_assembly_halt` writes of a halt that the constructors make, `decode_assembly_halt` reads back. -/
theorem decode_encode_assembly_halt {halt : AssemblyHalt} (hvalid : ∀ finding ∈ halt.findings, finding.Valid)
    (hmade : assembly_halt halt.txid halt.expected halt.findings = .ok halt) :
    (encode_assembly_halt halt >>= decode_assembly_halt) = .ok halt := by
  have hencode : encode_assembly_halt halt = .ok (dumps false (halt_obj halt)) := by
    rw [encode_assembly_halt, hmade]
    rfl
  have hload : load_halt (dumps false (halt_obj halt)) = .ok (sort_keys (halt_obj halt)) := by
    rw [load_halt, loads_dumps false (plain_halt_obj halt)]
    rfl
  obtain ⟨sorted, hvalue, hsorted⟩ := sorted_obj [("txid", .str halt.txid), ("reason", .str APPROVAL_EVIDENCE_MISMATCH),
    ("expected", .str halt.expected), ("findings", .arr (halt.findings.map finding_obj)),
    ("operator_action", .str RESTORE_APPROVED_TOPOLOGY)] (by simp)
  have hkeys : only sorted ["txid", "reason", "expected", "findings", "operator_action"] "assembly halt payload" = .ok () :=
    only_of hsorted.keys _
  have htxid := field_of hsorted "txid" (.str halt.txid) (by simp)
  have hreason := field_of hsorted "reason" (.str APPROVAL_EVIDENCE_MISMATCH) (by simp)
  have hexpected := field_of hsorted "expected" (.str halt.expected) (by simp)
  have hfindings := field_of hsorted "findings" (.arr (halt.findings.map finding_obj)) (by simp)
  have haction := field_of hsorted "operator_action" (.str RESTORE_APPROVED_TOPOLOGY) (by simp)
  have hreason_read : ∀ label, closed_enum [APPROVAL_EVIDENCE_MISMATCH] id (.str APPROVAL_EVIDENCE_MISMATCH) label =
      .ok APPROVAL_EVIDENCE_MISMATCH := fun _ => rfl
  have haction_read : ∀ label, closed_enum [RESTORE_APPROVED_TOPOLOGY] id (.str RESTORE_APPROVED_TOPOLOGY) label =
      .ok RESTORE_APPROVED_TOPOLOGY := fun _ => rfl
  rw [hencode, ok_bind, decode_assembly_halt, hload, ok_bind, halt_obj, hvalue, ← halt_obj]
  simp only [object, pure_bind, hkeys, ok_bind, hfindings, htxid, hreason, hexpected, haction, sort_keys, array,
    decode_findings_written hvalid, exact_string, hreason_read, haction_read, hmade, hencode, require_true]
  rfl

end atoms.store

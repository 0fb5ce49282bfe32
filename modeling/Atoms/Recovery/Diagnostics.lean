import Atoms.Recovery.Plan

open atoms.errors atoms.fingerprint atoms.effects atoms.spec checked

namespace atoms.recovery.diagnostics

def persistent_slot (path : RelPath) : String := "persistent:" ++ path

def scratch_slot (effect_id : String) (role : ScratchRole) : String := "scratch:" ++ effect_id ++ ":" ++ role.value

/-- `_entry_fields`: an entry's diagnostic state, its unmodeled-child fact and its identity. -/
def entry_fields : ObservedEntry → DiagnosticState × Option Bool × Option EntryIdentity
  | .ObservedAbsent => (.state ABSENT, none, none)
  | .ObservedFile state identity => (.state state, none, some identity)
  | .ObservedSymlink state => (.state state, none, none)
  | .ObservedDirectory state identity has_unmodeled_child => (.state state, has_unmodeled_child, some identity)
  | .ObservedUnrecognized st_mode => (.ObservedUnrecognized st_mode, none, none)
  | .ObservedContended => (.ObservedContended, none, none)
  | .ObservedInaccessible => (.ObservedInaccessible, none, none)

structure NamedEntry where
  slot : String
  entry : ObservedEntry
  file_build_relation : Option FileBuildRelation

def named_entries : Option JointObservation → Except AtomsError (List NamedEntry)
  | none => pure []
  | some observation => do
    let persistent := observation.persistent.map fun item => ⟨persistent_slot item.path, item.entry, none⟩
    let scratch := observation.scratch.map fun item =>
      ⟨scratch_slot item.effect_id item.role, item.entry, item.file_build_relation⟩
    let entries := sorted_by NamedEntry.slot (persistent ++ scratch)
    require_protocol (entries.map NamedEntry.slot).Nodup "diagnostic evidence slots must be unique"
    pure entries

/-- `_diagnostic_paths`: the persistent paths of both observations, sorted. -/
def diagnostic_paths (expected observed : Option JointObservation) : List RelPath :=
  let paths := fun (observation : Option JointObservation) =>
    (observation.map fun item => item.persistent.map PersistentObservation.path).getD []
  sorted_by id (paths expected ++ paths observed).dedup

def project_entries (observation : Option JointObservation) : Except AtomsError (List DiagnosticEntry) := do
  let entries ← named_entries observation
  pure <| entries.map fun item =>
    { slot := item.slot
      state := (entry_fields item.entry).1
      has_unmodeled_child := (entry_fields item.entry).2.1
      file_build_relation := item.file_build_relation }

/-- Every pair of identified slots, left before right, with how their identities relate. -/
def identity_pairs : List (String × EntryIdentity) → List DiagnosticIdentityRelation
  | [] => []
  | (left_slot, left) :: rest =>
    rest.map (fun (right_slot, right) =>
      { left_slot, right_slot, relation := if left = right then .SAME else .DIFFERENT }) ++ identity_pairs rest

def project_identity_relations («namespace» : String) (observation : Option JointObservation) :
    Except AtomsError (List DiagnosticIdentityRelation) := do
  let entries ← named_entries observation
  let identified := entries.filterMap fun item =>
    (entry_fields item.entry).2.2.map fun identity => («namespace» ++ ":" ++ item.slot, identity)
  pure ((identity_pairs identified).insertionSort fun left right => snapshot.pair_le
    (snapshot.DiagnosticIdentityRelation.pair left) (snapshot.DiagnosticIdentityRelation.pair right))

variable [UnicodeData]

def diagnostic (source : RecoverySnapshot) (reason : HaltReason) (projected : Option RecoverySnapshot)
    (effect_id : Option String) (expected observed : Option JointObservation) : Except AtomsError HaltDiagnostic := do
  let evidence_snapshot := projected.getD source
  let expected_entries ← project_entries expected
  let observed_entries ← project_entries observed
  let expected_relations ← project_identity_relations "expected" expected
  let observed_relations ← project_identity_relations "observed" observed
  pure
    { pre_halt_state := source.transaction_state
      commit_decision := source.commit_decision
      journals := source.journals
      projected_transaction_state := evidence_snapshot.transaction_state
      projected_journals := evidence_snapshot.journals
      effect_id
      paths := diagnostic_paths expected observed
      expected := expected_entries
      observed := observed_entries
      identity_relations := expected_relations ++ observed_relations
      reason
      operator_action :=
        if reason ∈ [HaltReason.JOURNAL_TOPOLOGY_INVALID, .COMMIT_DECISION_CONFLICT, .ACTIVE_BINDING_MISSING] then
          .REPAIR_DURABLE_METADATA
        else .INSPECT_PRESERVED_EVIDENCE }

end atoms.recovery.diagnostics

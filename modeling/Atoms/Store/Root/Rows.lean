import Atoms.Store.Root
import Atoms.Library.Checked

open atoms.errors atoms.identifiers checked

namespace atoms.store

/-! What a change of the tables of the root requires, and what it makes of them. -/

namespace RootTables

variable {tables tables' : RootTables}

theorem insert_root_operation_cases {operation_id request_json request_hash : String} {kind : RootOperationKind}
    (h : tables.insert_root_operation operation_id kind request_json request_hash = .ok tables') :
    tables.lifecycle = none ∧ tables.operation = none ∧ tables' = { tables with
      operation := some ⟨operation_id, kind, .recorded, request_json, request_hash, none, none, none⟩ } := by
  obtain ⟨_, hlifecycle, h⟩ := bind_eq_ok_iff.mp h
  obtain ⟨_, _, h⟩ := bind_eq_ok_iff.mp h
  obtain ⟨_, hoperation, h⟩ := bind_eq_ok_iff.mp h
  obtain rfl := pure_eq_ok_iff.mp h
  exact ⟨require_eq_ok_iff.mp hlifecycle, require_eq_ok_iff.mp hoperation, rfl⟩

theorem insert_root_lifecycle_cases {state : RootLifecycleState} {machine_id root_path : String} {origin : RootLifecycleOrigin}
    (h : tables.insert_root_lifecycle state machine_id root_path origin = .ok tables') :
    admits_lifecycle tables.operation state origin = true ∧ state ∈ origin.states ∧ tables.lifecycle = none ∧
      tables' = { tables with lifecycle := some ⟨state, machine_id, root_path, origin⟩ } := by
  obtain ⟨_, hadmits, h⟩ := bind_eq_ok_iff.mp h
  obtain ⟨_, hchecked, h⟩ := bind_eq_ok_iff.mp h
  obtain ⟨_, hlifecycle, h⟩ := bind_eq_ok_iff.mp h
  obtain rfl := pure_eq_ok_iff.mp h
  exact ⟨require_eq_ok_iff.mp hadmits, (require_eq_ok_iff.mp hchecked).2.2.2, require_eq_ok_iff.mp hlifecycle, rfl⟩

theorem set_root_lifecycle_state_cases {state : RootLifecycleState} (h : tables.set_root_lifecycle_state state = .ok tables') :
    ∃ row, tables.lifecycle = some row ∧ admits_transition tables.operation row state = true ∧ state ∈ row.origin.states ∧
      tables' = { tables with lifecycle := some { row with state } } := by
  unfold set_root_lifecycle_state at h
  split at h
  · cases h
  · rename_i row hrow
    obtain ⟨_, hadmits, h⟩ := bind_eq_ok_iff.mp h
    obtain ⟨_, hstate, h⟩ := bind_eq_ok_iff.mp h
    obtain rfl := pure_eq_ok_iff.mp h
    exact ⟨row, hrow, require_eq_ok_iff.mp hadmits, require_eq_ok_iff.mp hstate, rfl⟩

theorem update_operation_cases {absent : String} {update : RootOperationRow → RootOperationRow}
    (h : tables.update_operation absent update = .ok tables') :
    ∃ row, tables.operation = some row ∧ (write_once row.source_snapshot (update row).source_snapshot = true ∧
      write_once row.destination_snapshot (update row).destination_snapshot = true ∧
      write_once row.genesis_digest (update row).genesis_digest = true) ∧
      follows row.kind row.phase (update row).phase = true ∧
      ((update row).phase = .complete → ∃ lifecycle ∈ tables.lifecycle, lifecycle.origin = row.kind.origin ∧
        lifecycle.state = if row.kind = .replicate then .read_only_unserviceable else .writable) ∧
      (update row).proved = true ∧ tables' = { tables with operation := some (update row) } := by
  unfold update_operation at h
  split at h
  · cases h
  · rename_i row hrow
    obtain ⟨_, honce, h⟩ := bind_eq_ok_iff.mp h
    obtain ⟨_, hfollows, h⟩ := bind_eq_ok_iff.mp h
    obtain ⟨_, hcomplete, h⟩ := bind_eq_ok_iff.mp h
    obtain ⟨_, hproved, h⟩ := bind_eq_ok_iff.mp h
    obtain rfl := pure_eq_ok_iff.mp h
    exact ⟨row, hrow, require_eq_ok_iff.mp honce, require_eq_ok_iff.mp hfollows, require_eq_ok_iff.mp hcomplete,
      (require_eq_ok_iff.mp hproved).1, rfl⟩

end RootTables

/-! How far a row has come. -/

def RootOperationPhase.rank (phase : RootOperationPhase) : Nat :=
  [RootOperationPhase.recorded, .source_snapshot_durable, .tree_durable, .complete].idxOf phase

theorem rank_lt_of_follows {kind : RootOperationKind} {phase phase' : RootOperationPhase} (h : follows kind phase phase' = true) :
    phase.rank < phase'.rank := by
  cases phase <;> cases phase' <;> first | decide | cases h

/-- A later state of the row of one operation. -/
structure RootOperationRow.Onward (row row' : RootOperationRow) : Prop where
  identity : row'.operation_id = row.operation_id ∧ row'.kind = row.kind
  request : row'.request_json = row.request_json ∧ row'.request_hash = row.request_hash
  phase : row.phase.rank ≤ row'.phase.rank
  source : ∀ snapshot, row.source_snapshot = some snapshot → row'.source_snapshot = some snapshot
  destination : ∀ snapshot, row.destination_snapshot = some snapshot → row'.destination_snapshot = some snapshot
  genesis : ∀ digest, row.genesis_digest = some digest → row'.genesis_digest = some digest

/-- A later state of the row of one lifecycle: what is granted stays granted. -/
structure RootLifecycleRow.Onward (row row' : RootLifecycleRow) : Prop where
  binding : row'.machine_id = row.machine_id ∧ row'.root_path = row.root_path ∧ row'.origin = row.origin
  granted : row.state ≠ .read_only_unserviceable → row'.state = row.state

theorem RootOperationRow.Onward.refl (row : RootOperationRow) : row.Onward row :=
  ⟨⟨rfl, rfl⟩, ⟨rfl, rfl⟩, Nat.le_refl _, fun _ h => h, fun _ h => h, fun _ h => h⟩

theorem RootOperationRow.Onward.trans {row row' row'' : RootOperationRow} (h : row.Onward row') (h' : row'.Onward row'') :
    row.Onward row'' where
  identity := ⟨h'.identity.1.trans h.identity.1, h'.identity.2.trans h.identity.2⟩
  request := ⟨h'.request.1.trans h.request.1, h'.request.2.trans h.request.2⟩
  phase := Nat.le_trans h.phase h'.phase
  source snapshot hsnapshot := h'.source snapshot (h.source snapshot hsnapshot)
  destination snapshot hsnapshot := h'.destination snapshot (h.destination snapshot hsnapshot)
  genesis digest hdigest := h'.genesis digest (h.genesis digest hdigest)

theorem RootLifecycleRow.Onward.refl (row : RootLifecycleRow) : row.Onward row := ⟨⟨rfl, rfl, rfl⟩, fun _ => rfl⟩

theorem RootLifecycleRow.Onward.trans {row row' row'' : RootLifecycleRow} (h : row.Onward row') (h' : row'.Onward row'') :
    row.Onward row'' := by
  obtain ⟨⟨hmachine, hpath, horigin⟩, hgranted⟩ := h
  obtain ⟨⟨hmachine', hpath', horigin'⟩, hgranted'⟩ := h'
  refine ⟨⟨hmachine'.trans hmachine, hpath'.trans hpath, horigin'.trans horigin⟩, fun hstate => ?_⟩
  have hsame := hgranted hstate
  exact (hgranted' (hsame ▸ hstate)).trans hsame

/-- Later tables of one root: no row goes, and each that is there goes on. -/
structure RootTables.Onward (tables tables' : RootTables) : Prop where
  operation : ∀ row, tables.operation = some row → ∃ row', tables'.operation = some row' ∧ row.Onward row'
  lifecycle : ∀ row, tables.lifecycle = some row → ∃ row', tables'.lifecycle = some row' ∧ row.Onward row'

namespace RootTables.Onward

variable {tables tables' tables'' : RootTables}

theorem refl (tables : RootTables) : tables.Onward tables :=
  ⟨fun row hrow => ⟨row, hrow, .refl row⟩, fun row hrow => ⟨row, hrow, .refl row⟩⟩

theorem trans (h : tables.Onward tables') (h' : tables'.Onward tables'') : tables.Onward tables'' := by
  refine ⟨fun row hrow => ?_, fun row hrow => ?_⟩
  · obtain ⟨row', hrow', honward⟩ := h.operation row hrow
    obtain ⟨row'', hrow'', honward'⟩ := h'.operation row' hrow'
    exact ⟨row'', hrow'', honward.trans honward'⟩
  · obtain ⟨row', hrow', honward⟩ := h.lifecycle row hrow
    obtain ⟨row'', hrow'', honward'⟩ := h'.lifecycle row' hrow'
    exact ⟨row'', hrow'', honward.trans honward'⟩

end RootTables.Onward

/-- What the tables of a root say of one another, whatever its commands have done. -/
structure RootTables.Accounted (tables : RootTables) : Prop where
  operation : ∀ row, tables.operation = some row →
    row.proved = true ∧ ∃ lifecycle, tables.lifecycle = some lifecycle ∧ lifecycle.origin = row.kind.origin
  lifecycle : ∀ row, tables.lifecycle = some row → row.state ∈ row.origin.states ∧
    (row.origin ∈ [.register, .replicate, .fork] → tables.operation.isSome = true)
  /-- Nothing is granted before the operation is complete, and what it made is writable once it is, but for a replica. -/
  granted : ∀ row lifecycle, tables.operation = some row → tables.lifecycle = some lifecycle →
    (lifecycle.state ≠ .read_only_unserviceable → row.phase = .complete) ∧
      (row.phase = .complete → row.kind ≠ .replicate → lifecycle.state = .writable)

namespace RootTables.Accounted

variable {tables middle tables' : RootTables}

theorem empty : RootTables.Accounted ⟨none, none⟩ :=
  ⟨fun _ hrow => (by cases hrow), fun _ hrow => (by cases hrow), fun _ _ hrow => (by cases hrow)⟩

/-- The row of an operation is recorded together with that of its lifecycle. -/
theorem recorded {operation_id request_json request_hash machine_id root_path : String} {kind : RootOperationKind}
    (hoperation : tables.insert_root_operation operation_id kind request_json request_hash = .ok middle)
    (hlifecycle : middle.insert_root_lifecycle .read_only_unserviceable machine_id root_path kind.origin = .ok tables') :
    tables'.Accounted := by
  obtain ⟨_, _, rfl⟩ := insert_root_operation_cases hoperation
  obtain ⟨_, hstate, _, rfl⟩ := insert_root_lifecycle_cases hlifecycle
  refine ⟨fun row hrow => ?_, fun row hrow => ?_, fun row lifecycle hrow hfound => ?_⟩
  · cases hrow
    exact ⟨by cases kind <;> rfl, _, rfl, rfl⟩
  · cases hrow
    exact ⟨hstate, fun _ => rfl⟩
  · cases hrow
    cases hfound
    exact ⟨fun hne => absurd rfl hne, fun hphase => by cases hphase⟩

/-- An operation goes on to a phase that is not its last. -/
theorem updated {absent : String} {update : RootOperationRow → RootOperationRow} (h : tables.Accounted)
    (hupdate : tables.update_operation absent update = .ok tables') (hkind : ∀ row, (update row).kind = row.kind)
    (hphase : ∀ row, (update row).phase ≠ .complete) : tables'.Accounted := by
  obtain ⟨row, hrow, _, hfollows, _, hproved, rfl⟩ := update_operation_cases hupdate
  refine ⟨fun found hfound => ?_, fun lifecycle hlifecycle => ?_, fun found lifecycle hfound hlifecycle => ?_⟩
  · cases hfound
    obtain ⟨lifecycle, hlifecycle, horigin⟩ := (h.operation row hrow).2
    exact ⟨hproved, lifecycle, hlifecycle, horigin.trans (by rw [hkind])⟩
  · exact ⟨(h.lifecycle lifecycle hlifecycle).1, fun _ => rfl⟩
  · cases hfound
    refine ⟨fun hstate => ?_, fun hcomplete => absurd hcomplete (hphase row)⟩
    -- nothing follows the last phase
    have hcomplete := (h.granted row lifecycle hrow hlifecycle).1 hstate
    have hlt := rank_lt_of_follows hfollows
    rw [hcomplete] at hlt
    exact absurd hlt (Nat.not_lt.mpr (by cases (update row).phase <;> decide))

/-- The operation is completed together with its grant. -/
theorem completed {state : RootLifecycleState} (hstate : tables.set_root_lifecycle_state state = .ok middle)
    (hphase : middle.set_root_operation_phase .complete = .ok tables') : tables'.Accounted := by
  obtain ⟨lifecycle, hlifecycle, _, hmem, rfl⟩ := set_root_lifecycle_state_cases hstate
  obtain ⟨row, hrow, _, _, hcomplete, hproved, rfl⟩ := update_operation_cases hphase
  obtain ⟨_, ⟨rfl⟩, horigin, hgranted⟩ := hcomplete rfl
  refine ⟨fun found hfound => ?_, fun found hfound => ?_, fun found granted hfound hgrant => ?_⟩
  · cases hfound
    exact ⟨hproved, _, rfl, horigin⟩
  · cases hfound
    exact ⟨hmem, fun _ => rfl⟩
  · cases hfound
    cases hgrant
    exact ⟨fun _ => rfl, fun _ hkind => hgranted.trans (if_neg hkind)⟩

/-- A root is made serviceable where the triggers admit it. -/
theorem served (h : tables.Accounted) (hstate : tables.set_root_lifecycle_state .read_only_serviceable = .ok tables') :
    tables'.Accounted := by
  obtain ⟨lifecycle, hlifecycle, hadmits, hmem, rfl⟩ := set_root_lifecycle_state_cases hstate
  refine ⟨fun row hrow => ?_, fun found hfound => ?_, fun row found hrow hfound => ?_⟩
  · obtain ⟨hproved, found, hfound, horigin⟩ := h.operation row hrow
    rw [hlifecycle, Option.some.injEq] at hfound
    subst hfound
    exact ⟨hproved, _, rfl, horigin⟩
  · cases hfound
    exact ⟨hmem, (h.lifecycle lifecycle hlifecycle).2⟩
  · cases hfound
    obtain ⟨hcomplete, hwritable⟩ := h.granted row lifecycle hrow hlifecycle
    rcases of_decide_eq_true hadmits with hsame | ⟨hunserviceable, _, hdone⟩ | ⟨_, hother, _⟩
    · refine ⟨fun _ => hcomplete ?_, fun hphase hkind => hsame.trans (hwritable hphase hkind)⟩
      rw [← hsame]
      decide
    · refine ⟨fun _ => hdone row hrow, fun hphase hkind => ?_⟩
      rw [hwritable hphase hkind] at hunserviceable
      cases hunserviceable
    · cases hother

/-- A row of the lifecycle that no operation made. -/
theorem bare {state : RootLifecycleState} {machine_id root_path : String} {origin : RootLifecycleOrigin}
    (hlifecycle : tables.insert_root_lifecycle state machine_id root_path origin = .ok tables') (hnone : tables.operation = none)
    (horigin : origin ∉ [.register, .replicate, .fork]) : tables'.Accounted := by
  obtain ⟨_, hstate, _, rfl⟩ := insert_root_lifecycle_cases hlifecycle
  have habsent : ∀ row, tables.operation ≠ some row := fun row hrow => by
    rw [hnone] at hrow
    cases hrow
  refine ⟨fun row hrow => absurd hrow (habsent row), fun row hrow => ?_, fun row _ hrow => absurd hrow (habsent row)⟩
  cases hrow
  exact ⟨hstate, fun hmem => absurd hmem horigin⟩

/-- Such rows pass the check of the pair. -/
theorem require_root_row_pair [UnicodeData] (h : tables.Accounted) :
    require_root_row_pair tables.lifecycle tables.operation = .ok () := by
  obtain ⟨operation, lifecycle⟩ := tables
  cases lifecycle with
  | none =>
    cases operation with
    | none => rfl
    | some row =>
      obtain ⟨_, _, hlifecycle, _⟩ := h.operation row rfl
      cases hlifecycle
  | some found =>
    cases operation with
    | none =>
      refine require_eq_ok_iff.mpr fun hmem => ?_
      cases (h.lifecycle found rfl).2 hmem
    | some row =>
      obtain ⟨_, _, ⟨rfl⟩, horigin⟩ := h.operation row rfl
      have hmem : found.origin ∈ [RootLifecycleOrigin.register, .replicate, .fork] := by
        rw [horigin]
        cases row.kind <;> decide
      exact bind_eq_ok_iff.mpr ⟨(), require_eq_ok_iff.mpr hmem, require_eq_ok_iff.mpr horigin.symm⟩

end RootTables.Accounted

end atoms.store

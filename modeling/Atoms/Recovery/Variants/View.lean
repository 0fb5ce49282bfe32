import Atoms.Recovery.Variants
import Atoms.Recovery.Snapshot.Facts

open atoms.errors atoms.fingerprint atoms.effects atoms.compiler checked keyed

namespace atoms.recovery

/-- What is observed at one effect's names: its paths in order, and its scratch. -/
structure EffectView where
  persistent : List ObservedEntry
  scratch : ObservedEntry
  deriving DecidableEq

def JointObservation.view (observed : JointObservation) : EffectView :=
  ⟨observed.persistent.map PersistentObservation.entry, observed.scratch_entry⟩

/-- The observation lists exactly the names of `effect`, in the order of its paths. -/
structure JointObservation.Covers (effect : Effect) (observed : JointObservation) : Prop where
  paths : observed.persistent.map PersistentObservation.path = variants.effect_paths effect
  scratch : ∃ item, observed.scratch = [item] ∧ item.key = scratch_key effect

namespace variants

theorem effect_paths_eq (effect : Effect) : effect_paths effect = (occurrences effect).map Occurrence.path := by
  cases effect <;> rfl

/-- The class that `classify_entry` finds, without its refusal of entries that have no state. -/
def entry_class (entry : ObservedEntry) (pre post : PathState) (build_relation : Option FileBuildRelation) :
    EntryClass :=
  if entry.is_absent then .ABSENT
  else if entry.state? = some pre then .PRE
  else if entry.state? = some post then .POST
  else if build_relation = some .STRICT_PREFIX then .PREFIX
  else .EXTERNAL

theorem entry_state_eq_ok_iff {entry : ObservedEntry} {state : PathState} :
    entry_state entry = .ok state ↔ entry.state? = some state := by
  unfold entry_state
  cases entry.state? <;> simp

theorem classify_entry_eq_ok_iff {entry : ObservedEntry} {pre post : PathState}
    {build_relation : Option FileBuildRelation} {c : EntryClass} :
    classify_entry entry pre post build_relation = .ok c ↔
      entry.state?.isSome ∧ entry_class entry pre post build_relation = c := by
  unfold classify_entry entry_class
  by_cases habsent : entry.is_absent = true
  · obtain rfl := ObservedEntry.is_absent_iff.mp habsent
    simp [ObservedEntry.is_absent, ObservedEntry.state?]
  · rw [if_neg habsent, if_neg habsent, bind_eq_ok_iff]
    simp only [entry_state_eq_ok_iff]
    constructor
    · rintro ⟨state, hstate, h⟩
      simp only [hstate, Option.isSome_some, Option.some.injEq, true_and]
      repeat' split at h
      all_goals simp_all
    · rintro ⟨hsome, h⟩
      obtain ⟨state, hstate⟩ := Option.isSome_iff_exists.mp hsome
      refine ⟨state, hstate, ?_⟩
      simp only [hstate, Option.some.injEq] at h
      repeat' split at h
      all_goals simp_all

/-! What each class says of an entry. -/

section

variable {entry : ObservedEntry} {pre post : PathState} {build_relation : Option FileBuildRelation}

theorem entry_class_eq_absent_iff : entry_class entry pre post build_relation = .ABSENT ↔ entry = .ObservedAbsent := by
  unfold entry_class
  rw [← ObservedEntry.is_absent_iff]
  repeat' split
  all_goals simp_all

theorem entry_class_eq_pre_iff : entry_class entry pre post build_relation = .PRE ↔
    entry ≠ .ObservedAbsent ∧ entry.state? = some pre := by
  unfold entry_class
  rw [Ne, ← ObservedEntry.is_absent_iff]
  repeat' split
  all_goals simp_all

theorem entry_class_eq_post_iff : entry_class entry pre post build_relation = .POST ↔
    entry ≠ .ObservedAbsent ∧ entry.state? ≠ some pre ∧ entry.state? = some post := by
  unfold entry_class
  rw [Ne, ← ObservedEntry.is_absent_iff]
  repeat' split
  all_goals simp_all

theorem entry_class_eq_prefix_iff : entry_class entry pre post build_relation = .PREFIX ↔
    entry ≠ .ObservedAbsent ∧ entry.state? ≠ some pre ∧ entry.state? ≠ some post ∧
      build_relation = some .STRICT_PREFIX := by
  unfold entry_class
  rw [Ne, ← ObservedEntry.is_absent_iff]
  repeat' split
  all_goals simp_all

theorem entry_class_eq_external_iff : entry_class entry pre post build_relation = .EXTERNAL ↔
    entry ≠ .ObservedAbsent ∧ entry.state? ≠ some pre ∧ entry.state? ≠ some post ∧
      build_relation ≠ some .STRICT_PREFIX := by
  unfold entry_class
  rw [Ne, ← ObservedEntry.is_absent_iff]
  repeat' split
  all_goals simp_all

end

/-- The table entry of an effect in flight, over its joint observation. -/
def effect_cell (commit : CommitDecision) (journal : JournalState) (effect : Effect) (observed : JointObservation) :
    EffectDecision :=
  let live := observed.persistent_entry 0
  let scratch := observed.scratch_entry
  let relation := observed.scratch_relation
  match effect with
  | .ReplaceFile e =>
    if e.pre = e.post then noop_replace_cell commit journal e observed
    else replace_cell commit journal e observed (entry_class live e.pre e.post none)
      (entry_class scratch e.pre e.post relation)
  | .CreateFileNoClobber e =>
    create_file_cell commit journal e observed (entry_class live ABSENT e.post none)
      (entry_class scratch ABSENT e.post relation)
  | .DeletePath e =>
    delete_cell commit journal e observed (entry_class live e.pre.state ABSENT none)
      (entry_class scratch e.pre.state ABSENT none)
  | .MoveNoClobber e =>
    let move_class := fun entry => entry_class entry e.source_pre e.source_pre none
    move_cell commit journal e observed (move_class live) (move_class (observed.persistent_entry 1))
      (move_class scratch) (same_identity live scratch) (same_identity (observed.persistent_entry 1) scratch)
  | .CreateDirectory e =>
    let work_class := entry_class scratch ABSENT e.post none
    directory_cell commit journal e observed (entry_class live ABSENT e.post none) work_class
      (work_class = .POST || is_directory_scaffold scratch) (same_identity live scratch)

end variants

variable [UnicodeData]

namespace RecoverySnapshot

variable (s : RecoverySnapshot)

def view (effect : Effect) : EffectView :=
  ⟨(variants.effect_paths effect).map s.entry_at, (s.scratch_at effect).entry⟩

@[simp] theorem view_scratch (effect : Effect) : (s.view effect).scratch = (s.scratch_at effect).entry := rfl

/-- The observation that `_joint` makes of an effect of the plan. -/
def joint_view (effect : Effect) : JointObservation where
  persistent := (variants.effect_paths effect).map fun path => ⟨path, s.entry_at path⟩
  scratch := [s.scratch_at effect]
  parent_occupancy :=
    ((variants.effect_nodes effect ((variants.effect_paths effect).map fun path => ⟨path, s.entry_at path⟩)
      (s.scratch_at effect)).filter fun item =>
        item.2.is_directory && item.1 ∈ s.topology.parents.map TopologyParent.parent).map fun item =>
          variants.parent_occupancy s item.1 item.2

@[simp] theorem joint_view_view (effect : Effect) : (s.joint_view effect).view = s.view effect := by
  simp [joint_view, JointObservation.view, view, JointObservation.scratch_entry, Function.comp_def]

theorem joint_view_covers {effect : Effect} (heffect : effect ∈ s.effects) :
    (s.joint_view effect).Covers effect :=
  ⟨by simp [joint_view, Function.comp_def], s.scratch_at effect, rfl, s.scratch_at_key heffect⟩

@[simp] theorem joint_view_scratch_relation (effect : Effect) :
    (s.joint_view effect).scratch_relation = (s.scratch_at effect).file_build_relation := rfl

end RecoverySnapshot

namespace variants

variable {s : RecoverySnapshot} {effect : Effect}

/-- Every effect of the plan has its joint observation. -/
theorem joint_eq (heffect : effect ∈ s.effects) : joint s effect = .ok (s.joint_view effect) := by
  unfold joint
  rw [bind_eq_ok_iff]
  refine ⟨_, mapM_eq_ok_of_forall (g := fun path => ⟨path, s.entry_at path⟩) ?_, ?_⟩
  · intro path hpath
    rw [effect_paths_eq] at hpath
    rw [s.find_persistent (s.mem_paths_of_effect heffect hpath)]
    rfl
  · rw [s.find_scratch heffect]
    rfl

theorem journal_eq {i : Nat} (heffect : s.effects[i]? = some effect) {state : JournalState}
    (hstate : s.states[i]? = some state) : journal s effect.effect_id = .ok state := by
  have hmem := List.mem_of_getElem? (s.journals_getElem heffect hstate)
  cases hfind : s.journals.find? fun row => row.effect_id = effect.effect_id with
  | none =>
    have hnone := List.find?_eq_none.mp hfind _ hmem
    simp at hnone
  | some row =>
    have hrow := List.mem_of_find?_eq_some hfind
    have hid : row.effect_id = effect.effect_id := by simpa using List.find?_some hfind
    have heq := find_key_of_mem s.journal_ids_nodup hrow
    rw [hid] at heq
    have hother := find_key_of_mem s.journal_ids_nodup hmem
    rw [heq] at hother
    obtain rfl := Option.some.inj hother
    simp [journal, hfind]

/-- Every entry at the effect's names has one of the four states. -/
def Stated (v : EffectView) : Prop := (∀ entry ∈ v.persistent, entry.state?.isSome) ∧ v.scratch.state?.isSome

/-- An effect in flight is decided by its table entry, and by nothing else of the snapshot. -/
theorem classify_variant_eq_ok {i : Nat} (heffect : s.effects[i]? = some effect) {state : JournalState}
    (hstate : s.states[i]? = some state) {d : EffectDecision} (h : classify_variant s effect = .ok d) :
    d = effect_cell s.commit_decision state effect (s.joint_view effect) := by
  have hmem := List.mem_of_getElem? heffect
  have hjournal := journal_eq heffect hstate
  have hjoint := joint_eq hmem
  cases effect with
  | ReplaceFile e =>
    simp only [Effect.effect_id] at hjournal
    simp only [classify_variant, classify_replace, hjoint, ok_bind, hjournal] at h
    simp only [effect_cell]
    split at h
    · simp_all
    · simp only [bind_eq_ok_iff, classify_entry_eq_ok_iff, pure_eq_ok_iff] at h
      obtain ⟨_, ⟨_, rfl⟩, _, ⟨_, rfl⟩, rfl⟩ := h
      simp_all
  | CreateFileNoClobber e =>
    simp only [Effect.effect_id] at hjournal
    simp only [classify_variant, classify_create_file, hjoint, ok_bind, hjournal, bind_eq_ok_iff,
      classify_entry_eq_ok_iff, pure_eq_ok_iff] at h
    obtain ⟨_, ⟨_, rfl⟩, _, ⟨_, rfl⟩, rfl⟩ := h
    rfl
  | DeletePath e =>
    simp only [Effect.effect_id] at hjournal
    simp only [classify_variant, classify_delete, hjoint, ok_bind, hjournal, bind_eq_ok_iff,
      classify_entry_eq_ok_iff, pure_eq_ok_iff] at h
    obtain ⟨_, ⟨_, rfl⟩, _, ⟨_, rfl⟩, rfl⟩ := h
    rfl
  | MoveNoClobber e =>
    simp only [Effect.effect_id] at hjournal
    simp only [classify_variant, classify_move, move_entry_class, hjoint, ok_bind, hjournal, bind_eq_ok_iff,
      classify_entry_eq_ok_iff, pure_eq_ok_iff] at h
    obtain ⟨_, ⟨_, rfl⟩, _, ⟨_, rfl⟩, _, ⟨_, rfl⟩, rfl⟩ := h
    rfl
  | CreateDirectory e =>
    simp only [Effect.effect_id] at hjournal
    simp only [classify_variant, classify_directory, hjoint, ok_bind, hjournal, bind_eq_ok_iff,
      classify_entry_eq_ok_iff, pure_eq_ok_iff] at h
    obtain ⟨_, ⟨_, rfl⟩, _, ⟨_, rfl⟩, rfl⟩ := h
    rfl

theorem persistent_entry_stated (hstated : Stated (s.view effect)) (index : Nat) :
    ((s.joint_view effect).persistent_entry index).state?.isSome := by
  unfold JointObservation.persistent_entry
  cases hitem : (s.joint_view effect).persistent[index]? with
  | none => rfl
  | some item =>
    refine hstated.1 item.entry ?_
    rw [← s.joint_view_view]
    exact List.mem_map_of_mem (List.mem_of_getElem? hitem)

/-- Where the effect's names have states, its table entry is what classification returns. -/
theorem classify_variant_of_stated {i : Nat} (heffect : s.effects[i]? = some effect) {state : JournalState}
    (hstate : s.states[i]? = some state) (hstated : Stated (s.view effect)) :
    classify_variant s effect = .ok (effect_cell s.commit_decision state effect (s.joint_view effect)) := by
  have hmem := List.mem_of_getElem? heffect
  have hjournal := journal_eq heffect hstate
  have hjoint := joint_eq hmem
  have hlive := persistent_entry_stated hstated 0
  have hother := persistent_entry_stated hstated 1
  have hscratch : (s.joint_view effect).scratch_entry.state?.isSome := hstated.2
  have hclass : ∀ {entry : ObservedEntry}, entry.state?.isSome → ∀ pre post relation,
      classify_entry entry pre post relation = .ok (entry_class entry pre post relation) := by
    intro entry hsome pre post relation
    exact classify_entry_eq_ok_iff.mpr ⟨hsome, rfl⟩
  cases effect with
  | ReplaceFile e =>
    simp only [Effect.effect_id] at hjournal
    simp only [classify_variant, classify_replace, hjoint, ok_bind, hjournal, hclass hlive, hclass hscratch, effect_cell]
    split <;> rfl
  | CreateFileNoClobber e =>
    simp only [Effect.effect_id] at hjournal
    simp only [classify_variant, classify_create_file, hjoint, ok_bind, hjournal, hclass hlive, hclass hscratch]
    rfl
  | DeletePath e =>
    simp only [Effect.effect_id] at hjournal
    simp only [classify_variant, classify_delete, hjoint, ok_bind, hjournal, hclass hlive, hclass hscratch]
    rfl
  | MoveNoClobber e =>
    simp only [Effect.effect_id] at hjournal
    simp only [classify_variant, classify_move, move_entry_class, hjoint, ok_bind, hjournal, hclass hlive,
      hclass hother, hclass hscratch]
    rfl
  | CreateDirectory e =>
    simp only [Effect.effect_id] at hjournal
    simp only [classify_variant, classify_directory, hjoint, ok_bind, hjournal, hclass hlive, hclass hscratch]
    rfl

end variants

end atoms.recovery

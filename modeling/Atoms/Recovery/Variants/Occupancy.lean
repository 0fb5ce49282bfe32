import Atoms.Recovery.Reducer.Frame
import Atoms.Recovery.Variants.View

open atoms.errors atoms.fingerprint atoms.effects atoms.compiler checked keyed

namespace atoms.recovery

variable [UnicodeData]

/-- The snapshot observes something at a topology node. -/
def RecoverySnapshot.present (s : RecoverySnapshot) (node : TopologyNode) : Bool :=
  variants.child_present s.persistent_observations s.scratch_observations node

/-- The entry is a directory, at a node whose children are all absent. -/
def EmptyDirectory (s : RecoverySnapshot) (node : TopologyNode) (entry : ObservedEntry) : Prop :=
  entry.is_directory = true ∧ reducer.has_unmodeled entry = false ∧
    ∀ child ∈ topology.children_of s.topology.parents node, s.present child = false

/-- Everything that `s'` observes present, `s` observes present. -/
def OnlyRemoved (s s' : RecoverySnapshot) : Prop :=
  (∀ path, s'.entry_at path ≠ .ObservedAbsent → s.entry_at path ≠ .ObservedAbsent) ∧
    ∀ effect ∈ s.effects, (s'.scratch_at effect).entry ≠ .ObservedAbsent →
      (s.scratch_at effect).entry ≠ .ObservedAbsent

theorem present_persistent (s : RecoverySnapshot) (path : RelPath) :
    s.present (.PersistentNode path) = !(s.entry_at path).is_absent := by
  unfold RecoverySnapshot.present RecoverySnapshot.entry_at
  simp only [variants.child_present]
  cases find_key PersistentObservation.path s.persistent_observations path <;> rfl

theorem present_scratch {s : RecoverySnapshot} {effect : Effect} (heffect : effect ∈ s.effects) :
    s.present (scratch_node effect) = !(s.scratch_at effect).entry.is_absent := by
  have hfind := s.find_scratch heffect
  unfold scratch_key at hfind
  unfold RecoverySnapshot.present variants.child_present scratch_node
  simp [hfind]

theorem present_scratch_unknown {s : RecoverySnapshot} {effect_id : String} {role : ScratchRole}
    (h : (effect_id, role) ∉ s.effects.map scratch_key) : s.present (.ScratchNode effect_id role) = false := by
  have hnone : find_key ScratchObservation.key s.scratch_observations (effect_id, role) = none := by
    rw [find_key_eq_none_iff]
    intro item hitem hkey
    exact h (hkey ▸ s.scratch_coverage.1.1 _ (List.mem_map_of_mem hitem))
  unfold RecoverySnapshot.present variants.child_present
  simp [hnone]

theorem OnlyRemoved.present {s s' : RecoverySnapshot} (h : OnlyRemoved s s') (hframe : Frame s s') {node : TopologyNode}
    (habsent : s.present node = false) : s'.present node = false := by
  cases node with
  | PersistentNode path =>
    rw [present_persistent, Bool.not_eq_false', ObservedEntry.is_absent_iff] at habsent ⊢
    by_contra hpresent
    exact h.1 path hpresent habsent
  | ScratchNode effect_id role =>
    by_cases hkey : (effect_id, role) ∈ s.effects.map scratch_key
    · obtain ⟨effect, heffect, heq⟩ := List.mem_map.mp hkey
      obtain ⟨rfl, rfl⟩ := Prod.mk.inj heq
      have heffect' : effect ∈ s'.effects := by rwa [hframe.effects]
      change s.present (scratch_node effect) = false at habsent
      change s'.present (scratch_node effect) = false
      rw [present_scratch heffect, Bool.not_eq_false', ObservedEntry.is_absent_iff] at habsent
      rw [present_scratch heffect', Bool.not_eq_false', ObservedEntry.is_absent_iff]
      by_contra hpresent
      exact h.2 effect heffect hpresent habsent
    · exact present_scratch_unknown (by rwa [hframe.effects])
  | _ => cases habsent

/-- A directory that is empty stays empty while entries are only removed. -/
theorem EmptyDirectory.of_only_removed {s s' : RecoverySnapshot} {node : TopologyNode} {entry : ObservedEntry}
    (h : EmptyDirectory s node entry) (hframe : Frame s s') (hremoved : OnlyRemoved s s') :
    EmptyDirectory s' node entry := by
  refine ⟨h.1, h.2.1, ?_⟩
  rw [hframe.topology]
  intro child hchild
  exact hremoved.present hframe (h.2.2 child hchild)

namespace variants

/-- The emptiness check over an observation whose occupancy is the snapshot's. -/
theorem directory_is_empty_iff {s : RecoverySnapshot} {observed : JointObservation} {node : TopologyNode}
    {entry : ObservedEntry}
    (hfind : entry.is_directory = true → observed.parent_occupancy.find? (fun occupancy => occupancy.parent = node) =
      if node ∈ s.topology.parents.map TopologyParent.parent then some (parent_occupancy s node entry) else none) :
    directory_is_empty observed node entry = true ↔ EmptyDirectory s node entry := by
  have hchildren : (present_children s.topology s.persistent_observations s.scratch_observations node).isEmpty = true ↔
      ∀ child ∈ topology.children_of s.topology.parents node, s.present child = false := by
    unfold present_children
    rw [List.isEmpty_iff, List.filter_eq_nil_iff]
    simp only [Bool.not_eq_true]
    rfl
  cases entry with
  | ObservedDirectory state identity has_unmodeled_child =>
    have hfind := hfind rfl
    unfold directory_is_empty EmptyDirectory
    simp only [hfind]
    by_cases hunmodeled : has_unmodeled_child = some true
    · simp [hunmodeled, reducer.has_unmodeled]
    · have hfalse : reducer.has_unmodeled (.ObservedDirectory state identity has_unmodeled_child) = false := by
        simp [reducer.has_unmodeled, hunmodeled]
      rw [if_neg hunmodeled]
      by_cases hparent : node ∈ s.topology.parents.map TopologyParent.parent
      · simp only [hparent, if_true, parent_occupancy, hchildren]
        exact ⟨fun h => ⟨rfl, hfalse, h⟩, fun h => h.2.2⟩
      · have hnil : topology.children_of s.topology.parents node = [] := by
          unfold topology.children_of
          rw [List.map_eq_nil_iff, List.filter_eq_nil_iff]
          intro edge hedge
          have hne : edge.parent ≠ node := fun heq => hparent (heq ▸ List.mem_map_of_mem hedge)
          simpa using hne
        simp [hparent, hnil, hfalse, ObservedEntry.is_directory]
  | _ => simp [directory_is_empty, EmptyDirectory, ObservedEntry.is_directory]

section

variable {s : RecoverySnapshot} {e : CreateDirectory}

/-- The occupancy that a creation's observation lists, for its live name and its work name. -/
theorem directory_occupancy (s : RecoverySnapshot) (e : CreateDirectory) :
    (s.joint_view (.CreateDirectory e)).parent_occupancy =
      ([(TopologyNode.PersistentNode e.path, s.entry_at e.path),
        (scratch_node (.CreateDirectory e), (s.scratch_at (.CreateDirectory e)).entry)].filter fun item =>
          item.2.is_directory && item.1 ∈ s.topology.parents.map TopologyParent.parent).map fun item =>
            parent_occupancy s item.1 item.2 := rfl

theorem live_is_empty_iff : directory_is_empty (s.joint_view (.CreateDirectory e)) (.PersistentNode e.path)
    ((s.joint_view (.CreateDirectory e)).persistent_entry 0) = true ↔
      EmptyDirectory s (.PersistentNode e.path) (s.entry_at e.path) := by
  apply @directory_is_empty_iff _ s _ _ (s.entry_at e.path)
  intro hdirectory
  rw [directory_occupancy]
  by_cases hparent : TopologyNode.PersistentNode e.path ∈ s.topology.parents.map TopologyParent.parent
  · simp only [hparent, if_true, List.filter_cons, hdirectory, decide_true, Bool.and_self, List.map_cons, List.find?_cons]
    simp [parent_occupancy]
  · rw [if_neg hparent, List.find?_eq_none]
    intro occupancy hmem
    simp only [List.filter_cons, hparent, decide_false, Bool.and_false, Bool.false_eq_true, if_false] at hmem
    split at hmem
    · simp only [List.filter_nil, List.map_cons, List.map_nil, List.mem_singleton] at hmem
      simp [hmem, parent_occupancy, scratch_node]
    · simp at hmem

/-- The occupancy of a path is not that of a scratch name. -/
theorem find_path_occupancy (s : RecoverySnapshot) (effect : Effect) (persistent : List PersistentObservation)
    (listed : TopologyNode × ObservedEntry → Bool) :
    (((persistent.map fun item => (TopologyNode.PersistentNode item.path, item.entry)).filter listed).map fun item =>
      parent_occupancy s item.1 item.2).find? (fun occupancy => occupancy.parent = scratch_node effect) = none := by
  rw [List.find?_eq_none]
  intro occupancy hmem
  simp only [List.mem_map, List.mem_filter] at hmem
  obtain ⟨_, ⟨⟨_, _, rfl⟩, _⟩, rfl⟩ := hmem
  simp [parent_occupancy, scratch_node]

/-- An effect's observation lists the occupancy of its scratch if that is a directory with a place in the topology. -/
theorem scratch_is_empty_iff {effect : Effect} : directory_is_empty (s.joint_view effect) (scratch_node effect)
    (s.joint_view effect).scratch_entry = true ↔
      EmptyDirectory s (scratch_node effect) (s.scratch_at effect).entry := by
  apply @directory_is_empty_iff _ s _ _ (s.scratch_at effect).entry
  intro hdirectory
  simp only [RecoverySnapshot.joint_view, effect_nodes, List.filter_append, List.map_append, List.find?_append,
    find_path_occupancy, Option.none_or]
  by_cases hparent : scratch_node effect ∈ s.topology.parents.map TopologyParent.parent
  · simp only [hparent, if_true, List.filter_cons, hdirectory, decide_true, Bool.and_self, List.map_cons, List.find?_cons]
    simp [parent_occupancy]
  · simp only [List.filter_cons, hparent, decide_false, Bool.and_false, if_false]
    rfl

end

end variants

end atoms.recovery

import Atoms.Coordinator.Descriptors.Build
import Atoms.Fs.Approval.Facts

open atoms.errors atoms.effects atoms.fs atoms.paths atoms.spec atoms.recovery atoms.compiler checked dict keyed

namespace atoms.coordinator

variable [UnicodeData]

/-- The directories of an approval form a tree under the project root, in which what is below a planned directory is
planned. -/
structure DirectoryTree (approved : ProjectApprovedSpec) : Prop where
  edges_nodup : (approved.topology.parents.map TopologyParent.node).Nodup
  directories_nodup : (approved.directories.map ApprovedDirectory.node).Nodup
  root_edge : ∀ edge ∈ approved.topology.parents, edge.node ≠ .ProjectRoot
  work_edge : ∀ edge ∈ approved.topology.parents, edge.node = .WorkRoot → edge.parent = .ProjectRoot
  root_existing : ∀ entry ∈ approved.directories, entry.node = .ProjectRoot → entry.planned = false
  parent : ∀ entry ∈ approved.directories, entry.node ≠ .ProjectRoot → entry.node ≠ .WorkRoot →
    ∃ above ∈ approved.directories, ⟨entry.node, above.node⟩ ∈ approved.topology.parents ∧ above.node ≠ .WorkRoot ∧
      (above.planned = true → entry.planned = true)

/-- The planned directories of an approval did not exist in the tree. -/
def PlannedAbsent (approved : fs.ProjectApprovedSpec) (tree : ProjectTree) : Prop :=
  ∀ entry ∈ approved.directories, entry.planned = true → ∀ route ∈ approved.directory_paths, route.2 = entry.node →
    ∀ identity, ¬ DirectoryAt tree route.1 identity

section

variable {compiled : CompiledSpec} {context : ProjectContext} {approved : fs.ProjectApprovedSpec}
  {prefixes : Dict RelPath ResolvedPrefix} {facts : Dict Prefix DirectoryFact} {node : Prefix → TopologyNode}
  {resolved : ResolvedTopology}

/-- Each directory of the proof is routed by its prefix. -/
theorem route_of (h : ApprovalOf compiled context approved prefixes facts node resolved) {lead : Prefix}
    (hlead : lead ∈ facts.keys) {entry : fs.ApprovedDirectory} (hentry : entry ∈ approved.directories)
    (hnode : entry.node = node lead) : (lead, entry.node) ∈ approved.directory_paths := by
  have hconsistent := consistent_of_resolved h.resolved_over
  have hwork : entry.node ≠ .WorkRoot := by
    rw [hnode]
    exact h.built.naming.ne_work (h.built.facts_of.plain hconsistent hlead) hlead
  have hpaths := h.directory_paths
  unfold proof_directory_paths at hpaths
  obtain ⟨routes, hroutes, hpaths⟩ := bind_eq_ok_iff.mp hpaths
  rw [pure_eq_ok_iff] at hpaths
  rw [← hpaths, mem_sorted_by]
  have hmem : entry ∈ resolved.directories.filter fun entry => entry.node ≠ .WorkRoot :=
    List.mem_filter.mpr ⟨h.directories ▸ hentry, decide_eq_true hwork⟩
  obtain ⟨index, hindex, heq⟩ := List.mem_iff_getElem.mp hmem
  obtain ⟨hlength, hall⟩ := List.forall₂_iff_get.mp (mapM_eq_ok_iff.mp hroutes)
  have hat := hall index hindex (by omega)
  simp only [List.get_eq_getElem, heq] at hat
  have hroute : (lead, node lead) ∈ resolved.directory_nodes.filter fun route => route.2 = entry.node := by
    rw [h.built.directory_nodes]
    exact List.mem_filter.mpr ⟨List.mem_map_of_mem (mem_in_depth_order.mpr hlead), decide_eq_true hnode.symm⟩
  split at hat
  · rename_i route hfilter
    rw [hfilter, List.mem_singleton] at hroute
    rw [pure_eq_ok_iff] at hat
    rw [← hroute] at hat
    rw [hat]
    exact List.getElem_mem _
  · exact absurd hat throw_ne_ok

/-- Where the planned directories did not exist, they are those that were not observed. -/
theorem planned_iff (h : ApprovalOf compiled context approved prefixes facts node resolved)
    (habsent : PlannedAbsent approved context.tree) {lead : Prefix} (hlead : lead ∈ facts.keys)
    {entry : fs.ApprovedDirectory} (hentry : entry ∈ approved.directories) (hnode : entry.node = node lead) :
    entry.planned = true ↔ identity_at facts lead = none := by
  have hconsistent := consistent_of_resolved h.resolved_over
  obtain ⟨hwork, _⟩ | ⟨other, hother, hsame, hplanned⟩ := h.built.mem_directories entry (h.directories ▸ hentry)
  · exact absurd (hnode.symm.trans hwork) (h.built.naming.ne_work (h.built.facts_of.plain hconsistent hlead) hlead)
  · obtain rfl := h.built.naming.injective lead hlead other hother (hnode.symm.trans hsame)
    constructor
    · intro hp
      by_contra hsome
      obtain ⟨identity, hidentity⟩ := Option.ne_none_iff_exists'.mp hsome
      rw [h.built.facts_of.identity] at hidentity
      exact habsent entry hentry hp _ (route_of h hlead hentry hnode) rfl identity
        (directory_at_of_identity h.resolved_over hidentity)
    · exact fun hnone => hplanned.mpr (.inr hnone)

/-- An approval whose planned directories did not exist gives a tree of directories. -/
theorem directory_tree (h : ApprovalOf compiled context approved prefixes facts node resolved)
    (habsent : PlannedAbsent approved context.tree) : DirectoryTree (executed approved) := by
  have hconsistent := consistent_of_resolved h.resolved_over
  have hplain : ∀ lead ∈ facts.keys, Plain lead := fun lead hlead => h.built.facts_of.plain hconsistent hlead
  have hedge : ∀ edge, edge ∈ (executed approved).topology.parents ↔
      EdgeOf compiled facts.keys node (approved.work_base.isSome = true) edge := by
    intro edge
    rw [executed, h.topology]
    exact h.built.mem_parents edge
  have hdirectories : ∀ entry ∈ (executed approved).directories, ∃ found ∈ approved.directories,
      found.node = entry.node ∧ found.planned = entry.planned := by
    intro entry hentry
    obtain ⟨found, hfound, rfl⟩ := List.mem_map.mp hentry
    exact ⟨found, hfound, rfl, rfl⟩
  refine ⟨?_, ?_, fun edge hmem => ?_, fun edge hmem hwork => ?_, fun entry hentry hroot => ?_,
    fun entry hentry hroot hwork => ?_⟩
  · rw [executed, h.topology]
    exact h.built.nodup_parents
  · rw [executed, h.directories, List.map_map]
    exact h.built.nodup_directories
  · cases (hedge edge).mp hmem with
    | directory hlead hne => exact h.built.naming.ne_root (hplain _ hlead) hlead hne
    | declared _ => simp
    | work_root _ => simp
    | work_scratch _ _ => simp [scratch_node]
    | scratch _ _ _ => simp [scratch_node]
  · cases (hedge edge).mp hmem with
    | directory hlead _ => exact absurd hwork (h.built.naming.ne_work (hplain _ hlead) hlead)
    | declared _ => cases hwork
    | work_root _ => rfl
    | work_scratch _ _ => cases hwork
    | scratch _ _ _ => cases hwork
  · obtain ⟨found, hfound, hnode, hplanned⟩ := hdirectories entry hentry
    obtain ⟨hwork, _⟩ | ⟨lead, hlead, hsame, _⟩ := h.built.mem_directories found (h.directories ▸ hfound)
    · rw [hnode, hroot] at hwork
      cases hwork
    · have hlead_root : lead = ROOT_PREFIX := by
        by_contra hne
        exact h.built.naming.ne_root (hplain lead hlead) hlead hne (by rw [← hsame, hnode, hroot])
      rw [← hplanned]
      refine Bool.eq_false_iff.mpr fun hp => ?_
      exact h.built.facts_of.not_root hlead ((planned_iff h habsent hlead hfound hsame).mp hp) hlead_root
  · obtain ⟨found, hfound, hnode, hplanned⟩ := hdirectories entry hentry
    obtain ⟨hfoundwork, _⟩ | ⟨lead, hlead, hsame, _⟩ := h.built.mem_directories found (h.directories ▸ hfound)
    · exact absurd (hnode.symm.trans hfoundwork) hwork
    · have hne : lead ≠ ROOT_PREFIX := by
        rintro rfl
        exact hroot (by rw [← hnode, hsame, h.built.naming.root hlead])
      have habove := h.built.facts_of.parent hconsistent hlead hne
      have hmem : ⟨node lead, node lead.dropLast⟩ ∈ resolved.topology.parents :=
        (h.built.mem_parents _).mpr (.directory hlead hne)
      obtain ⟨above, habove_mem, habove_node⟩ := h.built.directory_of lead.dropLast habove
        (List.mem_map.mpr ⟨_, hmem, rfl⟩)
      rw [← h.directories] at habove_mem
      refine ⟨_, List.mem_map_of_mem habove_mem, ?_, ?_, fun hp => ?_⟩
      · rw [executed, h.topology]
        simp only [habove_node, ← hnode, hsame]
        exact hmem
      · simp only [habove_node]
        exact h.built.naming.ne_work (hplain _ habove) habove
      · rw [← hplanned, planned_iff h habsent hlead hfound hsame]
        have hnone := (planned_iff h habsent habove habove_mem habove_node).mp hp
        by_contra hsome
        obtain ⟨identity, hidentity⟩ := Option.ne_none_iff_exists'.mp hsome
        have hseen : (identity_at (observed_facts prefixes) lead).isSome = true := by
          rw [← h.built.facts_of.identity, hidentity]
          rfl
        have hobserved := observed_parent h.resolved_over hseen
        rw [← h.built.facts_of.identity, hnone] at hobserved
        cases hobserved

end

end atoms.coordinator

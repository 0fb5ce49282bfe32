import Atoms.Fs.Approval
import Atoms.Fs.Topology.Resolved

open atoms.errors atoms.effects atoms.identifiers atoms.paths atoms.spec atoms.recovery atoms.compiler checked dict

namespace atoms.fs

variable [UnicodeData] {compiled : CompiledSpec} {context : ProjectContext}

/-- The table of an approval has a resolution for each declared path, all of one tree. -/
theorem resolve_all_eq_ok {prefixes : Dict RelPath ResolvedPrefix} (h : resolve_all context compiled = .ok prefixes) :
    ResolvedOver context.tree prefixes ∧ prefixes.keys = sorted_by id compiled.paths := by
  have hall := mapM_eq_ok_iff.mp h
  have hitem : ∀ {paths : List RelPath} {items : Dict RelPath ResolvedPrefix},
      List.Forall₂ (fun path item => (do
        let resolved ← resolve context.tree context.metadata_identity path context.path_max
        pure (path, resolved) : Except Raised (RelPath × ResolvedPrefix)) = .ok item) paths items →
      ResolvedOver context.tree items ∧ items.keys = paths := by
    intro paths items hforall
    induction hforall with
    | nil => exact ⟨fun _ hmem => absurd hmem (by simp), rfl⟩
    | cons hhead _ ih =>
      obtain ⟨resolved, hresolved, heq⟩ := bind_eq_ok_iff.mp hhead
      rw [pure_eq_ok_iff] at heq
      subst heq
      refine ⟨fun item hmem => ?_, ?_⟩
      · obtain rfl | hmem := List.mem_cons.mp hmem
        · exact resolve_eq_ok hresolved
        · exact ih.1 item hmem
      · rw [Dict.keys, List.map_cons]
        exact congrArg _ ih.2
  exact hitem hall

/-- What an approval rests on. -/
structure ApprovalOf (compiled : CompiledSpec) (context : ProjectContext) (approved : ProjectApprovedSpec)
    (prefixes : Dict RelPath ResolvedPrefix) (facts : Dict Prefix DirectoryFact) (node : Prefix → TopologyNode)
    (resolved : ResolvedTopology) : Prop where
  compiled_eq : approved.compiled = compiled
  resolved_over : ResolvedOver context.tree prefixes
  keys : prefixes.keys = sorted_by id compiled.paths
  built : Built compiled prefixes (approved.work_base.isSome = true) facts node resolved
  topology : approved.topology = resolved.topology
  directories : approved.directories = resolved.directories
  paths : approved.paths = resolved.paths
  directory_paths : proof_directory_paths resolved = .ok approved.directory_paths
  scratch : bind_scratch compiled context.txid resolved = .ok approved.scratch

/-- There is a work root exactly when a directory is created. -/
theorem approve_work_base_eq_ok {work : Option (DirectoryFacts × DirectoryConstraints)}
    (h : approve_work_base context compiled = .ok work) : work.isSome = true ↔ created_paths compiled.effects ≠ [] := by
  unfold approve_work_base at h
  split at h
  · rename_i hnone
    rw [pure_eq_ok_iff] at h
    simp [← h, hnone]
  · rename_i hsome
    obtain ⟨_, _, h⟩ := bind_eq_ok_iff.mp h
    obtain ⟨_, _, h⟩ := bind_eq_ok_iff.mp h
    obtain ⟨constraints, _, h⟩ := bind_eq_ok_iff.mp h
    rw [pure_eq_ok_iff] at h
    simp [← h, hsome]

theorem judge_eq_ok {prefixes : Dict RelPath ResolvedPrefix} {filesystem_type : String}
    {work_constraints : Option DirectoryConstraints} {recovering : Bool} {resolved : ResolvedTopology}
    (h : judge compiled prefixes filesystem_type work_constraints recovering = .ok resolved) :
    build_topology compiled prefixes filesystem_type work_constraints = .ok resolved ∧
      require_endpoints_distinct resolved = .ok () ∧
      (recovering = false → require_ancestors_legal compiled prefixes resolved = .ok ()) ∧
      require_resolved_surface_and_ordering compiled resolved = .ok () := by
  unfold judge at h
  obtain ⟨built, hbuilt, h⟩ := bind_eq_ok_iff.mp h
  obtain ⟨_, hdistinct, h⟩ := bind_eq_ok_iff.mp h
  obtain ⟨_, hlegal, h⟩ := bind_eq_ok_iff.mp h
  obtain ⟨_, hordering, h⟩ := bind_eq_ok_iff.mp h
  rw [pure_eq_ok_iff] at h
  subst h
  refine ⟨hbuilt, hdistinct, fun hfresh => ?_, hordering⟩
  rw [hfresh] at hlegal
  exact hlegal

theorem approve_eq_ok {recovery_evidence : Option ApprovalEvidence} {approved : ProjectApprovedSpec}
    (h : approve compiled context recovery_evidence = .ok approved) :
    ∃ prefixes facts node resolved, ApprovalOf compiled context approved prefixes facts node resolved := by
  unfold approve at h
  obtain ⟨_, _, h⟩ := bind_eq_ok_iff.mp h
  obtain ⟨prefixes, hprefixes, h⟩ := bind_eq_ok_iff.mp h
  obtain ⟨work, hwork, h⟩ := bind_eq_ok_iff.mp h
  obtain ⟨resolved, hresolved, h⟩ := bind_eq_ok_iff.mp h
  obtain ⟨scratch, hscratch, h⟩ := bind_eq_ok_iff.mp h
  obtain ⟨directory_paths, hpaths, h⟩ := bind_eq_ok_iff.mp h
  obtain ⟨htable, hkeys⟩ := resolve_all_eq_ok hprefixes
  obtain ⟨facts, node, hbuilt⟩ := build_topology_eq_ok (consistent_of_resolved htable) (judge_eq_ok hresolved).1
  have hwork : (work.map Prod.snd).isSome = (work.map Prod.fst).isSome := by cases work <;> rfl
  rw [hwork] at hbuilt
  refine ⟨prefixes, facts, node, resolved, ?_⟩
  split at h
  · rw [pure_eq_ok_iff] at h
    subst h
    exact ⟨rfl, htable, hkeys, hbuilt, rfl, rfl, rfl, hpaths, hscratch⟩
  · obtain ⟨_, _, h⟩ := bind_eq_ok_iff.mp h
    obtain ⟨_, _, h⟩ := bind_eq_ok_iff.mp h
    rw [pure_eq_ok_iff] at h
    subst h
    exact ⟨rfl, htable, hkeys, hbuilt, rfl, rfl, rfl, hpaths, hscratch⟩

end atoms.fs

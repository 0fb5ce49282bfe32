import Atoms.Fs.Topology.Nodes

open atoms.errors atoms.effects atoms.paths atoms.spec atoms.recovery atoms.compiler checked dict keyed

namespace atoms.fs

variable [UnicodeData]

/-- The facts at `lead`, where it has any. -/
def fact_at (facts : Dict Prefix DirectoryFact) (lead : Prefix) : DirectoryFact :=
  (facts.get lead).getD (none, ⟨.EXACT_BYTES, 0⟩)

/-- The edges of a topology: a directory to the one above it, a declared path to the directory it is in, the work root,
and the scratch of each effect. -/
inductive EdgeOf (compiled : CompiledSpec) (leads : List Prefix) (node : Prefix → TopologyNode) (work : Prop) :
    TopologyParent → Prop
  | directory {lead : Prefix} (hlead : lead ∈ leads) (hne : lead ≠ ROOT_PREFIX) :
    EdgeOf compiled leads node work ⟨node lead, node lead.dropLast⟩
  | declared {path : RelPath} (hpath : path ∈ compiled.paths) :
    EdgeOf compiled leads node work ⟨.PersistentNode path, node (components path).dropLast⟩
  | work_root (h : work) : EdgeOf compiled leads node work ⟨.WorkRoot, .ProjectRoot⟩
  | work_scratch {effect : Effect} (heffect : effect ∈ compiled.effects)
      (hsibling : topology.scratch_sibling effect = none) :
    EdgeOf compiled leads node work ⟨scratch_node effect, .WorkRoot⟩
  | scratch {effect : Effect} {path : RelPath} (heffect : effect ∈ compiled.effects)
      (hsibling : topology.scratch_sibling effect = some path) (hpath : path ∈ compiled.paths) :
    EdgeOf compiled leads node work ⟨scratch_node effect, node (components path).dropLast⟩

/-- What `build_topology` returns, over the facts and the node of each directory; `work` says that there is a work
root. -/
structure Built (compiled : CompiledSpec) (prefixes : Dict RelPath ResolvedPrefix) (work : Prop)
    (facts : Dict Prefix DirectoryFact) (node : Prefix → TopologyNode) (resolved : ResolvedTopology) : Prop where
  facts_of : FactsOf prefixes (created_paths compiled.effects) facts
  naming : Naming compiled.paths facts.keys node
  parent_mem : ∀ path ∈ compiled.paths, (components path).dropLast ∈ facts.keys
  paths : resolved.paths = (sorted_by id compiled.paths).map fun path =>
    ⟨path, node (components path).dropLast, (components path).getLast?.getD ""⟩
  directory_nodes : resolved.directory_nodes = (in_depth_order facts.keys).map fun lead => (lead, node lead)
  mem_parents : ∀ edge, edge ∈ resolved.topology.parents ↔
    EdgeOf compiled facts.keys node work edge
  nodup_parents : (resolved.topology.parents.map TopologyParent.node).Nodup
  nodup_directories : (resolved.directories.map ApprovedDirectory.node).Nodup
  mem_directories : ∀ entry ∈ resolved.directories, (entry.node = .WorkRoot ∧ entry.planned = true ∧ work) ∨
    ∃ lead ∈ facts.keys, entry.node = node lead ∧ ((entry.planned = true) ↔
      (∃ path ∈ created_paths compiled.effects, components path = lead) ∨ identity_at facts lead = none)
  directory_of : ∀ lead ∈ facts.keys, node lead ∈ resolved.topology.parents.map TopologyParent.parent →
    ∃ entry ∈ resolved.directories, entry.node = node lead

theorem scratch_sibling_mem (compiled : CompiledSpec) {effect : Effect} (heffect : effect ∈ compiled.effects)
    {path : RelPath} (h : topology.scratch_sibling effect = some path) : path ∈ compiled.paths := by
  refine compiled.mem_paths_iff.mpr ⟨effect, heffect, ?_⟩
  cases effect <;> simp_all [topology.scratch_sibling, occurrences]

namespace Naming

variable {declared : List RelPath} {leads : List Prefix} {node : Prefix → TopologyNode} {lead : Prefix}

omit [UnicodeData] in
/-- Below the root, the node of a declared directory is its path's, and any other is numbered. -/
theorem cases (h : Naming declared leads node) (hplain : Plain lead) (hlead : lead ∈ leads) (hne : lead ≠ ROOT_PREFIX) :
    (∃ path ∈ declared, components path = lead ∧ node lead = .PersistentNode path) ∨
      ∃ id : Nat, node lead = .TopologyDirectory id := by
  by_cases hdeclared : joined lead ∈ declared
  · exact .inl ⟨joined lead, hdeclared, components_joined hplain hne, h.declared_node lead hlead hne hdeclared⟩
  · exact .inr (h.undeclared_node lead hlead hne hdeclared)

omit [UnicodeData] in
theorem persistent (h : Naming declared leads node) (hplain : Plain lead) (hlead : lead ∈ leads) {path : RelPath}
    (hnode : node lead = .PersistentNode path) : components path = lead := by
  by_cases hne : lead = ROOT_PREFIX
  · subst hne
    rw [h.root hlead] at hnode
    cases hnode
  · obtain ⟨other, _, hcomponents, hother⟩ | ⟨id, hid⟩ := h.cases hplain hlead hne
    · cases hother.symm.trans hnode
      exact hcomponents
    · cases hid.symm.trans hnode

omit [UnicodeData] in
theorem ne_root (h : Naming declared leads node) (hplain : Plain lead) (hlead : lead ∈ leads) (hne : lead ≠ ROOT_PREFIX) :
    node lead ≠ .ProjectRoot := by
  obtain ⟨_, _, _, hnode⟩ | ⟨_, hnode⟩ := h.cases hplain hlead hne <;> simp [hnode]

omit [UnicodeData] in
theorem ne_work (h : Naming declared leads node) (hplain : Plain lead) (hlead : lead ∈ leads) : node lead ≠ .WorkRoot := by
  by_cases hne : lead = ROOT_PREFIX
  · subst hne
    simp [h.root hlead]
  · obtain ⟨_, _, _, hnode⟩ | ⟨_, hnode⟩ := h.cases hplain hlead hne <;> simp [hnode]

omit [UnicodeData] in
theorem ne_scratch (h : Naming declared leads node) (hplain : Plain lead) (hlead : lead ∈ leads) (effect_id : String)
    (role : ScratchRole) : node lead ≠ .ScratchNode effect_id role := by
  by_cases hne : lead = ROOT_PREFIX
  · subst hne
    simp [h.root hlead]
  · obtain ⟨_, _, _, hnode⟩ | ⟨_, hnode⟩ := h.cases hplain hlead hne <;> simp [hnode]

end Naming

section

variable {facts : Dict Prefix DirectoryFact} {node_of : Prefix → Except Raised TopologyNode} {node : Prefix → TopologyNode}
  {declared : List RelPath}

omit [UnicodeData] in
theorem identity_at_eq {lead : Prefix} (hlead : lead ∈ facts.keys) : identity_at facts lead = (fact_at facts lead).1 := by
  obtain ⟨fact, hfact⟩ := Option.isSome_iff_exists.mp ((Dict.get_isSome_iff facts lead).mpr hlead)
  simp [identity_at, fact_at, hfact]

omit [UnicodeData] in
theorem subscript_fact_iff {lead : Prefix} {fact : DirectoryFact} :
    subscript facts lead = .ok fact ↔ lead ∈ facts.keys ∧ fact_at facts lead = fact := by
  rw [subscript_eq_ok_iff, ← Dict.get_isSome_iff, fact_at]
  cases facts.get lead <;> simp

section

variable (hnode : ∀ lead found, node_of lead = .ok found ↔ lead ∈ facts.keys ∧ node lead = found)
include hnode

omit [UnicodeData] in
theorem directory_edges_eq_ok {edges : Dict TopologyNode TopologyNode} (h : directory_edges facts node_of = .ok edges) :
    edges = (((in_depth_order facts.keys).filter fun lead => lead ≠ ROOT_PREFIX).map fun lead =>
      (node lead, node lead.dropLast)).foldl (fun (edges : Dict TopologyNode TopologyNode) edge =>
        edges.setdefault edge.1 edge.2) [] := by
  unfold directory_edges at h
  rw [foldlM_eq_ok_iff_foldl (C := fun lead => lead ∈ facts.keys ∧ lead.dropLast ∈ facts.keys)
    (g := fun edges lead => edges.setdefault (node lead) (node lead.dropLast))] at h
  · rw [List.foldl_map]
    exact h.2.symm
  · intro edges lead edges'
    simp only [bind_eq_ok_iff, hnode, pure_eq_ok_iff]
    constructor
    · rintro ⟨_, ⟨hlead, rfl⟩, _, ⟨hparent, rfl⟩, heq⟩
      exact ⟨⟨hlead, hparent⟩, heq⟩
    · rintro ⟨⟨hlead, hparent⟩, heq⟩
      exact ⟨_, ⟨hlead, rfl⟩, _, ⟨hparent, rfl⟩, heq⟩

omit [UnicodeData] in
theorem approved_paths_eq_ok {paths : List ApprovedPath} (h : approved_paths node_of declared = .ok paths) :
    (∀ path ∈ declared, (components path).dropLast ∈ facts.keys) ∧ paths = (sorted_by id declared).map fun path =>
      ⟨path, node (components path).dropLast, (components path).getLast?.getD ""⟩ := by
  unfold approved_paths at h
  rw [mapM_eq_ok_iff_map (C := fun path => (components path).dropLast ∈ facts.keys)
    (g := fun path => ⟨path, node (components path).dropLast, (components path).getLast?.getD ""⟩)] at h
  · exact ⟨fun path hpath => h.1 path ((mem_sorted_by _ _ _).mpr hpath), h.2.symm⟩
  · intro path row
    simp only [bind_eq_ok_iff, hnode, pure_eq_ok_iff]
    constructor
    · rintro ⟨_, ⟨hlead, rfl⟩, heq⟩
      exact ⟨hlead, heq⟩
    · rintro ⟨hlead, heq⟩
      exact ⟨_, ⟨hlead, rfl⟩, heq⟩

omit [UnicodeData] in
theorem directory_nodes_eq_ok {order : List Prefix} {directory_nodes : List (Prefix × TopologyNode)}
    (h : (order.mapM fun lead => do let node ← node_of lead; pure (lead, node)) = .ok directory_nodes) :
    directory_nodes = order.map fun lead => (lead, node lead) := by
  rw [mapM_eq_ok_iff_map (C := fun lead => lead ∈ facts.keys) (g := fun lead => (lead, node lead))] at h
  · exact h.2.symm
  · intro lead row
    simp only [bind_eq_ok_iff, hnode, pure_eq_ok_iff]
    constructor
    · rintro ⟨_, ⟨hlead, rfl⟩, heq⟩
      exact ⟨hlead, heq⟩
    · rintro ⟨hlead, heq⟩
      exact ⟨_, ⟨hlead, rfl⟩, heq⟩

omit [UnicodeData] in
/-- The directories that bear an edge, each with its own entry, planned if it is created or was not observed. -/
theorem directory_entries_eq_ok {parents : List TopologyNode} {created : List RelPath}
    {directories : List ApprovedDirectory}
    (hinjective : ∀ left ∈ facts.keys, ∀ right ∈ facts.keys, node left = node right → left = right)
    (hnodup : facts.keys.Nodup) (h : directory_entries facts node_of parents created = .ok directories) :
    ∃ entry : Prefix → ApprovedDirectory,
      directories = ((in_depth_order facts.keys).filter fun lead => node lead ∈ parents).map entry ∧
      ∀ lead ∈ facts.keys, (entry lead).node = node lead ∧ (((entry lead).planned = true) ↔
        (∃ path ∈ created, components path = lead) ∨ identity_at facts lead = none) := by
  unfold directory_entries at h
  obtain ⟨constraints, hconstraints, h⟩ := bind_eq_ok_iff.mp h
  obtain ⟨entries, hentries, h⟩ := bind_eq_ok_iff.mp h
  rw [pure_eq_ok_iff] at h
  subst h
  rw [foldlM_eq_ok_iff_foldl (C := fun path => components path ∈ facts.keys)
    (g := fun (d : Dict TopologyNode DirectoryConstraints) path =>
      d.put (node (components path)) (fact_at facts (components path)).2)] at hconstraints
  swap
  · intro d path d'
    simp only [bind_eq_ok_iff, hnode, subscript_fact_iff, pure_eq_ok_iff]
    constructor
    · rintro ⟨_, ⟨hlead, rfl⟩, _, ⟨_, rfl⟩, heq⟩
      exact ⟨hlead, heq⟩
    · rintro ⟨hlead, heq⟩
      exact ⟨_, ⟨hlead, rfl⟩, _, ⟨hlead, rfl⟩, heq⟩
  obtain ⟨hcreated, hconstraints⟩ := hconstraints
  have hsome : ∀ lead ∈ facts.keys, (constraints.get (node lead)).isSome = true ↔
      ∃ path ∈ created, components path = lead := by
    intro lead hlead
    rw [Dict.get_isSome_iff, ← hconstraints,
      Dict.keys_foldl_put (fun path => node (components path)) fun path => (fact_at facts (components path)).2]
    constructor
    · rintro (hnil | ⟨path, hpath, heq⟩)
      · cases hnil
      · exact ⟨path, hpath, hinjective _ (hcreated path hpath) _ hlead heq⟩
    · rintro ⟨path, hpath, rfl⟩
      exact .inr ⟨path, hpath, rfl⟩
  let entry : Prefix → ApprovedDirectory := fun lead =>
    directory_entry (node lead) (constraints.get (node lead)) (fact_at facts lead)
  have hentry : ∀ lead ∈ facts.keys, (entry lead).node = node lead ∧ (((entry lead).planned = true) ↔
      (∃ path ∈ created, components path = lead) ∨ identity_at facts lead = none) := by
    intro lead hlead
    rw [← hsome lead hlead, identity_at_eq hlead]
    simp only [entry, directory_entry]
    cases constraints.get (node lead) <;> cases (fact_at facts lead).1 <;>
      simp [ApprovedDirectory.node, ApprovedDirectory.planned]
  rw [foldlM_eq_ok_iff_foldl (C := fun lead => lead ∈ facts.keys)
    (g := fun (d : Dict TopologyNode ApprovedDirectory) lead =>
      if node lead ∈ parents then d.put (node lead) (entry lead) else d)] at hentries
  swap
  · intro d lead d'
    simp only [bind_eq_ok_iff, hnode, subscript_fact_iff]
    constructor
    · rintro ⟨_, ⟨hlead, rfl⟩, _, ⟨_, rfl⟩, heq⟩
      refine ⟨hlead, ?_⟩
      split at heq <;> simp_all [entry]
    · rintro ⟨hlead, heq⟩
      refine ⟨_, ⟨hlead, rfl⟩, _, ⟨hlead, rfl⟩, ?_⟩
      split at heq <;> simp_all [entry]
  obtain ⟨_, hentries⟩ := hentries
  have hfilter : (in_depth_order facts.keys).foldl (fun (d : Dict TopologyNode ApprovedDirectory) lead =>
        if node lead ∈ parents then d.put (node lead) (entry lead) else d) [] =
      ((in_depth_order facts.keys).filter fun lead => node lead ∈ parents).foldl
        (fun (d : Dict TopologyNode ApprovedDirectory) lead => d.put (node lead) (entry lead)) [] := by
    rw [List.foldl_filter]
    simp only [decide_eq_true_eq]
  rw [hfilter, Dict.foldl_put_of_nodup node entry] at hentries
  · refine ⟨entry, ?_, hentry⟩
    rw [← hentries, List.nil_append, List.map_map]
    rfl
  · refine (List.nodup_map_iff_inj_on ((nodup_in_depth_order hnodup).filter _)).mpr fun left hleft right hright => ?_
    exact hinjective left (mem_in_depth_order.mp (List.mem_of_mem_filter hleft)) right
      (mem_in_depth_order.mp (List.mem_of_mem_filter hright))
  · exact fun _ _ => rfl

end

omit [UnicodeData] in
/-- The edges of the directories and of the declared paths, each node with its one parent. -/
theorem tree_edges (hnaming : Naming declared facts.keys node) (hplain : ∀ lead ∈ facts.keys, Plain lead) :
    let edges := ((sorted_by id declared).map fun path => (⟨path, node (components path).dropLast,
        (components path).getLast?.getD ""⟩ : ApprovedPath)).foldl
      (fun edges entry => edges.setdefault (.PersistentNode entry.path) entry.parent_node)
      ((((in_depth_order facts.keys).filter fun lead => lead ≠ ROOT_PREFIX).map fun lead =>
        (node lead, node lead.dropLast)).foldl (fun (edges : Dict TopologyNode TopologyNode) edge =>
          edges.setdefault edge.1 edge.2) [])
    edges.keys.Nodup ∧ ∀ edge, edge ∈ edges ↔
      (∃ lead ∈ facts.keys, lead ≠ ROOT_PREFIX ∧ edge = (node lead, node lead.dropLast)) ∨
        ∃ path ∈ declared, edge = (.PersistentNode path, node (components path).dropLast) := by
  intro edges
  let items := (((in_depth_order facts.keys).filter fun lead => lead ≠ ROOT_PREFIX).map fun lead =>
      (node lead, node lead.dropLast)) ++
    (sorted_by id declared).map fun path => (TopologyNode.PersistentNode path, node (components path).dropLast)
  have hedges : edges = items.foldl (fun (edges : Dict TopologyNode TopologyNode) edge =>
      edges.setdefault edge.1 edge.2) [] := by
    simp only [edges, items]
    rw [List.foldl_append, List.foldl_map (l := sorted_by id declared), List.foldl_map (l := sorted_by id declared)]
  have hmem : ∀ item, item ∈ items ↔
      (∃ lead ∈ facts.keys, lead ≠ ROOT_PREFIX ∧ item = (node lead, node lead.dropLast)) ∨
        ∃ path ∈ declared, item = (.PersistentNode path, node (components path).dropLast) := by
    intro item
    simp only [items, List.mem_append, List.mem_map, List.mem_filter, mem_in_depth_order, mem_sorted_by,
      decide_eq_true_eq]
    constructor
    · rintro (⟨lead, ⟨hlead, hne⟩, rfl⟩ | ⟨path, hpath, rfl⟩)
      · exact .inl ⟨lead, hlead, hne, rfl⟩
      · exact .inr ⟨path, hpath, rfl⟩
    · rintro (⟨lead, hlead, hne, rfl⟩ | ⟨path, hpath, rfl⟩)
      · exact .inl ⟨lead, ⟨hlead, hne⟩, rfl⟩
      · exact .inr ⟨path, hpath, rfl⟩
  have hmixed : ∀ lead ∈ facts.keys, ∀ path, node lead = .PersistentNode path →
      node lead.dropLast = node (components path).dropLast := by
    intro lead hlead path hnode
    rw [hnaming.persistent (hplain lead hlead) hlead hnode]
  have hfunctional : ∀ item ∈ items, ∀ other ∈ items, item.1 = other.1 → item.2 = other.2 := by
    intro item hitem other hother heq
    obtain ⟨lead, hlead, _, rfl⟩ | ⟨path, hpath, rfl⟩ := (hmem item).mp hitem <;>
      obtain ⟨lead', hlead', _, rfl⟩ | ⟨path', hpath', rfl⟩ := (hmem other).mp hother
    · rw [hnaming.injective lead hlead lead' hlead' heq]
    · exact hmixed lead hlead path' heq
    · exact (hmixed lead' hlead' path heq.symm).symm
    · rw [TopologyNode.PersistentNode.inj heq]
  rw [hedges]
  refine ⟨Dict.nodup_foldl_setdefault Prod.fst Prod.snd items List.nodup_nil, fun edge => ?_⟩
  rw [← hmem, Dict.mem_foldl_setdefault_iff Prod.fst Prod.snd hfunctional edge.1 edge.2]
  constructor
  · rintro ⟨item, hitem, hkey, hvalue⟩
    rw [Prod.ext hkey hvalue] at hitem
    exact hitem
  · exact fun hedge => ⟨edge, hedge, rfl, rfl⟩

theorem scratch_edges_eq_ok {compiled : CompiledSpec} {scratch : List TopologyParent}
    (h : scratch_edges compiled.effects ((sorted_by id compiled.paths).map fun path =>
      ⟨path, node (components path).dropLast, (components path).getLast?.getD ""⟩) = .ok scratch) :
    scratch = compiled.effects.map fun effect =>
      ⟨scratch_node effect, (topology.scratch_sibling effect).elim .WorkRoot fun path => node (components path).dropLast⟩ := by
  unfold scratch_edges at h
  rw [List.map_map] at h
  obtain ⟨hlength, hall⟩ := List.forall₂_iff_get.mp (mapM_eq_ok_iff.mp h)
  refine List.ext_getElem (by simpa using hlength.symm) fun index hindex hindex' => ?_
  have hat := hall index (by omega) hindex
  simp only [List.get_eq_getElem] at hat
  rw [List.getElem_map]
  generalize compiled.effects[index] = effect at hat
  split at hat
  · rename_i hnone
    rw [pure_eq_ok_iff] at hat
    rw [hnone, ← hat]
    rfl
  · rename_i anchor hsome
    obtain ⟨parent, hparent, hat⟩ := bind_eq_ok_iff.mp hat
    rw [pure_eq_ok_iff] at hat
    obtain ⟨path, hpath, heq⟩ := List.mem_map.mp (Dict.mem_of_get (subscript_eq_ok_iff.mp hparent))
    obtain ⟨rfl, rfl⟩ := Prod.mk.inj heq
    rw [hsome, ← hat]
    rfl

end

/-- What `build_topology` returns for the resolutions of one moment. -/
theorem build_topology_eq_ok {compiled : CompiledSpec} {prefixes : Dict RelPath ResolvedPrefix} {filesystem_type : String}
    {work_constraints : Option DirectoryConstraints} {resolved : ResolvedTopology} (hconsistent : Consistent prefixes)
    (h : build_topology compiled prefixes filesystem_type work_constraints = .ok resolved) :
    ∃ facts node, Built compiled prefixes (work_constraints.isSome = true) facts node resolved := by
  unfold build_topology at h
  obtain ⟨facts, hfacts, h⟩ := bind_eq_ok_iff.mp h
  obtain ⟨keys, hkeys, h⟩ := bind_eq_ok_iff.mp h
  obtain ⟨nodes, hnodes, h⟩ := bind_eq_ok_iff.mp h
  obtain ⟨edges, hedges, h⟩ := bind_eq_ok_iff.mp h
  obtain ⟨paths, hpaths, h⟩ := bind_eq_ok_iff.mp h
  obtain ⟨scratch, hscratch, h⟩ := bind_eq_ok_iff.mp h
  obtain ⟨directories, hdirectories, h⟩ := bind_eq_ok_iff.mp h
  obtain ⟨directory_nodes, hdirectory_nodes, h⟩ := bind_eq_ok_iff.mp h
  rw [pure_eq_ok_iff] at h
  have hof := facts_by_prefix_eq_ok hfacts
  obtain ⟨hsame, hat⟩ := keys_by_prefix_eq_ok hof.nodup hkeys
  have hget : ∀ lead key, keys.get lead = some key → lead ∈ facts.keys ∧ KeyAt facts keys lead key := by
    intro lead key hkey
    have hlead := (hsame lead).mp ((Dict.get_isSome_iff keys lead).mp (by rw [hkey]; rfl))
    obtain ⟨key', hkey', hkeyat⟩ := hat lead hlead
    cases hkey.symm.trans hkey'
    exact ⟨hlead, hkeyat⟩
  have hinjective : ∀ left right key, keys.get left = some key → keys.get right = some key → left = right := by
    intro left right key hleft hright
    refine keys_injective (fun left right identity hl hr => ?_)
      (fun lead key hkey hnone => hof.not_root (hget lead key hkey).1 hnone) (fun lead key hkey => (hget lead key hkey).2)
      hleft hright
    rw [hof.identity] at hl hr
    exact hconsistent.one_name left right identity hl hr
  have hkeysnodup : keys.keys.Nodup := by
    unfold keys_by_prefix at hkeys
    exact foldlM_invariant (P := fun d => Dict.keys d |>.Nodup) (fun d lead d' hd hstep => by
      obtain ⟨key, _, hput⟩ := bind_eq_ok_iff.mp hstep
      rw [pure_eq_ok_iff] at hput
      exact hput ▸ Dict.nodup_put d lead key hd) (b := []) List.nodup_nil hkeys
  obtain ⟨node, hnaming, hnode⟩ := nodes_by_key_eq_ok hinjective hkeysnodup
    (fun lead hlead => hof.plain hconsistent ((hsame lead).mp hlead)) hnodes
  have hnaming : Naming compiled.paths facts.keys node :=
    ⟨fun hroot => hnaming.root ((hsame _).mpr hroot), fun lead hlead => hnaming.declared_node lead ((hsame _).mpr hlead),
      fun lead hlead => hnaming.undeclared_node lead ((hsame _).mpr hlead),
      fun left hleft right hright => hnaming.injective left ((hsame _).mpr hleft) right ((hsame _).mpr hright)⟩
  have hnode : ∀ lead found, node_at keys nodes lead = .ok found ↔ lead ∈ facts.keys ∧ node lead = found := by
    intro lead found
    rw [hnode, hsame]
  obtain ⟨hparents, rfl⟩ := approved_paths_eq_ok hnode hpaths
  obtain rfl := scratch_edges_eq_ok hscratch
  obtain rfl := directory_nodes_eq_ok hnode hdirectory_nodes
  obtain ⟨entry, rfl, hentry⟩ := directory_entries_eq_ok hnode hnaming.injective hof.nodup hdirectories
  obtain rfl := directory_edges_eq_ok hnode hedges
  have hplain : ∀ lead ∈ facts.keys, Plain lead := fun lead hlead => hof.plain hconsistent hlead
  obtain ⟨hnodup, hmem⟩ := tree_edges hnaming hplain
  subst h
  refine ⟨facts, node, hof, hnaming, hparents, rfl, rfl, fun edge => ?_, ?_, ?_, fun entry' hentry' => ?_,
    fun lead hlead hparent => ?_⟩
  · simp only [List.mem_append, List.mem_map, Option.mem_toList]
    constructor
    · rintro ((⟨pair, hpair, rfl⟩ | ⟨constraints, hwork, rfl⟩) | ⟨effect, heffect, rfl⟩)
      · obtain ⟨lead, hlead, hne, rfl⟩ | ⟨path, hpath, rfl⟩ := (hmem pair).mp hpair
        · exact .directory hlead hne
        · exact .declared hpath
      · exact .work_root (by rw [Option.isSome_iff_exists]; exact ⟨constraints, hwork⟩)
      · cases hsibling : topology.scratch_sibling effect with
        | none => exact .work_scratch heffect hsibling
        | some path => exact .scratch heffect hsibling (scratch_sibling_mem compiled heffect hsibling)
    · intro hedge
      cases hedge with
      | directory hlead hne => exact .inl (.inl ⟨_, (hmem _).mpr (.inl ⟨_, hlead, hne, rfl⟩), rfl⟩)
      | declared hpath => exact .inl (.inl ⟨_, (hmem _).mpr (.inr ⟨_, hpath, rfl⟩), rfl⟩)
      | work_root hwork =>
        obtain ⟨constraints, hconstraints⟩ := Option.isSome_iff_exists.mp hwork
        exact .inl (.inr ⟨constraints, hconstraints, rfl⟩)
      | work_scratch heffect hsibling => exact .inr ⟨_, heffect, by rw [hsibling]; rfl⟩
      | scratch heffect hsibling hpath => exact .inr ⟨_, heffect, by rw [hsibling]; rfl⟩
  · have hnode_ne : ∀ edge : TopologyNode × TopologyNode,
        ((∃ lead ∈ facts.keys, lead ≠ ROOT_PREFIX ∧ edge = (node lead, node lead.dropLast)) ∨
          ∃ path ∈ compiled.paths, edge = (.PersistentNode path, node (components path).dropLast)) →
        edge.1 ≠ .WorkRoot ∧ ∀ effect_id role, edge.1 ≠ .ScratchNode effect_id role := by
      rintro edge (⟨lead, hlead, _, rfl⟩ | ⟨path, _, rfl⟩)
      · exact ⟨hnaming.ne_work (hplain lead hlead) hlead, hnaming.ne_scratch (hplain lead hlead) hlead⟩
      · exact ⟨by simp, by simp⟩
    have hscratch_nodup : (compiled.effects.map scratch_node).Nodup := by
      have hids := compiled.effect_ids_nodup
      have heffects := List.Nodup.of_map _ hids
      rw [List.nodup_map_iff_inj_on heffects] at hids ⊢
      intro left hleft right hright heq
      exact hids left hleft right hright (TopologyNode.ScratchNode.inj heq).1
    rw [List.map_append, List.map_append, List.map_map, List.map_map, List.map_map]
    refine List.nodup_append.mpr ⟨List.nodup_append.mpr ⟨hnodup, ?_, ?_⟩, hscratch_nodup, ?_⟩
    · cases work_constraints <;> simp
    · intro left hleft right hright heq
      obtain ⟨edge, hedge, rfl⟩ := List.mem_map.mp hleft
      obtain ⟨_, _, rfl⟩ := List.mem_map.mp hright
      exact (hnode_ne edge ((hmem edge).mp hedge)).1 heq
    · intro left hleft right hright heq
      obtain ⟨effect, _, rfl⟩ := List.mem_map.mp hright
      obtain hleft | hleft := List.mem_append.mp hleft
      · obtain ⟨edge, hedge, rfl⟩ := List.mem_map.mp hleft
        exact (hnode_ne edge ((hmem edge).mp hedge)).2 _ _ heq
      · obtain ⟨_, _, rfl⟩ := List.mem_map.mp hleft
        cases heq
  · have hwork : (work_constraints.toList.map (ApprovedDirectory.ApprovedPlannedDirectory .WorkRoot)).map
        ApprovedDirectory.node = work_constraints.toList.map fun _ => .WorkRoot := by
      rw [List.map_map]
      rfl
    rw [List.map_append, hwork, List.map_map]
    refine List.nodup_append.mpr ⟨?_, by cases work_constraints <;> simp, fun left hleft right hright heq => ?_⟩
    · refine (List.nodup_map_iff_inj_on ((nodup_in_depth_order hof.nodup).filter _)).mpr
        fun left hleft right hright heq => ?_
      have hleft := mem_in_depth_order.mp (List.mem_of_mem_filter hleft)
      have hright := mem_in_depth_order.mp (List.mem_of_mem_filter hright)
      rw [Function.comp_apply, Function.comp_apply, (hentry left hleft).1, (hentry right hright).1] at heq
      exact hnaming.injective left hleft right hright heq
    · obtain ⟨lead, hlead, rfl⟩ := List.mem_map.mp hleft
      obtain ⟨_, _, rfl⟩ := List.mem_map.mp hright
      have hlead := mem_in_depth_order.mp (List.mem_of_mem_filter hlead)
      rw [Function.comp_apply, (hentry lead hlead).1] at heq
      exact hnaming.ne_work (hplain lead hlead) hlead heq
  · obtain hentry' | hentry' := List.mem_append.mp hentry'
    · obtain ⟨lead, hlead, rfl⟩ := List.mem_map.mp hentry'
      have hlead := mem_in_depth_order.mp (List.mem_of_mem_filter hlead)
      exact .inr ⟨lead, hlead, hentry lead hlead⟩
    · obtain ⟨constraints, hconstraints, rfl⟩ := List.mem_map.mp hentry'
      exact .inl ⟨rfl, rfl, by rw [Option.mem_toList.mp hconstraints]; rfl⟩
  · refine ⟨entry lead, List.mem_append_left _ (List.mem_map_of_mem (List.mem_filter.mpr ⟨?_, ?_⟩)), (hentry lead hlead).1⟩
    · exact mem_in_depth_order.mpr hlead
    · exact decide_eq_true hparent

end atoms.fs

import Atoms.Core.Compiler.Prefixes
import Atoms.Fs.Approval.Facts

open atoms.errors atoms.fingerprint atoms.effects atoms.paths atoms.spec atoms.recovery atoms.compiler checked dict

namespace atoms.fs

/-- The kind of entry that a state declares. -/
def kind_of : PathState → Option EntryKind
  | .AbsentState => none
  | .FileState _ => some .REGULAR_FILE
  | .DirectoryState _ => some .DIRECTORY
  | .SymlinkState _ => some .SYMLINK

/-- The tree holds what an initial surface declares. -/
def HoldsInitial (tree : ProjectTree) (surface : List SurfaceEntry) : Prop :=
  ∀ path state, surface_map surface path = some state →
    (tree.entry (components path)).map TreeEntry.kind = kind_of state

/-- A directory is at `lead` once the declared paths have the states of `surface`. -/
def DirectoryIn (tree : ProjectTree) (surface : RelPath → Option PathState) (lead : Prefix) : Prop :=
  (∃ path state, components path = lead ∧ surface path = some (.DirectoryState state)) ∨
    ((∀ path, components path = lead → surface path = none) ∧ ∃ identity, DirectoryAt tree lead identity)

/-- Every directory above `path` is there. -/
def ParentsIn (tree : ProjectTree) (surface : RelPath → Option PathState) (path : RelPath) : Prop :=
  ∀ n < (components path).length, DirectoryIn tree surface ((components path).take n)

/-- The directory at `lead` is created, and no effect up to the creation is on `path`. -/
def CreatedBefore (effects : List Effect) (lead : Prefix) (path : RelPath) : Prop :=
  ∃ (creator : Nat) (e : CreateDirectory), effects[creator]? = some (.CreateDirectory e) ∧ components e.path = lead ∧
    ¬ Touched (effects.take (creator + 1)) path

theorem first_touch_le {effects : List Effect} {path : RelPath} {touched_at : Nat}
    (h : (first_touch effects).get path = some touched_at) {index : Nat} {effect : Effect}
    (heffect : effects[index]? = some effect) {occurrence : Occurrence} (hmem : occurrence ∈ occurrences effect)
    (hpath : occurrence.path = path) : touched_at ≤ index := by
  let items := effects.zipIdx.flatMap fun item => (occurrences item.1).map fun occurrence => (occurrence.path, item.2)
  have hitems : first_touch effects =
      items.foldl (fun (found : Dict RelPath Nat) item => found.setdefault item.1 item.2) [] := by
    simp only [first_touch, items, List.foldl_flatMap, List.foldl_map]
  have hsorted : items.Pairwise fun left right => left.2 ≤ right.2 := by
    refine List.pairwise_flatMap.mpr ⟨fun item _ => ?_, ?_⟩
    · rw [List.pairwise_map]
      exact List.pairwise_of_forall fun _ _ => Nat.le_refl _
    · have hindices : (effects.zipIdx.map Prod.snd).Pairwise (· < ·) := by
        rw [List.zipIdx_map_snd]
        exact List.pairwise_lt_range'
      refine (List.pairwise_map.mp hindices).imp fun hlt left hleft right hright => ?_
      obtain ⟨_, _, rfl⟩ := List.mem_map.mp hleft
      obtain ⟨_, _, rfl⟩ := List.mem_map.mp hright
      exact Nat.le_of_lt hlt
  rw [hitems] at h
  have hitem : (path, index) ∈ items :=
    List.mem_flatMap.mpr ⟨(effect, index), List.mk_mem_zipIdx_iff_getElem?.mpr heffect,
      List.mem_map.mpr ⟨occurrence, hmem, by rw [hpath]⟩⟩
  exact Dict.foldl_setdefault_le Prod.fst hsorted (fun _ _ hget => by cases hget) h (path, index) hitem rfl

theorem first_on_directory_get {path_of : Effect → Option RelPath} {resolved : ResolvedTopology} {effects : List Effect}
    {node : TopologyNode} {index : Nat} (h : (first_on_directory path_of resolved effects).get node = some index) :
    ∃ effect path, effects[index]? = some effect ∧ path_of effect = some path ∧
      resolved.directory_node (components path) = some node := by
  let items := effects.zipIdx.filterMap fun item =>
    ((path_of item.1).bind fun path => resolved.directory_node (components path)).map fun node => (node, item.2)
  have hitems : first_on_directory path_of resolved effects =
      items.foldl (fun (found : Dict TopologyNode Nat) item => found.setdefault item.1 item.2) [] := by
    simp only [first_on_directory, items, List.foldl_filterMap]
    congr 1
    funext found item
    cases (path_of item.1).bind fun path => resolved.directory_node (components path) <;> rfl
  rw [hitems] at h
  obtain hnone | ⟨item, hitem, rfl, rfl⟩ := Dict.of_get_foldl_setdefault Prod.fst Prod.snd h
  · cases hnone
  · obtain ⟨⟨effect, at_index⟩, heffect, hsome⟩ := List.mem_filterMap.mp hitem
    obtain ⟨node, hnode, rfl⟩ := Option.map_eq_some_iff.mp hsome
    obtain ⟨path, hpath, hdirectory⟩ := Option.bind_eq_some_iff.mp hnode
    exact ⟨effect, path, List.mk_mem_zipIdx_iff_getElem?.mp heffect, hpath, hdirectory⟩

theorem created_path_eq_some {effect : Effect} {path : RelPath} (h : created_path effect = some path) :
    ∃ e, effect = .CreateDirectory e ∧ e.path = path := by
  cases effect <;> simp_all [created_path]

section

variable [UnicodeData] {compiled : CompiledSpec} {prefixes : Dict RelPath ResolvedPrefix} {work : Prop}
  {facts : Dict Prefix DirectoryFact} {node : Prefix → TopologyNode} {resolved : ResolvedTopology}

theorem Built.directory_node_eq_some (h : Built compiled prefixes work facts node resolved) {lead : Prefix}
    {found : TopologyNode} (hfound : resolved.directory_node lead = some found) : lead ∈ facts.keys ∧ node lead = found := by
  rw [ResolvedTopology.directory_node, h.directory_nodes] at hfound
  obtain ⟨entry, hentry, rfl⟩ := Option.map_eq_some_iff.mp hfound
  obtain ⟨lead', hlead', rfl⟩ := List.mem_map.mp (List.mem_of_find?_eq_some hentry)
  have heq : lead' = lead := by simpa using List.find?_some hentry
  subst heq
  exact ⟨mem_in_depth_order.mp hlead', rfl⟩

theorem node_of_eq_ok {lead : Prefix} {found : TopologyNode} (h : node_of resolved lead = .ok found) :
    resolved.directory_node lead = some found := by
  unfold node_of at h
  cases hnode : resolved.directory_node lead with
  | none =>
    rw [hnode] at h
    cases h
  | some other =>
    rw [hnode, pure_eq_ok_iff] at h
    rw [h]

/-- A directory that a path needs and the tree does not have is created before the first effect on the path. -/
theorem require_ancestor_created_eq_ok (hbuilt : Built compiled prefixes work facts node resolved) {path : RelPath}
    {index : Nat} (h : require_ancestor_created compiled resolved path index = .ok ()) :
    CreatedBefore compiled.effects ((components path).take (index + 1)) path := by
  unfold require_ancestor_created at h
  obtain ⟨found, hfound, h⟩ := bind_eq_ok_iff.mp h
  obtain ⟨_, _, h⟩ := bind_eq_ok_iff.mp h
  obtain ⟨_, _, h⟩ := bind_eq_ok_iff.mp h
  obtain ⟨_, _, h⟩ := bind_eq_ok_iff.mp h
  obtain ⟨touched_at, htouched, h⟩ := bind_eq_ok_iff.mp h
  unfold require_created_first at h
  cases hcreator : (first_on_directory created_path resolved compiled.effects).get found with
  | none =>
    rw [hcreator] at h
    cases h
  | some creator =>
    rw [hcreator] at h
    have hlt : creator < touched_at := require_eq_ok_iff.mp h
    obtain ⟨effect, other, heffect, hcreated, hother⟩ := first_on_directory_get hcreator
    obtain ⟨e, rfl, rfl⟩ := created_path_eq_some hcreated
    obtain ⟨hlead, hnode⟩ := hbuilt.directory_node_eq_some hother
    obtain ⟨hlead', hnode'⟩ := hbuilt.directory_node_eq_some (node_of_eq_ok hfound)
    refine ⟨creator, e, heffect, hbuilt.naming.injective _ hlead _ hlead' (hnode.trans hnode'.symm), ?_⟩
    rintro ⟨other, hmem, occurrence, hocc, hpath⟩
    obtain ⟨at_index, hat, rfl⟩ := List.mem_take_iff_getElem.mp hmem
    have hfirst := first_touch_le (subscript_eq_ok_iff.mp htouched) (List.getElem?_eq_getElem (by omega)) hocc hpath
    omega

/-- Each directory above a declared path is in the tree, or is created before the first effect on the path. -/
theorem parent_created {tree : ProjectTree} (hbuilt : Built compiled prefixes work facts node resolved)
    (htable : ResolvedOver tree prefixes) (hlegal : require_ancestors_legal compiled prefixes resolved = .ok ())
    {path : RelPath} (hpath : path ∈ prefixes.keys) {n : Nat} (hn : n < (components path).length) :
    (∃ identity, DirectoryAt tree ((components path).take n) identity) ∨
      CreatedBefore compiled.effects ((components path).take n) path := by
  obtain ⟨found, hitem⟩ : ∃ found, (path, found) ∈ prefixes := by
    obtain ⟨⟨_, found⟩, hitem, rfl⟩ := List.mem_map.mp hpath
    exact ⟨found, hitem⟩
  have hresolves : Resolves tree (components path) found := htable _ hitem
  by_cases hle : n ≤ found.hops.length
  · refine .inl ?_
    cases n with
    | zero => exact ⟨_, hresolves.root⟩
    | succ index => exact ⟨_, hresolves.hop index _ (List.getElem?_eq_getElem hle)⟩
  · refine .inr ?_
    have hlt := Nat.lt_of_not_le hle
    have hne : found.remainder ≠ [] := by
      rw [hresolves.remainder, Ne, List.drop_eq_nil_iff]
      omega
    have hchecked := forM_eq_ok_iff.mp hlegal _ ((mem_sorted_by _ _ _).mpr hitem)
    simp only [if_neg hne] at hchecked
    obtain ⟨_, _, hchecked⟩ := bind_eq_ok_iff.mp hchecked
    obtain ⟨_, hancestors, _⟩ := bind_eq_ok_iff.mp hchecked
    obtain ⟨index, rfl⟩ : ∃ index, n = index + 1 := ⟨n - 1, by omega⟩
    refine require_ancestor_created_eq_ok hbuilt (forM_eq_ok_iff.mp hancestors index ?_)
    rw [List.mem_range'_1]
    omega

variable {tree : ProjectTree} {surface : RelPath → Option PathState} {path : RelPath} {n : Nat}

/-- A directory of the tree is still there after any of the effects. -/
theorem directory_in_of_tree (hinitial : HoldsInitial tree compiled.spec.initial_surface)
    (hexecuted : execute_all (surface_map compiled.spec.initial_surface) (compiled.effects.take n) = some surface)
    {lead : Prefix} {identity : FilesystemIdentity} (hat : DirectoryAt tree lead identity) :
    DirectoryIn tree surface lead := by
  by_cases hdeclared : ∃ path, components path = lead ∧ Touched compiled.effects path
  · obtain ⟨path, rfl, htouched⟩ := hdeclared
    have hmem := (compiled.covers.1 path).mpr htouched
    obtain ⟨state, hstate⟩ := Option.ne_none_iff_exists'.mp (mt surface_map_eq_none_iff.mp (not_not.mpr hmem))
    obtain ⟨entry, hentry, hkind, _⟩ := hat
    have hstands := hinitial path state hstate
    rw [hentry, Option.map_some, hkind] at hstands
    cases state with
    | DirectoryState state => exact .inl ⟨path, state, rfl, execute_all_keeps_directory hexecuted hstate⟩
    | _ => simp [kind_of] at hstands
  · refine .inr ⟨fun path hpath => ?_, identity, hat⟩
    have huntouched : ¬ Touched compiled.effects path := fun htouched => hdeclared ⟨path, hpath, htouched⟩
    rw [execute_all_frame hexecuted (fun htouched => huntouched (htouched.mono (List.take_subset _ _))),
      surface_map_eq_none_iff.mpr (mt (compiled.covers.1 path).mp huntouched)]

theorem directory_in_of_created
    (hexecuted : execute_all (surface_map compiled.spec.initial_surface) (compiled.effects.take n) = some surface)
    {creator : Nat} {e : CreateDirectory} (heffect : compiled.effects[creator]? = some (.CreateDirectory e))
    (hlt : creator < n) : DirectoryIn tree surface (components e.path) := by
  refine .inl ⟨e.path, e.post, rfl, execute_all_creates hexecuted ?_⟩
  exact List.mem_of_getElem? ((List.getElem?_take_of_lt hlt).trans heffect)

/-- Above a declared path that is there, every directory is there. -/
theorem parents_of_present (hbuilt : Built compiled prefixes work facts node resolved)
    (htable : ResolvedOver tree prefixes) (hkeys : ∀ path ∈ compiled.paths, path ∈ prefixes.keys)
    (hlegal : require_ancestors_legal compiled prefixes resolved = .ok ())
    (hinitial : HoldsInitial tree compiled.spec.initial_surface)
    (hexecuted : execute_all (surface_map compiled.spec.initial_surface) (compiled.effects.take n) = some surface)
    {state : PathState} (hstate : surface path = some state) (hpresent : state ≠ ABSENT) :
    ParentsIn tree surface path := by
  intro k hk
  have htouched : Touched compiled.effects path := by
    by_contra huntouched
    rw [execute_all_frame hexecuted (fun htouched => huntouched (htouched.mono (List.take_subset _ _))),
      surface_map_eq_none_iff.mpr (mt (compiled.covers.1 path).mp huntouched)] at hstate
    cases hstate
  obtain ⟨identity, hat⟩ | ⟨creator, e, heffect, hlead, hbefore⟩ :=
    parent_created hbuilt htable hlegal (hkeys path (compiled.mem_paths_iff.mpr htouched)) hk
  · exact directory_in_of_tree hinitial hexecuted hat
  · by_cases hlt : creator < n
    · rw [← hlead]
      exact directory_in_of_created hexecuted heffect hlt
    · -- Nothing has been done to the path, so it is there from the start, and so is every directory above it.
      have hframe := execute_all_frame hexecuted (fun htouched =>
        hbefore (htouched.mono (List.take_subset_take_left _ (by omega))))
      rw [hstate] at hframe
      have hstands := hinitial path state hframe.symm
      have hentry : (tree.entry (components path)).isSome = true := by
        cases state with
        | AbsentState => exact absurd rfl hpresent
        | _ =>
          obtain ⟨entry, hentry, _⟩ := Option.map_eq_some_iff.mp hstands
          rw [hentry]
          rfl
      obtain ⟨identity, hat⟩ := directory_above hentry hk
      exact directory_in_of_tree hinitial hexecuted hat

/-- Above each path of the next effect, every directory is there. -/
theorem parents_of_next (hbuilt : Built compiled prefixes work facts node resolved)
    (htable : ResolvedOver tree prefixes) (hkeys : ∀ path ∈ compiled.paths, path ∈ prefixes.keys)
    (hlegal : require_ancestors_legal compiled prefixes resolved = .ok ())
    (hinitial : HoldsInitial tree compiled.spec.initial_surface)
    (hexecuted : execute_all (surface_map compiled.spec.initial_surface) (compiled.effects.take n) = some surface)
    {effect : Effect} (heffect : compiled.effects[n]? = some effect) {occurrence : Occurrence}
    (hmem : occurrence ∈ occurrences effect) : ParentsIn tree surface occurrence.path := by
  intro k hk
  have htouched : Touched compiled.effects occurrence.path := ⟨effect, List.mem_of_getElem? heffect, occurrence, hmem, rfl⟩
  obtain ⟨identity, hat⟩ | ⟨creator, e, hcreates, hlead, hbefore⟩ :=
    parent_created hbuilt htable hlegal (hkeys _ (compiled.mem_paths_iff.mpr htouched)) hk
  · exact directory_in_of_tree hinitial hexecuted hat
  · rw [← hlead]
    refine directory_in_of_created hexecuted hcreates ?_
    by_contra hle
    refine hbefore ⟨effect, List.mem_of_getElem? ((List.getElem?_take_of_lt ?_).trans heffect), occurrence, hmem, rfl⟩
    omega

omit [UnicodeData] in
theorem DirectoryIn.declared {path : RelPath} {state : PathState} (h : DirectoryIn tree surface (components path))
    (hstate : surface path = some state) : ∃ directory, state = .DirectoryState directory := by
  obtain ⟨other, directory, hother, hfound⟩ | ⟨hnone, _⟩ := h
  · rw [components_injective hother, hstate, Option.some.injEq] at hfound
    exact ⟨directory, hfound⟩
  · rw [hnone path rfl] at hstate
    cases hstate

/-- The effects of a judged spec go through possible trees only: after any number of them a declared path that is there
has no declared path above it that is not a directory, and the next effect finds every directory above its paths. The
judgments of the endpoints and of the resolved ordering are not needed for it. -/
theorem executed_trees_possible {context : ProjectContext} {filesystem_type : String}
    {work_constraints : Option DirectoryConstraints} (hprefixes : resolve_all context compiled = .ok prefixes)
    (hinitial : HoldsInitial context.tree compiled.spec.initial_surface)
    (htopology : build_topology compiled prefixes filesystem_type work_constraints = .ok resolved)
    (hlegal : require_ancestors_legal compiled prefixes resolved = .ok ()) (n : Nat) :
    ∃ surface, execute_all (surface_map compiled.spec.initial_surface) (compiled.effects.take n) = some surface ∧
      (∀ path state above found, surface path = some state → state ≠ ABSENT → Beneath path above →
        surface above = some found → ∃ directory, found = .DirectoryState directory) ∧
      ∀ effect, compiled.effects[n]? = some effect → ∀ occurrence ∈ occurrences effect,
        ParentsIn context.tree surface occurrence.path := by
  obtain ⟨htable, hsorted⟩ := resolve_all_eq_ok hprefixes
  obtain ⟨facts, node, hbuilt⟩ := build_topology_eq_ok (consistent_of_resolved htable) htopology
  have hkeys : ∀ path ∈ compiled.paths, path ∈ prefixes.keys := fun path hpath => by
    rw [hsorted, mem_sorted_by]
    exact hpath
  obtain ⟨surface, hexecuted⟩ := execute_all_take compiled.executes n
  refine ⟨surface, hexecuted, ?_, ?_⟩
  · rintro path state above found hstate hpresent ⟨k, hk, hlead⟩ hfound
    have hparents := parents_of_present hbuilt htable hkeys hlegal hinitial hexecuted hstate hpresent k hk
    rw [← hlead] at hparents
    exact hparents.declared hfound
  · exact fun effect heffect occurrence hmem =>
      parents_of_next hbuilt htable hkeys hlegal hinitial hexecuted heffect hmem

end

section

attribute [local instance] ascii_names

/-- A file makes way for a directory, and a file is created in it. -/
def replaced_by_directory_spec : TransactionSpec where
  schema_version := 2
  consumer_tag := "tag"
  intent_digest := "sha256:0000000000000000000000000000000000000000000000000000000000000000"
  initial_surface := [⟨"a", .FileState empty_file⟩, ⟨"a/b", ABSENT⟩]
  final_surface := [⟨"a", .DirectoryState ⟨0o755⟩⟩, ⟨"a/b", .FileState empty_file⟩]
  effects := [.DeletePath ⟨"e1", "a", .FileState empty_file⟩, .CreateDirectory ⟨"e2", "a", ⟨0o755⟩⟩,
    .CreateFileNoClobber ⟨"e3", "a/b", empty_file⟩]
  dependencies := []
  fulfills := none
  registered_paths := []

def replaced_by_directory : CompiledSpec where
  spec := replaced_by_directory_spec
  timelines := [⟨"a", [⟨"e1", 0, "target", .FileState empty_file, ABSENT⟩,
      ⟨"e2", 1, "target", ABSENT, .DirectoryState ⟨0o755⟩⟩]⟩,
    ⟨"a/b", [⟨"e3", 2, "target", ABSENT, .FileState empty_file⟩]⟩]
  issued := ⟨replaced_by_directory_spec, by decide +kernel, by decide +kernel⟩

/-- A project root with one file in it. -/
def file_tree : ProjectTree where
  entry lead := if lead = [] then some ⟨.DIRECTORY, ⟨1, 1⟩, ⟨.EXACT_BYTES, 255⟩⟩
    else if lead = ["a"] then some ⟨.REGULAR_FILE, ⟨1, 5⟩, ⟨.EXACT_BYTES, 255⟩⟩ else none
  root_is_directory := rfl
  parent_is_directory lead name h := by
    cases lead with
    | nil => rfl
    | cons => simp at h
  one_name left right l r hl hr hlkind hrkind _ := by
    have hroot : ∀ (lead : List String) (entry : TreeEntry), (if lead = [] then some ⟨.DIRECTORY, ⟨1, 1⟩, ⟨.EXACT_BYTES, 255⟩⟩
        else if lead = ["a"] then some ⟨.REGULAR_FILE, ⟨1, 5⟩, ⟨.EXACT_BYTES, 255⟩⟩ else none) = some entry →
        entry.kind = .DIRECTORY → lead = [] := by
      intro lead entry hentry hkind
      split at hentry
      · assumption
      · split at hentry
        · cases hentry
          cases hkind
        · cases hentry
    rw [hroot left l hl hlkind, hroot right r hr hrkind]

def file_context : ProjectContext where
  tree := file_tree
  metadata_identity := ⟨1, 2⟩
  path_max := 4096
  filesystem_type := "ext4"
  work_base := ⟨⟨1, 3⟩, ⟨.EXACT_BYTES, 255⟩⟩
  mount_id := 1
  txid := "t1"

theorem replaced_by_directory_possible : ∃ prefixes resolved surface,
    resolve_all file_context replaced_by_directory = .ok prefixes ∧
    build_topology replaced_by_directory prefixes "ext4" (some ⟨.EXACT_BYTES, 255⟩) = .ok resolved ∧
    require_ancestors_legal replaced_by_directory prefixes resolved = .ok () ∧
    execute_all (surface_map replaced_by_directory.spec.initial_surface) (replaced_by_directory.effects.take 2) =
      some surface ∧
    ParentsIn file_tree surface "a/b" := by
  have hruns : ((resolve_all file_context replaced_by_directory).toOption.any fun prefixes =>
      (build_topology replaced_by_directory prefixes "ext4" (some ⟨.EXACT_BYTES, 255⟩)).toOption.any fun resolved =>
        (require_ancestors_legal replaced_by_directory prefixes resolved).toOption.isSome) = true := by
    decide +kernel
  obtain ⟨prefixes, hprefixes, hruns⟩ := (Option.any_eq_true _ _).mp hruns
  obtain ⟨resolved, hresolved, hruns⟩ := (Option.any_eq_true _ _).mp hruns
  obtain ⟨_, hlegal⟩ := Option.isSome_iff_exists.mp hruns
  rw [toOption_eq_some_iff] at hprefixes hresolved hlegal
  have hinitial : HoldsInitial file_tree replaced_by_directory.spec.initial_surface := by
    intro path state hstate
    obtain ⟨entry, hentry, rfl⟩ := Option.map_eq_some_iff.mp hstate
    obtain ⟨hmem, rfl⟩ := keyed.find_key_some hentry
    obtain rfl | rfl : entry = ⟨"a", .FileState empty_file⟩ ∨ entry = ⟨"a/b", ABSENT⟩ := by
      simpa [replaced_by_directory, replaced_by_directory_spec] using hmem
    · decide +kernel
    · decide +kernel
  obtain ⟨surface, hexecuted, _, hnext⟩ := executed_trees_possible hprefixes hinitial hresolved hlegal 2
  refine ⟨prefixes, resolved, surface, hprefixes, hresolved, hlegal, hexecuted, ?_⟩
  exact hnext (.CreateFileNoClobber ⟨"e3", "a/b", empty_file⟩) rfl ⟨"a/b", ABSENT, empty_file, "target"⟩
    (List.mem_singleton_self _)

end

end atoms.fs

import Atoms.Coordinator.Descriptors.Tree
import Atoms.Library.Closure
import Atoms.Recovery.Journal.Authority

open atoms.errors atoms.fingerprint atoms.effects atoms.fs atoms.paths atoms.spec atoms.recovery atoms.compiler checked closure crash keyed

namespace atoms.coordinator

section

variable [UnicodeData]

/-- The nodes at or below some others in the topology of an approval. -/
abbrev AtOrBelow (approved : ProjectApprovedSpec) (nodes : List TopologyNode) : TopologyNode → Prop :=
  Below TopologyParent.node TopologyParent.parent approved.topology.parents nodes

/-- The nodes that have a descriptor. -/
def DescriptorTable.opened (table : DescriptorTable) : List TopologyNode := table.fds.map Prod.fst

/-- The nodes at which the walk stands. -/
def DescriptorTable.stopped (table : DescriptorTable) : List TopologyNode := table.stops.map WalkStop.node

theorem mem_closure_iff (approved : ProjectApprovedSpec) (nodes : List TopologyNode) (node : TopologyNode) :
    node ∈ closure approved nodes ↔ AtOrBelow approved nodes node :=
  mem_iterate_iff nodes (Nat.le_succ _) node

theorem parent_of_eq_ok_iff {approved : ProjectApprovedSpec} (htree : DirectoryTree approved)
    {node parent : TopologyNode} :
    parent_of approved node = .ok parent ↔ ⟨node, parent⟩ ∈ approved.topology.parents := by
  unfold parent_of
  split
  · rename_i edge hedge
    have hmem := List.mem_of_find?_eq_some hedge
    have hnode := List.find?_some hedge
    rw [decide_eq_true_eq] at hnode
    subst hnode
    rw [pure_eq_ok_iff]
    constructor
    · rintro rfl
      exact hmem
    · intro h
      exact congrArg TopologyParent.parent (List.inj_on_of_nodup_map htree.edges_nodup hmem h rfl)
  · rename_i hnone
    rw [List.find?_eq_none] at hnone
    exact iff_of_false throw_ne_ok fun h => hnone _ h (decide_eq_true rfl)

theorem parent_unique {approved : ProjectApprovedSpec} (htree : DirectoryTree approved) {node left right : TopologyNode}
    (hleft : ⟨node, left⟩ ∈ approved.topology.parents) (hright : ⟨node, right⟩ ∈ approved.topology.parents) :
    left = right :=
  congrArg TopologyParent.parent (List.inj_on_of_nodup_map htree.edges_nodup hleft hright rfl)

/-- The directories to which the engine has a way, and those that it does not reach. -/
structure Reachability (approved : ProjectApprovedSpec) (table : DescriptorTable) : Prop where
  unreachable_iff : ∀ node, node ∈ table.unreachable ↔ AtOrBelow approved table.stopped node
  stopped_nodup : table.stopped.Nodup
  stopped_planned : ∀ node ∈ table.stopped, ∃ entry ∈ approved.directories, entry.node = node ∧ entry.planned = true
  stopped_parent : ∀ node ∈ table.stopped, ∃ parent ∈ table.opened, ⟨node, parent⟩ ∈ approved.topology.parents
  stopped_unopened : ∀ node ∈ table.stopped, node ∉ table.opened
  parent_opened : ∀ edge ∈ approved.topology.parents, edge.node ∈ table.opened → edge.parent ∈ table.opened
  planned_covered : ∀ entry ∈ approved.directories, entry.planned = true →
    entry.node ∈ table.opened ∨ AtOrBelow approved table.stopped entry.node
  existing_opened : ∀ entry ∈ approved.directories, entry.planned = false → entry.node ∈ table.opened
  roots_opened : ∀ entry ∈ approved.directories, entry.node = .WorkRoot → entry.node ∈ table.opened

namespace Reachability

variable {approved : ProjectApprovedSpec} {table : DescriptorTable}

/-- What has a descriptor is not below a stop. -/
theorem not_below (h : Reachability approved table) {node : TopologyNode} (hbelow : AtOrBelow approved table.stopped node) :
    node ∉ table.opened := by
  induction hbelow with
  | start hstop => exact h.stopped_unopened _ hstop
  | step hedge _ ih => exact fun hopened => ih (h.parent_opened _ hedge hopened)

end Reachability

section

variable {approved : ProjectApprovedSpec} {table adopted table' : DescriptorTable} {node : TopologyNode}

omit [UnicodeData] in
theorem adopt_eq_ok {fd : Inode} (h : table.adopt node fd = .ok adopted) :
    node ∉ table.opened ∧ node ∈ table.stopped ∧ adopted.fds = table.fds ++ [(node, fd)] ∧
      adopted.stops = table.stops.filter fun stop => stop.node ≠ node := by
  unfold DescriptorTable.adopt at h
  obtain ⟨_, hnew, h⟩ := bind_eq_ok_iff.mp h
  obtain ⟨_, hstop, h⟩ := bind_eq_ok_iff.mp h
  rw [require_eq_ok_iff] at hnew hstop
  rw [pure_eq_ok_iff] at h
  subst h
  refine ⟨fun hmem => ?_, hstop, rfl, rfl⟩
  rw [Option.isNone_iff_eq_none, find_key_eq_none_iff] at hnew
  obtain ⟨item, hitem, heq⟩ := List.mem_map.mp hmem
  exact hnew item hitem heq

/-- The loop of `_register_planned_children` adds a stop for each planned child, in walk order. -/
theorem register_stops {paths : List (TopologyNode × String)} {planned order : List TopologyNode} {parent_fd : Inode}
    {stops stops' : List WalkStop} (htree : DirectoryTree approved)
    (h : order.foldlM (fun stops child => do
      let parent ← if child ∈ planned then (do
          let parent ← parent_of approved child
          pure (some parent))
        else pure none
      if parent = some node then do
        let name ← component paths node child
        pure (stops ++ ([⟨child, (path_of paths child).getD "", parent_fd, name⟩] : List WalkStop))
      else pure stops) stops = .ok stops') :
    stops'.map WalkStop.node = stops.map WalkStop.node ++ order.filter fun child =>
      child ∈ planned ∧ ⟨child, node⟩ ∈ approved.topology.parents := by
  induction order generalizing stops with
  | nil =>
    rw [List.foldlM_nil, pure_eq_ok_iff] at h
    simp [h]
  | cons child rest ih =>
    obtain ⟨middle, hmiddle, hrest⟩ := foldlM_cons_eq_ok_iff.mp h
    rw [ih hrest]
    have hchild : ∃ parent : Option TopologyNode, (parent = some node ↔
          child ∈ planned ∧ ⟨child, node⟩ ∈ approved.topology.parents) ∧
        (if parent = some node then do
          let name ← component paths node child
          pure (stops ++ ([⟨child, (path_of paths child).getD "", parent_fd, name⟩] : List WalkStop))
        else pure stops) = .ok middle := by
      by_cases hplanned : child ∈ planned
      · simp only [if_pos hplanned] at hmiddle
        obtain ⟨parent, hparent, hmiddle⟩ := bind_eq_ok_iff.mp hmiddle
        obtain ⟨found, hfound, heq⟩ := bind_eq_ok_iff.mp hparent
        rw [pure_eq_ok_iff] at heq
        subst heq
        refine ⟨some found, ?_, hmiddle⟩
        rw [← parent_of_eq_ok_iff htree, hfound]
        simp [hplanned]
      · simp only [if_neg hplanned] at hmiddle
        exact ⟨none, by simp [hplanned], hmiddle⟩
    obtain ⟨parent, hchild, hmiddle⟩ := hchild
    split at hmiddle
    · rename_i heq
      obtain ⟨name, _, hmiddle⟩ := bind_eq_ok_iff.mp hmiddle
      rw [pure_eq_ok_iff] at hmiddle
      subst hmiddle
      rw [List.filter_cons_of_pos (by simpa using hchild.mp heq), List.map_append, List.append_assoc]
      rfl
    · rename_i hne
      rw [pure_eq_ok_iff] at hmiddle
      subst hmiddle
      rw [List.filter_cons_of_neg (by simpa using fun hmem => hne (hchild.mpr hmem))]

theorem mem_walk_order {paths : List (TopologyNode × String)} {order : List TopologyNode}
    (htree : DirectoryTree approved) (h : walk_order approved paths = .ok order) :
    order.Nodup ∧ ∀ node, node ∈ order ↔
      (∃ entry ∈ approved.directories, entry.node = node) ∧ node ≠ .ProjectRoot ∧ node ≠ .WorkRoot := by
  unfold walk_order at h
  dsimp only at h
  split at h
  · exact absurd h throw_ne_ok
  · rw [pure_eq_ok_iff] at h
    subst h
    refine ⟨(List.perm_insertionSort _ _).nodup_iff.mpr (htree.directories_nodup.filter _), fun node => ?_⟩
    rw [List.mem_insertionSort, List.mem_filter, List.mem_map, decide_eq_true_eq]

/-- The planned children of a node. -/
def planned_children (approved : ProjectApprovedSpec) (order : List TopologyNode) (node : TopologyNode) :
    List TopologyNode :=
  order.filter fun child => child ∈ (approved.directories.filter fun entry => entry.planned).map ApprovedDirectory.node ∧
    ⟨child, node⟩ ∈ approved.topology.parents

theorem register_planned_children_eq_ok (htree : DirectoryTree approved)
    (h : register_planned_children table approved node = .ok table') :
    ∃ order, order.Nodup ∧ (∀ child, child ∈ planned_children approved order node ↔
        (∃ entry ∈ approved.directories, entry.node = child ∧ entry.planned = true) ∧ child ≠ .WorkRoot ∧
          ⟨child, node⟩ ∈ approved.topology.parents) ∧
      table'.fds = table.fds ∧ table'.stopped = table.stopped ++ planned_children approved order node ∧
      table'.unreachable = closure approved table'.stopped := by
  unfold register_planned_children at h
  obtain ⟨paths, _, h⟩ := bind_eq_ok_iff.mp h
  obtain ⟨parent_fd, _, h⟩ := bind_eq_ok_iff.mp h
  obtain ⟨order, horder, h⟩ := bind_eq_ok_iff.mp h
  obtain ⟨stops, hstops, h⟩ := bind_eq_ok_iff.mp h
  rw [pure_eq_ok_iff] at h
  subst h
  obtain ⟨hnodup, hmem⟩ := mem_walk_order htree horder
  refine ⟨order, hnodup, fun child => ?_, rfl, register_stops htree hstops, rfl⟩
  rw [planned_children, List.mem_filter, decide_eq_true_eq, hmem, List.mem_map]
  constructor
  · rintro ⟨⟨_, _, hwork⟩, ⟨entry, hentry, rfl⟩, hedge⟩
    obtain ⟨hentry, hplanned⟩ := List.mem_filter.mp hentry
    exact ⟨⟨entry, hentry, rfl, hplanned⟩, hwork, hedge⟩
  · rintro ⟨⟨entry, hentry, rfl, hplanned⟩, hwork, hedge⟩
    exact ⟨⟨⟨entry, hentry, rfl⟩, htree.root_edge _ hedge, hwork⟩,
      ⟨entry, List.mem_filter.mpr ⟨hentry, hplanned⟩, rfl⟩, hedge⟩

/-- An adoption, and the registration of the adopted node's planned children, keep every directory either reached or
known to be out of reach. -/
theorem Reachability.adopt_register {fd : Inode} (h : Reachability approved table) (htree : DirectoryTree approved)
    (hadopt : table.adopt node fd = .ok adopted) (hregister : register_planned_children adopted approved node = .ok table') :
    Reachability approved table' := by
  obtain ⟨hunopened, hstopped, hfds, hstops⟩ := adopt_eq_ok hadopt
  obtain ⟨order, hnodup, hchildren, hfds', hstopped', hunreachable⟩ := register_planned_children_eq_ok htree hregister
  have hopened : ∀ other, other ∈ table'.opened ↔ other ∈ table.opened ∨ other = node := by
    intro other
    rw [DescriptorTable.opened, hfds', hfds, List.map_append, List.mem_append, List.map_singleton, List.mem_singleton,
      DescriptorTable.opened]
  have hadopted : ∀ other, other ∈ adopted.stopped ↔ other ∈ table.stopped ∧ other ≠ node := by
    intro other
    rw [DescriptorTable.stopped, hstops, DescriptorTable.stopped, List.mem_map, List.mem_map]
    simp only [List.mem_filter, decide_eq_true_eq]
    constructor
    · rintro ⟨stop, ⟨hstop, hne⟩, rfl⟩
      exact ⟨⟨stop, hstop, rfl⟩, hne⟩
    · rintro ⟨⟨stop, hstop, rfl⟩, hne⟩
      exact ⟨stop, ⟨hstop, hne⟩, rfl⟩
  have hmem : ∀ other, other ∈ table'.stopped ↔ (other ∈ table.stopped ∧ other ≠ node) ∨
      ((∃ entry ∈ approved.directories, entry.node = other ∧ entry.planned = true) ∧ other ≠ .WorkRoot ∧
        ⟨other, node⟩ ∈ approved.topology.parents) := by
    intro other
    rw [hstopped', List.mem_append, hadopted, hchildren]
  -- a child of the adopted node had no descriptor before, nor was it a stop
  have hchild : ∀ other, ⟨other, node⟩ ∈ approved.topology.parents → other ∉ table.opened ∧ other ∉ table.stopped := by
    intro other hedge
    refine ⟨fun hmem => hunopened (h.parent_opened _ hedge hmem), fun hmem => ?_⟩
    obtain ⟨parent, hparent, hedge'⟩ := h.stopped_parent other hmem
    exact hunopened (parent_unique htree hedge' hedge ▸ hparent)
  refine ⟨fun other => ?_, ?_, fun other hother => ?_, fun other hother => ?_, fun other hother => ?_,
    fun edge hedge hnode => ?_, fun entry hentry hplanned => ?_, fun entry hentry hexisting => ?_,
    fun entry hentry hwork => ?_⟩
  · rw [hunreachable, mem_closure_iff]
  · rw [hstopped']
    refine List.nodup_append.mpr ⟨?_, hnodup.filter _, fun left hleft right hright heq => ?_⟩
    · rw [DescriptorTable.stopped, hstops]
      exact List.Nodup.sublist (List.filter_sublist.map _) h.stopped_nodup
    · subst heq
      exact (hchild left ((hchildren left).mp hright).2.2).2 ((hadopted left).mp hleft).1
  · obtain ⟨hold, _⟩ | ⟨hplanned, _⟩ := (hmem other).mp hother
    · exact h.stopped_planned other hold
    · exact hplanned
  · obtain ⟨hold, _⟩ | ⟨_, _, hedge⟩ := (hmem other).mp hother
    · obtain ⟨parent, hparent, hedge⟩ := h.stopped_parent other hold
      exact ⟨parent, (hopened parent).mpr (.inl hparent), hedge⟩
    · exact ⟨node, (hopened node).mpr (.inr rfl), hedge⟩
  · rw [hopened]
    rintro (hmem' | rfl)
    · obtain ⟨hold, _⟩ | ⟨_, _, hedge⟩ := (hmem other).mp hother
      · exact h.stopped_unopened other hold hmem'
      · exact (hchild other hedge).1 hmem'
    · obtain ⟨_, hne⟩ | ⟨_, _, hedge⟩ := (hmem other).mp hother
      · exact hne rfl
      · exact (hchild other hedge).2 hstopped
  · rw [hopened] at hnode ⊢
    obtain hnode | hnode := hnode
    · exact .inl (h.parent_opened edge hedge hnode)
    · obtain ⟨parent, hparent, hedge'⟩ := h.stopped_parent node hstopped
      have hown : TopologyParent.mk node edge.parent ∈ approved.topology.parents := by
        rw [← hnode]
        exact hedge
      exact .inl (parent_unique htree hown hedge' ▸ hparent)
  · rw [hopened]
    obtain hold | hbelow := h.planned_covered entry hentry hplanned
    · exact .inl (.inl hold)
    · by_cases hself : entry.node = node
      · exact .inl (.inr hself)
      · have hkept : ∀ other, AtOrBelow approved table.stopped other → ∀ entry ∈ approved.directories, entry.node = other →
            other = node ∨ AtOrBelow approved table'.stopped other := by
          intro other hother
          induction hother with
          | @start x hstop =>
            intro _ _ _
            by_cases hx : x = node
            · exact .inl hx
            · exact .inr (.start ((hmem x).mpr (.inl ⟨hstop, hx⟩)))
          | @step edge hedge hparent ih =>
            intro entry hentry heq
            -- the parent is a planned directory too: an existing one would have a descriptor
            have hwork : entry.node ≠ .WorkRoot := fun hwork =>
              h.not_below (.step hedge hparent) (heq ▸ h.roots_opened entry hentry hwork)
            obtain ⟨above, habove, hedge', _, hplanned⟩ :=
              htree.parent entry hentry (heq ▸ htree.root_edge edge hedge) hwork
            have hsame : edge.parent = above.node := by
              have hown : TopologyParent.mk entry.node edge.parent ∈ approved.topology.parents := by
                rw [heq]
                exact hedge
              exact parent_unique htree hown hedge'
            have habove_planned : above.planned = true := by
              by_contra hnot
              exact h.not_below hparent (hsame ▸ h.existing_opened above habove (Bool.eq_false_iff.mpr hnot))
            obtain hnode | hbelow := ih above habove hsame.symm
            · refine .inr (.start ((hmem _).mpr (.inr ⟨⟨entry, hentry, heq, hplanned habove_planned⟩, heq ▸ hwork, ?_⟩)))
              rw [← hnode]
              exact hedge
            · exact .inr (.step hedge hbelow)
        exact .inr ((hkept entry.node hbelow entry hentry rfl).resolve_left hself)
  · exact (hopened _).mpr (.inl (h.existing_opened entry hentry hexisting))
  · exact (hopened _).mpr (.inl (h.roots_opened entry hentry hwork))

end

/-! Construction. -/

/-- The walk's nodes so far: each has a descriptor, or the walk has stopped at or above it. -/
structure Descending (approved : ProjectApprovedSpec) (roots visited : List TopologyNode) (descent : Descent) : Prop where
  visited_covered : ∀ node ∈ visited, node ∈ descent.fds.map Prod.fst ∨ node ∈ descent.stopped_nodes
  opened_visited : ∀ node ∈ descent.fds.map Prod.fst, node ∈ roots ∨ node ∈ visited
  roots_opened : ∀ node ∈ roots, node ∈ descent.fds.map Prod.fst
  stopped_visited : ∀ node ∈ descent.stopped_nodes, node ∈ visited
  stopped_planned : ∀ node ∈ descent.stopped_nodes, ∃ entry ∈ approved.directories, entry.node = node ∧ entry.planned = true
  stopped_unopened : ∀ node ∈ descent.stopped_nodes, node ∉ descent.fds.map Prod.fst
  stopped_below : ∀ node ∈ descent.stopped_nodes,
    AtOrBelow approved (descent.stops.map fun item => item.1.node) node
  stop_stopped : ∀ item ∈ descent.stops, item.1.node ∈ descent.stopped_nodes
  stops_nodup : (descent.stops.map fun item => item.1.node).Nodup
  stop_parent : ∀ item ∈ descent.stops, ∃ parent ∈ descent.fds.map Prod.fst,
    ⟨item.1.node, parent⟩ ∈ approved.topology.parents
  parent_opened : ∀ edge ∈ approved.topology.parents, edge.node ∈ descent.fds.map Prod.fst →
    edge.parent ∈ descent.fds.map Prod.fst

omit [UnicodeData] in
theorem completes_lifted_iff {α : Type} {value : Except Raised α} {a : α} {d d' : Disk} :
    (lifted value).Completes d a d' ↔ value = .ok a ∧ d = d' := Prog.completes_read_iff

section

variable [Sha256] {approved : fs.ProjectApprovedSpec} {mounts : Mounts} {paths : List (TopologyNode × String)}
  {roots visited : List TopologyNode}

omit [Sha256] in
theorem is_planned_iff {node : TopologyNode} :
    (approved.directories.find? fun entry => entry.node = node ∧ entry.planned = true).isSome = true ↔
      ∃ entry ∈ (executed approved).directories, entry.node = node ∧ entry.planned = true := by
  rw [List.find?_isSome]
  simp only [decide_eq_true_eq, executed, List.mem_map]
  constructor
  · rintro ⟨entry, hentry, hnode, hplanned⟩
    exact ⟨_, ⟨entry, hentry, rfl⟩, hnode, hplanned⟩
  · rintro ⟨_, ⟨entry, hentry, rfl⟩, hnode, hplanned⟩
    exact ⟨entry, hentry, hnode, hplanned⟩

section

variable {plan : ProjectApprovedSpec} {descent : Descent} {node parent : TopologyNode}

omit [Sha256] in
/-- The walk does not get past a planned directory: with a stop of its own, or because it has stopped above. -/
theorem Descending.halt {more : List (WalkStop × ObservedEntry)} (h : Descending plan roots visited descent)
    (hunopened : node ∉ descent.fds.map Prod.fst) (hunstopped : node ∉ descent.stopped_nodes)
    (hplanned : ∃ entry ∈ plan.directories, entry.node = node ∧ entry.planned = true)
    (hmore : ∀ item ∈ more, item.1.node = node) (hone : (more.map fun item => item.1.node).Nodup)
    (hparents : ∀ item ∈ more, ∃ parent ∈ descent.fds.map Prod.fst, ⟨item.1.node, parent⟩ ∈ plan.topology.parents)
    (hbelow : AtOrBelow plan ((descent.stops ++ more).map fun item => item.1.node) node) :
    Descending plan roots (visited ++ [node]) { descent with
      stops := descent.stops ++ more, stopped_nodes := descent.stopped_nodes ++ [node] } where
  visited_covered other hother := by
    obtain hother | rfl := List.mem_append.mp hother |>.imp_right List.mem_singleton.mp
    · exact (h.visited_covered other hother).imp_right (List.mem_append_left _)
    · exact .inr (List.mem_append_right _ (List.mem_singleton_self _))
  opened_visited other hother := (h.opened_visited other hother).imp_right (List.mem_append_left _)
  roots_opened := h.roots_opened
  stopped_visited other hother := by
    obtain hother | rfl := List.mem_append.mp hother |>.imp_right List.mem_singleton.mp
    · exact List.mem_append_left _ (h.stopped_visited other hother)
    · exact List.mem_append_right _ (List.mem_singleton_self _)
  stopped_planned other hother := by
    obtain hother | rfl := List.mem_append.mp hother |>.imp_right List.mem_singleton.mp
    · exact h.stopped_planned other hother
    · exact hplanned
  stopped_unopened other hother := by
    obtain hother | rfl := List.mem_append.mp hother |>.imp_right List.mem_singleton.mp
    · exact h.stopped_unopened other hother
    · exact hunopened
  stopped_below other hother := by
    obtain hother | rfl := List.mem_append.mp hother |>.imp_right List.mem_singleton.mp
    · refine (h.stopped_below other hother).mono fun x hx => .start ?_
      rw [List.map_append]
      exact List.mem_append_left _ hx
    · exact hbelow
  stop_stopped item hitem := by
    obtain hitem | hitem := List.mem_append.mp hitem
    · exact List.mem_append_left _ (h.stop_stopped item hitem)
    · exact List.mem_append_right _ (List.mem_singleton.mpr (hmore item hitem))
  stops_nodup := by
    rw [List.map_append]
    refine List.nodup_append.mpr ⟨h.stops_nodup, hone, fun left hleft right hright heq => ?_⟩
    obtain ⟨item, hitem, rfl⟩ := List.mem_map.mp hleft
    obtain ⟨other, hother, rfl⟩ := List.mem_map.mp hright
    rw [hmore other hother] at heq
    exact hunstopped (heq ▸ h.stop_stopped item hitem)
  stop_parent item hitem := (List.mem_append.mp hitem).elim (h.stop_parent item) (hparents item)
  parent_opened := h.parent_opened

omit [Sha256] in
/-- The walk opens an existing directory. -/
theorem Descending.open {fd : Inode} (h : Descending plan roots visited descent) (htree : DirectoryTree plan)
    (hunstopped : node ∉ descent.stopped_nodes) (hedge : ⟨node, parent⟩ ∈ plan.topology.parents)
    (hparent : parent ∈ descent.fds.map Prod.fst) :
    Descending plan roots (visited ++ [node]) { descent with fds := descent.fds ++ [(node, fd)] } := by
  have hfds : ∀ other, other ∈ (descent.fds ++ [(node, fd)]).map Prod.fst ↔
      other ∈ descent.fds.map Prod.fst ∨ other = node := by
    intro other
    rw [List.map_append, List.mem_append, List.map_singleton, List.mem_singleton]
  refine ⟨fun other hother => ?_, fun other hother => ?_, fun other hother => (hfds other).mpr (.inl (h.roots_opened other hother)),
    fun other hother => List.mem_append_left _ (h.stopped_visited other hother), h.stopped_planned, fun other hother => ?_,
    h.stopped_below, h.stop_stopped, h.stops_nodup, fun item hitem => ?_, fun edge hmem hnode => ?_⟩
  · rw [hfds]
    obtain hother | rfl := List.mem_append.mp hother |>.imp_right List.mem_singleton.mp
    · exact (h.visited_covered other hother).imp_left .inl
    · exact .inl (.inr rfl)
  · obtain hother | rfl := (hfds other).mp hother
    · exact (h.opened_visited other hother).imp_right (List.mem_append_left _)
    · exact .inr (List.mem_append_right _ (List.mem_singleton_self _))
  · rw [hfds]
    rintro (hmem | rfl)
    · exact h.stopped_unopened other hother hmem
    · exact hunstopped hother
  · obtain ⟨above, habove, hedge'⟩ := h.stop_parent item hitem
    exact ⟨above, (hfds above).mpr (.inl habove), hedge'⟩
  · rw [hfds] at hnode ⊢
    obtain hnode | hnode := hnode
    · exact .inl (h.parent_opened edge hmem hnode)
    · have hown : TopologyParent.mk node edge.parent ∈ plan.topology.parents := by
        rw [← hnode]
        exact hmem
      exact .inl (parent_unique htree hown hedge ▸ hparent)

end

/-- One node of the walk. -/
theorem Descending.descend {descent descent' : Descent} {node : TopologyNode} {d d' : Disk}
    (h : Descending (executed approved) roots visited descent) (htree : DirectoryTree (executed approved))
    (hdirectory : ∃ entry ∈ (executed approved).directories, entry.node = node) (hwork : node ≠ .WorkRoot)
    (hroots : node ∉ roots) (hnew : node ∉ visited)
    (hrun : (descend approved mounts paths descent node).Completes d descent' d') :
    Descending (executed approved) roots (visited ++ [node]) descent' := by
  have hunopened : node ∉ descent.fds.map Prod.fst := fun hmem => (h.opened_visited node hmem).elim hroots hnew
  have hunstopped : node ∉ descent.stopped_nodes := fun hmem => hnew (h.stopped_visited node hmem)
  unfold coordinator.descend at hrun
  obtain ⟨parent, _, hparent, hrun⟩ := Prog.completes_bind_iff.mp hrun
  rw [completes_lifted_iff, parent_of_eq_ok_iff htree] at hparent
  obtain ⟨hedge, rfl⟩ := hparent
  cases hfind : find_key Prod.fst descent.fds parent with
  | none =>
    rw [hfind] at hrun
    obtain ⟨_, _, hstopped, hrun⟩ := Prog.completes_bind_iff.mp hrun
    rw [completes_lifted_iff, require_eq_ok_iff] at hstopped
    rw [Prog.completes_pure_iff] at hrun
    obtain ⟨rfl, -⟩ := hrun
    have hplanned : ∃ entry ∈ (executed approved).directories, entry.node = node ∧ entry.planned = true := by
      obtain ⟨entry, hentry, rfl⟩ := hdirectory
      obtain ⟨above, habove, hedge', _, himp⟩ := htree.parent entry hentry (htree.root_edge _ hedge) hwork
      obtain ⟨found, hfound, hnode, hp⟩ := h.stopped_planned parent hstopped.1
      have hsame : above = found := List.inj_on_of_nodup_map htree.directories_nodup habove hfound
        ((parent_unique htree hedge hedge').symm.trans hnode.symm)
      exact ⟨entry, hentry, rfl, himp (hsame ▸ hp)⟩
    have hbelow : AtOrBelow (executed approved)
        ((descent.stops ++ []).map fun item : WalkStop × ObservedEntry => item.1.node) node := by
      rw [List.append_nil]
      exact .step hedge (h.stopped_below parent hstopped.1)
    have hhalt := h.halt hunopened hunstopped hplanned (fun _ hitem => absurd hitem List.not_mem_nil) List.nodup_nil
      (fun _ hitem => absurd hitem List.not_mem_nil) hbelow
    rw [List.append_nil] at hhalt
    exact hhalt
  | some opened =>
    rw [hfind] at hrun
    have hopened : parent ∈ descent.fds.map Prod.fst := by
      obtain ⟨hmem, rfl⟩ := find_key_some hfind
      exact List.mem_map_of_mem hmem
    obtain ⟨name, _, hname, hrun⟩ := Prog.completes_bind_iff.mp hrun
    by_cases hplanned : (approved.directories.find? fun entry => entry.node = node ∧ entry.planned = true).isSome = true
    · rw [if_pos hplanned] at hrun
      obtain ⟨observed, _, _, hrun⟩ := Prog.completes_bind_iff.mp hrun
      rw [Prog.completes_pure_iff] at hrun
      obtain ⟨rfl, -⟩ := hrun
      refine h.halt hunopened hunstopped (is_planned_iff.mp hplanned) (fun item hitem => ?_) (List.nodup_singleton _)
        (fun item hitem => ?_) (.start (by rw [List.map_append]; exact List.mem_append_right _ (List.mem_singleton_self _)))
      · rw [List.mem_singleton.mp hitem]
      · rw [List.mem_singleton.mp hitem]
        exact ⟨parent, hopened, hedge⟩
    · rw [if_neg hplanned] at hrun
      obtain ⟨fd, _, _, hrun⟩ := Prog.completes_bind_iff.mp hrun
      obtain ⟨_, _, _, hrun⟩ := Prog.completes_bind_iff.mp hrun
      rw [Prog.completes_pure_iff] at hrun
      obtain ⟨rfl, -⟩ := hrun
      exact h.open htree hunstopped hedge hopened

theorem Descending.run {order : List TopologyNode} {descent descent' : Descent} {d d' : Disk}
    (h : Descending (executed approved) roots visited descent) (htree : DirectoryTree (executed approved))
    (horder : ∀ node ∈ order, (∃ entry ∈ (executed approved).directories, entry.node = node) ∧ node ≠ .WorkRoot ∧
      node ∉ roots) (hnodup : (visited ++ order).Nodup)
    (hrun : (order.foldlM (coordinator.descend approved mounts paths) descent).Completes d descent' d') :
    Descending (executed approved) roots (visited ++ order) descent' := by
  induction order generalizing visited descent d with
  | nil =>
    rw [List.foldlM_nil, Prog.completes_pure_iff] at hrun
    rw [List.append_nil]
    exact hrun.1 ▸ h
  | cons node rest ih =>
    rw [List.foldlM_cons] at hrun
    obtain ⟨middle, d'', hmiddle, hrest⟩ := Prog.completes_bind_iff.mp hrun
    obtain ⟨hdirectory, hwork, hroots⟩ := horder node List.mem_cons_self
    have hnew : node ∉ visited := fun hmem => (List.nodup_append.mp hnodup).2.2 node hmem node List.mem_cons_self rfl
    rw [List.append_cons] at hnodup ⊢
    exact ih (h.descend htree hdirectory hwork hroots hnew hmiddle) (fun other hother => horder other (List.mem_cons_of_mem _ hother))
      hnodup hrest

omit [Sha256] in
theorem open_roots_eq_ok {project_root_fd work_fd : Inode} {fds : List (TopologyNode × Inode)}
    (h : open_roots approved mounts project_root_fd work_fd = .ok fds) :
    .ProjectRoot ∈ fds.map Prod.fst ∧ (.WorkRoot ∈ fds.map Prod.fst ↔ approved.work_base.isSome = true) ∧
      ∀ node ∈ fds.map Prod.fst, node = .ProjectRoot ∨ node = .WorkRoot := by
  unfold open_roots at h
  obtain ⟨_, _, h⟩ := bind_eq_ok_iff.mp h
  split at h
  · rename_i hnone
    rw [pure_eq_ok_iff] at h
    simp [← h, hnone]
  · rename_i hsome
    obtain ⟨_, _, h⟩ := bind_eq_ok_iff.mp h
    rw [pure_eq_ok_iff] at h
    simp [← h, hsome]

/-- After its construction a table knows of every directory whether it is reached. -/
theorem build_descriptor_table_reachability {project_root_fd work_fd : Inode} {built : Descended} {d d' : Disk}
    (htree : DirectoryTree (executed approved))
    (hwork : ∀ entry ∈ (executed approved).directories, entry.node = .WorkRoot → approved.work_base.isSome = true)
    (hrun : (build_descriptor_table approved mounts project_root_fd work_fd).Completes d built d') :
    Reachability (executed approved) built.table := by
  unfold build_descriptor_table at hrun
  obtain ⟨paths, _, _, hrun⟩ := Prog.completes_bind_iff.mp hrun
  obtain ⟨fds, _, hfds, hrun⟩ := Prog.completes_bind_iff.mp hrun
  obtain ⟨order, _, horder, hrun⟩ := Prog.completes_bind_iff.mp hrun
  obtain ⟨descent, _, hdescent, hrun⟩ := Prog.completes_bind_iff.mp hrun
  rw [Prog.completes_pure_iff] at hrun
  obtain ⟨rfl, -⟩ := hrun
  rw [completes_lifted_iff] at hfds horder
  obtain ⟨hroot, hworkroot, hroots⟩ := open_roots_eq_ok hfds.1
  obtain ⟨hnodup, hmem⟩ := mem_walk_order htree horder.1
  have hstart : Descending (executed approved) (fds.map Prod.fst) [] { fds, stops := [], stopped_nodes := [] } :=
    { visited_covered := fun _ hnode => absurd hnode List.not_mem_nil
      opened_visited := fun _ hnode => .inl hnode
      roots_opened := fun _ hnode => hnode
      stopped_visited := fun _ hnode => absurd hnode List.not_mem_nil
      stopped_planned := fun _ hnode => absurd hnode List.not_mem_nil
      stopped_unopened := fun _ hnode => absurd hnode List.not_mem_nil
      stopped_below := fun _ hnode => absurd hnode List.not_mem_nil
      stop_stopped := fun _ hitem => absurd hitem List.not_mem_nil
      stops_nodup := List.nodup_nil
      stop_parent := fun _ hitem => absurd hitem List.not_mem_nil
      parent_opened := fun edge hedge hnode => by
        obtain hproject | hwork := hroots _ hnode
        · exact absurd hproject (htree.root_edge edge hedge)
        · rw [htree.work_edge edge hedge hwork]
          exact hroot }
  have hend := hstart.run htree (fun node hnode => ?_) (by simpa using hnodup) hdescent
  swap
  · obtain ⟨hdirectory, hproject, hwork⟩ := (hmem node).mp hnode
    exact ⟨hdirectory, hwork, fun hmem => (hroots node hmem).elim hproject hwork⟩
  rw [List.nil_append] at hend
  have hstopped : DescriptorTable.stopped ⟨descent.fds, descent.stops.map Prod.fst,
      closure (executed approved) descent.stopped_nodes⟩ = descent.stops.map fun item => item.1.node := by
    rw [DescriptorTable.stopped, List.map_map]
    rfl
  -- a directory that is no root has been visited
  have hvisited : ∀ entry ∈ (executed approved).directories, entry.node ∈ descent.fds.map Prod.fst ∨
      entry.node ∈ descent.stopped_nodes := by
    intro entry hentry
    by_cases hproject : entry.node = .ProjectRoot
    · exact .inl (hproject ▸ hend.roots_opened _ hroot)
    · by_cases hworknode : entry.node = .WorkRoot
      · exact .inl (hworknode ▸ hend.roots_opened _ (hworkroot.mpr (hwork entry hentry hworknode)))
      · exact hend.visited_covered _ ((hmem _).mpr ⟨⟨entry, hentry, rfl⟩, hproject, hworknode⟩)
  constructor
  · intro node
    rw [mem_closure_iff, hstopped]
    constructor
    · exact fun hbelow => hbelow.mono hend.stopped_below
    · refine fun hbelow => hbelow.mono fun x hx => .start ?_
      obtain ⟨item, hitem, rfl⟩ := List.mem_map.mp hx
      exact hend.stop_stopped item hitem
  · rw [hstopped]
    exact hend.stops_nodup
  · intro node hnode
    rw [hstopped] at hnode
    obtain ⟨item, hitem, rfl⟩ := List.mem_map.mp hnode
    exact hend.stopped_planned _ (hend.stop_stopped item hitem)
  · intro node hnode
    rw [hstopped] at hnode
    obtain ⟨item, hitem, rfl⟩ := List.mem_map.mp hnode
    exact hend.stop_parent item hitem
  · intro node hnode
    rw [hstopped] at hnode
    obtain ⟨item, hitem, rfl⟩ := List.mem_map.mp hnode
    exact hend.stopped_unopened _ (hend.stop_stopped item hitem)
  · exact hend.parent_opened
  · intro entry hentry _
    rw [hstopped]
    exact (hvisited entry hentry).imp_right (hend.stopped_below _)
  · intro entry hentry hexisting
    refine (hvisited entry hentry).resolve_right fun hmem => ?_
    obtain ⟨found, hfound, hnode, hplanned⟩ := hend.stopped_planned _ hmem
    rw [List.inj_on_of_nodup_map htree.directories_nodup hfound hentry hnode, hexisting] at hplanned
    cases hplanned
  · intro entry hentry hworknode
    exact hworknode ▸ hend.roots_opened _ (hworkroot.mpr (hwork entry hentry hworknode))

end

/-- Adoptions one after another, each followed by the registration of the adopted node's planned children. -/
inductive Adoptions (approved : ProjectApprovedSpec) : DescriptorTable → DescriptorTable → Prop
  | none (table : DescriptorTable) : Adoptions approved table table
  | next {table before adopted after : DescriptorTable} {node : TopologyNode} {fd : Inode}
      (h : Adoptions approved table before) (hadopt : before.adopt node fd = .ok adopted)
      (hregister : register_planned_children adopted approved node = .ok after) : Adoptions approved table after

theorem Reachability.adoptions {approved : ProjectApprovedSpec} {table table' : DescriptorTable}
    (htree : DirectoryTree approved) (h : Reachability approved table) (hrun : Adoptions approved table table') :
    Reachability approved table' := by
  induction hrun with
  | none => exact h
  | next _ hadopt hregister ih => exact ih.adopt_register htree hadopt hregister

omit [UnicodeData] in
theorem opened_iff {table : DescriptorTable} {node : TopologyNode} :
    node ∈ table.opened ↔ ∃ fd, table.fd_for node = .ok fd := by
  unfold DescriptorTable.opened DescriptorTable.fd_for
  rw [List.mem_map, ← find_key_isSome_iff]
  cases find_key Prod.fst table.fds node with
  | none => simp [protocol_error]
  | some item => simp

/-- After construction, and after any adoptions, a table stays closed: the unreachable nodes are those at or below a
stop, a planned directory has a descriptor or is unreachable but not both, a node has one stop at most, and the parent
of every stop has a descriptor. -/
theorem descriptor_table_closed [Sha256] {compiled : CompiledSpec} {context : ProjectContext}
    {recovery_evidence : Option ApprovalEvidence} {approved : fs.ProjectApprovedSpec} {mounts : Mounts}
    {project_root_fd work_fd : Inode} {built : Descended} {d d' : Disk} {table : DescriptorTable}
    (happrove : approve compiled context recovery_evidence = .ok approved) (habsent : PlannedAbsent approved context.tree)
    (hbuild : (build_descriptor_table approved mounts project_root_fd work_fd).Completes d built d')
    (hrun : Adoptions (executed approved) built.table table) :
    (∀ node, table.is_unreachable node = true ↔ Below TopologyParent.node TopologyParent.parent approved.topology.parents
        (table.stops.map WalkStop.node) node) ∧
      (∀ entry ∈ approved.directories, entry.planned = true →
        ((∃ fd, table.fd_for entry.node = .ok fd) ↔ ¬ table.is_unreachable entry.node = true)) ∧
      (table.stops.map WalkStop.node).Nodup ∧
      ∀ stop ∈ table.stops, ∃ parent fd, parent_of (executed approved) stop.node = .ok parent ∧
        table.fd_for parent = .ok fd := by
  obtain ⟨prefixes, facts, node, resolved, happroval⟩ := approve_eq_ok happrove
  have htree := directory_tree happroval habsent
  have hwork : ∀ entry ∈ (executed approved).directories, entry.node = .WorkRoot → approved.work_base.isSome = true := by
    intro entry hentry hnode
    obtain ⟨found, hfound, rfl⟩ := List.mem_map.mp hentry
    obtain ⟨_, _, hwork⟩ | ⟨lead, hlead, hsame, _⟩ :=
      happroval.built.mem_directories found (happroval.directories ▸ hfound)
    · exact hwork
    · have hplain := happroval.built.facts_of.plain (consistent_of_resolved happroval.resolved_over) hlead
      exact absurd (hsame.symm.trans hnode) (happroval.built.naming.ne_work hplain hlead)
  have hreach := (build_descriptor_table_reachability htree hwork hbuild).adoptions htree hrun
  refine ⟨fun node => ?_, fun entry hentry hplanned => ?_, hreach.stopped_nodup, fun stop hstop => ?_⟩
  · rw [DescriptorTable.is_unreachable, decide_eq_true_eq, hreach.unreachable_iff]
    rfl
  · rw [← opened_iff, DescriptorTable.is_unreachable, decide_eq_true_eq, hreach.unreachable_iff]
    constructor
    · exact fun hopened hbelow => hreach.not_below hbelow hopened
    · exact fun hreached => (hreach.planned_covered _ (List.mem_map_of_mem hentry) hplanned).resolve_right hreached
  · obtain ⟨parent, hparent, hedge⟩ := hreach.stopped_parent stop.node (List.mem_map_of_mem hstop)
    obtain ⟨fd, hfd⟩ := opened_iff.mp hparent
    exact ⟨parent, fd, (parent_of_eq_ok_iff htree).mpr hedge, hfd⟩

end

/-! A spec that creates a directory in a directory that it creates. -/

section

@[reducible] def nested_digest : Sha256 := ⟨fun _ => "e3b0c44298fc1c149afbf4c8996fb92427ae41e4649b934ca495991b7852b855"⟩

attribute [local instance] journal.ascii nested_digest

def nested_directories_spec : TransactionSpec where
  schema_version := 2
  consumer_tag := "tag"
  intent_digest := "sha256:0000000000000000000000000000000000000000000000000000000000000000"
  initial_surface := [⟨"a", ABSENT⟩, ⟨"a/b", ABSENT⟩, ⟨"a/b/c", ABSENT⟩]
  final_surface := [⟨"a", .DirectoryState ⟨0o755⟩⟩, ⟨"a/b", .DirectoryState ⟨0o755⟩⟩, ⟨"a/b/c", .DirectoryState ⟨0o755⟩⟩]
  effects := [.CreateDirectory ⟨"e1", "a", ⟨0o755⟩⟩, .CreateDirectory ⟨"e2", "a/b", ⟨0o755⟩⟩,
    .CreateDirectory ⟨"e3", "a/b/c", ⟨0o755⟩⟩]
  dependencies := []
  fulfills := none
  registered_paths := []

def nested_directories : CompiledSpec where
  spec := nested_directories_spec
  timelines := [⟨"a", [⟨"e1", 0, "target", ABSENT, .DirectoryState ⟨0o755⟩⟩]⟩,
    ⟨"a/b", [⟨"e2", 1, "target", ABSENT, .DirectoryState ⟨0o755⟩⟩]⟩,
    ⟨"a/b/c", [⟨"e3", 2, "target", ABSENT, .DirectoryState ⟨0o755⟩⟩]⟩]
  issued := ⟨nested_directories_spec, by decide +kernel, by decide +kernel⟩

/-- A project root with nothing in it. -/
def bare_tree : ProjectTree where
  entry lead := if lead = [] then some ⟨.DIRECTORY, ⟨1, 1⟩, ⟨.EXACT_BYTES, 255⟩⟩ else none
  root_is_directory := rfl
  parent_is_directory lead name h := by simp at h
  one_name left right l r hl hr _ _ _ := by
    split at hl <;> split at hr <;> simp_all

def bare_context : ProjectContext where
  tree := bare_tree
  metadata_identity := ⟨1, 2⟩
  path_max := 4096
  filesystem_type := "ext4"
  work_base := ⟨⟨1, 3⟩, ⟨.EXACT_BYTES, 255⟩⟩
  mount_id := 1
  txid := "t1"

def bare_mounts : Mounts where
  device := 1
  mount_id := 1
  read_mount_id _ := 1
  read_lookup_constraints _ := pure ⟨.EXACT_BYTES, 255⟩

def bare_disk : Disk where
  entries := ⟨[], []⟩
  contents := ⟨[], []⟩
  modes := ⟨[], []⟩
  next := 5
  umask := 0o022
  short_writes := []

/-- Once the outer directory is adopted, the inner one is the stop. -/
theorem nested_directories_closed : ∃ approved built adopted table,
    approve nested_directories bare_context none = .ok approved ∧
    (∃ d, (build_descriptor_table approved bare_mounts 1 4).Completes bare_disk built d) ∧
    built.table.adopt (.PersistentNode "a") 5 = .ok adopted ∧
    register_planned_children adopted (executed approved) (.PersistentNode "a") = .ok table ∧
    (table.stops.map WalkStop.node).Nodup := by
  have hruns : ((approve nested_directories bare_context none).toOption.any fun approved =>
      (approved.directories.all fun entry => !entry.planned || approved.directory_paths.all fun route =>
        route.2 ≠ entry.node || route.1 ≠ []) &&
      ((build_descriptor_table approved bare_mounts 1 4).run bare_disk).result.toOption.any fun built =>
        (built.table.adopt (.PersistentNode "a") 5).toOption.any fun adopted =>
          (register_planned_children adopted (executed approved) (.PersistentNode "a")).toOption.isSome) = true := by
    decide +kernel
  obtain ⟨approved, happrove, hruns⟩ := (Option.any_eq_true _ _).mp hruns
  obtain ⟨hall, hruns⟩ := Bool.and_eq_true_iff.mp hruns
  obtain ⟨built, hbuilt, hruns⟩ := (Option.any_eq_true _ _).mp hruns
  obtain ⟨adopted, hadopt, hruns⟩ := (Option.any_eq_true _ _).mp hruns
  obtain ⟨table, htable⟩ := Option.isSome_iff_exists.mp hruns
  rw [toOption_eq_some_iff] at happrove hbuilt hadopt htable
  have habsent : PlannedAbsent approved bare_context.tree := by
    intro entry hentry hplanned route hroute hnode identity hat
    obtain ⟨found, hfound, _⟩ := hat
    have hentry := List.all_eq_true.mp hall entry hentry
    rw [hplanned, Bool.not_true, Bool.false_or] at hentry
    have hroute := List.all_eq_true.mp hentry route hroute
    have hlead : route.1 ≠ [] := by simpa [hnode] using hroute
    simp [bare_context, bare_tree, hlead] at hfound
  have hbuild := Prog.completes_final hbuilt
  have hrun : Adoptions (executed approved) built.table table := .next (.none _) hadopt htable
  obtain ⟨_, _, hnodup, _⟩ := descriptor_table_closed happrove habsent hbuild hrun
  exact ⟨approved, built, adopted, table, happrove, ⟨_, hbuild⟩, hadopt, htable, hnodup⟩

end

end atoms.coordinator

import Atoms.Core.Compiler.Facts
import Atoms.Library.Closure
import Atoms.Recovery.Topology

open atoms.errors atoms.fingerprint atoms.effects atoms.compiler atoms.spec checked closure keyed

namespace atoms.recovery.topology

/-! The worklist loop. -/

/-- Where the loop stands. -/
structure Visiting where
  indegree : TopologyNode → Int
  worklist : List TopologyNode
  visited : List TopologyNode

namespace Visiting

/-- One turn. -/
def next (edges : List TopologyParent) (visiting : Visiting) : Visiting :=
  match visiting.worklist with
  | [] => visiting
  | node :: worklist =>
    if node ∈ visiting.visited then { visiting with worklist }
    else
      { indegree := (release visiting.indegree worklist (children_of edges node)).1
        worklist := (release visiting.indegree worklist (children_of edges node)).2
        visited := node :: visiting.visited }

/-- The edges whose parents have not been visited. -/
def unfollowed (edges : List TopologyParent) (visiting : Visiting) : List TopologyParent :=
  edges.filter fun edge => edge.parent ∉ visiting.visited

end Visiting

open Visiting

theorem visit_eq_iterate (edges : List TopologyParent) (fuel : Nat) (visiting : Visiting) :
    visit edges fuel visiting.indegree visiting.worklist visiting.visited = ((next edges)^[fuel] visiting).visited := by
  induction fuel generalizing visiting with
  | zero =>
    obtain ⟨indegree, worklist, visited⟩ := visiting
    cases worklist <;> rfl
  | succ fuel ih =>
    rw [Function.iterate_succ_apply, ← ih]
    obtain ⟨indegree, worklist, visited⟩ := visiting
    cases worklist with
    | nil =>
      simp only [next]
      cases fuel <;> rfl
    | cons node worklist =>
      rw [visit]
      by_cases hvisited : node ∈ visited
      · simp only [next, if_pos hvisited]
      · simp only [next, if_neg hvisited]

theorem length_release_le (indegree : TopologyNode → Int) (worklist children : List TopologyNode) :
    (release indegree worklist children).2.length ≤ worklist.length + children.length := by
  induction children generalizing indegree worklist with
  | nil => exact Nat.le_refl _
  | cons child rest ih =>
    rw [release, List.length_cons]
    refine (ih _ _).trans ?_
    split
    · rw [List.length_cons]
      omega
    · omega

/-- The edges that a node's visit follows are those to its children. -/
theorem length_unfollowed (edges : List TopologyParent) {node : TopologyNode} {visited : List TopologyNode}
    (h : node ∉ visited) : (edges.filter fun edge => edge.parent ∉ node :: visited).length +
      (children_of edges node).length = (edges.filter fun edge => edge.parent ∉ visited).length := by
  rw [children_of, List.length_map]
  induction edges with
  | nil => rfl
  | cons edge rest ih =>
    simp only [List.filter_cons, List.mem_cons, not_or, decide_eq_true_eq] at ih ⊢
    by_cases hparent : edge.parent = node
    · have hfresh : edge.parent ∉ visited := hparent ▸ h
      simp only [hparent, h, not_true_eq_false, not_false_eq_true, false_and, if_false, if_true, List.length_cons]
      omega
    · by_cases hseen : edge.parent ∈ visited
      · simp only [hparent, hseen, not_true_eq_false, and_false, if_false]
        exact ih
      · simp only [hparent, hseen, not_false_eq_true, and_self, if_false, if_true, List.length_cons]
        omega

/-- A turn takes something off: a node of the worklist, or the edges that lead out of one. -/
theorem next_decreases {edges : List TopologyParent} {visiting : Visiting} (h : visiting.worklist ≠ []) :
    (visiting.next edges).worklist.length + ((visiting.next edges).unfollowed edges).length <
      visiting.worklist.length + (visiting.unfollowed edges).length := by
  obtain ⟨indegree, worklist, visited⟩ := visiting
  obtain ⟨node, worklist, rfl⟩ := List.exists_cons_of_ne_nil h
  by_cases hvisited : node ∈ visited
  · simp only [next, if_pos hvisited, unfollowed, List.length_cons]
    omega
  · simp only [next, if_neg hvisited, unfollowed, List.length_cons]
    have hreleased := length_release_le indegree worklist (children_of edges node)
    have hsplit := length_unfollowed edges hvisited
    omega

/-- On every graph the loop ends: after that many turns nothing is left to visit. -/
theorem iterate_next_ends {edges : List TopologyParent} {visiting : Visiting} {turns : Nat}
    (h : visiting.worklist.length + (visiting.unfollowed edges).length ≤ turns) :
    ((next edges)^[turns] visiting).worklist = [] := by
  induction turns generalizing visiting with
  | zero =>
    rw [Function.iterate_zero_apply]
    exact List.length_eq_zero_iff.mp (by omega)
  | succ turns ih =>
    rw [Function.iterate_succ_apply]
    by_cases hend : visiting.worklist = []
    · have hstays : visiting.next edges = visiting := by
        rw [next, hend]
      have hlast : ∀ n, ((next edges)^[n] visiting) = visiting := fun n => Function.iterate_fixed hstays n
      rw [hstays, hlast, hend]
    · have hless : (visiting.next edges).worklist.length + ((visiting.next edges).unfollowed edges).length <
          visiting.worklist.length + (visiting.unfollowed edges).length := next_decreases hend
      exact ih (by omega)

/-! What the loop visits. -/

/-- Every child with one incoming edge left is pushed. -/
theorem release_eq {indegree : TopologyNode → Int} {worklist children : List TopologyNode} (hnodup : children.Nodup)
    (hone : ∀ child ∈ children, indegree child = 1) : release indegree worklist children =
      (fun node => if node ∈ children then 0 else indegree node, children.reverse ++ worklist) := by
  induction children generalizing indegree worklist with
  | nil => simp [release]
  | cons child rest ih =>
    obtain ⟨hnew, hrest⟩ := List.nodup_cons.mp hnodup
    have hzero : Function.update indegree child (indegree child - 1) child = 0 := by
      rw [Function.update_self, hone child List.mem_cons_self]
      rfl
    have hothers : ∀ other ∈ rest, Function.update indegree child (indegree child - 1) other = 1 := by
      intro other hother
      have hne : other ≠ child := fun heq => hnew (heq ▸ hother)
      rw [Function.update_of_ne hne]
      exact hone other (List.mem_cons_of_mem _ hother)
    rw [release]
    simp only [if_pos hzero]
    rw [ih hrest hothers, List.reverse_cons, List.append_assoc, List.singleton_append]
    congr 1
    funext node
    by_cases hnode : node = child
    · subst hnode
      simp [hone node List.mem_cons_self]
    · simp [hnode, Function.update_of_ne]

/-- What has been visited, what is still to visit, and which edges have not been followed. -/
structure Visits (edges : List TopologyParent) (visiting : Visiting) : Prop where
  counted : ∀ edge ∈ edges, visiting.indegree edge.node = if edge.parent ∈ visiting.visited then 0 else 1
  reached : ∀ node, node ∈ visiting.worklist ∨ node ∈ visiting.visited →
    Below TopologyParent.node TopologyParent.parent edges [.ProjectRoot] node
  followed : ∀ edge ∈ edges, edge.parent ∈ visiting.visited →
    edge.node ∈ visiting.worklist ∨ edge.node ∈ visiting.visited
  started : .ProjectRoot ∈ visiting.worklist ∨ .ProjectRoot ∈ visiting.visited

theorem mem_children_of {edges : List TopologyParent} {node child : TopologyNode} :
    child ∈ children_of edges node ↔ ⟨child, node⟩ ∈ edges := by
  rw [children_of, List.mem_map]
  constructor
  · rintro ⟨edge, hedge, rfl⟩
    obtain ⟨hedge, hparent⟩ := List.mem_filter.mp hedge
    rw [decide_eq_true_eq] at hparent
    exact hparent ▸ hedge
  · exact fun h => ⟨_, List.mem_filter.mpr ⟨h, decide_eq_true rfl⟩, rfl⟩

/-- A turn. -/
theorem Visits.next {edges : List TopologyParent} {visiting : Visiting} (h : Visits edges visiting)
    (hnodup : (edges.map TopologyParent.node).Nodup) : Visits edges (visiting.next edges) := by
  obtain ⟨indegree, worklist, visited⟩ := visiting
  obtain ⟨hcounted, hreached, hfollowed, hstarted⟩ := h
  cases worklist with
  | nil => exact ⟨hcounted, hreached, hfollowed, hstarted⟩
  | cons node worklist =>
    by_cases hvisited : node ∈ visited
    · rw [Visiting.next]
      simp only [if_pos hvisited]
      refine ⟨hcounted, fun other hother => hreached other (hother.imp_left (List.mem_cons_of_mem _)),
        fun edge hedge hparent => ?_, ?_⟩
      · obtain hmem | hmem := hfollowed edge hedge hparent
        · obtain heq | hmem := List.mem_cons.mp hmem
          · exact .inr (heq ▸ hvisited)
          · exact .inl hmem
        · exact .inr hmem
      · obtain hmem | hmem := hstarted
        · obtain heq | hmem := List.mem_cons.mp hmem
          · exact .inr (heq ▸ hvisited)
          · exact .inl hmem
        · exact .inr hmem
    · have hone : ∀ child ∈ children_of edges node, indegree child = 1 := by
        intro child hchild
        have hcount := hcounted _ (mem_children_of.mp hchild)
        rwa [if_neg hvisited] at hcount
      have hchildren : (children_of edges node).Nodup := hnodup.sublist (List.filter_sublist.map _)
      rw [Visiting.next]
      simp only [if_neg hvisited, release_eq hchildren hone]
      refine ⟨fun edge hedge => ?_, fun other hother => ?_, fun edge hedge hparent => ?_, ?_⟩
      · -- an edge has been followed now exactly when its node is a child of this node
        have hchild : edge.node ∈ children_of edges node ↔ edge.parent = node := by
          rw [mem_children_of]
          constructor
          · intro hmem
            exact congrArg TopologyParent.parent (List.inj_on_of_nodup_map hnodup hedge hmem rfl)
          · rintro rfl
            exact hedge
        simp only [hchild, List.mem_cons]
        by_cases hparent : edge.parent = node
        · simp [hparent]
        · simp only [hparent, if_false, false_or]
          exact hcounted edge hedge
      · simp only [List.mem_append, List.mem_reverse, List.mem_cons] at hother
        obtain (hchild | hother) | rfl | hother := hother
        · exact .step (mem_children_of.mp hchild) (hreached node (.inl List.mem_cons_self))
        · exact hreached other (.inl (List.mem_cons_of_mem _ hother))
        · exact hreached _ (.inl List.mem_cons_self)
        · exact hreached other (.inr hother)
      · simp only [List.mem_append, List.mem_reverse, List.mem_cons] at hparent ⊢
        obtain hnode | hparent := hparent
        · exact .inl (.inl (mem_children_of.mpr (hnode ▸ hedge)))
        · obtain hmem | hmem := hfollowed edge hedge hparent
          · obtain heq | hmem := List.mem_cons.mp hmem
            · exact .inr (.inl heq)
            · exact .inl (.inr hmem)
          · exact .inr (.inr hmem)
      · simp only [List.mem_append, List.mem_reverse, List.mem_cons] at hstarted ⊢
        obtain (heq | hmem) | hmem := hstarted
        · exact .inr (.inl heq)
        · exact .inl (.inr hmem)
        · exact .inr (.inr hmem)

theorem Visits.iterate {edges : List TopologyParent} {visiting : Visiting} (h : Visits edges visiting)
    (hnodup : (edges.map TopologyParent.node).Nodup) (turns : Nat) :
    Visits edges ((Visiting.next edges)^[turns] visiting) := by
  induction turns generalizing visiting with
  | zero => exact h
  | succ turns ih =>
    rw [Function.iterate_succ_apply]
    exact ih (h.next hnodup)

/-- The start of the loop. -/
def visiting_start (edges : List TopologyParent) : Visiting where
  indegree node := if node ∈ edges.map TopologyParent.node then 1 else 0
  worklist := [.ProjectRoot]
  visited := []

/-- The end of the loop. -/
def visiting_end (edges : List TopologyParent) : Visiting :=
  (Visiting.next edges)^[edges.length + 1] (visiting_start edges)

theorem visiting_end_worklist (edges : List TopologyParent) : (visiting_end edges).worklist = [] := by
  refine iterate_next_ends ?_
  have hlength := List.length_filter_le (fun edge => edge.parent ∉ (visiting_start edges).visited) edges
  simp only [unfollowed]
  simp only [visiting_start, List.length_singleton] at hlength ⊢
  omega

/-- The loop visits what is reached from the project root. -/
theorem mem_visiting_end_iff {edges : List TopologyParent} (hnodup : (edges.map TopologyParent.node).Nodup)
    (node : TopologyNode) : node ∈ (visiting_end edges).visited ↔
      Below TopologyParent.node TopologyParent.parent edges [.ProjectRoot] node := by
  have hstart : Visits edges (visiting_start edges) :=
    { counted := fun edge hedge => by
        have hmem : edge.node ∈ edges.map TopologyParent.node := List.mem_map_of_mem hedge
        simp only [visiting_start, if_pos hmem, List.not_mem_nil, if_false]
      reached := fun node hnode => .start (hnode.resolve_right List.not_mem_nil)
      followed := fun _ _ hparent => absurd hparent List.not_mem_nil
      started := .inl (List.mem_singleton_self _) }
  have hend : Visits edges (visiting_end edges) := hstart.iterate hnodup _
  have hworklist := visiting_end_worklist edges
  constructor
  · exact fun hnode => hend.reached node (.inr hnode)
  · intro hbelow
    induction hbelow with
    | start hroot =>
      have hvisited := hend.started
      rw [hworklist] at hvisited
      rw [List.mem_singleton.mp hroot]
      exact hvisited.resolve_left List.not_mem_nil
    | step hedge _ ih =>
      have hvisited := hend.followed _ hedge ih
      rw [hworklist] at hvisited
      exact hvisited.resolve_left List.not_mem_nil

/-! Rooted trees. -/

theorem require_edges_eq_ok_iff {seen : List TopologyNode} {edges : List TopologyParent} :
    require_edges seen edges = .ok () ↔ (∀ edge ∈ edges, edge.node ≠ edge.parent ∧ edge.node ≠ .ProjectRoot) ∧
      (edges.map TopologyParent.node).Nodup ∧ ∀ edge ∈ edges, edge.node ∉ seen := by
  induction edges generalizing seen with
  | nil => simp [require_edges]
  | cons edge rest ih =>
    rw [require_edges]
    simp only [bind_eq_ok_iff, require_eq_ok_iff, ih, List.forall_mem_cons, List.map_cons, List.nodup_cons]
    constructor
    · rintro ⟨_, hself, _, hroot, _, hnew, hrest, hnodup, hseen⟩
      refine ⟨⟨⟨hself, hroot⟩, hrest⟩, ⟨fun hmem => ?_, hnodup⟩, hnew, fun other hother hmem => ?_⟩
      · obtain ⟨other, hother, hnode⟩ := List.mem_map.mp hmem
        exact hseen other hother (hnode ▸ List.mem_cons_self)
      · exact hseen other hother (List.mem_cons_of_mem _ hmem)
    · rintro ⟨⟨⟨hself, hroot⟩, hrest⟩, ⟨hfresh, hnodup⟩, hnew, hseen⟩
      refine ⟨(), hself, (), hroot, (), hnew, hrest, hnodup, fun other hother hmem => ?_⟩
      obtain heq | hmem := List.mem_cons.mp hmem
      · exact hfresh (heq ▸ List.mem_map_of_mem hother)
      · exact hseen other hother hmem

theorem parent_of_eq_some_iff {edges : List TopologyParent} (hnodup : (edges.map TopologyParent.node).Nodup)
    {node parent : TopologyNode} : parent_of edges node = some parent ↔ ⟨node, parent⟩ ∈ edges := by
  rw [parent_of, Option.map_eq_some_iff]
  simp only [find_key_eq_some_iff hnodup]
  constructor
  · rintro ⟨edge, ⟨hedge, rfl⟩, rfl⟩
    exact hedge
  · exact fun h => ⟨_, ⟨h, rfl⟩, rfl⟩

theorem mem_nodes_of {edges : List TopologyParent} {node : TopologyNode} :
    node ∈ nodes_of edges ↔ ∃ edge ∈ edges, node = edge.node ∨ node = edge.parent := by
  simp [nodes_of]

theorem mem_filterMap_iff {α β : Type} {f : α → Option β} (make : β → α) (h : ∀ a b, f a = some b ↔ a = make b)
    {items : List α} {b : β} : b ∈ items.filterMap f ↔ make b ∈ items := by
  simp [List.mem_filterMap, h]

section

variable [UnicodeData]

/-- The edges are a tree with the project root for its root, whose persistent and scratch nodes are those of the spec,
each in its place. -/
structure RootedTree (compiled : CompiledSpec) (edges : List TopologyParent) : Prop where
  root_parentless : ∀ edge ∈ edges, edge.node ≠ .ProjectRoot
  one_parent : ∀ node ∈ nodes_of edges, node ≠ .ProjectRoot → (edges.map TopologyParent.node).count node = 1
  reached : ∀ node ∈ nodes_of edges, Below TopologyParent.node TopologyParent.parent edges [.ProjectRoot] node
  persistent : ∀ path, .PersistentNode path ∈ nodes_of edges ↔ path ∈ compiled.paths
  scratch : ∀ effect_id role, .ScratchNode effect_id role ∈ nodes_of edges ↔
    ∃ effect ∈ compiled.effects, effect.effect_id = effect_id ∧ required_scratch_role effect = role
  work_root : ∀ edge ∈ edges, edge.node = .WorkRoot → edge.parent = .ProjectRoot
  work_scratch : ∀ effect ∈ compiled.effects, required_scratch_role effect = .WORK →
    ⟨scratch_node effect, .WorkRoot⟩ ∈ edges
  shared_parent : ∀ effect ∈ compiled.effects, ∀ path, scratch_sibling effect = some path →
    ∀ parent, ⟨scratch_node effect, parent⟩ ∈ edges ↔ ⟨.PersistentNode path, parent⟩ ∈ edges

/-- No scratch but that of a directory hangs off the work root. -/
def ScratchApart (compiled : CompiledSpec) (edges : List TopologyParent) : Prop :=
  ∀ effect ∈ compiled.effects, required_scratch_role effect ≠ .WORK → ⟨scratch_node effect, .WorkRoot⟩ ∉ edges

variable {compiled : CompiledSpec} {edges : List TopologyParent}

namespace RootedTree

theorem nodup (h : RootedTree compiled edges) : (edges.map TopologyParent.node).Nodup := by
  rw [List.nodup_iff_count_le_one]
  intro node
  by_cases hmem : node ∈ edges.map TopologyParent.node
  · obtain ⟨edge, hedge, rfl⟩ := List.mem_map.mp hmem
    exact (h.one_parent _ (mem_nodes_of.mpr ⟨edge, hedge, .inl rfl⟩) (h.root_parentless edge hedge)).le
  · rw [List.count_eq_zero_of_not_mem hmem]
    exact Nat.zero_le _

/-- What is reached from the root is not its own parent. -/
theorem no_self_parent (h : RootedTree compiled edges) : ∀ edge ∈ edges, edge.node ≠ edge.parent := by
  intro self hself hloop
  have hnot : ∀ node, Below TopologyParent.node TopologyParent.parent edges [.ProjectRoot] node → node ≠ self.node := by
    intro node hbelow
    induction hbelow with
    | start hroot =>
      rw [List.mem_singleton.mp hroot]
      exact (h.root_parentless self hself).symm
    | @step edge hedge _ ih =>
      intro heq
      obtain rfl : edge = self := List.inj_on_of_nodup_map h.nodup hedge hself heq
      exact ih hloop.symm
  exact hnot _ (h.reached _ (mem_nodes_of.mpr ⟨self, hself, .inl rfl⟩)) rfl

/-- The root is among the nodes: something is. -/
theorem root_mem (h : RootedTree compiled edges) (hne : edges ≠ []) : .ProjectRoot ∈ nodes_of edges := by
  have hroot : ∀ node, Below TopologyParent.node TopologyParent.parent edges [.ProjectRoot] node → node ≠ .ProjectRoot →
      .ProjectRoot ∈ nodes_of edges := by
    intro node hbelow
    induction hbelow with
    | start hstart => exact fun hnode => absurd (List.mem_singleton.mp hstart) hnode
    | @step edge hedge _ ih =>
      intro _
      by_cases hparent : edge.parent = .ProjectRoot
      · exact mem_nodes_of.mpr ⟨edge, hedge, .inr hparent.symm⟩
      · exact ih hparent
  obtain ⟨edge, hedge⟩ := List.exists_mem_of_ne_nil edges hne
  exact hroot _ (h.reached _ (mem_nodes_of.mpr ⟨edge, hedge, .inl rfl⟩)) (h.root_parentless edge hedge)

end RootedTree

/-- What an accepted topology satisfies, check by check. -/
theorem validate_topology_eq_ok_iff {topology : RecoveryTopology} : validate_topology compiled topology = .ok () ↔
    require_edges [] topology.parents = .ok () ∧ .ProjectRoot ∈ nodes_of topology.parents ∧
      (∀ node ∈ nodes_of topology.parents, node = .ProjectRoot ∨ node ∈ topology.parents.map TopologyParent.node) ∧
      (∀ parent ∈ parent_of topology.parents .WorkRoot, parent = .ProjectRoot) ∧
      (∀ path, .PersistentNode path ∈ nodes_of topology.parents ↔ path ∈ compiled.paths) ∧
      (∀ effect_id role, .ScratchNode effect_id role ∈ nodes_of topology.parents ↔
        (effect_id, role) ∈ compiled.effects.map scratch_key) ∧
      (∀ effect ∈ compiled.effects, require_scratch_parent topology.parents effect = .ok ()) ∧
      (∀ effect ∈ compiled.effects, require_shared_parent topology.parents effect = .ok ()) ∧
      ∀ node, node ∈ (visiting_end topology.parents).visited ↔ node ∈ nodes_of topology.parents := by
  have hvisit : visit topology.parents (topology.parents.length + 1)
      (fun node => if node ∈ topology.parents.map TopologyParent.node then (1 : Int) else 0) [.ProjectRoot] [] =
        (visiting_end topology.parents).visited :=
    visit_eq_iterate topology.parents (topology.parents.length + 1) (visiting_start topology.parents)
  simp only [validate_topology, bind_eq_ok_iff, require_eq_ok_iff, forM_eq_ok_iff, exists_const, hvisit, set_eq_iff]
  refine Unique.exists_iff.trans (and_congr_right fun _ => and_congr_right fun _ => and_congr_right fun _ =>
    and_congr_right fun _ => and_congr (forall_congr' fun path => ?_) (and_congr ?_ Iff.rfl))
  · rw [mem_filterMap_iff TopologyNode.PersistentNode fun node path => by cases node <;> simp]
  · rw [Prod.forall]
    refine forall_congr' fun effect_id => forall_congr' fun role => ?_
    rw [mem_filterMap_iff (fun key => TopologyNode.ScratchNode key.1 key.2) fun node key => by
      cases node <;> simp [Prod.ext_iff]]

theorem exists_effect (compiled : CompiledSpec) : compiled.effects ≠ [] := by
  obtain ⟨source, hphases, _, heffects⟩ := compiled.exists_phases
  have hstructure := hphases.structure_ok
  simp only [phase1_structure, bind_eq_ok_iff, require_eq_ok_iff] at hstructure
  obtain ⟨_, _, _, _, _, _, hne⟩ := hstructure
  exact heffects ▸ hne

/-- What an accepted topology is. -/
theorem rooted_of_validated {topology : RecoveryTopology} (h : validate_topology compiled topology = .ok ()) :
    RootedTree compiled topology.parents ∧ ScratchApart compiled topology.parents := by
  obtain ⟨hedges, _, hparents, hwork, hpersistent, hscratch, hscratches, hshared, hvisited⟩ :=
    validate_topology_eq_ok_iff.mp h
  obtain ⟨hedges, hnodup, _⟩ := require_edges_eq_ok_iff.mp hedges
  refine ⟨⟨fun edge hedge => (hedges edge hedge).2, fun node hnode hne => ?_, fun node hnode => ?_, hpersistent,
    fun effect_id role => ?_, fun edge hedge hnode => ?_, fun effect heffect hrole => ?_,
    fun effect heffect path hpath parent => ?_⟩, fun effect heffect hrole => ?_⟩
  · exact List.count_eq_one_of_mem hnodup ((hparents node hnode).resolve_left hne)
  · exact (mem_visiting_end_iff hnodup node).mp ((hvisited node).mpr hnode)
  · rw [hscratch, List.mem_map]
    simp [scratch_key, Prod.ext_iff]
  · refine hwork edge.parent ((parent_of_eq_some_iff hnodup).mpr ?_)
    exact hnode ▸ hedge
  · have hcheck := hscratches effect heffect
    rw [require_scratch_parent, if_pos hrole, require_eq_ok_iff, parent_of_eq_some_iff hnodup] at hcheck
    exact hcheck
  · have hcheck := hshared effect heffect
    simp only [require_shared_parent, hpath, require_eq_ok_iff] at hcheck
    rw [← parent_of_eq_some_iff hnodup, hcheck, parent_of_eq_some_iff hnodup]
  · have hcheck := hscratches effect heffect
    rw [require_scratch_parent, if_neg hrole, require_eq_ok_iff, Ne, parent_of_eq_some_iff hnodup] at hcheck
    exact hcheck

theorem RootedTree.validated {topology : RecoveryTopology} (h : RootedTree compiled topology.parents)
    (hapart : ScratchApart compiled topology.parents) : validate_topology compiled topology = .ok () := by
  have hnodup := h.nodup
  have hne : topology.parents ≠ [] := by
    intro hempty
    obtain ⟨effect, heffect⟩ := List.exists_mem_of_ne_nil _ (exists_effect compiled)
    have hmem := (h.scratch effect.effect_id (required_scratch_role effect)).mpr ⟨effect, heffect, rfl, rfl⟩
    rw [hempty] at hmem
    exact List.not_mem_nil hmem
  rw [validate_topology_eq_ok_iff, require_edges_eq_ok_iff]
  refine ⟨⟨fun edge hedge => ⟨h.no_self_parent edge hedge, h.root_parentless edge hedge⟩, hnodup, fun _ _ =>
    List.not_mem_nil⟩, h.root_mem hne, fun node hnode => ?_, fun parent hparent => ?_, h.persistent,
    fun effect_id role => ?_, fun effect heffect => ?_, fun effect heffect => ?_, fun node => ?_⟩
  · by_cases hroot : node = .ProjectRoot
    · exact .inl hroot
    · have hcount := h.one_parent node hnode hroot
      exact .inr (List.count_pos_iff.mp (by omega))
  · exact h.work_root _ ((parent_of_eq_some_iff hnodup).mp hparent) rfl
  · rw [h.scratch, List.mem_map]
    simp [scratch_key, Prod.ext_iff]
  · rw [require_scratch_parent]
    split
    · rename_i hrole
      exact require_of ((parent_of_eq_some_iff hnodup).mpr (h.work_scratch effect heffect hrole))
    · rename_i hrole
      exact require_of fun hparent => hapart effect heffect hrole ((parent_of_eq_some_iff hnodup).mp hparent)
  · cases hpath : scratch_sibling effect with
    | none => simp [require_shared_parent, hpath]
    | some path =>
      simp only [require_shared_parent, hpath]
      refine require_of (Option.ext fun parent => ?_)
      rw [parent_of_eq_some_iff hnodup, parent_of_eq_some_iff hnodup]
      exact h.shared_parent effect heffect path hpath parent
  · rw [mem_visiting_end_iff hnodup]
    refine ⟨fun hbelow => ?_, h.reached node⟩
    cases hbelow with
    | start hroot => exact List.mem_singleton.mp hroot ▸ h.root_mem hne
    | step hedge _ => exact mem_nodes_of.mpr ⟨_, hedge, .inl rfl⟩

/-- The validation accepts the rooted trees in which no scratch but that of a directory hangs off the work root. Its loop
ends on every graph. -/
theorem validate_topology_rooted (compiled : CompiledSpec) (topology : RecoveryTopology) :
    (validate_topology compiled topology = .ok () ↔
      RootedTree compiled topology.parents ∧ ScratchApart compiled topology.parents) ∧
    (visiting_end topology.parents).worklist = [] ∧
    visit topology.parents (topology.parents.length + 1) (visiting_start topology.parents).indegree [.ProjectRoot] [] =
      (visiting_end topology.parents).visited :=
  ⟨⟨rooted_of_validated, fun h => h.1.validated h.2⟩, visiting_end_worklist _,
    visit_eq_iterate _ _ (visiting_start _)⟩

end

/-! A deletion whose path and tombstone hang off the work root. -/

section

@[reducible] def ascii_text : UnicodeData where
  nfc := id
  nfd := id
  casefold := fun text => text.map Char.toLower
  is_printable := fun c => 32 ≤ c.toNat && c.toNat < 127

attribute [local instance] ascii_text

def removed_file : FileState where
  content_hash := "sha256:0000000000000000000000000000000000000000000000000000000000000000"
  mode := 0o644
  byte_len := 1

def removal_spec : TransactionSpec where
  schema_version := 2
  consumer_tag := "tag"
  intent_digest := "sha256:0000000000000000000000000000000000000000000000000000000000000000"
  initial_surface := [⟨"a", .FileState removed_file⟩]
  final_surface := [⟨"a", ABSENT⟩]
  effects := [.DeletePath ⟨"e1", "a", .FileState removed_file⟩]
  dependencies := []
  fulfills := none
  registered_paths := []

def removal : CompiledSpec where
  spec := removal_spec
  timelines := [⟨"a", [⟨"e1", 0, "target", .FileState removed_file, ABSENT⟩]⟩]
  issued := ⟨removal_spec, by decide +kernel, by decide +kernel⟩

def below_work_root : RecoveryTopology where
  parents := [⟨.WorkRoot, .ProjectRoot⟩, ⟨.PersistentNode "a", .WorkRoot⟩, ⟨.ScratchNode "e1" .TOMBSTONE, .WorkRoot⟩]

/-- It is a rooted tree in which the tombstone shares its path's parent, and the validation refuses it. -/
theorem below_work_root_refused :
    RootedTree removal below_work_root.parents ∧ ¬ validate_topology removal below_work_root = .ok () := by
  have hroot : Below TopologyParent.node TopologyParent.parent below_work_root.parents [.ProjectRoot] .ProjectRoot :=
    .start (List.mem_singleton_self _)
  have hworkedge : ⟨.WorkRoot, .ProjectRoot⟩ ∈ below_work_root.parents := by decide
  have hpathedge : ⟨.PersistentNode "a", .WorkRoot⟩ ∈ below_work_root.parents := by decide
  have hscratchedge : ⟨.ScratchNode "e1" .TOMBSTONE, .WorkRoot⟩ ∈ below_work_root.parents := by decide
  have hwork := Below.step hworkedge hroot
  have hpath := Below.step hpathedge hwork
  have hscratch := Below.step hscratchedge hwork
  refine ⟨⟨by decide, by decide, fun node hnode => ?_, fun path => ?_, fun effect_id role => ?_, by decide, by decide,
    fun effect heffect path hsibling parent => ?_⟩, by decide⟩
  · simp only [nodes_of, below_work_root, List.flatMap_cons, List.flatMap_nil, List.append_nil, List.cons_append,
      List.nil_append, List.mem_cons, List.not_mem_nil, or_false] at hnode
    obtain rfl | rfl | rfl | rfl | rfl | rfl := hnode
    all_goals assumption
  · simp [nodes_of, below_work_root, removal, eq_comm]
  · simp [nodes_of, below_work_root, CompiledSpec.effects, removal, removal_spec, required_scratch_role, Effect.effect_id,
      eq_comm]
  · simp only [CompiledSpec.effects, removal, removal_spec, List.mem_singleton] at heffect
    subst heffect
    cases hsibling
    simp [scratch_node, required_scratch_role, Effect.effect_id, below_work_root]

end

end atoms.recovery.topology
